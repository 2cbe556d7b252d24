import Mathlib.Logic.Basic
import Mathlib.Data.List.Basic

/-!
# Code that reads and writes a state and may raise

A `Txn` is a function of the state it starts in. An exception ends it and keeps
what the state has become, as running code does; `atomically` is the wrapper
that rolls the state back instead. On the way to a value a sequence is taken
apart by `bind_ok`, and a loop by `forM_ok`; `Keeps` is what holds between the
first state and the last whether or not the code raised.
-/

/-- Code over the state `σ`. -/
def Txn (σ ε α : Type) := σ → Except ε α × σ

namespace Txn

variable {σ ε α β : Type}

instance : Monad (Txn σ ε) where
  pure a := fun s => (.ok a, s)
  bind x f := fun s =>
    match x s with
    | (.ok a, s') => f a s'
    | (.error e, s') => (.error e, s')

/-- A value or an exception that the state has no part in. -/
def lift (x : Except ε α) : Txn σ ε α := fun s => (x, s)

/-- What the state holds. -/
def query (f : σ → α) : Txn σ ε α := fun s => (.ok (f s), s)

/-- A value or an exception read off the state. -/
def reads (f : σ → Except ε α) : Txn σ ε α := fun s => (f s, s)

def modify (f : σ → σ) : Txn σ ε Unit := fun s => (.ok (), f s)

/-- Run the code; if it raises, `rollback` makes the state out of the one
before and the one the code left. -/
def atomically (rollback : σ → σ → σ) (x : Txn σ ε α) : Txn σ ε α := fun s =>
  match x s with
  | (.ok a, s') => (.ok a, s')
  | (.error e, s') => (.error e, rollback s s')

/-! ## On the way to a value -/

theorem bind_ok {x : Txn σ ε α} {f : α → Txn σ ε β} {s s' : σ} {b : β} :
    (x >>= f) s = (.ok b, s') ↔ ∃ a s₁, x s = (.ok a, s₁) ∧ f a s₁ = (.ok b, s') := by
  have hbind : (x >>= f) s = match x s with
    | (.ok a, s') => f a s'
    | (.error e, s') => (.error e, s') := rfl
  rw [hbind]
  cases hx : x s with
  | mk r s₁ =>
      cases r with
      | ok a =>
          constructor
          · exact fun h => ⟨a, s₁, rfl, h⟩
          · rintro ⟨a', s₁', ⟨⟩, h⟩
            exact h
      | error e =>
          constructor
          · rintro ⟨⟩
          · rintro ⟨a', s₁', ⟨⟩, h⟩

/-- A sequence that raised did so in its first part or in its second. -/
theorem bind_error {x : Txn σ ε α} {f : α → Txn σ ε β} {s s' : σ} {e : ε} :
    (x >>= f) s = (.error e, s') ↔
      x s = (.error e, s') ∨ ∃ a s₁, x s = (.ok a, s₁) ∧ f a s₁ = (.error e, s') := by
  have hbind : (x >>= f) s = match x s with
    | (.ok a, s') => f a s'
    | (.error e, s') => (.error e, s') := rfl
  rw [hbind]
  cases hx : x s with
  | mk r s₁ =>
      cases r with
      | ok a =>
          constructor
          · exact fun h => Or.inr ⟨a, s₁, rfl, h⟩
          · rintro (h | ⟨a', s₁', h, h'⟩)
            · cases h
            · cases h
              exact h'
      | error e' =>
          constructor
          · intro h
            cases h
            exact Or.inl rfl
          · rintro (h | ⟨a', s₁', h, -⟩)
            · cases h
              rfl
            · cases h

theorem pure_ok {a b : α} {s s' : σ} :
    (pure a : Txn σ ε α) s = (.ok b, s') ↔ b = a ∧ s' = s := by
  constructor
  · rintro ⟨⟩
    exact ⟨rfl, rfl⟩
  · rintro ⟨rfl, rfl⟩
    rfl

theorem lift_ok {x : Except ε α} {b : α} {s s' : σ} :
    lift x s = (.ok b, s') ↔ x = .ok b ∧ s' = s := by
  constructor
  · intro h
    exact ⟨congrArg Prod.fst h, (congrArg Prod.snd h).symm⟩
  · rintro ⟨rfl, rfl⟩
    rfl

theorem query_ok {f : σ → α} {b : α} {s s' : σ} :
    (query f : Txn σ ε α) s = (.ok b, s') ↔ b = f s ∧ s' = s := by
  constructor
  · rintro ⟨⟩
    exact ⟨rfl, rfl⟩
  · rintro ⟨rfl, rfl⟩
    rfl

theorem reads_ok {f : σ → Except ε α} {b : α} {s s' : σ} :
    reads f s = (.ok b, s') ↔ f s = .ok b ∧ s' = s := by
  constructor
  · intro h
    exact ⟨congrArg Prod.fst h, (congrArg Prod.snd h).symm⟩
  · rintro ⟨h, rfl⟩
    rw [reads, h]

theorem modify_ok {f : σ → σ} {u : Unit} {s s' : σ} :
    (modify f : Txn σ ε Unit) s = (.ok u, s') ↔ s' = f s := by
  constructor
  · rintro ⟨⟩
    rfl
  · rintro rfl
    rfl

theorem atomically_ok {rollback : σ → σ → σ} {x : Txn σ ε α} {a : α} {s s' : σ} :
    atomically rollback x s = (.ok a, s') ↔ x s = (.ok a, s') := by
  unfold atomically
  split
  · next heq => rw [heq]
  · next heq =>
      rw [heq]
      constructor
      · rintro ⟨⟩
      · rintro ⟨⟩

/-- Raised or not, a transaction leaves what its code left or what the rollback
made of it. -/
theorem atomically_error {rollback : σ → σ → σ} {x : Txn σ ε α} {e : ε} {s s' : σ} :
    atomically rollback x s = (.error e, s') ↔
      ∃ s₁, x s = (.error e, s₁) ∧ s' = rollback s s₁ := by
  unfold atomically
  split
  · next heq =>
      rw [heq]
      constructor
      · rintro ⟨⟩
      · rintro ⟨s₁, ⟨⟩, -⟩
  · next heq =>
      rw [heq]
      constructor
      · rintro ⟨⟩
        exact ⟨_, rfl, rfl⟩
      · rintro ⟨s₁, ⟨⟩, rfl⟩
        rfl

/-- A loop that returned went through every element in turn. What is said of
the elements done so far and the state after them carries it. -/
theorem forM_ok {f : α → Txn σ ε PUnit} {P : List α → σ → Prop} {xs : List α} {s s' : σ}
    {u : PUnit} (h : xs.forM f s = (.ok u, s')) (hs : P [] s)
    (hstep : ∀ {before : List α} {x : α} {after : List α} {s₁ s₂ : σ} {v : PUnit},
      xs = before ++ x :: after → P before s₁ → f x s₁ = (.ok v, s₂) → P (before ++ [x]) s₂) :
    P xs s' := by
  have go : ∀ (after before : List α) (s₁ : σ), xs = before ++ after → P before s₁ →
      after.forM f s₁ = (.ok u, s') → P xs s' := by
    intro after
    induction after with
    | nil =>
        intro before s₁ hxs hP hrun
        obtain ⟨-, rfl⟩ := pure_ok.1 hrun
        rw [hxs, List.append_nil]
        exact hP
    | cons x after ih =>
        intro before s₁ hxs hP hrun
        obtain ⟨v, s₂, hx, hrest⟩ := bind_ok.1 hrun
        exact ih (before ++ [x]) s₂ (by rw [hxs, List.append_assoc]; rfl) (hstep hxs hP hx) hrest
  exact go xs [] s rfl hs h

/-! ## Raised or not -/

/-- The relation holds between the first state and the last, however the code
ends. -/
def Keeps (R : σ → σ → Prop) (x : Txn σ ε α) : Prop := ∀ s, R s (x s).2

section Keeps

variable {R : σ → σ → Prop}

theorem Keeps.bind (htrans : ∀ a b c, R a b → R b c → R a c) {x : Txn σ ε α}
    {f : α → Txn σ ε β} (hx : Keeps R x) (hf : ∀ a, Keeps R (f a)) : Keeps R (x >>= f) := by
  intro s
  have h := hx s
  show R s (match x s with
    | (.ok a, s') => f a s'
    | (.error e, s') => (.error e, s')).2
  cases hxs : x s with
  | mk r s₁ =>
      rw [hxs] at h
      cases r with
      | ok a => exact htrans _ _ _ h (hf a s₁)
      | error e => exact h

/-- Where the first part raised it is all there was, and where it returned the second has gone
on from there. -/
theorem keeps_bind {x : Txn σ ε α} {f : α → Txn σ ε β}
    (hok : ∀ a s s', x s = (.ok a, s') → R s (f a s').2)
    (herror : ∀ e s s', x s = (.error e, s') → R s s') : Keeps R (x >>= f) := by
  intro s
  show R s (match x s with
    | (.ok a, s') => f a s'
    | (.error e, s') => (.error e, s')).2
  cases hx : x s with
  | mk r s' =>
      cases r with
      | ok a => exact hok a s s' hx
      | error e => exact herror e s s' hx

theorem keeps_same (hrefl : ∀ s, R s s) {x : Txn σ ε α} (hx : ∀ s, (x s).2 = s) : Keeps R x := by
  intro s
  rw [hx s]
  exact hrefl s

theorem Keeps.forM (hrefl : ∀ s, R s s) (htrans : ∀ a b c, R a b → R b c → R a c)
    {f : α → Txn σ ε PUnit} (hf : ∀ x, Keeps R (f x)) (xs : List α) : Keeps R (xs.forM f) := by
  induction xs with
  | nil => exact keeps_same hrefl fun _ => rfl
  | cons x xs ih => exact Keeps.bind htrans (hf x) fun _ => ih

theorem Keeps.atomically {rollback : σ → σ → σ}
    (hback : ∀ s s', R s s' → R s (rollback s s')) {x : Txn σ ε α} (hx : Keeps R x) :
    Keeps R (atomically rollback x) := by
  intro s
  have h := hx s
  unfold Txn.atomically
  split
  · next heq =>
      rw [heq] at h
      exact h
  · next heq =>
      rw [heq] at h
      exact hback _ _ h

end Keeps

/-! ## Code that returns -/

/-- The code does not raise in this state. -/
def Returns (x : Txn σ ε α) (s : σ) : Prop := ∃ a s', x s = (.ok a, s')

theorem Returns.bind {x : Txn σ ε α} {f : α → Txn σ ε β} {s : σ} (hx : Returns x s)
    (hf : ∀ a s', x s = (.ok a, s') → Returns (f a) s') : Returns (x >>= f) s := by
  obtain ⟨a, s₁, hx⟩ := hx
  obtain ⟨b, s₂, hf⟩ := hf a s₁ hx
  exact ⟨b, s₂, bind_ok.2 ⟨a, s₁, hx, hf⟩⟩

theorem returns_pure (a : α) (s : σ) : Returns (pure a : Txn σ ε α) s := ⟨a, s, rfl⟩

theorem returns_lift {x : Except ε α} {a : α} (h : x = .ok a) (s : σ) : Returns (lift x) s :=
  ⟨a, s, lift_ok.2 ⟨h, rfl⟩⟩

theorem returns_reads {f : σ → Except ε α} {a : α} {s : σ} (h : f s = .ok a) :
    Returns (reads f) s := ⟨a, s, reads_ok.2 ⟨h, rfl⟩⟩

theorem Returns.atomically {rollback : σ → σ → σ} {x : Txn σ ε α} {s : σ} (h : Returns x s) :
    Returns (atomically rollback x) s := by
  obtain ⟨a, s', h⟩ := h
  exact ⟨a, s', atomically_ok.2 h⟩

/-- A loop returns if its body does wherever the invariant holds, and keeps it. -/
theorem Returns.forM {f : α → Txn σ ε PUnit} {P : σ → Prop} {xs : List α} {s : σ} (hs : P s)
    (hf : ∀ x ∈ xs, ∀ s, P s → Returns (f x) s)
    (hP : ∀ x ∈ xs, ∀ s s' v, P s → f x s = (.ok v, s') → P s') : Returns (xs.forM f) s := by
  induction xs generalizing s with
  | nil => exact returns_pure _ s
  | cons x xs ih =>
      refine (hf x List.mem_cons_self s hs).bind fun v s' hx => ?_
      exact ih (hP x List.mem_cons_self s s' v hs hx)
        (fun y hy => hf y (List.mem_cons_of_mem _ hy)) fun y hy => hP y (List.mem_cons_of_mem _ hy)

end Txn
