import Mathlib.Logic.Basic
import Mathlib.Data.List.Basic

/-!
# Programs that act through effects

A `Prog` is what a piece of imperative code does to the world, with the world
left out: it asks for one effect after another, and goes on with the answer it
is given. An answer is a value or an exception, so an effect that fails is one
more answer the program has to deal with. The language is first order and
total: what a program may do next is a match on its head, and an induction
over a program is an induction over everything it could ever do.

Two relations say what such a program means. `After p t q` reads the program
alone: answered as the trace `t` records, `p` has come as far as `q`. It knows
no world, so it speaks of every world at once, and its prefixes are the points
where the code can be stopped. `Steps S w t w'` reads the trace alone: under
the meaning `S` of the effects, the recorded answers take the world from `w`
to `w'`. A run is a pair of the two over the same trace.
-/

/-- A program over the effects `Op`, which answer in `Res`. -/
inductive Prog (Op : Type) (Res : Op → Type) (ε α : Type) where
  | done (r : Except ε α)
  | op (o : Op) (k : Except ε (Res o) → Prog Op Res ε α)

/-- One effect and the answer it got. -/
structure Event (Op : Type) (Res : Op → Type) (ε : Type) where
  op : Op
  res : Except ε (Res op)

namespace Prog

variable {Op : Type} {Res : Op → Type} {ε α β : Type}

/-- `q` after `p`; an exception in `p` is the end of both. -/
def bind : Prog Op Res ε α → (α → Prog Op Res ε β) → Prog Op Res ε β
  | .done (.ok a), f => f a
  | .done (.error e), _ => .done (.error e)
  | .op o k, f => .op o fun r => bind (k r) f

/-- `try: p except: h`. -/
def catchWith : Prog Op Res ε α → (ε → Prog Op Res ε α) → Prog Op Res ε α
  | .done (.ok a), _ => .done (.ok a)
  | .done (.error e), h => h e
  | .op o k, h => .op o fun r => catchWith (k r) h

/-- `try: p finally: q`; an exception in `q` replaces what `p` ended with. -/
def andFinally : Prog Op Res ε α → Prog Op Res ε Unit → Prog Op Res ε α
  | .done r, q => bind q fun _ => .done r
  | .op o k, q => .op o fun r => andFinally (k r) q

instance : Monad (Prog Op Res ε) where
  pure a := .done (.ok a)
  bind := bind

instance : MonadExceptOf ε (Prog Op Res ε) where
  throw e := .done (.error e)
  tryCatch := catchWith

/-- One effect; its exception is the program's. -/
def call (o : Op) : Prog Op Res ε (Res o) := .op o .done

/-- One effect, its exception handed over as a value. -/
def attempt (o : Op) : Prog Op Res ε (Except ε (Res o)) := .op o fun r => .done (.ok r)

@[simp] theorem pure_eq (a : α) : (pure a : Prog Op Res ε α) = .done (.ok a) := rfl

@[simp] theorem throw_eq (e : ε) : (throw e : Prog Op Res ε α) = .done (.error e) := rfl

@[simp] theorem bind_eq (p : Prog Op Res ε α) (f : α → Prog Op Res ε β) :
    p >>= f = bind p f := rfl

@[simp] theorem bind_ok (a : α) (f : α → Prog Op Res ε β) :
    bind (.done (.ok a)) f = f a := rfl

@[simp] theorem bind_error (e : ε) (f : α → Prog Op Res ε β) :
    bind (.done (.error e)) f = .done (.error e) := rfl

@[simp] theorem bind_op (o : Op) (k : Except ε (Res o) → Prog Op Res ε α)
    (f : α → Prog Op Res ε β) : bind (.op o k) f = .op o fun r => bind (k r) f := rfl

theorem bind_assoc {γ : Type} (p : Prog Op Res ε α) (f : α → Prog Op Res ε β)
    (g : β → Prog Op Res ε γ) : bind (bind p f) g = bind p fun a => bind (f a) g := by
  induction p with
  | done r => cases r <;> rfl
  | op o k ih => exact congrArg (Prog.op o) (funext ih)

/-! ## What a program does, answered as a trace records -/

/-- Answered by the trace, the program has come as far as the second one. -/
inductive After : Prog Op Res ε α → List (Event Op Res ε) → Prog Op Res ε α → Prop
  | nil (p : Prog Op Res ε α) : After p [] p
  | op {o : Op} {k : Except ε (Res o) → Prog Op Res ε α} {r : Except ε (Res o)}
      {t : List (Event Op Res ε)} {q : Prog Op Res ε α} (h : After (k r) t q) :
      After (.op o k) (⟨o, r⟩ :: t) q

/-- Answered by the trace, the program ends. -/
def Trace (p : Prog Op Res ε α) (t : List (Event Op Res ε)) (r : Except ε α) : Prop :=
  After p t (.done r)

theorem After.append {p q s : Prog Op Res ε α} {t u : List (Event Op Res ε)}
    (h : After p t q) (h' : After q u s) : After p (t ++ u) s := by
  induction h with
  | nil => exact h'
  | op _ ih => exact .op (ih h')

theorem after_op {o : Op} {k : Except ε (Res o) → Prog Op Res ε α}
    {t : List (Event Op Res ε)} {q : Prog Op Res ε α} :
    After (.op o k) t q ↔
      (t = [] ∧ q = .op o k) ∨ ∃ r t', t = ⟨o, r⟩ :: t' ∧ After (k r) t' q := by
  constructor
  · intro h
    cases h with
    | nil => exact Or.inl ⟨rfl, rfl⟩
    | op h => exact Or.inr ⟨_, _, rfl, h⟩
  · rintro (⟨rfl, rfl⟩ | ⟨r, t', rfl, h⟩)
    · exact .nil _
    · exact .op h

@[simp] theorem trace_done {r r' : Except ε α} {t : List (Event Op Res ε)} :
    Trace (.done r : Prog Op Res ε α) t r' ↔ t = [] ∧ r' = r := by
  constructor
  · intro h
    cases h with
    | nil => exact ⟨rfl, rfl⟩
  · rintro ⟨rfl, rfl⟩
    exact .nil _

@[simp] theorem trace_op {o : Op} {k : Except ε (Res o) → Prog Op Res ε α}
    {t : List (Event Op Res ε)} {r : Except ε α} :
    Trace (.op o k) t r ↔ ∃ a t', t = ⟨o, a⟩ :: t' ∧ Trace (k a) t' r := by
  rw [Trace, after_op]
  constructor
  · rintro (⟨-, h⟩ | h)
    · cases h
    · exact h
  · exact Or.inr

/-- A sequence ends with the exception of its first part, or with whatever its
second part makes of the first part's value. -/
theorem trace_bind {p : Prog Op Res ε α} {f : α → Prog Op Res ε β}
    {t : List (Event Op Res ε)} {r : Except ε β} :
    Trace (bind p f) t r ↔
      (∃ e, Trace p t (.error e) ∧ r = .error e) ∨
      ∃ a t₁ t₂, t = t₁ ++ t₂ ∧ Trace p t₁ (.ok a) ∧ Trace (f a) t₂ r := by
  induction p generalizing t with
  | done x =>
      cases x with
      | error e =>
          rw [bind_error, trace_done]
          constructor
          · rintro ⟨rfl, rfl⟩
            exact Or.inl ⟨e, trace_done.2 ⟨rfl, rfl⟩, rfl⟩
          · rintro (⟨e', h, rfl⟩ | ⟨a, t₁, t₂, -, h, -⟩)
            · obtain ⟨rfl, h⟩ := trace_done.1 h
              cases h
              exact ⟨rfl, rfl⟩
            · cases (trace_done.1 h).2
      | ok a =>
          rw [bind_ok]
          constructor
          · intro h
            exact Or.inr ⟨a, [], t, rfl, trace_done.2 ⟨rfl, rfl⟩, h⟩
          · rintro (⟨e', h, rfl⟩ | ⟨a', t₁, t₂, rfl, h, h'⟩)
            · cases (trace_done.1 h).2
            · obtain ⟨rfl, h⟩ := trace_done.1 h
              cases h
              exact h'
  | op o k ih =>
      rw [bind_op, trace_op]
      constructor
      · rintro ⟨a, t', rfl, h⟩
        rcases (ih a).1 h with ⟨e, he, rfl⟩ | ⟨b, t₁, t₂, rfl, h₁, h₂⟩
        · exact Or.inl ⟨e, trace_op.2 ⟨a, t', rfl, he⟩, rfl⟩
        · exact Or.inr ⟨b, ⟨o, a⟩ :: t₁, t₂, rfl, trace_op.2 ⟨a, t₁, rfl, h₁⟩, h₂⟩
      · rintro (⟨e, h, rfl⟩ | ⟨b, t₁, t₂, rfl, h, h₂⟩)
        · obtain ⟨a, t', rfl, h₁⟩ := trace_op.1 h
          exact ⟨a, t', rfl, (ih a).2 (Or.inl ⟨e, h₁, rfl⟩)⟩
        · obtain ⟨a, t', rfl, h₁⟩ := trace_op.1 h
          exact ⟨a, t' ++ t₂, rfl, (ih a).2 (Or.inr ⟨b, t', t₂, rfl, h₁, h₂⟩)⟩

/-- The same on the way to a value, where the first part cannot have thrown. -/
theorem trace_bind_ok {p : Prog Op Res ε α} {f : α → Prog Op Res ε β}
    {t : List (Event Op Res ε)} {b : β} :
    Trace (bind p f) t (.ok b) ↔
      ∃ a t₁ t₂, t = t₁ ++ t₂ ∧ Trace p t₁ (.ok a) ∧ Trace (f a) t₂ (.ok b) := by
  rw [trace_bind]
  constructor
  · rintro (⟨e, -, h⟩ | h)
    · cases h
    · exact h
  · exact Or.inr

@[simp] theorem trace_call {o : Op} {t : List (Event Op Res ε)} {r : Except ε (Res o)} :
    Trace (call o) t r ↔ t = [⟨o, r⟩] := by
  unfold call
  rw [trace_op]
  constructor
  · rintro ⟨a, t', rfl, h⟩
    obtain ⟨rfl, rfl⟩ := trace_done.1 h
    rfl
  · rintro rfl
    exact ⟨r, [], rfl, trace_done.2 ⟨rfl, rfl⟩⟩

@[simp] theorem trace_attempt {o : Op} {t : List (Event Op Res ε)}
    {r : Except ε (Except ε (Res o))} :
    Trace (attempt o) t r ↔ ∃ a, t = [⟨o, a⟩] ∧ r = .ok a := by
  unfold attempt
  rw [trace_op]
  constructor
  · rintro ⟨a, t', rfl, h⟩
    obtain ⟨rfl, rfl⟩ := trace_done.1 h
    exact ⟨a, rfl, rfl⟩
  · rintro ⟨a, rfl, rfl⟩
    exact ⟨a, [], rfl, trace_done.2 ⟨rfl, rfl⟩⟩

end Prog
