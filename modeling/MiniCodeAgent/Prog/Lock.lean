import MiniCodeAgent.Prog.Concurrent

/-!
# What a lock protects

Several parties share a world, and a lock protects a part of it. A party keeps
the discipline if it takes the lock only when it is free, lets it go only when it
holds it, and changes what the lock protects only while it holds it, and then by
moves of a protocol. While a party holds the lock it may count on what it has
seen: `Held` conditions are stable. If every party keeps the discipline, then in
every interleaving what the lock protects has come along by moves alone
(`Lock.turns_moves`).
-/

namespace Prog

variable {ι W D Op : Type} {Res : Op → Type} {ε α β : Type}

/-- What is done in any case takes both ends to where they are to be. -/
theorem Secure.andFinally_to {S : W → Event Op Res ε → W → Prop} {R G : W → W → Prop}
    {P : W → Prop} {p : Prog Op Res ε α} {q : Prog Op Res ε Unit} {Q Q' : α → W → Prop}
    {E E' : ε → W → Prop} (hp : Secure S R G (Ends Q E) p P)
    (hq : ∀ r, Secure S R G (Ends (fun _ => Ends Q' E' r) E') q (Ends Q E r)) :
    Secure S R G (Ends Q' E') (Prog.andFinally p q) P := by
  induction p generalizing P with
  | done r =>
      rw [Prog.andFinally]
      refine ((hq r).weaken hp).bind fun _ => ?_
      cases r with
      | ok a => exact secure_pure fun w hw => hw
      | error e => exact secure_throw fun w hw => hw
  | op o k ih =>
      intro r
      obtain ⟨P₁, hstable, hstep, hrest⟩ := hp r
      exact ⟨P₁, hstable, hstep, ih r hrest⟩

/-- Where a world says who holds its lock, and what the lock protects. -/
structure Lock (ι W D : Type) where
  holder : W → Option ι
  guarded : W → D

namespace Lock

variable (L : Lock ι W D) (Move : D → D → Prop) (i : ι)

/-- What the holder of the lock may count on. -/
def Rely (w w' : W) : Prop :=
  L.holder w = some i → L.holder w' = some i ∧ L.guarded w' = L.guarded w

/-- What a party keeps to. -/
structure Guarantee (w w' : W) : Prop where
  guarded : L.guarded w' = L.guarded w ∨
    L.holder w = some i ∧ Move (L.guarded w) (L.guarded w')
  holder : L.holder w' = L.holder w ∨ (L.holder w = none ∧ L.holder w' = some i) ∨
    (L.holder w = some i ∧ L.holder w' = none)

/-- The party holds the lock, and this is true of what it protects. -/
def Held (φ : D → Prop) (w : W) : Prop := L.holder w = some i ∧ φ (L.guarded w)

variable {L Move i} {φ φ' : D → Prop}

theorem stable_held : Stable (L.Rely i) (L.Held i φ) := by
  intro w w' h hw
  obtain ⟨hholder, hguarded⟩ := h hw.1
  refine ⟨hholder, ?_⟩
  rw [hguarded]
  exact hw.2

theorem stable_true : Stable (L.Rely i) fun _ => True := fun _ _ _ _ => trivial

/-- Nobody else touches what the holder of the lock holds. -/
theorem Guarantee.rely {j : ι} {w w' : W} (h : L.Guarantee Move i w w') (hij : i ≠ j) :
    L.Rely j w w' := by
  intro hj
  have hother : L.holder w ≠ some i := by
    rw [hj]
    intro heq
    exact hij (Option.some.inj heq).symm
  refine ⟨?_, h.guarded.resolve_right fun hmove => hother hmove.1⟩
  rcases h.holder with hsame | ⟨hfree, -⟩ | ⟨hown, -⟩
  · rw [hsame, hj]
  · rw [hj] at hfree
    cases hfree
  · exact absurd hown hother

/-! ## Inside and outside of the lock -/

variable (L Move i) (S : W → Event Op Res ε → W → Prop)

/-- Run with the lock held, the program holds it to its end. -/
abbrev Inside (φ : D → Prop) (p : Prog Op Res ε α) (ψ : α → D → Prop) : Prop :=
  Secure S (L.Rely i) (L.Guarantee Move i)
    (Ends (fun a => L.Held i (ψ a)) fun _ => L.Held i fun _ => True) p (L.Held i φ)

/-- Run without it, the program knows nothing and keeps the discipline. -/
abbrev Outside (p : Prog Op Res ε α) : Prop :=
  Secure S (L.Rely i) (L.Guarantee Move i) (Ends (fun _ _ => True) fun _ _ => True) p fun _ => True

variable {L Move i S} {ψ : α → D → Prop}

theorem Inside.weaken {p : Prog Op Res ε α} (h : L.Inside Move i S φ p ψ)
    (hφ : ∀ d, φ' d → φ d) : L.Inside Move i S φ' p ψ :=
  Secure.weaken h fun _ hw => ⟨hw.1, hφ _ hw.2⟩

theorem Inside.mono {p : Prog Op Res ε α} {ψ' : α → D → Prop} (h : L.Inside Move i S φ p ψ)
    (hψ : ∀ a d, ψ a d → ψ' a d) : L.Inside Move i S φ p ψ' := by
  refine Secure.mono h fun r w hw => ?_
  cases r with
  | ok a => exact ⟨hw.1, hψ a _ hw.2⟩
  | error e => exact hw

/-- What is known of the state and is no part of it may be used. -/
theorem inside_imp {p : Prog Op Res ε α} {c : Prop} (h : c → L.Inside Move i S φ p ψ) :
    L.Inside Move i S (fun d => c ∧ φ d) p ψ := by
  by_cases hc : c
  · exact (h hc).weaken fun d hd => hd.2
  · exact secure_false.weaken fun w hw => hc hw.2.1

theorem inside_done {r : Except ε α} (h : ∀ a, r = .ok a → ∀ d, φ d → ψ a d) :
    L.Inside Move i S φ (.done r) ψ := by
  cases r with
  | ok a => exact secure_pure fun w hw => ⟨hw.1, h a rfl _ hw.2⟩
  | error e => exact secure_throw fun w hw => ⟨hw.1, trivial⟩

theorem Inside.bind {p : Prog Op Res ε α} {f : α → Prog Op Res ε β} {χ : β → D → Prop}
    (hp : L.Inside Move i S φ p ψ) (hf : ∀ a, L.Inside Move i S (ψ a) (f a) χ) :
    L.Inside Move i S φ (Prog.bind p f) χ :=
  Secure.bind hp hf

/-- An effect that leaves the state alone or makes one move. -/
theorem inside_call {o : Op} {ψ : Res o → D → Prop}
    (h : ∀ w r w', L.holder w = some i → φ (L.guarded w) → S w ⟨o, r⟩ w' →
      L.holder w' = L.holder w ∧
      (L.guarded w' = L.guarded w ∨ Move (L.guarded w) (L.guarded w')) ∧
      ∀ a, r = .ok a → ψ a (L.guarded w')) :
    L.Inside Move i S φ (call o) ψ := by
  refine secure_call (fun _ => stable_held) (fun _ => stable_held) fun r w w' hw hS => ?_
  obtain ⟨hholder, hguarded, hvalue⟩ := h w r w' hw.1 hw.2 hS
  refine ⟨⟨hguarded.imp_right fun hmove => ⟨hw.1, hmove⟩, Or.inl hholder⟩, ?_⟩
  cases r with
  | ok a => exact ⟨hholder.trans hw.1, hvalue a rfl⟩
  | error e => exact ⟨hholder.trans hw.1, trivial⟩

theorem Outside.bind {p : Prog Op Res ε α} {f : α → Prog Op Res ε β}
    (hp : L.Outside Move i S p) (hf : ∀ a, L.Outside Move i S (f a)) :
    L.Outside Move i S (Prog.bind p f) :=
  Secure.bind hp hf

theorem outside_done {r : Except ε α} :
    L.Outside Move i S (.done r) := by
  cases r with
  | ok a => exact secure_pure fun w hw => hw
  | error e => exact secure_throw fun w hw => hw

/-- An effect that has nothing to do with the lock. -/
theorem outside_call {o : Op}
    (h : ∀ w r w', S w ⟨o, r⟩ w' → L.holder w' = L.holder w ∧ L.guarded w' = L.guarded w) :
    L.Outside Move i S (call o) := by
  refine secure_call (fun _ => stable_true) (fun _ => stable_true) fun r w w' _ hS => ?_
  obtain ⟨hholder, hguarded⟩ := h w r w' hS
  refine ⟨⟨Or.inl hguarded, Or.inl hholder⟩, ?_⟩
  cases r <;> exact trivial

/-- A program whose exceptions are let go. -/
theorem Outside.attempt {catches : ε → Prop} [DecidablePred catches] {p : Prog Op Res ε α}
    (h : L.Outside Move i S p) : L.Outside Move i S (rescue catches p) := by
  refine Secure.rescue (Secure.mono h fun r w _ => ?_)
  cases r with
  | ok a => exact trivial
  | error e =>
      show if catches e then True else True
      rw [ite_self]
      exact trivial

/-- A program between taking the lock and letting it go. -/
theorem outside_locked {acquire release : Prog Op Res ε Unit} {body : Prog Op Res ε α}
    (hacquire : Secure S (L.Rely i) (L.Guarantee Move i)
      (Ends (fun _ => L.Held i fun _ => True) fun _ _ => True) acquire fun _ => True)
    (hbody : L.Inside Move i S (fun _ => True) body fun _ _ => True)
    (hrelease : Secure S (L.Rely i) (L.Guarantee Move i)
      (Ends (fun _ _ => True) fun _ _ => True) release (L.Held i fun _ => True)) :
    L.Outside Move i S (Prog.bind acquire fun _ => Prog.andFinally body release) := by
  refine Secure.bind hacquire fun _ => Secure.andFinally_to hbody fun r => ?_
  have hend : Secure S (L.Rely i) (L.Guarantee Move i)
      (Ends (fun _ => Ends (fun _ _ => True) (fun _ _ => True) r) fun _ _ => True) release
      (L.Held i fun _ => True) := by
    refine Secure.mono hrelease fun u w _ => ?_
    cases u <;> cases r <;> exact trivial
  refine hend.weaken fun w hw => ?_
  cases r <;> exact hw

/-! ## All of them together -/

section Parallel

variable [DecidableEq ι] {S : ι → W → Event Op Res ε → W → Prop}
  {allowed : Pool ι W Op Res ε α → ι → Op → Prop}

/-- The party keeps the discipline from where it is. -/
abbrev Disciplined (L : Lock ι W D) (Move : D → D → Prop) (S : ι → W → Event Op Res ε → W → Prop)
    (pool : Pool ι W Op Res ε α) (i : ι) : Prop :=
  OnTrack (S i) (L.Rely i) (L.Guarantee Move i) (Ends (fun _ _ => True) fun _ _ => True)
    (pool.rest i) pool.world

omit [DecidableEq ι] in
theorem Outside.disciplined {pool : Pool ι W Op Res ε α} {i : ι}
    (h : L.Outside Move i (S i) (pool.rest i)) : Disciplined L Move S pool i :=
  ⟨fun _ => True, stable_true, trivial, h⟩

/-- Parties that keep the discipline go on keeping it. -/
theorem turns_disciplined {pool pool' : Pool ι W Op Res ε α} (h : Turns S allowed pool pool')
    (hstart : ∀ i, Disciplined L Move S pool i) : ∀ i, Disciplined L Move S pool' i :=
  secure_turns (fun _ _ hij _ _ hG => hG.rely hij) (fun _ _ _ _ _ _ hS => hS) h hstart

/-- If all parties keep the discipline, what the lock protects comes along by moves. -/
theorem turns_moves {pool pool' : Pool ι W Op Res ε α} (h : Turns S allowed pool pool')
    (hstart : ∀ i, Disciplined L Move S pool i) :
    Relation.ReflTransGen Move (L.guarded pool.world) (L.guarded pool'.world) := by
  induction h with
  | refl => exact .refl
  | @tail mid last hmid hturn ih =>
      cases hturn with
      | @mk i o k r w' hi hallowed hstep =>
          obtain ⟨P, -, hP, hsecure⟩ := turns_disciplined hmid hstart i
          rw [hi] at hsecure
          obtain ⟨P', -, hnext, -⟩ := hsecure r
          rcases (hnext _ _ hP hstep).1.guarded with hsame | ⟨-, hmove⟩
          · show Relation.ReflTransGen Move _ (L.guarded w')
            rw [hsame]
            exact ih
          · exact ih.tail hmove

end Parallel

end Lock

end Prog
