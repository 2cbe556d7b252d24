import MiniCodeAgent.Prog.Lock

/-!
# What lasts when the lock is let go

Who holds the lock may count on all it has seen. Who has let it go may still count on
what no move undoes: what it has once seen to be so is so from then on, whatever the
others do (`Knowing`). A party may so put together what it has read under the lock at
different times, and is told no more than was there at once.
-/

namespace Prog

variable {ι W D Op : Type} {Res : Op → Type} {ε α β : Type}

/-- Who counts on less is secure with more. -/
theorem Secure.rely {S : W → Event Op Res ε → W → Prop} {R R' G : W → W → Prop}
    {P : W → Prop} {Q : Except ε α → W → Prop} {p : Prog Op Res ε α} (h : Secure S R G Q p P)
    (hR : ∀ w w', R' w w' → R w w') : Secure S R' G Q p P := by
  induction p generalizing P with
  | done r => exact h
  | op o k ih =>
      intro r
      obtain ⟨P₁, hstable, hstep, hrest⟩ := h r
      exact ⟨P₁, fun w w' hw => hstable w w' (hR w w' hw), hstep, ih r hrest⟩

namespace Lock

variable (L : Lock ι W D) (Move : D → D → Prop) (i : ι)

/-- What anybody may count on. -/
def Watch (w w' : W) : Prop :=
  L.Rely i w w' ∧ (L.guarded w' = L.guarded w ∨ Move (L.guarded w) (L.guarded w'))

variable {L Move i} {φ φ' : D → Prop}

theorem Guarantee.watch {j : ι} {w w' : W} (h : L.Guarantee Move i w w') (hij : i ≠ j) :
    L.Watch Move j w w' :=
  ⟨h.rely hij, h.guarded.imp_right And.right⟩

/-- What may be counted on under the discipline alone may be counted on here. -/
theorem stable_watch {T : W → Prop} (h : Stable (L.Rely i) T) : Stable (L.Watch Move i) T :=
  fun w w' hwatch hw => h w w' hwatch.1 hw

theorem stable_known (h : Stable Move φ) : Stable (L.Watch Move i) fun w => φ (L.guarded w) := by
  intro w w' hwatch hw
  rcases hwatch.2 with hsame | hmove
  · rw [hsame]
    exact hw
  · exact h _ _ hmove hw

variable (L Move i) (S : W → Event Op Res ε → W → Prop)

/-- The program goes from what is known before to what is known after, and keeps the
discipline. -/
abbrev Knowing (φ : D → Prop) (p : Prog Op Res ε α) (ψ : α → D → Prop) : Prop :=
  Secure S (L.Watch Move i) (L.Guarantee Move i)
    (Ends (fun a w => ψ a (L.guarded w)) fun _ _ => True) p fun w => φ (L.guarded w)

variable {L Move i S} {ψ : α → D → Prop}

theorem Knowing.weaken {p : Prog Op Res ε α} (h : L.Knowing Move i S φ p ψ)
    (hφ : ∀ d, φ' d → φ d) : L.Knowing Move i S φ' p ψ :=
  Secure.weaken h fun _ hw => hφ _ hw

theorem Knowing.bind {p : Prog Op Res ε α} {f : α → Prog Op Res ε β} {χ : β → D → Prop}
    (hp : L.Knowing Move i S φ p ψ) (hf : ∀ a, L.Knowing Move i S (ψ a) (f a) χ) :
    L.Knowing Move i S φ (Prog.bind p f) χ :=
  Secure.bind hp hf

theorem knowing_done {r : Except ε α} (h : ∀ a, r = .ok a → ∀ d, φ d → ψ a d) :
    L.Knowing Move i S φ (.done r) ψ := by
  cases r with
  | ok a => exact secure_pure fun w hw => h a rfl _ hw
  | error e => exact secure_throw fun w hw => trivial

/-- A program between taking the lock and letting it go. -/
theorem knowing_locked {acquire release : Prog Op Res ε Unit} {body : Prog Op Res ε α}
    (hψ : ∀ a, Stable Move (ψ a))
    (hacquire : Secure S (L.Watch Move i) (L.Guarantee Move i)
      (Ends (fun _ => L.Held i φ) fun _ _ => True) acquire fun w => φ (L.guarded w))
    (hbody : L.Inside Move i S φ body ψ)
    (hrelease : ∀ χ : D → Prop, Stable Move χ → Secure S (L.Watch Move i) (L.Guarantee Move i)
      (Ends (fun _ w => χ (L.guarded w)) fun _ _ => True) release (L.Held i χ)) :
    L.Knowing Move i S φ (Prog.bind acquire fun _ => Prog.andFinally body release) ψ := by
  have hheld : Secure S (L.Watch Move i) (L.Guarantee Move i)
      (Ends (fun a => L.Held i (ψ a)) fun _ => L.Held i fun _ => True) body (L.Held i φ) :=
    Secure.rely hbody fun _ _ h => h.1
  refine Secure.bind hacquire fun _ => Secure.andFinally_to hheld fun r => ?_
  cases r with
  | ok a =>
      refine Secure.mono (hrelease (ψ a) (hψ a)) fun u w hw => ?_
      cases u <;> exact hw
  | error e =>
      refine Secure.mono (hrelease (fun _ => True) fun _ _ _ _ => trivial) fun u w _ => ?_
      cases u <;> exact trivial

section Parallel

variable [DecidableEq ι] {S : ι → W → Event Op Res ε → W → Prop}
  {allowed : Pool ι W Op Res ε α → ι → Op → Prop} {Q : ι → Except ε α → W → Prop}

/-- If all parties keep the discipline, what each of them ends with is as it was found
to be, and what the lock protects has come along by moves. -/
theorem turns_known {pool pool' : Pool ι W Op Res ε α} (h : Turns S allowed pool pool')
    (hstart : ∀ i, OnTrack (S i) (L.Watch Move i) (L.Guarantee Move i) (Q i) (pool.rest i)
      pool.world) {i : ι} {r : Except ε α} (hend : pool'.rest i = .done r) : Q i r pool'.world :=
  (secure_turns (fun _ _ hij _ _ hG => hG.watch hij) (fun _ _ _ _ _ _ hS => hS) h hstart i).ended
    hend

end Parallel

end Lock

end Prog
