import MiniCodeAgent.Prog.Semantics

/-!
# Conditions before and after

`Triple S P p Q E` speaks of every run of a program under a meaning of its
effects: started in a world of which `P` holds, it ends only in worlds of which
`Q` holds with its value, or `E` with its exception. An exception leaves the
world as far changed as it got, so the two conditions stand side by side and a
handler starts from the second. There is one rule for each way to build a
program; what an effect does is read off the meaning.
-/

namespace Prog

variable {Op : Type} {Res : Op → Type} {ε α β W : Type}

/-- One condition for a value and one for an exception. -/
def Ends (Q : α → W → Prop) (E : ε → W → Prop) : Except ε α → W → Prop
  | .ok a => Q a
  | .error e => E e

def Triple (S : W → Event Op Res ε → W → Prop) (P : W → Prop) (p : Prog Op Res ε α)
    (Q : α → W → Prop) (E : ε → W → Prop) : Prop :=
  ∀ w r w', P w → Run S p w r w' → Ends Q E r w'

/-- `try: p except e` for the exceptions it names; the others go on up. -/
def rescue (catches : ε → Prop) [DecidablePred catches] (p : Prog Op Res ε α) :
    Prog Op Res ε (Except ε α) :=
  catchWith (bind p fun a => .done (.ok (.ok a))) fun e =>
    if catches e then .done (.ok (.error e)) else .done (.error e)

section Rules

variable {S : W → Event Op Res ε → W → Prop} {P P' : W → Prop} {E E' : ε → W → Prop}

theorem Triple.ok {p : Prog Op Res ε α} {Q : α → W → Prop} (h : Triple S P p Q E) {w w' : W}
    {a : α} (hw : P w) (hrun : Run S p w (.ok a) w') : Q a w' := h w _ w' hw hrun

theorem Triple.weaken {p : Prog Op Res ε α} {Q Q' : α → W → Prop} (h : Triple S P p Q E)
    (hP : ∀ w, P' w → P w) (hQ : ∀ a w, Q a w → Q' a w) (hE : ∀ e w, E e w → E' e w) :
    Triple S P' p Q' E' := by
  intro w r w' hw hrun
  have hend := h w r w' (hP w hw) hrun
  cases r with
  | ok a => exact hQ a w' hend
  | error e => exact hE e w' hend

/-- What the condition before knows of may be fixed. -/
theorem triple_exists {ι : Type} {p : Prog Op Res ε α} {Q : α → W → Prop} {P : ι → W → Prop}
    (h : ∀ i, Triple S (P i) p Q E) : Triple S (fun w => ∃ i, P i w) p Q E := by
  intro w r w' ⟨i, hw⟩ hrun
  exact h i w r w' hw hrun

theorem triple_imp {p : Prog Op Res ε α} {Q : α → W → Prop} {c : Prop}
    (h : c → Triple S P p Q E) : Triple S (fun w => c ∧ P w) p Q E := by
  intro w r w' ⟨hc, hw⟩ hrun
  exact h hc w r w' hw hrun

theorem triple_or {p : Prog Op Res ε α} {Q : α → W → Prop} (h : Triple S P p Q E)
    (h' : Triple S P' p Q E) : Triple S (fun w => P w ∨ P' w) p Q E := by
  intro w r w' hw hrun
  rcases hw with hw | hw
  · exact h w r w' hw hrun
  · exact h' w r w' hw hrun

theorem triple_pure {a : α} {Q : α → W → Prop} (h : ∀ w, P w → Q a w) :
    Triple S P (.done (.ok a)) Q E := by
  intro w r w' hw hrun
  obtain ⟨rfl, rfl⟩ := run_done.1 hrun
  exact h w' hw

theorem triple_throw {e : ε} {Q : α → W → Prop} (h : ∀ w, P w → E e w) :
    Triple S P (.done (.error e)) Q E := by
  intro w r w' hw hrun
  obtain ⟨rfl, rfl⟩ := run_done.1 hrun
  exact h w' hw

theorem Triple.bind {p : Prog Op Res ε α} {f : α → Prog Op Res ε β} {R : α → W → Prop}
    {Q : β → W → Prop} (hp : Triple S P p R E) (hf : ∀ a, Triple S (R a) (f a) Q E) :
    Triple S P (Prog.bind p f) Q E := by
  intro w r w' hw hrun
  rcases run_bind.1 hrun with ⟨e, he, rfl⟩ | ⟨a, w₁, ha, hrest⟩
  · exact hp w _ w' hw he
  · exact hf a w₁ r w' (hp w _ w₁ hw ha) hrest

/-- The handler starts from what holds where the exception was raised. -/
theorem Triple.catchWith {p : Prog Op Res ε α} {h : ε → Prog Op Res ε α} {Q : α → W → Prop}
    {R : ε → W → Prop} (hp : Triple S P p Q R) (hh : ∀ e, Triple S (R e) (h e) Q E) :
    Triple S P (Prog.catchWith p h) Q E := by
  intro w r w' hw hrun
  rcases run_catchWith.1 hrun with ⟨a, ha, rfl⟩ | ⟨e, w₁, he, hrest⟩
  · exact hp w _ w' hw ha
  · exact hh e w₁ r w' (hp w _ w₁ hw he) hrest

theorem Triple.rescue {catches : ε → Prop} [DecidablePred catches] {p : Prog Op Res ε α}
    {Q : α → W → Prop} (hp : Triple S P p Q E) :
    Triple S P (rescue catches p)
      (fun r w => Ends Q (fun e w => catches e ∧ E e w) r w)
      (fun e w => ¬ catches e ∧ E e w) := by
  have hbody : Triple S P (Prog.bind p fun a => .done (.ok (.ok a)))
      (fun r w => Ends Q (fun e w => catches e ∧ E e w) r w) E :=
    hp.bind fun a => triple_pure fun w hw => hw
  unfold Prog.rescue
  refine hbody.catchWith fun e => ?_
  split
  · next hc => exact triple_pure fun w hw => ⟨hc, hw⟩
  · next hc => exact triple_throw fun w hw => ⟨hc, hw⟩

theorem triple_call {o : Op} {Q : Res o → W → Prop}
    (h : ∀ w r w', P w → S w ⟨o, r⟩ w' → Ends Q E r w') : Triple S P (call o) Q E := by
  intro w r w' hw hrun
  exact h w r w' hw (run_call.1 hrun)

end Rules

/-! ## Values alone -/

/-- What holds of every value a program returns, whatever its effects answer. -/
def Yields (φ : α → Prop) : Prog Op Res ε α → Prop
  | .done (.ok a) => φ a
  | .done (.error _) => True
  | .op _ k => ∀ r, Yields φ (k r)

section Yields

variable {φ : α → Prop}

theorem yields_true (p : Prog Op Res ε α) : Yields (fun _ => True) p := by
  induction p with
  | done r => cases r <;> exact trivial
  | op o k ih => exact ih

theorem Yields.bind {ψ : β → Prop} {p : Prog Op Res ε α} {f : α → Prog Op Res ε β}
    (hp : Yields φ p) (hf : ∀ a, φ a → Yields ψ (f a)) : Yields ψ (Prog.bind p f) := by
  induction p with
  | done r =>
      cases r with
      | ok a => exact hf a hp
      | error e => exact trivial
  | op o k ih => exact fun r => ih r (hp r)

theorem Yields.run {S : W → Event Op Res ε → W → Prop} {p : Prog Op Res ε α} (hp : Yields φ p)
    {w w' : W} {a : α} (hrun : Run S p w (.ok a) w') : φ a := by
  induction p generalizing w with
  | done r =>
      obtain ⟨rfl, -⟩ := run_done.1 hrun
      exact hp
  | op o k ih =>
      obtain ⟨r, w₁, -, hrest⟩ := run_op.1 hrun
      exact ih r (hp r) hrest

theorem Yields.triple {S : W → Event Op Res ε → W → Prop} {P : W → Prop} {E : ε → W → Prop}
    {p : Prog Op Res ε α} {Q : α → W → Prop} (hp : Yields φ p) (h : Triple S P p Q E) :
    Triple S P p (fun a w => φ a ∧ Q a w) E := by
  intro w r w' hw hrun
  cases r with
  | ok a => exact ⟨hp.run hrun, h w _ w' hw hrun⟩
  | error e => exact h w _ w' hw hrun

end Yields

end Prog
