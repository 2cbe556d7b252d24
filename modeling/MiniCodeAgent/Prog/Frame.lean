import MiniCodeAgent.Prog.Semantics

/-!
# What a program cannot touch

`Only ok p` says that every effect `p` can ask for, whatever the others answer, is
of the kind `ok`. If effects of this kind leave a reading of the world alone, then
so does the program, to its end and wherever it is stopped.
-/

namespace Prog

variable {Op : Type} {Res : Op → Type} {ε α β W : Type}

def Only (ok : Op → Prop) : Prog Op Res ε α → Prop
  | .done _ => True
  | .op o k => ok o ∧ ∀ r, Only ok (k r)

section Only

variable {ok : Op → Prop}

theorem only_done (r : Except ε α) : Only ok (.done r : Prog Op Res ε α) := trivial

theorem Only.bind {p : Prog Op Res ε α} {f : α → Prog Op Res ε β} (hp : Only ok p)
    (hf : ∀ a, Only ok (f a)) : Only ok (Prog.bind p f) := by
  induction p with
  | done r =>
      cases r with
      | ok a => exact hf a
      | error e => exact only_done _
  | op o k ih => exact ⟨hp.1, fun r => ih r (hp.2 r)⟩

theorem Only.catchWith {p : Prog Op Res ε α} {h : ε → Prog Op Res ε α} (hp : Only ok p)
    (hh : ∀ e, Only ok (h e)) : Only ok (Prog.catchWith p h) := by
  induction p with
  | done r =>
      cases r with
      | ok a => exact only_done _
      | error e => exact hh e
  | op o k ih => exact ⟨hp.1, fun r => ih r (hp.2 r)⟩

end Only

section Frame

variable {S : W → Event Op Res ε → W → Prop}

/-- The end of a run is one of the worlds it passes. -/
theorem Run.during {p : Prog Op Res ε α} {r : Except ε α} {w w' : W} (h : Run S p w r w') :
    During S p w w' := by
  obtain ⟨t, htrace, hsteps⟩ := h
  exact ⟨t, _, htrace, hsteps⟩

variable {ok : Op → Prop} {γ : Type} {read : W → γ}

theorem Only.during (hS : ∀ {w e w'}, S w e w' → ok e.op → read w' = read w)
    {p : Prog Op Res ε α} (hp : Only ok p) {w w' : W} (h : During S p w w') :
    read w' = read w := by
  induction p generalizing w with
  | done r => rw [during_done.1 h]
  | op o k ih =>
      rcases during_op.1 h with hstart | ⟨a, w₁, hstep, hrest⟩
      · rw [hstart]
      · exact (ih a (hp.2 a) hrest).trans (hS hstep hp.1)

end Frame

end Prog
