import MiniCodeAgent.Prog.Frame

/-!
# All or nothing

A program that makes what it does appear by its last effect, and that cleans up
after an exception, has done nothing or all of it wherever it is stopped. `I` says
that nothing is done yet. The parts before the last effect keep `I`; the last
effect ends it, or raises and keeps it; the handlers keep it.
-/

namespace Prog

variable {Op : Type} {Res : Op → Type} {ε α β W : Type}

/-- A protected program passes what it passes, and what its handler passes after it. -/
theorem during_catchWith {S : W → Event Op Res ε → W → Prop} {p : Prog Op Res ε α}
    {h : ε → Prog Op Res ε α} {w w' : W} (hduring : During S (catchWith p h) w w') :
    During S p w w' ∨ ∃ e w₁, Run S p w (.error e) w₁ ∧ During S (h e) w₁ w' := by
  induction p generalizing w with
  | done r =>
      cases r with
      | ok a => exact Or.inl hduring
      | error e => exact Or.inr ⟨e, w, run_done.2 ⟨rfl, rfl⟩, hduring⟩
  | op o k ih =>
      rcases during_op.1 hduring with hstart | ⟨a, w₁, hstep, hrest⟩
      · rw [hstart]
        exact Or.inl (during_start _ _)
      · rcases ih a hrest with hfirst | ⟨e, w₂, hrun, hhandler⟩
        · exact Or.inl (during_op.2 (Or.inr ⟨a, w₁, hstep, hfirst⟩))
        · exact Or.inr ⟨e, w₂, run_op.2 ⟨a, w₁, hstep, hrun⟩, hhandler⟩

section Rules

variable (S : W → Event Op Res ε → W → Prop) (I : W → Prop)

/-- Wherever the program is stopped, what held before still holds. -/
def Steady (p : Prog Op Res ε α) : Prop := ∀ w v, I w → During S p w v → I v

/-- Wherever the program is stopped, what held before still holds or it has returned;
and where it has raised, it still holds. -/
structure AllOrNothing (p : Prog Op Res ε α) : Prop where
  during : ∀ w v, I w → During S p w v → I v ∨ ∃ a, Run S p w (.ok a) v
  raises : ∀ w v e, I w → Run S p w (.error e) v → I v

variable {S I}

theorem Only.steady {ok : Op → Prop} (hS : ∀ w e w', S w e w' → ok e.op → I w → I w')
    {p : Prog Op Res ε α} (hp : Only ok p) : Steady S I p := by
  intro w v hw h
  induction p generalizing w with
  | done r => rwa [during_done.1 h]
  | op o k ih =>
      rcases during_op.1 h with hstart | ⟨a, w₁, hstep, hrest⟩
      · rwa [hstart]
      · exact ih a (hp.2 a) w₁ (hS w _ w₁ hstep hp.1 hw) hrest

theorem Steady.allOrNothing {p : Prog Op Res ε α} (h : Steady S I p) : AllOrNothing S I p :=
  ⟨fun w v hw hduring => Or.inl (h w v hw hduring), fun w v _ hw hrun => h w v hw hrun.during⟩

theorem Steady.bind {p : Prog Op Res ε α} {f : α → Prog Op Res ε β} (hp : Steady S I p)
    (hf : ∀ a, AllOrNothing S I (f a)) : AllOrNothing S I (Prog.bind p f) where
  during w v hw hduring := by
    rcases during_bind.1 hduring with hfirst | ⟨a, w₁, hrun, hrest⟩
    · exact Or.inl (hp w v hw hfirst)
    · rcases (hf a).during w₁ v (hp w w₁ hw hrun.during) hrest with hkept | ⟨b, hdone⟩
      · exact Or.inl hkept
      · exact Or.inr ⟨b, run_bind_ok.2 ⟨a, w₁, hrun, hdone⟩⟩
  raises w v e hw hrun := by
    rcases run_bind.1 hrun with ⟨e', hfirst, -⟩ | ⟨a, w₁, hfirst, hrest⟩
    · exact hp w v hw hfirst.during
    · exact (hf a).raises w₁ v e (hp w w₁ hw hfirst.during) hrest

/-- What is returned does not matter. -/
theorem AllOrNothing.map {p : Prog Op Res ε α} (hp : AllOrNothing S I p) (f : α → β) :
    AllOrNothing S I (Prog.bind p fun a => .done (.ok (f a))) where
  during w v hw hduring := by
    have hreturns : ∀ a, Run S p w (.ok a) v →
        ∃ b, Run S (Prog.bind p fun a => .done (.ok (f a))) w (.ok b) v := fun a hrun =>
      ⟨f a, run_bind_ok.2 ⟨a, v, hrun, run_done.2 ⟨rfl, rfl⟩⟩⟩
    rcases during_bind.1 hduring with hfirst | ⟨a, w₁, hrun, hrest⟩
    · rcases hp.during w v hw hfirst with hkept | ⟨a, hdone⟩
      · exact Or.inl hkept
      · exact Or.inr (hreturns a hdone)
    · obtain rfl := during_done.1 hrest
      exact Or.inr (hreturns a hrun)
  raises w v e hw hrun := by
    rcases run_bind.1 hrun with ⟨e', hfirst, -⟩ | ⟨a, w₁, -, hrest⟩
    · exact hp.raises w v e' hw hfirst
    · cases (run_done.1 hrest).1

theorem AllOrNothing.catchWith {p : Prog Op Res ε α} {h : ε → Prog Op Res ε α}
    (hp : AllOrNothing S I p) (hh : ∀ e, Steady S I (h e)) :
    AllOrNothing S I (Prog.catchWith p h) where
  during w v hw hduring := by
    rcases during_catchWith hduring with hfirst | ⟨e, w₁, hrun, hhandler⟩
    · rcases hp.during w v hw hfirst with hkept | ⟨a, hdone⟩
      · exact Or.inl hkept
      · exact Or.inr ⟨a, run_catchWith.2 (Or.inl ⟨a, hdone, rfl⟩)⟩
    · exact Or.inl (hh e w₁ v (hp.raises w w₁ e hw hrun) hhandler)
  raises w v e hw hrun := by
    rcases run_catchWith.1 hrun with ⟨a, -, heq⟩ | ⟨e', w₁, hfirst, hhandler⟩
    · cases heq
    · exact hh e' w₁ v (hp.raises w w₁ e' hw hfirst) hhandler.during

end Rules

end Prog
