import MiniCodeAgent.Contracts
import MiniCodeAgent.Prog.Basic

/-!
# Effects that raise

`try: ... except Exception` around one effect. What it catches is a value for the rest
of the program; what it lets through ends the program, so a trace that raises nothing
of that kind is one in which every handler had its say (`OnlyExceptions`).
-/

namespace MiniCodeAgent

open Prog

variable {Op : Type} {Res : Op → Type} {α : Type}

/-- `try: ... except Exception: return handler`, in front of what follows. -/
def tryExcept (o : Op) (handler : α) (next : Res o → Prog Op Res PyExc α) :
    Prog Op Res PyExc α :=
  .op o fun
    | .ok a => next a
    | .error exc => if exc.isException then .done (.ok handler) else .done (.error exc)

/-- What was raised were exceptions, and nothing that ends the process. -/
def OnlyExceptions (u : List (Event Op Res PyExc)) : Prop :=
  ∀ e ∈ u, ∀ exc, e.res = .error exc → exc.isException = true

theorem OnlyExceptions.left {u v : List (Event Op Res PyExc)} (h : OnlyExceptions (u ++ v)) :
    OnlyExceptions u := fun e he => h e (List.mem_append_left _ he)

theorem OnlyExceptions.right {u v : List (Event Op Res PyExc)} (h : OnlyExceptions (u ++ v)) :
    OnlyExceptions v := fun e he => h e (List.mem_append_right _ he)

/-- The effect answers and the rest follows, or it raises and nothing does. -/
theorem trace_tryExcept {o : Op} {handler : α} {next : Res o → Prog Op Res PyExc α}
    {u : List (Event Op Res PyExc)} {r : Except PyExc α} :
    Trace (tryExcept o handler next) u r ↔
      (∃ a v, u = ⟨o, .ok a⟩ :: v ∧ Trace (next a) v r) ∨
      ∃ exc, u = [⟨o, .error exc⟩] ∧
        r = if exc.isException then .ok handler else .error exc := by
  rw [tryExcept, trace_op]
  constructor
  · intro h
    obtain ⟨a, v, hu, hrest⟩ := h
    cases a with
    | ok a => exact Or.inl ⟨a, v, hu, hrest⟩
    | error exc =>
        refine Or.inr ⟨exc, ?_⟩
        dsimp only at hrest
        by_cases hexc : exc.isException = true
        · rw [if_pos hexc] at hrest
          obtain ⟨rfl, hr⟩ := trace_done.1 hrest
          exact ⟨hu, by rw [hr, if_pos hexc]⟩
        · rw [if_neg hexc] at hrest
          obtain ⟨rfl, hr⟩ := trace_done.1 hrest
          exact ⟨hu, by rw [hr, if_neg hexc]⟩
  · intro h
    rcases h with hok | herror
    · obtain ⟨a, v, hu, hrest⟩ := hok
      exact ⟨.ok a, v, hu, hrest⟩
    · obtain ⟨exc, hu, hr⟩ := herror
      refine ⟨.error exc, [], hu, ?_⟩
      dsimp only
      by_cases hexc : exc.isException = true
      · rw [if_pos hexc] at hr ⊢
        exact trace_done.2 ⟨rfl, hr⟩
      · rw [if_neg hexc] at hr ⊢
        exact trace_done.2 ⟨rfl, hr⟩

end MiniCodeAgent
