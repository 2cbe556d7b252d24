import MiniCodeAgent.Prog.Exceptions
import MiniCodeAgent.Proofs.GateSafety
import Mathlib.Data.List.Forall2

/-!
# One result for each call of a batch

The batch goes over its calls twice. The first loop leaves a hole for each
submission and fills every other place; the second fills the holes. So the places
never shift, whatever the executor does, as long as what it raises are exceptions
(`Returns`): that an exception becomes a result in the place of its own call is the
case analysis of `executeCall` and of nothing else.

What the two loops ask of the executor is kept apart by name: the first never asks
for a submission and the second asks for nothing else, with the gate's decision
between them (`Aligned.phases`).
-/

namespace MiniCodeAgent

open Prog

variable {F : Type}

/-! ## Every answer leads to a result -/

/-- A program that returns, whatever it is answered. -/
def Returns {α : Type} (p : BatchProg F α) : Prop :=
  ∀ u r, Trace p u r → OnlyExceptions u → ∃ a, r = .ok a

section

variable {α β : Type}

theorem Returns.bind {p : BatchProg F α} {f : α → BatchProg F β} (hp : Returns p)
    (hf : ∀ a, Returns (f a)) : Returns (Prog.bind p f) := by
  intro u r h hu
  rcases trace_bind.1 h with hfirst | hthen
  · obtain ⟨exc, hfirst, -⟩ := hfirst
    obtain ⟨a, ha⟩ := hp u _ hfirst hu
    cases ha
  · obtain ⟨a, u₁, u₂, rfl, -, hthen⟩ := hthen
    exact hf a u₂ r hthen hu.right

end

section

variable (ignored : List String) (onStructuredEdit : Bool)

end

/-! ## What the loop over the other calls does -/

section

variable (ignored : List String) (onStructuredEdit : Bool) (u : List (BatchEvent F))

/-- What stands in the place of a call that is no submission: its own result, or the
error of a batch that could not capture its workspace. -/
def CallResult (call : NormalizedCall F) (result : ToolResult F) : Prop :=
  result.submitted = false ∧
    ((∃ error, result = toolExceptionResult call.name "WorkspaceFingerprintError" error) ∨
      ∃ own s s', own <:+: u ∧
        Trace (executeCall ignored onStructuredEdit call s) own (.ok (result, s')))

/-- The places after the first loop: a hole for a submission, a result for any other call. -/
inductive Filled : List (NormalizedCall F) → List (Option (ToolResult F)) → Prop
  | nil : Filled [] []
  | submission {call calls results} (hname : call.name = "submit") (h : Filled calls results) :
      Filled (call :: calls) (none :: results)
  | result {call calls r results} (hname : call.name ≠ "submit")
      (hresult : CallResult ignored onStructuredEdit u call r) (h : Filled calls results) :
      Filled (call :: calls) (some r :: results)

end

section

variable {ignored : List String} {onStructuredEdit : Bool} {u v : List (BatchEvent F)}

theorem CallResult.mono (huv : u <:+: v) {call : NormalizedCall F} {result : ToolResult F}
    (h : CallResult ignored onStructuredEdit u call result) :
    CallResult ignored onStructuredEdit v call result := by
  refine ⟨h.1, ?_⟩
  rcases h.2 with herror | hown
  · exact Or.inl herror
  · obtain ⟨own, s, s', hsub, htrace⟩ := hown
    exact Or.inr ⟨own, s, s', hsub.trans huv, htrace⟩

theorem Filled.mono (huv : u <:+: v) {calls : List (NormalizedCall F)}
    {results : List (Option (ToolResult F))}
    (h : Filled ignored onStructuredEdit u calls results) :
    Filled ignored onStructuredEdit v calls results := by
  induction h with
  | nil => exact .nil
  | submission hname _ ih => exact .submission hname ih
  | result hname hresult _ ih => exact .result hname (hresult.mono huv) ih

end

/-! ## The submissions -/

end MiniCodeAgent
