import MiniCodeAgent.Chat

/-!
# One tool batch, on a value and on an object

`execute_tool_batch` is modelled twice: over a gate that is passed along, for the
agent whose graph drops it when the batch raises, and over the session object,
which keeps it. With the object passed along as a value, and no assignment
stopped, the second program is the first one: the same effects in the same order,
the same outcome, and the gate of the first in the object.
-/

namespace MiniCodeAgent

open Prog ObjProg

variable {F α β γ δ : Type}

/-- A batch's effects among those of a session. -/
def BatchProg.inChat : BatchProg F α → Prog (ChatOp F) ChatOp.Res PyExc α
  | .done r => .done r
  | .op o k => .op (ChatOp.executor o) fun r => inChat (k r)

theorem BatchProg.inChat_bind (p : BatchProg F α) (f : α → BatchProg F β) :
    inChat (Prog.bind p f) = Prog.bind (inChat p) fun a => inChat (f a) := by
  induction p with
  | done r => cases r <;> rfl
  | op o k ih => exact congrArg (Prog.op (ChatOp.executor o)) (funext ih)

def Chat.withGate (s : Chat F) (g : VerificationGate) : Chat F := { s with gate := g }

/-- Started on the object, the one program is the other, whose values show the
value and the object the first one ends with. -/
def Refines (p : ChatProg F α) (s : Chat F) (q : BatchProg F β) (view : β → α × Chat F) : Prop :=
  threaded p s = Prog.bind q.inChat fun x => .done (.ok (view x))

section Rules

variable {s : Chat F}

theorem Refines.pure {a : α} {x : β} {view : β → α × Chat F} (h : view x = (a, s)) :
    Refines (.done (.ok a)) s (.done (.ok x)) view := by
  show Prog.done (.ok (a, s)) = .done (.ok (view x))
  rw [h]

theorem Refines.bind {p : ChatProg F α} {q : BatchProg F β} {view : β → α × Chat F}
    {f : α → ChatProg F γ} {h : β → BatchProg F δ} {view' : δ → γ × Chat F}
    (hp : Refines p s q view)
    (hf : ∀ x, Refines (f (view x).1) (view x).2 (h x) view') :
    Refines (Prog.bind p f) s (Prog.bind q h) view' := by
  have hrest : (fun x => threaded (f (view x).1) (view x).2) = fun x =>
      Prog.bind (h x).inChat fun y => .done (.ok (view' y)) := funext hf
  show threaded (Prog.bind p f) s = _
  rw [threaded_bind, hp, Prog.bind_assoc, BatchProg.inChat_bind, Prog.bind_assoc]
  exact congrArg (Prog.bind q.inChat) hrest

theorem Refines.modify {f : Chat F → Chat F} {k : Unit → ChatProg F α} {q : BatchProg F β}
    {view : β → α × Chat F} (h : Refines (k ()) (f s) q view) :
    Refines (Prog.bind (ObjProg.modify f) k) s q view := h

/-- Both programs let through the same exceptions. -/
theorem raised_same (exc : PyExc) (s : Chat F) (view : Except PyExc β → Except PyExc α × Chat F)
    (hview : ∀ exc, view (.error exc) = (.error exc, s)) :
    threaded (if exc.isException = true then .done (.ok (.error exc)) else .done (.error exc) :
        ChatProg F (Except PyExc α)) s =
      Prog.bind (BatchProg.inChat (if exc.isException = true then .done (.ok (.error exc))
        else .done (.error exc) : BatchProg F (Except PyExc β))) fun x => .done (.ok (view x)) := by
  split
  · show Prog.done (.ok (.error exc, s)) = .done (.ok (view (.error exc)))
    rw [hview]
  · rfl

theorem refines_call (o : ExecutorOp F) :
    Refines (Chat.guarded (call (ChatOp.executor o))) s (guarded o) fun r => (r, s) := by
  refine congrArg (Prog.op (ChatOp.executor o)) (funext fun r => ?_)
  cases r with
  | ok a => rfl
  | error exc => exact raised_same exc s _ fun _ => rfl

/-- A protected call and the assignments behind it. -/
theorem refines_callThen (o : ExecutorOp F) {k : o.Res → ChatProg F α} {g : o.Res → α}
    {f : o.Res → Chat F} (hk : ∀ a, threaded (Chat.guarded (k a)) s = .done (.ok (.ok (g a), f a))) :
    Refines (Chat.guarded (Prog.bind (call (ChatOp.executor o)) k)) s (guarded o)
      fun r => match r with
        | .ok a => (.ok (g a), f a)
        | .error exc => (.error exc, s) := by
  refine congrArg (Prog.op (ChatOp.executor o)) (funext fun r => ?_)
  cases r with
  | ok a => exact hk a
  | error exc => exact raised_same exc s _ fun _ => rfl

end Rules

/-! ## The parts of a batch -/

variable {ignored : List String}

theorem refines_initialCapture (s : Chat F) :
    Refines (Chat.initialCapture ignored) s (initialCapture ignored s.gate)
      fun x => ((x.1, x.2.currentFingerprint), s.withGate x.2.gate) := by
  refine (refines_callThen (.captureWorkspaceFingerprint ignored) fun fingerprint => rfl).bind
    fun r => ?_
  cases r with
  | ok fingerprint => exact .pure rfl
  | error exc => rfl

theorem refines_runTool (call : NormalizedCall F) (s : Chat F) :
    Refines (Chat.runTool ignored call) s (runTool ignored call) fun r => (r, s) := by
  refine (refines_call _).bind fun r => ?_
  cases r <;> exact .pure rfl

/-- The callback of the program over values: an effect like any other. -/
def callbackEffect (onStructuredEdit : Bool) : Option (ToolResult F → ChatProg F Unit) :=
  if onStructuredEdit then
    some fun result => ObjProg.call (ChatOp.executor (.onStructuredEdit result))
  else none

theorem refines_recordEdit (onStructuredEdit : Bool) (call : NormalizedCall F)
    (result : ToolResult F) (s : Chat F) :
    Refines (Chat.recordEdit (callbackEffect onStructuredEdit) call result) s
      (recordEdit onStructuredEdit call result) fun r => (r, s) := by
  cases onStructuredEdit with
  | false =>
      rw [recordEdit, if_neg (by simp)]
      exact .pure rfl
  | true =>
      show Refines (if result.returncode = 0 ∧ call.name ∈ structuredEditTools then _ else _) s _ _
      by_cases h : result.returncode = 0 ∧ call.name ∈ structuredEditTools
      · rw [if_pos h, recordEdit, if_pos ⟨h.1, h.2, rfl⟩]
        refine (refines_call _).bind fun r => ?_
        cases r <;> exact .pure rfl
      · rw [if_neg h, recordEdit, if_neg fun h' => h ⟨h'.1, h'.2.1⟩]
        exact .pure rfl

theorem refines_executeSubmit (submissionError : Option (String × String)) (args : Json F)
    (s : Chat F) :
    Refines (Chat.executeSubmit submissionError args) s (executeSubmit submissionError args)
      fun r => (r, s) := by
  cases submissionError with
  | some error => exact .pure rfl
  | none =>
      refine (refines_call _).bind fun r => ?_
      cases r <;> exact .pure rfl

theorem refines_executeSubmits (submissionError : Option (String × String))
    (calls : List (NormalizedCall F)) (results : List (Option (ToolResult F))) (s : Chat F) :
    Refines (Chat.executeSubmits submissionError calls results) s
      (executeSubmits submissionError calls results) fun executed => (executed, s) := by
  fun_induction executeSubmits submissionError calls results with
  | case1 call calls result results ih => exact ih.bind fun executed => .pure rfl
  | case2 call calls results ih =>
      exact (refines_executeSubmit _ _ s).bind fun result => ih.bind fun executed => .pure rfl
  | case3 calls results hsome hnone =>
      cases calls with
      | nil => exact .pure rfl
      | cons call calls =>
          cases results with
          | nil => exact .pure rfl
          | cons result results =>
              cases result with
              | some result => exact absurd rfl (hsome call calls result results rfl)
              | none => exact absurd rfl (hnone call calls results rfl)

theorem refines_settleCall (name : String) (result : ToolResult F) (fingerprint : String)
    (g : VerificationGate) (s : Chat F) (k : ToolResult F → ChatProg F α)
    (view : ToolResult F × BatchState → α × Chat F)
    (hk : ∀ result g', Refines (k result) (s.withGate g') (.done (.ok (result, ⟨g', fingerprint⟩)))
      view) :
    Refines (Prog.bind (Chat.settleCall name result fingerprint) k) (s.withGate g)
      (.done (.ok (settleCall name result ⟨g, fingerprint⟩))) view := by
  unfold Chat.settleCall settleCall
  by_cases hname : name = "run_tests"
  · rw [if_pos hname, if_pos hname]
    exact hk _ _
  · rw [if_neg hname, if_neg hname]
    exact hk _ _

theorem refines_executeCall (onStructuredEdit : Bool) (call : NormalizedCall F)
    (state : BatchState) (s : Chat F) (hgate : s.gate = state.gate) :
    Refines (Chat.executeCall ignored (callbackEffect onStructuredEdit) call
        state.currentFingerprint) s (executeCall ignored onStructuredEdit call state)
      fun x => ((x.1, x.2.currentFingerprint), s.withGate x.2.gate) := by
  refine (refines_runTool call s).bind fun result => ?_
  refine (refines_recordEdit onStructuredEdit call result s).bind fun result => ?_
  dsimp only
  have hrequire : ∀ {k : Unit → ChatProg F (ToolResult F × String)}
      {q : BatchProg F (ToolResult F × BatchState)} {view},
      Refines (k ()) (s.withGate (requireAfterMutation call.name result state.gate)) q view →
      Refines (Prog.bind (Chat.requireAfterMutation call.name result) k) s q view := by
    intro k q view h
    unfold Chat.requireAfterMutation
    unfold requireAfterMutation at h
    split at h
    · next hc =>
        rw [if_pos hc]
        rw [← hgate] at h
        exact .modify h
    · next hc =>
        rw [if_neg hc]
        rw [← hgate] at h
        exact h
  refine hrequire ?_
  by_cases hname : call.name ∈ potentiallyMutatingTools
  · simp only [if_pos hname]
    refine (refines_call (.captureWorkspaceFingerprint ignored)).bind fun r => ?_
    cases r with
    | ok fingerprint =>
        exact refines_settleCall call.name result fingerprint _ s _ _ fun result g => .pure rfl
    | error exc => exact .modify (.pure rfl)
  · simp only [if_neg hname]
    exact refines_settleCall call.name result state.currentFingerprint _ s _ _
      fun result g => .pure rfl

theorem refines_executeCalls (onStructuredEdit : Bool) (initialCaptureError : String)
    (calls : List (NormalizedCall F)) (state : BatchState) (s : Chat F)
    (hgate : s.gate = state.gate) :
    Refines (Chat.executeCalls ignored (callbackEffect onStructuredEdit) initialCaptureError calls
        state.currentFingerprint) s
      (executeCalls ignored onStructuredEdit initialCaptureError calls state)
      fun x => (x.1, s.withGate x.2.gate) := by
  induction calls generalizing state s with
  | nil =>
      refine .pure ?_
      rw [← hgate]
      rfl
  | cons call calls ih =>
      rw [Chat.executeCalls, executeCalls]
      split
      · exact (ih state s hgate).bind fun x => .pure rfl
      · split
        · exact (ih state s hgate).bind fun x => .pure rfl
        · refine (refines_executeCall onStructuredEdit call state s hgate).bind fun x => ?_
          exact (ih x.2 (s.withGate x.2.gate) rfl).bind fun y => .pure rfl

theorem refines_decideSubmission (calls : List (NormalizedCall F)) (s : Chat F) :
    Refines (Chat.decideSubmission ignored calls) s (decideSubmission ignored calls s.gate)
      fun x => (x.1, s.withGate x.2) := by
  unfold Chat.decideSubmission decideSubmission
  split
  · refine (refines_callThen (.captureWorkspaceFingerprint ignored) fun fingerprint => rfl).bind
      fun r => ?_
    cases r <;> exact .pure rfl
  · exact .pure rfl

/-- The session's batch is the batch of the gate it holds. -/
theorem refines_executeToolBatch (onStructuredEdit : Bool) (toolCalls : List (ToolCall F))
    (s : Chat F) :
    Refines (Chat.executeToolBatch ignored (callbackEffect onStructuredEdit) toolCalls) s
      (executeToolBatch ignored onStructuredEdit toolCalls s.gate)
      fun x => (x.1, s.withGate x.2) := by
  refine (refines_initialCapture s).bind fun x => ?_
  refine (refines_executeCalls onStructuredEdit x.1 _ x.2 (s.withGate x.2.gate) rfl).bind
    fun y => ?_
  refine (refines_decideSubmission _ ((s.withGate x.2.gate).withGate y.2.gate)).bind fun z => ?_
  exact (refines_executeSubmits z.1 _ y.1 _).bind fun executed => .pure rfl

end MiniCodeAgent
