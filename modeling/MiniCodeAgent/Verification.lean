import MiniCodeAgent.Contracts
import MiniCodeAgent.Prog.Basic

/-!
# The verification gate and the tool batch

`verification.py` as it stands: the gate's record and its updates, and
`execute_tool_batch` as a program whose effects are the calls it makes to the
executor. The executor itself is not modelled. It may answer a call with any
result or raise, a capture may return any fingerprint, and whatever else edits
the workspace shows in the fingerprints alone, so a statement about every
trace of the batch is a statement about every executor and every workspace.

The gate is a value the batch passes along where the code updates one object
in place. An exception that is no `Exception` ends the batch at once; the code
then drops the gate, and so does the program.
-/

namespace MiniCodeAgent

variable {F : Type}

inductive VerificationStatus where
  | notRequired
  | required
  | passed
  | failed
  deriving DecidableEq

def VerificationStatus.text : VerificationStatus → String
  | .notRequired => "not_required"
  | .required => "required"
  | .passed => "passed"
  | .failed => "failed"

/-- `VerificationGate`: binds a passing authoritative test run to one exact
workspace state. -/
structure VerificationGate where
  baselineFingerprint : String
  currentFingerprint : String
  verifiedFingerprint : String := ""
  status : VerificationStatus := .notRequired
  hasChanges : Bool := false
  requireVerification : Bool := false
  deriving DecidableEq

namespace VerificationGate

def create (fingerprint : String) (requireVerification : Bool) : VerificationGate where
  baselineFingerprint := fingerprint
  currentFingerprint := fingerprint
  status := if requireVerification then .required else .notRequired
  requireVerification := requireVerification

def sync (g : VerificationGate) (fingerprint : String) : VerificationGate :=
  let g := { g with
    currentFingerprint := fingerprint
    hasChanges := decide (fingerprint ≠ g.baselineFingerprint) }
  if g.status = .failed then g
  else if g.verifiedFingerprint ≠ "" ∧ fingerprint = g.verifiedFingerprint then
    { g with status := .passed }
  else if g.hasChanges ∨ g.requireVerification then { g with status := .required }
  else { g with status := .notRequired }

def recordTest (g : VerificationGate) (passed : Bool) (fingerprint : String) :
    VerificationGate :=
  let g := { g with
    currentFingerprint := fingerprint
    hasChanges := decide (fingerprint ≠ g.baselineFingerprint) }
  if passed then { g with verifiedFingerprint := fingerprint, status := .passed }
  else { g with verifiedFingerprint := "", status := .failed }

/-- `submission_error`: the refusal, if any, and the gate it leaves. -/
def submissionError (g : VerificationGate) (fingerprint : String) :
    Option (String × String) × VerificationGate :=
  let g := g.sync fingerprint
  if g.status = .failed then
    (some ("VerificationFailed",
      "Submission blocked: the latest authoritative run_tests call failed."), g)
  else if (g.hasChanges ∨ g.requireVerification) ∧ g.verifiedFingerprint ≠ fingerprint then
    (some ("VerificationRequired", "Submission blocked: the current workspace must match " ++
      "a passing run_tests snapshot."), g)
  else (none, g)

/-- `accept_submission`: the submitted workspace is the new baseline. -/
def acceptSubmission (g : VerificationGate) : VerificationGate :=
  let wasVerified := g.status = .passed ∧ g.verifiedFingerprint ≠ "" ∧
    g.verifiedFingerprint = g.currentFingerprint
  { g with
    baselineFingerprint := g.currentFingerprint
    verifiedFingerprint := if wasVerified then g.currentFingerprint else ""
    hasChanges := false
    requireVerification := false
    status := if wasVerified then .passed else .notRequired }

/-- What a failed capture does to the gate. -/
def captureFailed (g : VerificationGate) : VerificationGate :=
  { g with verifiedFingerprint := "", status := .failed }

@[simp] theorem sync_verifiedFingerprint (g : VerificationGate) (fingerprint : String) :
    (g.sync fingerprint).verifiedFingerprint = g.verifiedFingerprint := by
  unfold sync
  dsimp only
  split <;> (try split) <;> (try split) <;> rfl

@[simp] theorem sync_requireVerification (g : VerificationGate) (fingerprint : String) :
    (g.sync fingerprint).requireVerification = g.requireVerification := by
  unfold sync
  dsimp only
  split <;> (try split) <;> (try split) <;> rfl

@[simp] theorem sync_currentFingerprint (g : VerificationGate) (fingerprint : String) :
    (g.sync fingerprint).currentFingerprint = fingerprint := by
  unfold sync
  dsimp only
  split <;> (try split) <;> (try split) <;> rfl

@[simp] theorem sync_baselineFingerprint (g : VerificationGate) (fingerprint : String) :
    (g.sync fingerprint).baselineFingerprint = g.baselineFingerprint := by
  unfold sync
  dsimp only
  split <;> (try split) <;> (try split) <;> rfl

@[simp] theorem sync_hasChanges (g : VerificationGate) (fingerprint : String) :
    (g.sync fingerprint).hasChanges = decide (fingerprint ≠ g.baselineFingerprint) := by
  unfold sync
  dsimp only
  split <;> (try split) <;> (try split) <;> rfl

@[simp] theorem recordTest_currentFingerprint (g : VerificationGate) (passed : Bool)
    (fingerprint : String) :
    (g.recordTest passed fingerprint).currentFingerprint = fingerprint := by
  cases passed <;> rfl

@[simp] theorem recordTest_baselineFingerprint (g : VerificationGate) (passed : Bool)
    (fingerprint : String) :
    (g.recordTest passed fingerprint).baselineFingerprint = g.baselineFingerprint := by
  cases passed <;> rfl

@[simp] theorem recordTest_requireVerification (g : VerificationGate) (passed : Bool)
    (fingerprint : String) :
    (g.recordTest passed fingerprint).requireVerification = g.requireVerification := by
  cases passed <;> rfl

@[simp] theorem recordTest_verifiedFingerprint (g : VerificationGate) (passed : Bool)
    (fingerprint : String) :
    (g.recordTest passed fingerprint).verifiedFingerprint =
      if passed then fingerprint else "" := by
  cases passed <;> rfl

theorem submissionError_snd (g : VerificationGate) (fingerprint : String) :
    (g.submissionError fingerprint).2 = g.sync fingerprint := by
  unfold submissionError
  dsimp only
  split
  · rfl
  · split <;> rfl

/-- A gate that requires verification accepts only the workspace it verified. -/
theorem submissionError_none {g g' : VerificationGate} {fingerprint : String}
    (h : g.submissionError fingerprint = (none, g')) (hg : g.requireVerification = true) :
    g.verifiedFingerprint = fingerprint := by
  unfold submissionError at h
  dsimp only at h
  split at h
  · cases h
  · split at h
    · cases h
    · next hn =>
        by_contra hne
        exact hn ⟨Or.inr (by rw [sync_requireVerification, hg]),
          by rwa [sync_verifiedFingerprint]⟩

end VerificationGate

def structuredEditTools : List String := ["write_file", "apply_patch", "replace_lines"]

def potentiallyMutatingTools : List String := structuredEditTools ++ ["bash", "run_tests"]

/-- The arguments a call is executed with: the model's own, or the trusted
ignore paths for `run_tests`. -/
inductive EffectiveArgs (F : Type) where
  | given (args : Json F)
  | verificationIgnorePaths (ignored : List String)

/-- What the batch asks of its executor, and the callback it is given. -/
inductive ExecutorOp (F : Type) where
  | captureWorkspaceFingerprint (ignored : List String)
  | executeTool (name : String) (args : EffectiveArgs F)
  | onStructuredEdit (result : ToolResult F)

def ExecutorOp.Res : ExecutorOp F → Type
  | .captureWorkspaceFingerprint _ => String
  | .executeTool _ _ => ToolResult F
  | .onStructuredEdit _ => Unit

abbrev BatchProg (F α : Type) := Prog (ExecutorOp F) ExecutorOp.Res PyExc α

abbrev BatchEvent (F : Type) := Event (ExecutorOp F) ExecutorOp.Res PyExc

/-- `try: ... except Exception`: an exception of another kind goes on up. -/
def guarded (o : ExecutorOp F) : BatchProg F (Except PyExc o.Res) :=
  .op o fun
    | .ok a => .done (.ok (.ok a))
    | .error exc => if exc.isException then .done (.ok (.error exc)) else .done (.error exc)

def toolExceptionResult (name exceptionInfo output : String) : ToolResult F where
  tool := name
  output := output
  returncode := -1
  durationMs := 0
  exceptionInfo := exceptionInfo
  blocked := true

def blockedSubmission (exceptionInfo output : String) : ToolResult F where
  tool := "submit"
  output := output
  returncode := -1
  durationMs := 0
  exceptionInfo := exceptionInfo
  blocked := true

/-- A call with its defaults filled in. -/
structure NormalizedCall (F : Type) where
  name : String
  args : Json F
  toolCallId : String

def normalizeCall (index : Nat) (call : ToolCall F) : NormalizedCall F where
  name := call.name
  args := match call.args with
    | .obj kvs => .obj kvs
    | _ => .obj []
  toolCallId := match call.id with
    | some id => if id = "" then "tool-" ++ toString (index + 1) else id
    | none => "tool-" ++ toString (index + 1)

/-- Older executors recognise a shell sentinel; it never completes a task. -/
def refuseLegacySubmission (name : String) (result : ToolResult F) : ToolResult F :=
  if result.submitted then
    { tool := name
      command := result.command
      output := "Legacy shell submission is disabled; call the submit tool."
      returncode := -1
      durationMs := result.durationMs
      args := result.args
      exceptionInfo := "LegacySubmissionDisabled"
      blocked := true }
  else result

/-- The evidence of a passing run must name the workspace found after it. -/
def checkHandoff (result : ToolResult F) (currentFingerprint : String) : ToolResult F :=
  if result.returncode = 0 ∧
      (result.verificationBoundaryChecked ∨ result.verificationChecks ≠ []) ∧
      (result.verificationFingerprint = "" ∨
        result.verificationFingerprint ≠ currentFingerprint) then
    { result with
      returncode := -1
      exceptionInfo := "WorkspaceChangedDuringVerification"
      output := result.output ++ "\n\n" ++
        "The verification fingerprint was missing or changed " ++
        "at the executor handoff; submission evidence was not minted." }
  else result

/-- What the loop carries from call to call. -/
structure BatchState where
  gate : VerificationGate
  currentFingerprint : String

/-- The end of the loop body, the workspace being known. -/
def settleCall (name : String) (result : ToolResult F) (s : BatchState) :
    ToolResult F × BatchState :=
  if name = "run_tests" then
    let result := checkHandoff result s.currentFingerprint
    (result, { s with
      gate := s.gate.recordTest (decide (result.returncode = 0)) s.currentFingerprint })
  else (result, { s with gate := s.gate.sync s.currentFingerprint })

def requireAfterMutation (name : String) (result : ToolResult F) (g : VerificationGate) :
    VerificationGate :=
  if name ∈ potentiallyMutatingTools ∧ result.returncode = 0 ∧ result.approved ∧
      result.exceptionInfo ≠ "ReadOnlyChatMode" then
    { g with requireVerification := true }
  else g

theorem requireAfterMutation_verifiedFingerprint (name : String) (result : ToolResult F)
    (g : VerificationGate) :
    (requireAfterMutation name result g).verifiedFingerprint = g.verifiedFingerprint := by
  unfold requireAfterMutation
  split <;> rfl

theorem requireAfterMutation_requireVerification (name : String) (result : ToolResult F)
    {g : VerificationGate} (hg : g.requireVerification = true) :
    (requireAfterMutation name result g).requireVerification = true := by
  unfold requireAfterMutation
  split
  · rfl
  · exact hg

section Batch

variable (ignored : List String) (onStructuredEdit : Bool)

/-- The executor's answer to one call, its exceptions made results. -/
def runTool (call : NormalizedCall F) : BatchProg F (ToolResult F) := do
  let effectiveArgs := if call.name = "run_tests" then .verificationIgnorePaths ignored
    else .given call.args
  match ← guarded (.executeTool call.name effectiveArgs) with
  | .ok result => return refuseLegacySubmission call.name result
  | .error exc => return toolExceptionResult call.name exc.type exc.describe

/-- The undo callback of a structured edit that succeeded. -/
def recordEdit (call : NormalizedCall F) (result : ToolResult F) :
    BatchProg F (ToolResult F) := do
  if result.returncode = 0 ∧ call.name ∈ structuredEditTools ∧ onStructuredEdit then
    match ← guarded (.onStructuredEdit result) with
    | .ok _ => return result
    | .error exc =>
      return toolExceptionResult call.name "UndoRecordError"
        ("The edit succeeded but its undo record could not be saved: " ++ exc.message)
  else return result

/-- One turn of the loop over the calls that are no submission. -/
def executeCall (call : NormalizedCall F) (s : BatchState) :
    BatchProg F (ToolResult F × BatchState) := do
  let result ← runTool ignored call
  let result ← recordEdit onStructuredEdit call result
  let gate := requireAfterMutation call.name result s.gate
  if call.name ∈ potentiallyMutatingTools then
    match ← guarded (.captureWorkspaceFingerprint ignored) with
    | .ok fingerprint => return settleCall call.name result ⟨gate, fingerprint⟩
    | .error exc =>
      return (toolExceptionResult call.name "WorkspaceFingerprintError"
        ("Workspace fingerprint failed after tool execution: " ++ exc.message),
        { s with gate := gate.captureFailed })
  else return settleCall call.name result { s with gate := gate }

/-- The loop: the results in the calls' order, with a hole for each
submission. `initialCaptureError` is empty when the first capture succeeded. -/
def executeCalls (initialCaptureError : String) : List (NormalizedCall F) → BatchState →
    BatchProg F (List (Option (ToolResult F)) × BatchState)
  | [], s => return ([], s)
  | call :: rest, s => do
    if call.name = "submit" then
      let (results, s) ← executeCalls initialCaptureError rest s
      return (none :: results, s)
    else if initialCaptureError ≠ "" then
      let (results, s) ← executeCalls initialCaptureError rest s
      return (some (toolExceptionResult call.name "WorkspaceFingerprintError"
        initialCaptureError) :: results, s)
    else
      let (result, s) ← executeCall ignored onStructuredEdit call s
      let (results, s) ← executeCalls initialCaptureError rest s
      return (some result :: results, s)

/-- One submission: blocked, or handed to the executor. -/
def executeSubmit (submissionError : Option (String × String)) (args : Json F) :
    BatchProg F (ToolResult F) :=
  match submissionError with
  | some (exceptionInfo, output) => return blockedSubmission exceptionInfo output
  | none => do
    match ← guarded (.executeTool "submit" (.given args)) with
    | .ok result => return result
    | .error exc =>
      return blockedSubmission "WorkspaceFingerprintError"
        ("Submission blocked because workspace fingerprinting failed: " ++ exc.message)

/-- Every submission of the batch, once the rest of it is settled. -/
def executeSubmits (submissionError : Option (String × String)) :
    List (NormalizedCall F) → List (Option (ToolResult F)) →
    BatchProg F (List (ExecutedToolCall F))
  | call :: calls, some result :: results => do
    let executed ← executeSubmits submissionError calls results
    return ⟨call.name, call.args, call.toolCallId, result⟩ :: executed
  | call :: calls, none :: results => do
    let result ← executeSubmit submissionError call.args
    let executed ← executeSubmits submissionError calls results
    return ⟨call.name, call.args, call.toolCallId, result⟩ :: executed
  | _, _ => return []

/-- The decision on the batch's submissions, taken only if it has any. -/
def decideSubmission (calls : List (NormalizedCall F)) (g : VerificationGate) :
    BatchProg F (Option (String × String) × VerificationGate) := do
  if calls.any fun call => call.name = "submit" then
    match ← guarded (.captureWorkspaceFingerprint ignored) with
    | .ok fingerprint => return g.submissionError fingerprint
    | .error exc =>
      return (some ("WorkspaceFingerprintError",
        "Submission blocked because workspace fingerprinting failed: " ++ exc.message), g)
  else return (none, g)

def batchOutcome (executed : List (ExecutedToolCall F)) : ToolBatchOutcome F :=
  let accepted := executed.filterMap fun call =>
    if call.result.submitted then some call.result else none
  { calls := executed
    submitted := !accepted.isEmpty
    submission := (accepted.getLast?.map ToolResult.submission).getD "" }

/-- The capture before the first call, and the text of its failure. -/
def initialCapture (gate : VerificationGate) : BatchProg F (String × BatchState) := do
  match ← guarded (.captureWorkspaceFingerprint ignored) with
  | .ok fingerprint => return ("", ⟨gate.sync fingerprint, fingerprint⟩)
  | .error exc => return (exc.describe, ⟨gate.captureFailed, gate.currentFingerprint⟩)

/-- `execute_tool_batch`: the outcome, and the gate the batch leaves. -/
def executeToolBatch (toolCalls : List (ToolCall F)) (gate : VerificationGate) :
    BatchProg F (ToolBatchOutcome F × VerificationGate) := do
  let normalized := toolCalls.mapIdx normalizeCall
  let (initialCaptureError, s) ← initialCapture ignored gate
  let (results, s) ← executeCalls ignored onStructuredEdit initialCaptureError normalized s
  let (submissionError, gate) ← decideSubmission ignored normalized s.gate
  let executed ← executeSubmits submissionError normalized results
  return (batchOutcome executed, gate)

end Batch

end MiniCodeAgent
