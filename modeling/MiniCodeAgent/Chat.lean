import MiniCodeAgent.Context
import MiniCodeAgent.Prog.Object

/-!
# The conversational agent

`chat.py`: a session that answers the user turn by turn. The session object is
updated in place all through a turn, and what an exception leaves of it is what
the next turn starts from, so a turn is a program over the object and not a
function of it. Each assignment of the source is one `modify`, each call that
leaves the module one `call`, and a turn may be stopped before any of them. The
gate's methods and the pairs of assignments in an `except` branch are one
assignment each.

The tool batch stands here a second time, as `execute_tool_batch` runs it for a
session: on the gate of the object, which keeps every update when the batch is
stopped. The rest of a session's life is saving, restoring and clearing it.
-/

namespace MiniCodeAgent

variable {F : Type}

/-- What `model.invoke` returns. -/
structure AIMessage (F : Type) where
  content : Json F
  toolCalls : List (Dict (Json F))
  additionalKwargs : Dict (Json F)

structure TurnResult where
  text : String
  status : String
  completed : Bool
  verified : Bool
  steps : Nat
  error : String := ""

/-- `turn.__dict__`. -/
def TurnResult.toDict (turn : TurnResult) : Dict (Json F) :=
  [("text", .str turn.text), ("status", .str turn.status), ("completed", .bool turn.completed),
    ("verified", .bool turn.verified), ("steps", .int turn.steps), ("error", .str turn.error)]

/-- What the session takes from outside its module. -/
structure ChatEnv (F : Type) where
  redactor : SecretRedactor
  /-- `audit_tool_args`. -/
  auditToolArgs : String → Json F → Json F
  /-- `serialize_messages`. -/
  messagesToDict : List (BaseMessage F) → Json F
  messagesFromDict : Json F → Except PyExc (List (BaseMessage F))
  /-- `load_authenticated_undo_records`, which raises on a forged journal. -/
  loadUndoRecords : Json F → Except PyExc (List (Json F))
  /-- `str(Path(_).resolve())`. -/
  resolvePath : String → String
  /-- `str` of a container. -/
  repr : Json F → String
  cwd : String
  sandbox : Json F
  maxStepsPerTurn : Nat
  contextCharBudget : Int
  trajectoryPath : Option String
  quiet : Bool
  /-- `_artifact_paths()`. -/
  ignored : List String

/-- The session object. `lastTurn` is the turn's `__dict__`; `step` is the local
of the turn under way that its handlers read. -/
structure Chat (F : Type) where
  messages : List (BaseMessage F)
  events : List (Json F)
  eventsOmitted : Int
  undoRecords : List (Json F)
  gate : VerificationGate
  exitStatus : String
  lastTurn : Option (Dict (Json F))
  step : Nat

inductive ChatOp (F : Type) where
  | executor (o : ExecutorOp F)
  | invokeModel (messages : List (BaseMessage F))
  | print (text : String)
  | writeUndoJournal (records : List (Json F))
  | durationMs
  | writeJson (trajectory : Json F)

def ChatOp.Res : ChatOp F → Type
  | .executor o => o.Res
  | .invokeModel _ => AIMessage F
  | .print _ => Unit
  | .writeUndoJournal _ => String
  | .durationMs => Int
  | .writeJson _ => Unit

abbrev ChatProg (F α : Type) := ObjProg (ChatOp F) ChatOp.Res PyExc (Chat F) α

abbrev ChatEvent (F : Type) := Event (ChatOp F) ChatOp.Res PyExc

abbrev ChatWorld (F : Type) := ObjWorld (ChatOp F) ChatOp.Res PyExc (Chat F)

namespace Chat

open ObjProg

def invokeModel (messages : List (BaseMessage F)) : ChatProg F (AIMessage F) :=
  call (ChatOp.invokeModel messages)

def print (text : String) : ChatProg F Unit := call (ChatOp.print text)

def writeUndoJournal (records : List (Json F)) : ChatProg F String :=
  call (ChatOp.writeUndoJournal records)

def durationMs : ChatProg F Int := call ChatOp.durationMs

def writeJson (trajectory : Json F) : ChatProg F Unit := call (ChatOp.writeJson trajectory)

def updateGate (f : VerificationGate → VerificationGate) : ChatProg F Unit :=
  modify fun s => { s with gate := f s.gate }

def appendMessage (message : BaseMessage F) : ChatProg F Unit :=
  modify fun s => { s with messages := s.messages ++ [message] }

def appendEvent (event : Json F) : ChatProg F Unit :=
  modify fun s => { s with events := s.events ++ [event] }

/-- `try: ... except Exception`. -/
def guarded {α : Type} (p : ChatProg F α) : ChatProg F (Except PyExc α) :=
  Prog.rescue (fun exc => exc.isException = true) p

/-! ## The tool batch on the session's gate -/

section Batch

variable (ignored : List String) (onStructuredEdit : Option (ToolResult F → ChatProg F Unit))

def captureWorkspaceFingerprint : ChatProg F String :=
  call (ChatOp.executor (.captureWorkspaceFingerprint ignored))

def executeTool (name : String) (args : EffectiveArgs F) : ChatProg F (ToolResult F) :=
  call (ChatOp.executor (.executeTool name args))

/-- The capture before the first call: the text of its failure, and the
fingerprint to go on with. -/
def initialCapture : ChatProg F (String × String) := do
  match ← guarded (do
    let fingerprint ← captureWorkspaceFingerprint ignored
    updateGate (·.sync fingerprint)
    return fingerprint) with
  | .ok fingerprint => return ("", fingerprint)
  | .error exc => do
    let s ← self
    updateGate VerificationGate.captureFailed
    return (exc.describe, s.gate.currentFingerprint)

def runTool (call : NormalizedCall F) : ChatProg F (ToolResult F) := do
  let effectiveArgs := if call.name = "run_tests" then .verificationIgnorePaths ignored
    else .given call.args
  match ← guarded (executeTool call.name effectiveArgs) with
  | .ok result => return refuseLegacySubmission call.name result
  | .error exc => return toolExceptionResult call.name exc.type exc.describe

def recordEdit (call : NormalizedCall F) (result : ToolResult F) :
    ChatProg F (ToolResult F) :=
  match onStructuredEdit with
  | none => return result
  | some callback =>
    if result.returncode = 0 ∧ call.name ∈ structuredEditTools then do
      match ← guarded (callback result) with
      | .ok _ => return result
      | .error exc =>
        return toolExceptionResult call.name "UndoRecordError"
          ("The edit succeeded but its undo record could not be saved: " ++ exc.message)
    else return result

def requireAfterMutation (name : String) (result : ToolResult F) : ChatProg F Unit :=
  if name ∈ potentiallyMutatingTools ∧ result.returncode = 0 ∧ result.approved ∧
      result.exceptionInfo ≠ "ReadOnlyChatMode" then
    updateGate fun g => { g with requireVerification := true }
  else return ()

/-- The end of the loop body, the workspace being known. -/
def settleCall (name : String) (result : ToolResult F) (fingerprint : String) :
    ChatProg F (ToolResult F) :=
  if name = "run_tests" then do
    let result := checkHandoff result fingerprint
    updateGate (·.recordTest (decide (result.returncode = 0)) fingerprint)
    return result
  else do
    updateGate (·.sync fingerprint)
    return result

/-- One turn of the loop over the calls that are no submission: the result, and
the fingerprint to go on with. -/
def executeCall (call : NormalizedCall F) (currentFingerprint : String) :
    ChatProg F (ToolResult F × String) := do
  let result ← runTool ignored call
  let result ← recordEdit onStructuredEdit call result
  requireAfterMutation call.name result
  if call.name ∈ potentiallyMutatingTools then
    match ← guarded (captureWorkspaceFingerprint ignored) with
    | .ok fingerprint =>
      let result ← settleCall call.name result fingerprint
      return (result, fingerprint)
    | .error exc =>
      updateGate VerificationGate.captureFailed
      return (toolExceptionResult call.name "WorkspaceFingerprintError"
        ("Workspace fingerprint failed after tool execution: " ++ exc.message),
        currentFingerprint)
  else
    let result ← settleCall call.name result currentFingerprint
    return (result, currentFingerprint)

def executeCalls (initialCaptureError : String) : List (NormalizedCall F) → String →
    ChatProg F (List (Option (ToolResult F)))
  | [], _ => return []
  | call :: rest, currentFingerprint =>
    if call.name = "submit" then do
      let results ← executeCalls initialCaptureError rest currentFingerprint
      return none :: results
    else if initialCaptureError ≠ "" then do
      let results ← executeCalls initialCaptureError rest currentFingerprint
      return some (toolExceptionResult call.name "WorkspaceFingerprintError"
        initialCaptureError) :: results
    else do
      let (result, currentFingerprint) ← executeCall ignored onStructuredEdit call
        currentFingerprint
      let results ← executeCalls initialCaptureError rest currentFingerprint
      return some result :: results

def decideSubmission (calls : List (NormalizedCall F)) :
    ChatProg F (Option (String × String)) :=
  if calls.any fun call => call.name = "submit" then do
    match ← guarded (do
      let fingerprint ← captureWorkspaceFingerprint ignored
      let s ← self
      updateGate fun g => (g.submissionError fingerprint).2
      return (s.gate.submissionError fingerprint).1) with
    | .ok submissionError => return submissionError
    | .error exc =>
      return some ("WorkspaceFingerprintError",
        "Submission blocked because workspace fingerprinting failed: " ++ exc.message)
  else return none

def executeSubmit (submissionError : Option (String × String)) (args : Json F) :
    ChatProg F (ToolResult F) :=
  match submissionError with
  | some (exceptionInfo, output) => return blockedSubmission exceptionInfo output
  | none => do
    match ← guarded (executeTool "submit" (.given args)) with
    | .ok result => return result
    | .error exc =>
      return blockedSubmission "WorkspaceFingerprintError"
        ("Submission blocked because workspace fingerprinting failed: " ++ exc.message)

def executeSubmits (submissionError : Option (String × String)) :
    List (NormalizedCall F) → List (Option (ToolResult F)) →
    ChatProg F (List (ExecutedToolCall F))
  | call :: calls, some result :: results => do
    let executed ← executeSubmits submissionError calls results
    return ⟨call.name, call.args, call.toolCallId, result⟩ :: executed
  | call :: calls, none :: results => do
    let result ← executeSubmit submissionError call.args
    let executed ← executeSubmits submissionError calls results
    return ⟨call.name, call.args, call.toolCallId, result⟩ :: executed
  | _, _ => return []

/-- `execute_tool_batch` on `self._gate`. -/
def executeToolBatch (toolCalls : List (ToolCall F)) : ChatProg F (ToolBatchOutcome F) := do
  let normalized := toolCalls.mapIdx normalizeCall
  let (initialCaptureError, fingerprint) ← initialCapture ignored
  let results ← executeCalls ignored onStructuredEdit initialCaptureError normalized fingerprint
  let submissionError ← decideSubmission ignored normalized
  let executed ← executeSubmits submissionError normalized results
  return batchOutcome executed

end Batch

/-! ## Messages and events -/

def undoRecord (path : String) (existedBefore : Bool) (result : ToolResult F) : Json F :=
  .obj [("path", .str path), ("existed_before", .bool existedBefore),
    ("before_content", .str (result.beforeContent.getD "")),
    ("before_hash", .str result.beforeHash), ("after_hash", .str result.afterHash)]

/-- `_record_undo`. -/
def recordUndo (result : ToolResult F) : ChatProg F Unit :=
  match result.fileExistedBefore with
  | some existedBefore =>
    if result.filePath = "" then return ()
    else modify fun s => { s with
      undoRecords := s.undoRecords ++ [undoRecord result.filePath existedBefore result] }
  | none => return ()

def pendingCode (g : VerificationGate) : Bool :=
  g.hasChanges || g.status = .required || g.status = .failed

/-- `limit_model_tool_calls` on the model's reply, as a message of the history. -/
def replyMessage [Json.PyFloat F] (repr : Json F → String) (reply : AIMessage F) :
    BaseMessage F :=
  if reply.toolCalls.length ≤ maxToolCallsPerMessage then
    { type := .ai, content := reply.content, toolCalls := reply.toolCalls, toolCallId := ""
      additionalKwargs := reply.additionalKwargs }
  else
    { type := .ai
      content := .str ((if reply.content.truthy then pyStr repr reply.content else "") ++
        "\n[Runtime kept the first " ++ toString maxToolCallsPerMessage ++ " of " ++
        toString reply.toolCalls.length ++
        " tool calls; split further work into later turns.]")
      toolCalls := reply.toolCalls.take maxToolCallsPerMessage
      toolCallId := ""
      additionalKwargs := Dict.pop reply.additionalKwargs "tool_calls" }

/-- One call of a message, as the batch reads it. -/
def toolCallOf (repr : Json F → String) [Json.PyFloat F] (call : Dict (Json F)) : ToolCall F where
  name := callName repr call
  args := (call.get? "args").getD (.obj [])
  id := match call.get? "id" with
    | some id => if id.truthy then some (pyStr repr id) else none
    | none => none

def correction : String :=
  "The workspace contains unsubmitted changes. Do not claim completion in " ++
  "plain text. Run the configured tests if needed, then call submit."

section Turn

variable [Json.PyFloat F] (env : ChatEnv F)

/-- `audit_tool_calls`. -/
def auditToolCalls (calls : List (Dict (Json F))) : Json F :=
  .arr (calls.map fun call => .obj [("name", (call.get? "name").getD .null),
    ("args", env.auditToolArgs (callName env.repr call) (match call.get? "args" with
      | some (.obj args) => .obj args
      | _ => .obj [])),
    ("id", (call.get? "id").getD .null)])

def modelEvent (step : Nat) (content : String) (calls : List (Dict (Json F))) : Json F :=
  redactData env.redactor.redactText (.obj [("type", .str "model"), ("step", .int step),
    ("content", .str (truncateText content defaultOutputLimit)),
    ("tool_calls", auditToolCalls env calls)])

/-- `_tool_event`. -/
def toolEvent (step : Nat) (executed : ExecutedToolCall F) : Json F :=
  let result := executed.result
  redactData env.redactor.redactText (.obj ([("type", .str "tool"), ("step", .int step),
    ("tool", .str executed.name), ("args", env.auditToolArgs executed.name executed.args),
    ("command", .str (truncateText result.command defaultOutputLimit)),
    ("returncode", .int result.returncode), ("duration_ms", .int result.durationMs),
    ("output", .str (truncateText result.output defaultOutputLimit)),
    ("exception_info", .str (truncateText result.exceptionInfo defaultOutputLimit)),
    ("submitted", .bool result.submitted), ("blocked", .bool result.blocked)] ++
    (match result.testsRun with
      | some n => [("tests_run", .int n)]
      | none => []) ++
    (if result.verificationChecks.isEmpty then []
      else [("verification_checks",
        .arr (result.verificationChecks.map fun e => e.toDict true))])))

def toolMessage (executed : ExecutedToolCall F) : BaseMessage F where
  type := .tool
  content := .str (Json.dumps spacedStyle
    (redactData env.redactor.redactText executed.result.toObservation))
  toolCalls := []
  toolCallId := executed.toolCallId
  additionalKwargs := []

def announcement (executed : ExecutedToolCall F) : String :=
  "\n[" ++ executed.name ++ " rc=" ++ toString executed.result.returncode ++ "]\n" ++
    truncateText executed.result.output 2000

def errorEvent (error : String) : Json F :=
  .obj [("type", .str "error"), ("step", .int 0), ("error", .str error)]

def formatErrorEvent (step : Nat) : Json F :=
  .obj [("type", .str "format_error"), ("step", .int step),
    ("reason", .str "unsubmitted_workspace_changes")]

/-! ## Saving -/

def maxPersistedEvents : Nat := 2000

/-- The document of a session, before redaction. -/
def trajectory (s : Chat F) (undoJournal : String) (durationMs : Int) : Json F :=
  .obj [("mode", .str "chat"), ("resume_schema", .int 1), ("resumable", .bool true),
    ("cwd", .str env.cwd), ("sandbox", env.sandbox), ("duration_ms", .int durationMs),
    ("exit_status", .str s.exitStatus), ("verification_status", .str s.gate.status.text),
    ("has_changes", .bool s.gate.hasChanges),
    ("baseline_fingerprint", .str s.gate.baselineFingerprint),
    ("current_fingerprint", .str s.gate.currentFingerprint),
    ("verified_fingerprint", .str s.gate.verifiedFingerprint),
    ("require_verification", .bool s.gate.requireVerification),
    ("undo_journal", .str undoJournal),
    ("last_turn", match s.lastTurn with
      | some turn => .obj turn
      | none => .null),
    ("events_omitted", .int s.eventsOmitted), ("events", .arr s.events),
    ("messages", env.messagesToDict s.messages)]

def trimEvents (s : Chat F) : Chat F :=
  if maxPersistedEvents < s.events.length then
    { s with
      events := s.events.drop (s.events.length - maxPersistedEvents)
      eventsOmitted := s.eventsOmitted + (s.events.length - maxPersistedEvents : Nat) }
  else s

/-- `self.messages = compact_messages(...)`. -/
def compact : ChatProg F Unit := do
  let s ← self
  let messages ← lift (compactMessages env.repr s.messages env.contextCharBudget false)
  modify fun s => { s with messages := messages }

def saveUndo (records : List (Json F)) : ChatProg F String :=
  if records.isEmpty then return "" else writeUndoJournal records

/-- `_save`. -/
def save (exitStatus : String) : ChatProg F Unit := do
  modify fun s => { s with exitStatus := exitStatus }
  compact env
  modify trimEvents
  if env.trajectoryPath = none then return ()
  else
    let s ← self
    let undoJournal ← saveUndo s.undoRecords
    let durationMs ← durationMs
    writeJson (redactData env.redactor.redactText (trajectory env s undoJournal durationMs))

/-! ## A turn -/

/-- What one pass through the loop of a turn ends in. -/
inductive StepEnd where
  | goOn (finalText : String)
  | returned (result : TurnResult)

/-- `self.last_turn = result; self._save(status); return result`. -/
def finish (result : TurnResult) (exitStatus : String) : ChatProg F TurnResult := do
  modify fun s => { s with lastTurn := some result.toDict }
  save env exitStatus
  return result

/-- A reply without calls. -/
def answer (codingMode : Bool) (step : Nat) (finalText : String) : ChatProg F StepEnd := do
  let current ← captureWorkspaceFingerprint env.ignored
  updateGate (·.sync current)
  let s ← self
  if pendingCode s.gate ∧ codingMode then
    appendMessage (humanMessage correction)
    appendEvent (formatErrorEvent step)
    save env "verification_required"
    return .goOn finalText
  else
    let result ← finish env
      { text := finalText
        status := if pendingCode s.gate then "answered_with_pending_changes" else "answered"
        completed := true
        verified := decide (s.gate.status = .passed)
        steps := step } "chatting"
    return .returned result

/-- The messages and events of the executed calls. -/
def recordCalls (step : Nat) : List (ExecutedToolCall F) → ChatProg F Unit
  | [] => return ()
  | executed :: rest => do
    appendEvent (toolEvent env step executed)
    appendMessage (toolMessage env executed)
    if env.quiet then recordCalls step rest
    else do
      print (announcement executed)
      recordCalls step rest

/-- A batch with an accepted submission. -/
def acceptBatch (step : Nat) (text : String) : ChatProg F TurnResult := do
  let s ← self
  updateGate VerificationGate.acceptSubmission
  finish env
    { text := text
      status := "submitted"
      completed := true
      verified := decide (s.gate.status = .passed)
      steps := step } "submitted"

/-- A reply with calls. -/
def runCalls (step : Nat) (finalText : String) (calls : List (Dict (Json F))) :
    ChatProg F StepEnd := do
  let batch ← executeToolBatch env.ignored (some recordUndo) (calls.map (toolCallOf env.repr))
  recordCalls env step batch.calls
  compact env
  save env "chatting"
  if batch.submitted then
    let result ← acceptBatch env step
      (if batch.submission = "" then finalText else batch.submission)
    return .returned result
  else return .goOn finalText

/-- One pass through the loop. -/
def respondStep (codingMode : Bool) (step : Nat) (finalText : String) : ChatProg F StepEnd := do
  modify fun s => { s with step := step }
  let s ← self
  let messages ← lift (compactMessages env.repr s.messages env.contextCharBudget false)
  let reply ← invokeModel messages
  let response := replyMessage env.repr reply
  appendMessage response
  let content := contentText env.repr response
  let finalText := if content = "" then finalText else content
  appendEvent (modelEvent env step content response.toolCalls)
  if response.toolCalls.isEmpty then answer env codingMode step finalText
  else runCalls env step finalText response.toolCalls

/-- The loop ran out. -/
def stepLimit : ChatProg F TurnResult := do
  let s ← self
  let status := if pendingCode s.gate then "turn_step_limit_unverified" else "turn_step_limit"
  finish env
    { text := "I could not complete this turn within the model-call limit. " ++
        "The session is still open; you can ask me to continue."
      status := status
      completed := false
      verified := false
      steps := env.maxStepsPerTurn
      error := "StepLimitExceeded" } status

/-- `for step in range(1, max_steps_per_turn + 1)`: what is left of it. -/
def respondSteps (codingMode : Bool) : Nat → Nat → String → ChatProg F TurnResult
  | 0, _, _ => stepLimit env
  | n + 1, step, finalText => do
    match ← respondStep env codingMode step finalText with
    | .goOn finalText => respondSteps codingMode n (step + 1) finalText
    | .returned result => return result

/-- `except KeyboardInterrupt` and `except Exception`. -/
def turnStopped (exc : PyExc) : ChatProg F TurnResult :=
  if exc.isException then do
    let error := env.redactor.redactText exc.describe
    appendEvent (errorEvent error)
    let s ← self
    finish env
      { text := "This turn stopped because of " ++ exc.type ++ ". " ++
          "The chat session is still open; retry or rephrase the request."
        status := "error:" ++ exc.type
        completed := false
        verified := false
        steps := s.step
        error := error } ("error:" ++ exc.type)
  else if exc.type = "KeyboardInterrupt" then do
    appendEvent (errorEvent "KeyboardInterrupt")
    save env "interrupted"
    throw exc
  else throw exc

/-- `respond_turn`. -/
def respondTurn (userText : String) (codingMode : Bool) : ChatProg F TurnResult := do
  let current ← captureWorkspaceFingerprint env.ignored
  updateGate (·.sync current)
  appendMessage (humanMessage userText)
  modify fun s => { s with step := 0 }
  Prog.catchWith (respondSteps env codingMode env.maxStepsPerTurn 1 "") (turnStopped env)

/-- `clear_context`. -/
def clearContext : ChatProg F Unit := do
  modify fun s => { s with messages := s.messages.take 1 }
  save env "chatting"

/-- `close`. -/
def close : ChatProg F Unit := do
  let s ← self
  if ["error:", "interrupted", "turn_step_limit"].any fun start => s.exitStatus.startsWith start then
    save env s.exitStatus
  else save env "closed"

/-! ## Starting and restoring -/

def systemMessage (content : String) : BaseMessage F where
  type := .system
  content := .str content
  toolCalls := []
  toolCallId := ""
  additionalKwargs := []

/-- A session without a checkpoint, the workspace having been captured. -/
def start (systemPrompt fingerprint : String) : Chat F where
  messages := [systemMessage (systemPrompt ++ "\n\nProject directory:\n" ++ env.cwd)]
  events := []
  eventsOmitted := 0
  undoRecords := []
  gate := VerificationGate.create fingerprint false
  exitStatus := "chatting"
  lastTurn := none
  step := 0

def turnResultFields : List String :=
  ["text", "status", "completed", "verified", "steps", "error"]

/-- `TurnResult(**raw)`, which has a default for the error alone. -/
def turnResultOf (raw : Dict (Json F)) : Except PyExc (Dict (Json F)) := do
  match raw.keys.find? (· ∉ turnResultFields) with
  | some key =>
    .error (typeError ("TurnResult.__init__() got an unexpected keyword argument '" ++ key ++ "'"))
  | none =>
    raiseIf (turnResultFields.dropLast.any (· ∉ raw.keys))
      (typeError "TurnResult.__init__() missing required positional arguments")
    return turnResultFields.map fun key => (key, (raw.get? key).getD (.str ""))

/-- `ends with unpaired tool calls`. -/
def endsUnpaired (messages : List (BaseMessage F)) : Bool :=
  match messages.getLast? with
  | some last => asksForTools last
  | none => false

section Restore

variable (data : Json F)

/-- The checks on a document, and its messages. -/
def restoreMessages : Except PyExc (List (BaseMessage F)) := do
  raiseIf ((data.getD "mode" .null).pyEq (.str "chat") = false)
    (valueError "resume trajectory is not a chat session")
  let schema ← pyInt (data.getD "resume_schema" (.int 0))
  raiseIf (schema ≠ 1) (valueError "chat trajectory does not contain a supported checkpoint")
  raiseIf (env.resolvePath (pyStr env.repr (data.getD "cwd" (.str ""))) ≠ env.cwd)
    (valueError "resume workspace does not match the chat trajectory cwd")
  let rawMessages := data.getD "messages" .null
  raiseIf (!(match rawMessages with
      | .arr (_ :: _) => true
      | _ => false)) (valueError "chat trajectory has no message checkpoint")
  let messages ← env.messagesFromDict rawMessages
  raiseIf (endsUnpaired messages = true)
    (valueError "chat checkpoint ends with unpaired tool calls")
  return messages

/-- The gate of a document: nothing it says is verified any more. -/
def restoreGate : VerificationGate :=
  let hasChanges := (data.getD "has_changes" (.bool false)).truthy
  let pending := hasChanges || (data.getD "require_verification" (.bool false)).truthy ||
    ["required", "failed"].contains
      (pyStr env.repr (data.getD "verification_status" (.str "")))
  { baselineFingerprint := pyStr env.repr (data.getD "baseline_fingerprint" (.str ""))
    currentFingerprint := pyStr env.repr (data.getD "current_fingerprint" (.str ""))
    verifiedFingerprint := ""
    status := if pending then .required else .notRequired
    hasChanges := hasChanges
    requireVerification := pending }

def restoreUndo : Except PyExc (List (Json F)) :=
  if (data.getD "undo_journal" .null).truthy then env.loadUndoRecords data else .ok []

def restoreLastTurn : Except PyExc (Option (Dict (Json F))) :=
  match data.getD "last_turn" .null with
  | .obj raw => do
    let turn ← turnResultOf raw
    return some turn
  | _ => .ok none

/-- `_restore`, the workspace having been captured. -/
def restore (currentFingerprint : String) : Except PyExc (Chat F) := do
  let messages ← restoreMessages env data
  let events ← pyList (data.getD "events" (.arr []))
  let omitted ← pyInt (data.getD "events_omitted" (.int 0))
  let undoRecords ← restoreUndo env data
  let gate := restoreGate env data
  raiseIf (gate.baselineFingerprint = "")
    (valueError "chat checkpoint has no baseline fingerprint")
  let lastTurn ← restoreLastTurn data
  return {
    messages := messages
    events := events.drop (events.length - maxPersistedEvents)
    eventsOmitted := max 0 omitted + (events.length - maxPersistedEvents : Nat)
    undoRecords := undoRecords
    gate := gate.sync currentFingerprint
    exitStatus := "chatting"
    lastTurn := lastTurn
    step := 0 }

end Restore

end Turn

end Chat

/-! ## A session's life -/

/-- `load_trajectory`: the document, and where it was found. -/
def Chat.loadTrajectory (path : String) : Json F → Json F
  | .obj kvs => .obj (Dict.set kvs "_trajectory_path" (.str path))
  | j => j

/-- What a signal raises between two statements is no `Exception`. -/
def interrupts (exc : PyExc) : Prop := exc.isException = false

/-- What may happen in a session: in a turn, to a trajectory file before it is
resumed from, and as the fingerprint a session starts with. -/
structure ChatConditions (F : Type) where
  admits : ChatWorld F → ObjEvent (ChatOp F) ChatOp.Res PyExc (Chat F) → Prop
  resumes : ChatWorld F → Json F → Prop
  fingerprint : String → Prop

abbrev ChatConditions.Acts (c : ChatConditions F) :
    ChatWorld F → ObjEvent (ChatOp F) ChatOp.Res PyExc (Chat F) → ChatWorld F → Prop :=
  ObjProg.Acts interrupts c.admits

/-- The sessions there can be, between two turns. The history is that of the
process: a session that is restored starts it over. -/
inductive ChatRun [Json.PyFloat F] (env : ChatEnv F) (c : ChatConditions F) : ChatWorld F → Prop
  | start (systemPrompt : String) {fingerprint : String} (h : c.fingerprint fingerprint) :
      ChatRun env c ⟨Chat.start env systemPrompt fingerprint, [], []⟩
  | restore {w : ChatWorld F} {data : Json F} {fingerprint : String} {self : Chat F}
      (h : ChatRun env c w) (hdata : c.resumes w data) (hfingerprint : c.fingerprint fingerprint)
      (hrestore : Chat.restore env data fingerprint = .ok self) : ChatRun env c ⟨self, [], []⟩
  | turn {w w' : ChatWorld F} {r : Except PyExc TurnResult} (h : ChatRun env c w)
      (userText : String) (codingMode : Bool)
      (hrun : Prog.Run c.Acts (Chat.respondTurn env userText codingMode) w r w') :
      ChatRun env c w'
  | clear {w w' : ChatWorld F} {r : Except PyExc Unit} (h : ChatRun env c w)
      (hrun : Prog.Run c.Acts (Chat.clearContext env) w r w') : ChatRun env c w'
  | close {w w' : ChatWorld F} {r : Except PyExc Unit} (h : ChatRun env c w)
      (hrun : Prog.Run c.Acts (Chat.close env) w r w') : ChatRun env c w'

/-! ## The access mode -/

def readOnlyChatTools : List String := ["list_files", "search_files", "read_file", "git_diff"]

/-- `ChatAccessController`: what stands between the session and its executor. -/
structure ChatAccessController where
  codingEnabled : Bool
  /-- `mode == "ask"`. -/
  askMode : Bool

/-- The controller's own answer, if it does not hand the call on. -/
def ChatAccessController.refusal (access : ChatAccessController) (name : String) :
    Option (ToolResult F) :=
  if access.codingEnabled = false ∧ name ∉ readOnlyChatTools then
    some { tool := name
           output := name ++ " requires an authoritative verification check. Restart with " ++
             "--test-command '<command>' or --check NAME '<command>'."
           returncode := -1
           durationMs := 0
           exceptionInfo := "TestCommandRequired"
           blocked := true }
  else if access.askMode ∧ name ∉ readOnlyChatTools then
    some { tool := name
           output := name ++
             " is blocked in read-only /ask mode. The user must enter /code first."
           returncode := -1
           durationMs := 0
           exceptionInfo := "ReadOnlyChatMode"
           blocked := true }
  else none

end MiniCodeAgent
