import MiniCodeAgent.Verification
import MiniCodeAgent.Security
import MiniCodeAgent.Builtins

/-!
# The agent's run as a state machine

`MiniCodeAgent` runs a graph of three nodes over an `AgentState`, and keeps
beside it what must outlive an exception: the event log, the last gate and the
state to resume from. A node is a function here, `callModel`, `runTools` or
`formatError`; the graph's routing is `routeAfterModel` and `routeAfterTools`;
and `AgentRun` is everything that can happen over the life of a trajectory
file. A model reply is any message. A tool batch is any trace of
`executeToolBatch`. A node may raise after any part of its own bookkeeping, a
run may be interrupted or killed anywhere, and whatever document then stands
in the trajectory file is what the next run resumes from.

What other modules do to messages, arguments and journals enters through
`AgentEnv`: compaction and LangChain's serialization of messages, the audit
form of tool arguments, and the undo journal's reader.
-/

namespace MiniCodeAgent

variable {F : Type}

inductive MessageType where
  | system
  | human
  | ai
  | tool
  deriving DecidableEq

structure Message (F : Type) where
  type : MessageType
  content : String
  toolCalls : List (ToolCall F) := []
  toolCallId : String := ""

/-- What the agent takes from outside its module. -/
structure AgentEnv (F : Type) where
  redactor : SecretRedactor
  /-- `audit_tool_args`. -/
  auditToolArgs : String → Json F → Json F
  /-- `serialize_messages(compact_messages(...))`. -/
  saveMessages : List (Message F) → Except PyExc (Json F)
  /-- `messages_from_dict`. -/
  loadMessages : Json F → Except PyExc (List (Message F))
  /-- `load_authenticated_undo_records`, which raises on a forged journal. -/
  loadUndoRecords : Json F → Except PyExc Unit
  /-- `str(Path(_).resolve())`. -/
  resolvePath : String → String
  /-- `str` of a container. -/
  repr : Json F → String
  cwd : String
  sandbox : String
  maxSteps : Nat
  ignored : List String

def usageKeys : List String :=
  ["input_tokens", "output_tokens", "total_tokens", "cached_input_tokens", "reasoning_tokens",
    "model_calls", "model_attempts", "model_failures"]

/-- `_usage_int`. -/
def usageInt : Option (Json F) → Int
  | some (.int i) => if 0 ≤ i then i else 0
  | _ => 0

/-- `AgentState`; the six fields of the gate stand together. -/
structure AgentState (F : Type) where
  messages : List (Message F)
  steps : Nat
  done : Bool
  exitStatus : String
  submission : String
  gate : VerificationGate
  events : List (Json F)

/-- The agent object, as far as a run writes to it. -/
structure AgentSelf (F : Type) where
  task : String
  eventLog : List (Json F)
  usage : Dict Int
  lastGate : Option VerificationGate
  resumeState : AgentState F
  lastModelFailure : Option (Dict (Json F))

/-! ## The three nodes -/

/-- What `_call_model` reads off a reply. -/
structure ModelReply (F : Type) where
  message : Message F
  usage : Dict Int
  auditedCalls : Json F
  requestIdSha256 : String

def maxToolCallsPerMessage : Nat := 32

/-- `limit_model_tool_calls`. -/
def limitModelToolCalls (m : Message F) : Message F :=
  if m.toolCalls.length ≤ maxToolCallsPerMessage then m
  else { m with
    content := m.content ++ "\n[Runtime kept the first " ++ toString maxToolCallsPerMessage ++
      " of " ++ toString m.toolCalls.length ++
      " tool calls; split further work into later turns.]"
    toolCalls := m.toolCalls.take maxToolCallsPerMessage }

def addUsage (usage : Dict Int) (key : String) (n : Int) : Dict Int :=
  Dict.set usage key ((Dict.get? usage key).getD 0 + n)

def modelEvent (env : AgentEnv F) (step : Nat) (attempt : Int) (reply : ModelReply F) :
    Json F :=
  .obj ([("type", .str "model"), ("step", .int step), ("model_attempt", .int attempt),
    ("content", .str (truncateText (env.redactor.redactText reply.message.content) defaultOutputLimit)),
    ("tool_calls", redactData env.redactor.redactText reply.auditedCalls)] ++
    (if reply.requestIdSha256 ≠ "" then
      [("request_id_sha256", .str reply.requestIdSha256)] else []))

def stepLimitEvent (step : Nat) : Json F :=
  .obj [("type", .str "limit"), ("reason", .str "step_limit"), ("step", .int step)]

/-- `_call_model` past the step limit. -/
def stopAtStepLimit (self : AgentSelf F) (state : AgentState F) :
    AgentSelf F × AgentState F :=
  ({ self with lastGate := some state.gate },
    { state with
      done := true
      exitStatus := "StepLimitExceeded"
      submission := ""
      events := state.events ++ [stepLimitEvent state.steps] })

/-- `_call_model` on a reply. -/
def callModel (env : AgentEnv F) (self : AgentSelf F) (state : AgentState F)
    (reply : ModelReply F) : AgentSelf F × AgentState F :=
  let usage := addUsage self.usage "model_attempts" 1
  let attempt := (Dict.get? usage "model_attempts").getD 0
  let usage := reply.usage.foldl (fun u kv => addUsage u kv.1 kv.2) usage
  let reply := { reply with message := limitModelToolCalls reply.message }
  let event := modelEvent env (state.steps + 1) attempt reply
  ({ self with
      eventLog := self.eventLog ++ [event]
      usage := addUsage usage "model_calls" 1
      lastGate := some state.gate
      lastModelFailure := none },
    { state with
      messages := state.messages ++ [reply.message]
      steps := state.steps + 1
      events := state.events ++ [event] })

/-- `_call_model` when `model.invoke` raises. -/
def failModel (self : AgentSelf F) (state : AgentState F) (failure : Dict (Json F)) :
    AgentSelf F :=
  let usage := addUsage self.usage "model_attempts" 1
  { self with
    usage := addUsage usage "model_failures" 1
    lastGate := some state.gate
    lastModelFailure := some failure }

/-- The event a tool call leaves in the trajectory. -/
def toolEvent (env : AgentEnv F) (step : Nat) (c : ExecutedToolCall F) : Json F :=
  let r := c.result
  .obj ([("type", .str "tool"), ("step", .int step), ("tool", .str c.name),
    ("args", redactData env.redactor.redactText (env.auditToolArgs c.name c.args)),
    ("command", .str (truncateText r.command defaultOutputLimit)),
    ("returncode", .int r.returncode), ("duration_ms", .int r.durationMs),
    ("output", .str (truncateText r.output defaultOutputLimit)),
    ("exception_info", .str (truncateText r.exceptionInfo defaultOutputLimit)),
    ("submitted", .bool r.submitted), ("approved", .bool r.approved),
    ("blocked", .bool r.blocked)] ++
    (match r.testsRun with
      | some n => [("tests_run", .int n)]
      | none => []) ++
    (if r.verificationChecks.isEmpty then []
      else [("verification_checks", .arr (r.verificationChecks.map fun e => e.toDict true))]))

section Nodes

variable [Json.PyFloat F]

def toolMessage (env : AgentEnv F) (c : ExecutedToolCall F) : Message F where
  type := .tool
  content := Json.dumps ⟨[',', ' '], [':', ' '], fun _ => []⟩
    (redactData env.redactor.redactText c.result.toObservation)
  toolCallId := c.toolCallId

/-- `_run_tools`, given what the batch returned. -/
def runTools (env : AgentEnv F) (self : AgentSelf F) (state : AgentState F)
    (batch : ToolBatchOutcome F) (gate : VerificationGate) : AgentSelf F × AgentState F :=
  let events := batch.calls.map (toolEvent env state.steps)
  let state := { state with
    messages := state.messages ++ batch.calls.map (toolMessage env)
    events := state.events ++ events
    done := batch.submitted
    exitStatus := if batch.submitted then "Submitted" else state.exitStatus
    submission := if batch.submitted then batch.submission else state.submission
    gate := gate }
  ({ self with
      eventLog := self.eventLog ++ events
      lastGate := some gate
      resumeState := state }, state)

end Nodes

def formatErrorEvent (step : Nat) : Json F :=
  .obj [("type", .str "format_error"), ("step", .int step), ("reason", .str "missing_tool_call")]

def formatCorrection : Message F where
  type := .human
  content := "Your previous response did not call any tool. " ++
    "Every response must include at least one tool call. " ++
    "Prefer read_file, apply_patch, run_tests, and git_diff for coding work. " ++
    "To finish, call submit with a concise summary."

/-- `_format_error`. -/
def formatError (self : AgentSelf F) (state : AgentState F) : AgentSelf F × AgentState F :=
  let event := formatErrorEvent state.steps
  let state := { state with
    messages := state.messages ++ [formatCorrection]
    events := state.events ++ [event] }
  ({ self with eventLog := self.eventLog ++ [event], resumeState := state }, state)

inductive Node where
  | model
  | tools
  | formatError
  | finish
  deriving DecidableEq

def routeAfterModel (state : AgentState F) : Node :=
  if state.done then .finish
  else match state.messages.getLast? with
    | some m => if m.toolCalls.isEmpty then .formatError else .tools
    | none => .formatError

def routeAfterTools (state : AgentState F) : Node :=
  if state.done then .finish else .model

/-! ## The documents a run writes -/

/-- `_model_step_count`. -/
def modelStepCount [Json.PyFloat F] (eventLog : List (Json F)) : Nat :=
  (eventLog.filter fun event => (event.getD "type" .null).pyEq (.str "model")).length

/-- What a document says besides the state: the clock's share of the duration
and the undo journal's name. -/
structure Stamp where
  durationMs : Int
  undoJournal : String

/-- The fields a checkpoint and the final trajectory share. -/
def trajectoryFields (env : AgentEnv F) (self : AgentSelf F) (stamp : Stamp)
    (exitStatus submission : String) (steps : Nat) (state : AgentState F)
    (workspaceChanges messages : Json F) (resumable : Bool) : Dict (Json F) :=
  [("task", .str self.task), ("mode", .str "run"), ("cwd", .str env.cwd),
    ("sandbox", .str env.sandbox), ("duration_ms", .int stamp.durationMs),
    ("steps", .int steps),
    ("model_usage", .obj (self.usage.map fun kv => (kv.1, .int kv.2))),
    ("exit_status", .str exitStatus), ("submission", .str submission),
    ("verification_status", .str state.gate.status.text),
    ("baseline_fingerprint", .str state.gate.baselineFingerprint),
    ("current_fingerprint", .str state.gate.currentFingerprint),
    ("verified_fingerprint", .str state.gate.verifiedFingerprint),
    ("has_changes", .bool state.gate.hasChanges),
    ("require_verification", .bool state.gate.requireVerification),
    ("resume_schema", .int 1), ("resumable", .bool resumable),
    ("workspace_changes", workspaceChanges), ("undo_journal", .str stamp.undoJournal),
    ("events", .arr state.events), ("messages", messages)]

/-- `_checkpoint`: the document written, unless the messages cannot be saved. -/
def checkpoint (env : AgentEnv F) (self : AgentSelf F) (stamp : Stamp) (exitStatus : String)
    (steps : Nat) (state : AgentState F) : Except PyExc (Json F) := do
  let messages ← env.saveMessages state.messages
  return redactData env.redactor.redactText (.obj (trajectoryFields env self stamp exitStatus "" steps
    state (.obj []) messages (exitStatus ≠ "Submitted")))

/-- The trajectory `run` returns and writes last. `error` is the text of the
exception the graph ended with, if it did. -/
def finalTrajectory (env : AgentEnv F) (self : AgentSelf F) (stamp : Stamp)
    (workspaceChanges : Json F) (state : AgentState F) (error : String) :
    Except PyExc (Json F) := do
  let messages ← env.saveMessages state.messages
  let exitStatus := if state.exitStatus = "" then "Stopped" else state.exitStatus
  let fields := trajectoryFields env self stamp exitStatus state.submission state.steps state
    workspaceChanges messages (state.exitStatus ≠ "Submitted")
  match redactData env.redactor.redactText (.obj fields) with
  | .obj kvs => return .obj (if error = "" then kvs else Dict.set kvs "error" (.str error))
  | j => return j

/-- The state `run` is left with when the graph raises an `Exception`. -/
def failedState [Json.PyFloat F] (env : AgentEnv F) (self : AgentSelf F) (exc : PyExc) :
    AgentSelf F × AgentState F :=
  let event : Json F := .obj ([("type", .str "error"),
    ("step", .int (modelStepCount self.eventLog)),
    ("error", .str (env.redactor.redactText exc.describe))] ++ self.lastModelFailure.getD [])
  let self := { self with eventLog := self.eventLog ++ [event] }
  (self, { self.resumeState with
    steps := modelStepCount self.eventLog
    exitStatus := "Error:" ++ exc.type
    gate := self.lastGate.getD self.resumeState.gate
    events := self.eventLog })

/-! ## Starting and resuming -/

def initialState (prompt : List (Message F)) (fingerprint : String) : AgentState F where
  messages := prompt
  steps := 0
  done := false
  exitStatus := ""
  submission := ""
  gate := VerificationGate.create fingerprint true
  events := []

def initialSelf (task fingerprint : String) (state : AgentState F) : AgentSelf F where
  task := task
  eventLog := []
  usage := usageKeys.map fun key => (key, 0)
  lastGate := some (VerificationGate.create fingerprint true)
  resumeState := state
  lastModelFailure := none

def resumeNotice : String :=
  "This run was resumed from a safe checkpoint. Treat the current " ++
  "workspace as authoritative and rerun the configured tests before submit."

/-- The gate a resumed run starts from: the document is an audit artifact, not
a trust anchor, so nothing it says is verified any more. -/
def restoreGate (baseline current : String) (hasChanges : Bool) (currentFingerprint : String) :
    VerificationGate :=
  ({ baselineFingerprint := baseline
     currentFingerprint := current
     verifiedFingerprint := ""
     status := .required
     hasChanges := hasChanges
     requireVerification := true } : VerificationGate).sync currentFingerprint

section Restore

variable [Json.PyFloat F] (env : AgentEnv F) (data : Json F)

/-- `data.get("resumable") is False or data.get("exit_status") == "Submitted"`. -/
def notResumable : Bool :=
  (match data.get? "resumable" with
    | some (.bool false) => true
    | _ => false) ||
    (data.getD "exit_status" .null).pyEq (.str "Submitted")

/-- The checks on a document and a task, and the task to go on with. -/
def restoreTask (task : String) : Except PyExc String := do
  raiseIf ((data.getD "mode" (.str "run")).pyEq (.str "run") = false)
    (valueError "resume trajectory is not a run session")
  let schema ← pyInt (data.getD "resume_schema" (.int 0))
  raiseIf (schema ≠ 1)
    (valueError "trajectory does not contain a supported resume checkpoint")
  raiseIf (notResumable data = true)
    (valueError "trajectory is already submitted and is not resumable")
  raiseIf (env.resolvePath (pyStr env.repr (data.getD "cwd" (.str ""))) ≠ env.cwd)
    (valueError "resume workspace does not match the trajectory cwd")
  let savedTask := pyStrip (pyStr env.repr (data.getD "task" (.str "")))
  raiseIf (savedTask = "") (valueError "resume trajectory has no task")
  raiseIf (pyStrip task ≠ "" ∧ pyStrip task ≠ savedTask)
    (valueError "supplied task does not match the resume trajectory")
  return savedTask

/-- Whether the last message is one of the given type the code asks about. -/
def endsWith (messages : List (Message F)) (p : Message F → Bool) : Bool :=
  (messages.getLast?.map p).getD false

def restoreMessages : Except PyExc (List (Message F)) := do
  let rawMessages := data.getD "messages" .null
  raiseIf (!(match rawMessages with
      | .arr (_ :: _) => true
      | _ => false)) (valueError "resume trajectory has no message checkpoint")
  let messages ← env.loadMessages rawMessages
  raiseIf (endsWith messages fun m => m.type = .ai && !m.toolCalls.isEmpty)
    (valueError "resume checkpoint ends with unexecuted tool calls")
  return if endsWith messages fun m => m.type = .human && m.content = resumeNotice then messages
    else messages ++ [{ type := .human, content := resumeNotice }]

def restoreUndo : Except PyExc Unit :=
  if (data.getD "undo_journal" .null).truthy then env.loadUndoRecords data else .ok ()

/-- `_restore_state`. -/
def restoreState (task currentFingerprint : String) :
    Except PyExc (AgentSelf F × AgentState F) := do
  let savedTask ← restoreTask env data task
  let messages ← restoreMessages env data
  let eventLog ← pyList (data.getD "events" (.arr []))
  let savedUsage := data.getD "model_usage" .null
  restoreUndo env data
  let baseline := pyStr env.repr (data.getD "baseline_fingerprint" (.str ""))
  let gate := restoreGate baseline
    (pyStr env.repr (data.getD "current_fingerprint" (.str "")))
    (data.getD "has_changes" (.bool false)).truthy currentFingerprint
  raiseIf (baseline = "") (valueError "resume checkpoint has no baseline fingerprint")
  let steps ← pyInt (data.getD "steps" (.int 0))
  let state : AgentState F :=
    { messages := messages
      steps := steps.toNat
      done := false
      exitStatus := ""
      submission := ""
      gate := gate
      events := eventLog }
  return ({ task := savedTask
            eventLog := eventLog
            usage := usageKeys.map fun key => (key, usageInt (savedUsage.get? key))
            lastGate := some gate
            resumeState := state
            lastModelFailure := none }, state)

/-- What a resumed run starts with, as far as it does not come from the
document's messages and counters. -/
theorem restoreState_ok {env : AgentEnv F} {data : Json F} {task fingerprint : String}
    {self : AgentSelf F} {state : AgentState F}
    (h : restoreState env data task fingerprint = .ok (self, state)) :
    ∃ baseline current hasChanges,
      state.gate = restoreGate baseline current hasChanges fingerprint ∧
      pyList (data.getD "events" (.arr [])) = .ok state.events ∧
      self.eventLog = state.events ∧ self.resumeState = state ∧
      self.lastGate = some state.gate ∧ state.done = false ∧ state.exitStatus = "" := by
  simp only [restoreState, except_bind_ok] at h
  obtain ⟨savedTask, -, messages, -, eventLog, hevents, -, -, -, -, steps, -, h⟩ := h
  cases h
  exact ⟨_, _, _, rfl, hevents, rfl, rfl, rfl, rfl, rfl⟩

end Restore

/-! ## A trajectory's life -/

/-- A gate in a task that requires verification, with what the executor was
asked since the last start or resume. A batch may be stopped anywhere; the run
then goes on from what `_restore_state` makes of a document. -/
inductive GateRun [Json.PyFloat F] (env : AgentEnv F) :
    VerificationGate → List (BatchEvent F) → Prop
  | create (fingerprint : String) : GateRun env (VerificationGate.create fingerprint true) []
  | batch {g g' : VerificationGate} {t u : List (BatchEvent F)} (h : GateRun env g t)
      (ignored : List String) (onStructuredEdit : Bool) (calls : List (ToolCall F))
      {outcome : ToolBatchOutcome F}
      (hbatch : Prog.Trace (executeToolBatch ignored onStructuredEdit calls g) u
        (.ok (outcome, g'))) :
      GateRun env g' (t ++ u)
  | resume {g : VerificationGate} {t u : List (BatchEvent F)} (h : GateRun env g t)
      (ignored : List String) (onStructuredEdit : Bool) (calls : List (ToolCall F))
      {p : BatchProg F (ToolBatchOutcome F × VerificationGate)}
      (hstopped : Prog.After (executeToolBatch ignored onStructuredEdit calls g) u p)
      (checkpoint : Json F) (task fingerprint : String) {self : AgentSelf F}
      {state : AgentState F}
      (hrestore : restoreState env checkpoint task fingerprint = .ok (self, state)) :
      GateRun env state.gate []

/-- A `run` call under way: the object, the graph's state and where it is. -/
structure Session (F : Type) where
  self : AgentSelf F
  state : AgentState F
  node : Node

section Life

variable [Json.PyFloat F] (env : AgentEnv F)

/-- What a node has written to the object, and asked of the executor, by the
time it is stopped. -/
inductive StoppedAt : Session F → AgentSelf F → List (BatchEvent F) → Prop
  | between (s : Session F) : StoppedAt s s.self []
  | modelEntered (s : Session F) (hnode : s.node = .model) :
      StoppedAt s { s.self with lastGate := some s.state.gate } []
  | modelFailed (s : Session F) (hnode : s.node = .model) (failure : Dict (Json F)) :
      StoppedAt s (failModel s.self s.state failure) []
  | modelCalled (s : Session F) (hnode : s.node = .model) (reply : ModelReply F) :
      StoppedAt s (callModel env s.self s.state reply).1 []
  | duringBatch (s : Session F) (hnode : s.node = .tools) {m : Message F}
      (hlast : s.state.messages.getLast? = some m) {u : List (BatchEvent F)}
      {p : BatchProg F (ToolBatchOutcome F × VerificationGate)}
      (hbatch : Prog.After (executeToolBatch env.ignored true m.toolCalls s.state.gate) u p) :
      StoppedAt s s.self u
  | afterBatch (s : Session F) (hnode : s.node = .tools) {m : Message F}
      (hlast : s.state.messages.getLast? = some m) {u : List (BatchEvent F)}
      {batch : ToolBatchOutcome F} {gate : VerificationGate}
      (hbatch : Prog.Trace (executeToolBatch env.ignored true m.toolCalls s.state.gate) u
        (.ok (batch, gate))) (logged : Nat) :
      StoppedAt s { s.self with
        eventLog := s.self.eventLog ++
          (batch.calls.map (toolEvent env s.state.steps)).take logged
        lastGate := some gate } u
  | batchRecorded (s : Session F) (hnode : s.node = .tools) {m : Message F}
      (hlast : s.state.messages.getLast? = some m) {u : List (BatchEvent F)}
      {batch : ToolBatchOutcome F} {gate : VerificationGate}
      (hbatch : Prog.Trace (executeToolBatch env.ignored true m.toolCalls s.state.gate) u
        (.ok (batch, gate))) :
      StoppedAt s (runTools env s.self s.state batch gate).1 u
  | formatErrorRecorded (s : Session F) (hnode : s.node = .formatError) :
      StoppedAt s (formatError s.self s.state).1 []

/-- The trajectory file after `run` has caught an exception: the checkpoint and
the final trajectory are tried in turn, and the first that fails ends `run`. -/
inductive FailedSaves (self : AgentSelf F) (exc : PyExc) (saved : Option (Json F)) :
    Option (Json F) → Prop
  | checkpointFails : FailedSaves self exc saved saved
  | trajectoryFails (stamp : Stamp) {doc : Json F}
      (hdoc : checkpoint env (failedState env self exc).1 stamp ("Error:" ++ exc.type)
        (failedState env self exc).2.steps (failedState env self exc).2 = .ok doc) :
      FailedSaves self exc saved (some doc)
  | both (stamp : Stamp) (workspaceChanges : Json F) {trajectory : Json F}
      (hdoc : finalTrajectory env (failedState env self exc).1 stamp workspaceChanges
        (failedState env self exc).2 (env.redactor.redactText exc.describe) = .ok trajectory) :
      FailedSaves self exc saved (some trajectory)

/-- Everything that can happen to a trajectory file: the session under way, if
any, the document saved, if any, and what the executor was asked since the
last start or resume. -/
inductive AgentRun : Option (Session F) → Option (Json F) → List (BatchEvent F) → Prop
  | idle : AgentRun none none []
  | start {saved t doc} (h : AgentRun none saved t) (task fingerprint : String)
      (prompt : List (Message F)) (stamp : Stamp)
      (hdoc : checkpoint env (initialSelf task fingerprint (initialState prompt fingerprint))
        stamp "Running" 0 (initialState prompt fingerprint) = .ok doc) :
      AgentRun (some ⟨initialSelf task fingerprint (initialState prompt fingerprint),
        initialState prompt fingerprint, .model⟩) (some doc) []
  | resume {data t self state doc} (h : AgentRun none (some data) t)
      (task fingerprint : String) (stamp : Stamp)
      (hrestore : restoreState env data task fingerprint = .ok (self, state))
      (hdoc : checkpoint env self stamp "Running" state.steps state = .ok doc) :
      AgentRun (some ⟨self, state, .model⟩) (some doc) []
  | stepLimit {s saved t} (h : AgentRun (some s) saved t) (hnode : s.node = .model)
      (hlimit : env.maxSteps ≤ s.state.steps) :
      AgentRun (some ⟨(stopAtStepLimit s.self s.state).1,
        (stopAtStepLimit s.self s.state).2, .finish⟩) saved t
  | model {s saved t} (h : AgentRun (some s) saved t) (hnode : s.node = .model)
      (hlimit : s.state.steps < env.maxSteps) (reply : ModelReply F) :
      AgentRun (some ⟨(callModel env s.self s.state reply).1,
        (callModel env s.self s.state reply).2,
        routeAfterModel (callModel env s.self s.state reply).2⟩) saved t
  | tools {s saved t u m batch gate doc} (h : AgentRun (some s) saved t)
      (hnode : s.node = .tools) (hlast : s.state.messages.getLast? = some m)
      (hbatch : Prog.Trace (executeToolBatch env.ignored true m.toolCalls s.state.gate) u
        (.ok (batch, gate)))
      (stamp : Stamp)
      (hdoc : checkpoint env (runTools env s.self s.state batch gate).1 stamp
        (if batch.submitted then "Submitted" else "Running") s.state.steps
        (runTools env s.self s.state batch gate).2 = .ok doc) :
      AgentRun (some ⟨(runTools env s.self s.state batch gate).1,
        (runTools env s.self s.state batch gate).2,
        routeAfterTools (runTools env s.self s.state batch gate).2⟩) (some doc) (t ++ u)
  | formatError {s saved t doc} (h : AgentRun (some s) saved t)
      (hnode : s.node = .formatError) (stamp : Stamp)
      (hdoc : checkpoint env (MiniCodeAgent.formatError s.self s.state).1 stamp "Running"
        s.state.steps (MiniCodeAgent.formatError s.self s.state).2 = .ok doc) :
      AgentRun (some ⟨(MiniCodeAgent.formatError s.self s.state).1,
        (MiniCodeAgent.formatError s.self s.state).2, .model⟩) (some doc) t
  | raises {s saved t self u saved'} (h : AgentRun (some s) saved t)
      (hstop : StoppedAt env s self u) (exc : PyExc) (hexc : exc.isException = true)
      (hsaved : FailedSaves env self exc saved saved') :
      AgentRun none saved' (t ++ u)
  | interrupted {s saved t self u doc} (h : AgentRun (some s) saved t)
      (hstop : StoppedAt env s self u) (exc : PyExc) (stamp : Stamp)
      (hexc : exc.isException = false)
      (hdoc : checkpoint env self stamp ("Interrupted:" ++ exc.type)
        (modelStepCount self.eventLog) self.resumeState = .ok doc) :
      AgentRun none (some doc) (t ++ u)
  | killed {s saved t self u} (h : AgentRun (some s) saved t) (hstop : StoppedAt env s self u) :
      AgentRun none saved (t ++ u)
  | finish {s saved t trajectory} (h : AgentRun (some s) saved t)
      (hnode : s.node = .finish) (stamp : Stamp) (workspaceChanges : Json F)
      (hdoc : finalTrajectory env s.self stamp workspaceChanges s.state "" = .ok trajectory) :
      AgentRun none (some trajectory) t

end Life

end MiniCodeAgent
