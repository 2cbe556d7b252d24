import MiniCodeAgent.Proofs.ReceiptEvidence

/-!
# The step count of a trajectory file

The ceiling on a run's steps is cumulative: a resumed run goes on from the
steps its document states. `Checkpoints` keeps, beside the session under way,
every document written since the start, the newest first. The state counts its
own steps, the event log records them, and both agree at every node; an
exception takes count and events from the log. An interruption does not: it
takes the count from the log and the events from the state to resume from. Once
a model has replied and its calls have not been answered yet, the log is one
model event ahead, and the document states a step it has no event for.
-/

namespace MiniCodeAgent

variable {F : Type}

/-! ## The documents of a run -/

section Documents

variable [Json.PyFloat F] (env : AgentEnv F)

/-- What is written once `run` has caught an exception. -/
inductive FailedDocuments (self : AgentSelf F) (exc : PyExc) : List (Json F) → Prop
  | none : FailedDocuments self exc []
  | checkpoint (stamp : Stamp) {doc : Json F}
      (hdoc : MiniCodeAgent.checkpoint env (failedState env self exc).1 stamp
        ("Error:" ++ exc.type) (failedState env self exc).2.steps
        (failedState env self exc).2 = .ok doc) :
      FailedDocuments self exc [doc]
  | trajectory (stamp stamp' : Stamp) (workspaceChanges : Json F) {doc trajectory : Json F}
      (hdoc : MiniCodeAgent.checkpoint env (failedState env self exc).1 stamp
        ("Error:" ++ exc.type) (failedState env self exc).2.steps
        (failedState env self exc).2 = .ok doc)
      (hfinal : finalTrajectory env (failedState env self exc).1 stamp' workspaceChanges
        (failedState env self exc).2 (env.redactor.redactText exc.describe) = .ok trajectory) :
      FailedDocuments self exc [trajectory, doc]

/-- A run, its resumes included, and the documents it has written, the newest
first. An interruption strikes only an agent of which `Meets` holds. -/
inductive Checkpoints (Meets : AgentSelf F → Prop) :
    Option (Session F) → List (Json F) → Prop
  | start {doc} (task fingerprint : String) (prompt : List (Message F)) (stamp : Stamp)
      (hdoc : checkpoint env (initialSelf task fingerprint (initialState prompt fingerprint))
        stamp "Running" 0 (initialState prompt fingerprint) = .ok doc) :
      Checkpoints Meets (some ⟨initialSelf task fingerprint (initialState prompt fingerprint),
        initialState prompt fingerprint, .model⟩) [doc]
  | resume {data docs self state doc} (h : Checkpoints Meets none (data :: docs))
      (task fingerprint : String) (stamp : Stamp)
      (hrestore : restoreState env data task fingerprint = .ok (self, state))
      (hdoc : checkpoint env self stamp "Running" state.steps state = .ok doc) :
      Checkpoints Meets (some ⟨self, state, .model⟩) (doc :: data :: docs)
  | stepLimit {s docs} (h : Checkpoints Meets (some s) docs) (hnode : s.node = .model)
      (hlimit : env.maxSteps ≤ s.state.steps) :
      Checkpoints Meets (some ⟨(stopAtStepLimit s.self s.state).1,
        (stopAtStepLimit s.self s.state).2, .finish⟩) docs
  | model {s docs} (h : Checkpoints Meets (some s) docs) (hnode : s.node = .model)
      (hlimit : s.state.steps < env.maxSteps) (reply : ModelReply F) :
      Checkpoints Meets (some ⟨(callModel env s.self s.state reply).1,
        (callModel env s.self s.state reply).2,
        routeAfterModel (callModel env s.self s.state reply).2⟩) docs
  | tools {s docs u m batch gate doc} (h : Checkpoints Meets (some s) docs)
      (hnode : s.node = .tools) (hlast : s.state.messages.getLast? = some m)
      (hbatch : Prog.Trace (executeToolBatch env.ignored true m.toolCalls s.state.gate) u
        (.ok (batch, gate)))
      (stamp : Stamp)
      (hdoc : checkpoint env (runTools env s.self s.state batch gate).1 stamp
        (if batch.submitted then "Submitted" else "Running") s.state.steps
        (runTools env s.self s.state batch gate).2 = .ok doc) :
      Checkpoints Meets (some ⟨(runTools env s.self s.state batch gate).1,
        (runTools env s.self s.state batch gate).2,
        routeAfterTools (runTools env s.self s.state batch gate).2⟩) (doc :: docs)
  | formatError {s docs doc} (h : Checkpoints Meets (some s) docs)
      (hnode : s.node = .formatError) (stamp : Stamp)
      (hdoc : checkpoint env (MiniCodeAgent.formatError s.self s.state).1 stamp "Running"
        s.state.steps (MiniCodeAgent.formatError s.self s.state).2 = .ok doc) :
      Checkpoints Meets (some ⟨(MiniCodeAgent.formatError s.self s.state).1,
        (MiniCodeAgent.formatError s.self s.state).2, .model⟩) (doc :: docs)
  | raises {s docs self u new} (h : Checkpoints Meets (some s) docs)
      (hstop : StoppedAt env s self u) (exc : PyExc) (hexc : exc.isException = true)
      (hsaved : FailedDocuments env self exc new) : Checkpoints Meets none (new ++ docs)
  | interrupted {s docs self u doc} (h : Checkpoints Meets (some s) docs)
      (hstop : StoppedAt env s self u) (hmeets : Meets self) (exc : PyExc) (stamp : Stamp)
      (hexc : exc.isException = false)
      (hdoc : checkpoint env self stamp ("Interrupted:" ++ exc.type)
        (modelStepCount self.eventLog) self.resumeState = .ok doc) :
      Checkpoints Meets none (doc :: docs)
  | killed {s docs self u} (h : Checkpoints Meets (some s) docs)
      (hstop : StoppedAt env s self u) : Checkpoints Meets none docs
  | finish {s docs trajectory} (h : Checkpoints Meets (some s) docs)
      (hnode : s.node = .finish) (stamp : Stamp) (workspaceChanges : Json F)
      (hdoc : finalTrajectory env s.self stamp workspaceChanges s.state "" = .ok trajectory) :
      Checkpoints Meets none (trajectory :: docs)

end Documents

section

variable [Json.PyFloat F] {env : AgentEnv F}

/-! ## Every run is one with documents -/

/-- A run with its documents is a run of the trajectory file. -/
theorem Checkpoints.agentRun {Meets : AgentSelf F → Prop} {s : Option (Session F)}
    {docs : List (Json F)} (h : Checkpoints env Meets s docs) :
    ∃ t, AgentRun env s docs.head? t := by
  induction h with
  | start task fingerprint prompt stamp hdoc =>
      exact ⟨[], .start .idle task fingerprint prompt stamp hdoc⟩
  | resume _ task fingerprint stamp hrestore hdoc ih =>
      obtain ⟨t, ih⟩ := ih
      exact ⟨[], .resume ih task fingerprint stamp hrestore hdoc⟩
  | stepLimit _ hnode hlimit ih =>
      obtain ⟨t, ih⟩ := ih
      exact ⟨t, .stepLimit ih hnode hlimit⟩
  | model _ hnode hlimit reply ih =>
      obtain ⟨t, ih⟩ := ih
      exact ⟨t, .model ih hnode hlimit reply⟩
  | tools _ hnode hlast hbatch stamp hdoc ih =>
      obtain ⟨t, ih⟩ := ih
      exact ⟨_, .tools ih hnode hlast hbatch stamp hdoc⟩
  | formatError _ hnode stamp hdoc ih =>
      obtain ⟨t, ih⟩ := ih
      exact ⟨t, .formatError ih hnode stamp hdoc⟩
  | raises _ hstop exc hexc hsaved ih =>
      obtain ⟨t, ih⟩ := ih
      cases hsaved with
      | none => exact ⟨_, .raises ih hstop exc hexc .checkpointFails⟩
      | checkpoint stamp hdoc => exact ⟨_, .raises ih hstop exc hexc (.trajectoryFails stamp hdoc)⟩
      | trajectory stamp stamp' changes hdoc hfinal =>
          exact ⟨_, .raises ih hstop exc hexc (.both stamp' changes hfinal)⟩
  | interrupted _ hstop hmeets exc stamp hexc hdoc ih =>
      obtain ⟨t, ih⟩ := ih
      exact ⟨_, .interrupted ih hstop exc stamp hexc hdoc⟩
  | killed _ hstop ih =>
      obtain ⟨t, ih⟩ := ih
      exact ⟨_, .killed ih hstop⟩
  | finish _ hnode stamp changes hdoc ih =>
      obtain ⟨t, ih⟩ := ih
      exact ⟨t, .finish ih hnode stamp changes hdoc⟩

omit [Json.PyFloat F] in
/-- The two kinds of document fail together, on the messages. -/
theorem checkpoint_of_finalTrajectory {self : AgentSelf F} {stamp : Stamp}
    {changes : Json F} {state : AgentState F} {error : String} {trajectory : Json F}
    (h : finalTrajectory env self stamp changes state error = .ok trajectory)
    (exitStatus : String) (steps : Nat) :
    ∃ doc, checkpoint env self stamp exitStatus steps state = .ok doc := by
  rw [finalTrajectory, except_bind_ok] at h
  obtain ⟨messages, hmessages, -⟩ := h
  exact ⟨_, by rw [checkpoint, hmessages]; rfl⟩

/-- And every run of the trajectory file that has begun is one with documents. -/
theorem AgentRun.checkpoints {s : Option (Session F)} {saved : Option (Json F)}
    {t : List (BatchEvent F)} (h : AgentRun env s saved t) :
    (s = none ∧ saved = none) ∨
      ∃ docs, Checkpoints env (fun _ => True) s docs ∧ docs.head? = saved := by
  induction h with
  | idle => exact Or.inl ⟨rfl, rfl⟩
  | start _ task fingerprint prompt stamp hdoc _ =>
      exact Or.inr ⟨_, .start task fingerprint prompt stamp hdoc, rfl⟩
  | resume _ task fingerprint stamp hrestore hdoc ih =>
      obtain ⟨docs, hrun, hhead⟩ := ih.resolve_left (by simp)
      obtain ⟨data, docs, rfl⟩ := List.exists_cons_of_ne_nil (List.ne_nil_of_mem
        (List.mem_of_mem_head? hhead))
      cases hhead
      exact Or.inr ⟨_, .resume hrun task fingerprint stamp hrestore hdoc, rfl⟩
  | stepLimit _ hnode hlimit ih =>
      obtain ⟨docs, hrun, hhead⟩ := ih.resolve_left (by simp)
      exact Or.inr ⟨docs, .stepLimit hrun hnode hlimit, hhead⟩
  | model _ hnode hlimit reply ih =>
      obtain ⟨docs, hrun, hhead⟩ := ih.resolve_left (by simp)
      exact Or.inr ⟨docs, .model hrun hnode hlimit reply, hhead⟩
  | tools _ hnode hlast hbatch stamp hdoc ih =>
      obtain ⟨docs, hrun, hhead⟩ := ih.resolve_left (by simp)
      exact Or.inr ⟨_, .tools hrun hnode hlast hbatch stamp hdoc, rfl⟩
  | formatError _ hnode stamp hdoc ih =>
      obtain ⟨docs, hrun, hhead⟩ := ih.resolve_left (by simp)
      exact Or.inr ⟨_, .formatError hrun hnode stamp hdoc, rfl⟩
  | raises _ hstop exc hexc hsaved ih =>
      obtain ⟨docs, hrun, hhead⟩ := ih.resolve_left (by simp)
      cases hsaved with
      | checkpointFails => exact Or.inr ⟨_, .raises hrun hstop exc hexc .none, hhead⟩
      | trajectoryFails stamp hdoc =>
          exact Or.inr ⟨_, .raises hrun hstop exc hexc (.checkpoint stamp hdoc), rfl⟩
      | both stamp changes hfinal =>
          obtain ⟨doc, hdoc⟩ := checkpoint_of_finalTrajectory hfinal _ _
          exact Or.inr ⟨_, .raises hrun hstop exc hexc
            (.trajectory stamp stamp changes hdoc hfinal), rfl⟩
  | interrupted _ hstop exc stamp hexc hdoc ih =>
      obtain ⟨docs, hrun, hhead⟩ := ih.resolve_left (by simp)
      exact Or.inr ⟨_, .interrupted hrun hstop trivial exc stamp hexc hdoc, rfl⟩
  | killed _ hstop ih =>
      obtain ⟨docs, hrun, hhead⟩ := ih.resolve_left (by simp)
      exact Or.inr ⟨docs, .killed hrun hstop, hhead⟩
  | finish _ hnode stamp changes hdoc ih =>
      obtain ⟨docs, hrun, hhead⟩ := ih.resolve_left (by simp)
      exact Or.inr ⟨_, .finish hrun hnode stamp changes hdoc, rfl⟩

/-! ## Counting model events -/

theorem redactText_eq_model {r : SecretRedactor} {text : String}
    (h : r.redactText text = "model") : text = "model" :=
  r.eq_of_redactText_eq (by decide) h

omit [Json.PyFloat F] in
/-- An event is a model's after redaction exactly if it was one before. -/
theorem shown_type_eq_model {env : AgentEnv F} (hkeeps : KeepsShortText env.redactor)
    (event : Json F) :
    (shown env event).get? "type" = some (.str "model") ↔
      event.get? "type" = some (.str "model") := by
  rw [get?_shown]
  cases htype : event.get? "type" with
  | none => simp
  | some type =>
      cases type with
      | str text =>
          simp only [Option.map_some, redactData, Option.some.injEq, Json.str.injEq]
          constructor
          · exact redactText_eq_model
          · rintro rfl
            exact hkeeps.redactText (by decide)
      | _ => simp [redactData]

theorem modelStepCount_append (events events' : List (Json F)) :
    modelStepCount (events ++ events') = modelStepCount events + modelStepCount events' := by
  rw [modelStepCount, List.filter_append, List.length_append]
  rfl

theorem modelStepCount_map_shown (hkeeps : KeepsShortText env.redactor) (events : List (Json F)) :
    modelStepCount (events.map (shown env)) = modelStepCount events := by
  induction events with
  | nil => rfl
  | cons event events ih =>
      have hmodel : ((shown env event).getD "type" .null).pyEq (.str "model") =
          (event.getD "type" .null).pyEq (.str "model") := by
        rw [Bool.eq_iff_iff, Json.pyEq_str_right, Json.pyEq_str_right, Json.getD_null_eq_str,
          Json.getD_null_eq_str, shown_type_eq_model hkeeps]
      have hevent : modelStepCount [shown env event] = modelStepCount [event] := by
        simp only [modelStepCount, List.filter_cons, hmodel]
        split <;> rfl
      rw [List.map_cons, ← List.singleton_append, modelStepCount_append, ih, hevent,
        ← modelStepCount_append, List.singleton_append]

/-- Only an event of type `model` counts. -/
theorem modelStepCount_other {event : Json F} {type : String}
    (htype : event.get? "type" = some (.str type)) (hne : type ≠ "model") :
    modelStepCount [event] = 0 := by
  simp [modelStepCount, Json.getD_null_eq_str, htype, hne]

theorem modelStepCount_modelEvent (step : Nat) (attempt : Int) (reply : ModelReply F) :
    modelStepCount [modelEvent env step attempt reply] = 1 := by
  have htype : (modelEvent env step attempt reply).get? "type" = some (.str "model") := rfl
  simp [modelStepCount, Json.getD_null_eq_str, htype]

theorem modelStepCount_toolEvents (step : Nat) (calls : List (ExecutedToolCall F)) :
    modelStepCount (calls.map (toolEvent env step)) = 0 := by
  induction calls with
  | nil => rfl
  | cons call calls ih =>
      rw [List.map_cons, ← List.singleton_append, modelStepCount_append, ih,
        modelStepCount_other (get?_toolEvent env step call).1 (by decide)]

/-! ## The documents' count -/

/-- The document states `n` steps and shows `n` model events. -/
structure Counted (doc : Json F) (n : Nat) : Prop where
  steps : doc.get? "steps" = some (.int n)
  events : ∃ events, doc.get? "events" = some (.arr events) ∧ modelStepCount events = n

/-- Each document shows as many model events as it states steps, and none states
fewer than one written before it. -/
def StepAccounting (docs : List (Json F)) : Prop :=
  ∃ counts, List.Forall₂ Counted docs counts ∧ counts.Pairwise (· ≥ ·)

/-- The same, with a bound on what the documents state. -/
def AccountedUpTo (bound : Nat) (docs : List (Json F)) : Prop :=
  ∃ counts, List.Forall₂ Counted docs counts ∧ counts.Pairwise (· ≥ ·) ∧ ∀ n ∈ counts, n ≤ bound

theorem AccountedUpTo.unbounded {bound : Nat} {docs : List (Json F)}
    (h : AccountedUpTo bound docs) : StepAccounting docs := by
  obtain ⟨counts, hcounted, hrising, -⟩ := h
  exact ⟨counts, hcounted, hrising⟩

theorem AccountedUpTo.mono {m n : Nat} {docs : List (Json F)} (h : AccountedUpTo m docs)
    (hle : m ≤ n) : AccountedUpTo n docs := by
  obtain ⟨counts, hcounted, hrising, hbound⟩ := h
  exact ⟨counts, hcounted, hrising, fun k hk => (hbound k hk).trans hle⟩

theorem AccountedUpTo.cons {m n : Nat} {doc : Json F} {docs : List (Json F)}
    (h : AccountedUpTo m docs) (hdoc : Counted doc n) (hle : m ≤ n) :
    AccountedUpTo n (doc :: docs) := by
  obtain ⟨counts, hcounted, hrising, hbound⟩ := h.mono hle
  exact ⟨n :: counts, .cons hdoc hcounted, .cons hbound hrising,
    List.forall_mem_cons.2 ⟨le_rfl, hbound⟩⟩

/-- The newest document's count bounds them all. -/
theorem StepAccounting.head {doc : Json F} {docs : List (Json F)}
    (h : StepAccounting (doc :: docs)) : ∃ n, Counted doc n ∧ AccountedUpTo n (doc :: docs) := by
  obtain ⟨counts, hcounted, hrising⟩ := h
  cases hcounted with
  | @cons _ n _ counts hdoc hdocs =>
      exact ⟨n, hdoc, n :: counts, .cons hdoc hdocs, hrising,
        List.forall_mem_cons.2 ⟨le_rfl, (List.pairwise_cons.1 hrising).1⟩⟩

theorem counted_of_fields (hkeeps : KeepsShortText env.redactor) {self : AgentSelf F}
    {stamp : Stamp} {exitStatus submission : String} {steps : Nat} {state : AgentState F}
    {changes messages : Json F} {resumable : Bool} (hcount : modelStepCount state.events = steps) :
    Counted (redactData env.redactor.redactText (.obj (trajectoryFields env self stamp
      exitStatus submission steps state changes messages resumable))) steps := by
  constructor
  · rw [get?_redactData]
    rfl
  · refine ⟨state.events.map (shown env), ?_, by rw [modelStepCount_map_shown hkeeps, hcount]⟩
    rw [get?_redactData]
    simp [trajectoryFields, redactData, shown]

theorem checkpoint_counted (hkeeps : KeepsShortText env.redactor) {self : AgentSelf F}
    {stamp : Stamp} {exitStatus : String} {steps : Nat} {state : AgentState F} {doc : Json F}
    (h : checkpoint env self stamp exitStatus steps state = .ok doc)
    (hcount : modelStepCount state.events = steps) : Counted doc steps := by
  rw [checkpoint, except_bind_ok] at h
  obtain ⟨messages, -, h⟩ := h
  cases h
  exact counted_of_fields hkeeps hcount

theorem finalTrajectory_counted (hkeeps : KeepsShortText env.redactor) {self : AgentSelf F}
    {stamp : Stamp} {changes : Json F} {state : AgentState F} {error : String} {doc : Json F}
    (h : finalTrajectory env self stamp changes state error = .ok doc)
    (hcount : modelStepCount state.events = state.steps) : Counted doc state.steps := by
  rw [finalTrajectory, except_bind_ok] at h
  obtain ⟨messages, -, h⟩ := h
  have hfields : ∀ exitStatus resumable, Counted (redactData env.redactor.redactText (.obj
      (trajectoryFields env self stamp exitStatus state.submission state.steps state changes
        messages resumable))) state.steps :=
    fun _ _ => counted_of_fields hkeeps hcount
  simp only [redactData] at h hfields
  cases h
  obtain ⟨hsteps, events, hevents, hcounted⟩ := hfields
    (if state.exitStatus = "" then "Stopped" else state.exitStatus)
    (state.exitStatus ≠ "Submitted")
  by_cases herror : error = ""
  · rw [if_pos herror]
    exact ⟨hsteps, events, hevents, hcounted⟩
  · rw [if_neg herror]
    refine ⟨?_, events, ?_, hcounted⟩
    · rw [Json.get?_obj, Dict.get?_set, if_neg (by decide)]
      exact hsteps
    · rw [Json.get?_obj, Dict.get?_set, if_neg (by decide)]
      exact hevents

/-! ## The run -/

/-- A session whose log and events both count its steps. -/
structure InStep (s : Session F) : Prop where
  logged : modelStepCount s.self.eventLog = s.state.steps
  seen : modelStepCount s.state.events = s.state.steps

/-- The log is not ahead of the state to resume from. -/
def LogResumable (self : AgentSelf F) : Prop :=
  modelStepCount self.resumeState.events = modelStepCount self.eventLog

/-- What an interruption writes counts right exactly then. -/
theorem interrupted_counted (hkeeps : KeepsShortText env.redactor) {self : AgentSelf F}
    {stamp : Stamp} {exitStatus : String} {doc : Json F}
    (h : checkpoint env self stamp exitStatus (modelStepCount self.eventLog) self.resumeState =
      .ok doc) :
    (∃ n, Counted doc n) ↔ LogResumable self := by
  constructor
  · rintro ⟨n, hsteps, events, hevents, rfl⟩
    rw [checkpoint, except_bind_ok] at h
    obtain ⟨messages, -, h⟩ := h
    cases h
    rw [get?_redactData] at hsteps hevents
    have hcount : (modelStepCount self.eventLog : Int) = modelStepCount events := by
      simpa [trajectoryFields, redactData] using hsteps
    have hsaved : self.resumeState.events.map (redactData env.redactor.redactText) = events := by
      simpa [trajectoryFields, redactData] using hevents
    have hkept : modelStepCount
        (self.resumeState.events.map (redactData env.redactor.redactText)) =
        modelStepCount self.resumeState.events := modelStepCount_map_shown hkeeps _
    rw [← hsaved, hkept] at hcount
    exact (Int.natCast_inj.1 hcount).symm
  · exact fun hmeets => ⟨_, checkpoint_counted hkeeps h hmeets⟩

/-- A node that is stopped has taken nothing out of the log. -/
theorem StoppedAt.logged {s : Session F} {self : AgentSelf F} {u : List (BatchEvent F)}
    (h : StoppedAt env s self u) :
    modelStepCount s.self.eventLog ≤ modelStepCount self.eventLog := by
  have happend : ∀ events, modelStepCount s.self.eventLog ≤
      modelStepCount (s.self.eventLog ++ events) := by
    intro events
    rw [modelStepCount_append]
    omega
  cases h with
  | modelCalled hnode reply => exact happend _
  | afterBatch hnode hlast hbatch logged => exact happend _
  | batchRecorded hnode hlast hbatch => exact happend _
  | formatErrorRecorded hnode => exact happend _
  | _ => exact le_rfl

theorem FailedDocuments.accounted (hkeeps : KeepsShortText env.redactor) {self : AgentSelf F}
    {exc : PyExc} {new docs : List (Json F)} (h : FailedDocuments env self exc new)
    (hdocs : AccountedUpTo (modelStepCount self.eventLog) docs) : StepAccounting (new ++ docs) := by
  -- the failed state takes both numbers from the log
  have hcount : modelStepCount (failedState env self exc).2.events =
      (failedState env self exc).2.steps := rfl
  have hle : modelStepCount self.eventLog ≤ (failedState env self exc).2.steps := by
    show _ ≤ modelStepCount (self.eventLog ++ _)
    rw [modelStepCount_append]
    omega
  cases h with
  | none => exact hdocs.unbounded
  | checkpoint stamp hdoc =>
      exact (hdocs.cons (checkpoint_counted hkeeps hdoc hcount) hle).unbounded
  | trajectory stamp stamp' changes hdoc hfinal =>
      exact ((hdocs.cons (checkpoint_counted hkeeps hdoc hcount) hle).cons
        (finalTrajectory_counted hkeeps hfinal hcount) le_rfl).unbounded

/-- A resumed run starts from the numbers of its document. -/
theorem restoreState_inStep {data : Json F} {n : Nat} (hdata : Counted data n)
    {task fingerprint : String} {self : AgentSelf F} {state : AgentState F}
    (h : restoreState env data task fingerprint = .ok (self, state)) :
    state.steps = n ∧ modelStepCount state.events = n ∧ self.eventLog = state.events := by
  obtain ⟨events, hevents, hcount⟩ := hdata.events
  simp only [restoreState, except_bind_ok] at h
  obtain ⟨savedTask, -, messages, -, eventLog, hlog, -, -, -, -, steps, hsteps, h⟩ := h
  cases h
  rw [Json.getD, hevents, Option.getD_some, pyList] at hlog
  rw [Json.getD, hdata.steps, Option.getD_some, pyInt] at hsteps
  cases hlog
  cases hsteps
  exact ⟨Int.toNat_natCast n, hcount, rfl⟩

/-- The invariant of a run: its documents are accounted for, up to the steps
of the session under way. -/
def StepsInv (s : Option (Session F)) (docs : List (Json F)) : Prop :=
  StepAccounting docs ∧
    ∀ session, s = some session → InStep session ∧ AccountedUpTo session.state.steps docs

theorem StepsInv.ended {docs : List (Json F)} (h : StepAccounting docs) : StepsInv none docs :=
  ⟨h, fun _ hsession => by cases hsession⟩

theorem StepsInv.session {s : Session F} {docs : List (Json F)} (hstep : InStep s)
    (h : AccountedUpTo s.state.steps docs) : StepsInv (some s) docs := by
  refine ⟨h.unbounded, ?_⟩
  rintro session ⟨⟩
  exact ⟨hstep, h⟩

/-- The run lemma. A node that logs a model event takes a step; every other
event is of another type. -/
theorem Checkpoints.inv (hkeeps : KeepsShortText env.redactor) {s : Option (Session F)}
    {docs : List (Json F)} (h : Checkpoints env LogResumable s docs) : StepsInv s docs := by
  induction h with
  | start task fingerprint prompt stamp hdoc =>
      have hempty : AccountedUpTo 0 ([] : List (Json F)) := ⟨[], .nil, .nil, by simp⟩
      exact .session ⟨rfl, rfl⟩ (hempty.cons (checkpoint_counted hkeeps hdoc rfl) le_rfl)
  | @resume data docs self state doc _ task fingerprint stamp hrestore hdoc ih =>
      obtain ⟨n, hdata, hdocs⟩ := ih.1.head
      obtain ⟨hsteps, hcount, hlog⟩ := restoreState_inStep hdata hrestore
      have hseen : modelStepCount state.events = state.steps := by rw [hcount, hsteps]
      refine .session ⟨by show modelStepCount self.eventLog = _; rw [hlog, hseen], hseen⟩ ?_
      exact hdocs.cons (checkpoint_counted hkeeps hdoc hseen) (by rw [hsteps])
  | @stepLimit s docs _ hnode hlimit ih =>
      obtain ⟨hstep, hdocs⟩ := ih.2 s rfl
      have hevent : modelStepCount [(stepLimitEvent s.state.steps : Json F)] = 0 :=
        modelStepCount_other (show _ = some (Json.str "limit") from rfl) (by decide)
      refine .session ⟨hstep.logged, ?_⟩ hdocs
      show modelStepCount (s.state.events ++ [_]) = s.state.steps
      rw [modelStepCount_append, hevent, hstep.seen]
      omega
  | @model s docs _ hnode hlimit reply ih =>
      obtain ⟨hstep, hdocs⟩ := ih.2 s rfl
      refine .session ⟨?_, ?_⟩ (hdocs.mono (Nat.le_succ _))
      · show modelStepCount (s.self.eventLog ++ [_]) = s.state.steps + 1
        rw [modelStepCount_append, modelStepCount_modelEvent, hstep.logged]
      · show modelStepCount (s.state.events ++ [_]) = s.state.steps + 1
        rw [modelStepCount_append, modelStepCount_modelEvent, hstep.seen]
  | @tools s docs u m batch gate doc _ hnode hlast hbatch stamp hdoc ih =>
      obtain ⟨hstep, hdocs⟩ := ih.2 s rfl
      have hseen : modelStepCount (runTools env s.self s.state batch gate).2.events =
          s.state.steps := by
        show modelStepCount (s.state.events ++ _) = _
        rw [modelStepCount_append, modelStepCount_toolEvents, hstep.seen, Nat.add_zero]
      have hlogged : modelStepCount (runTools env s.self s.state batch gate).1.eventLog =
          s.state.steps := by
        show modelStepCount (s.self.eventLog ++ _) = _
        rw [modelStepCount_append, modelStepCount_toolEvents, hstep.logged, Nat.add_zero]
      exact .session ⟨hlogged, hseen⟩ (hdocs.cons (checkpoint_counted hkeeps hdoc hseen) le_rfl)
  | @formatError s docs doc _ hnode stamp hdoc ih =>
      obtain ⟨hstep, hdocs⟩ := ih.2 s rfl
      have hevent : modelStepCount [(formatErrorEvent s.state.steps : Json F)] = 0 :=
        modelStepCount_other (show _ = some (Json.str "format_error") from rfl) (by decide)
      have hseen : modelStepCount (MiniCodeAgent.formatError s.self s.state).2.events =
          s.state.steps := by
        show modelStepCount (s.state.events ++ [_]) = _
        rw [modelStepCount_append, hevent, hstep.seen, Nat.add_zero]
      have hlogged : modelStepCount (MiniCodeAgent.formatError s.self s.state).1.eventLog =
          s.state.steps := by
        show modelStepCount (s.self.eventLog ++ [_]) = _
        rw [modelStepCount_append, hevent, hstep.logged, Nat.add_zero]
      exact .session ⟨hlogged, hseen⟩ (hdocs.cons (checkpoint_counted hkeeps hdoc hseen) le_rfl)
  | @raises s docs self u new _ hstop exc hexc hsaved ih =>
      obtain ⟨hstep, hdocs⟩ := ih.2 s rfl
      rw [← hstep.logged] at hdocs
      exact .ended (hsaved.accounted hkeeps (hdocs.mono hstop.logged))
  | @interrupted s docs self u doc _ hstop hmeets exc stamp hexc hdoc ih =>
      obtain ⟨hstep, hdocs⟩ := ih.2 s rfl
      rw [← hstep.logged] at hdocs
      exact .ended (hdocs.cons (checkpoint_counted hkeeps hdoc hmeets) hstop.logged).unbounded
  | @killed s docs self u _ hstop ih => exact .ended ih.1
  | @finish s docs trajectory _ hnode stamp changes hdoc ih =>
      obtain ⟨hstep, hdocs⟩ := ih.2 s rfl
      exact .ended
        (hdocs.cons (finalTrajectory_counted hkeeps hdoc hstep.seen) le_rfl).unbounded

end

/-! Interruptions before the first reply, right after it, and right after the run
has been resumed. -/

namespace Sample

def keptMessage : Message Unit := { type := .human, content := resumeNotice }

def savingEnv : AgentEnv Unit :=
  { env with saveMessages := fun _ => .ok (.arr [.null]), loadMessages := fun _ => .ok [keptMessage] }

def document (self : AgentSelf Unit) (exitStatus : String) (steps : Nat)
    (state : AgentState Unit) : Json Unit :=
  redactData env.redactor.redactText (.obj (trajectoryFields savingEnv self stamp exitStatus ""
    steps state (.obj []) (.arr [.null]) true))

end Sample

namespace Sample

def firstCalled : Session Unit :=
  let next := callModel savingEnv started.self started.state reply
  ⟨next.1, next.2, .tools⟩

/-- What `_restore_state` makes of the first interruption's document. -/
def resumed : AgentSelf Unit × AgentState Unit :=
  let gate := restoreGate "f" "f" false "f"
  let state : AgentState Unit :=
    { messages := [keptMessage], steps := 1, done := false, exitStatus := "", submission := "",
      gate := gate, events := [] }
  ({ task := "task", eventLog := [], usage := firstCalled.self.usage, lastGate := some gate,
     resumeState := state, lastModelFailure := none }, state)

def documents : List (Json Unit) :=
  [document resumed.1 "Interrupted:KeyboardInterrupt" 0 resumed.2,
    document resumed.1 "Running" 1 resumed.2,
    document firstCalled.self "Interrupted:KeyboardInterrupt" 1 started.state,
    document started.self "Running" 0 started.state]

end Sample

end MiniCodeAgent
