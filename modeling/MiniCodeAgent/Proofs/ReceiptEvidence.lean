import MiniCodeAgent.Proofs.GateSafety
import MiniCodeAgent.Receipt

/-!
# The receipt's evidence is the gate's evidence

The gate decides on a submission while the batch runs; the receipt looks for
its evidence in the events afterwards. Both mean the same call, and the bridge
is a list: the passing tests the batches of this session have reported, in
order. `GateInv` says that the gate's fingerprint was minted by the last of
them, and `Logged` that the events of the session show exactly these.

The events reach the receipt redacted, and redaction does not spare a tool's
name. A secret that reads `run_tests` hides the very test that vouches for the
submission, so everything here is said of a redactor that leaves the words
`tool` and `run_tests` alone.
-/

namespace MiniCodeAgent

open Prog

variable {F : Type} [Json.PyFloat F]

/-! ## What redaction keeps of an event -/

/-- The redactor leaves the two words alone that mark a test run. -/
structure KeepsTestRuns (r : SecretRedactor) : Prop where
  tool : r.redactText "tool" = "tool"
  runTests : r.redactText "run_tests" = "run_tests"

theorem redactText_eq_tool {r : SecretRedactor} {text : String}
    (h : r.redactText text = "tool") : text = "tool" :=
  r.eq_of_redactText_eq (by decide) h

theorem redactText_eq_runTests {r : SecretRedactor} {text : String}
    (h : r.redactText text = "run_tests") : text = "run_tests" :=
  r.eq_of_redactText_eq (by decide) h

theorem redactText_eq_submitted {r : SecretRedactor} {text : String}
    (h : r.redactText text = "Submitted") : text = "Submitted" :=
  r.eq_of_redactText_eq (by decide) h

/-- The event, as a trajectory shows it. -/
def shown (env : AgentEnv F) (event : Json F) : Json F :=
  redactData env.redactor.redactText event

omit [Json.PyFloat F] in
theorem get?_shown (env : AgentEnv F) (event : Json F) (key : String) :
    (shown env event).get? key = (event.get? key).map (redactData env.redactor.redactText) :=
  get?_redactData _ event key

omit [Json.PyFloat F] in
/-- The fields of a tool's event that are always there. -/
theorem get?_toolEvent (env : AgentEnv F) (step : Nat) (c : ExecutedToolCall F) :
    (toolEvent env step c).get? "type" = some (.str "tool") ∧
      (toolEvent env step c).get? "tool" = some (.str c.name) ∧
      (toolEvent env step c).get? "returncode" = some (.int c.result.returncode) ∧
      (toolEvent env step c).get? "duration_ms" = some (.int c.result.durationMs) ∧
      (toolEvent env step c).get? "approved" = some (.bool c.result.approved) ∧
      (toolEvent env step c).get? "blocked" = some (.bool c.result.blocked) := by
  simp only [toolEvent, Json.get?_obj, Dict.get?_append]
  exact ⟨rfl, rfl, rfl, rfl, rfl, rfl⟩

omit [Json.PyFloat F] in
theorem get?_toolEvent_testsRun (env : AgentEnv F) (step : Nat) (c : ExecutedToolCall F) :
    (toolEvent env step c).get? "tests_run" = c.result.testsRun.map Json.int := by
  simp only [toolEvent, Json.get?_obj, Dict.get?_append]
  cases c.result.testsRun <;> cases c.result.verificationChecks.isEmpty <;> rfl

omit [Json.PyFloat F] in
theorem get?_toolEvent_verificationChecks (env : AgentEnv F) (step : Nat)
    (c : ExecutedToolCall F) :
    (toolEvent env step c).get? "verification_checks" =
      if c.result.verificationChecks.isEmpty then none
      else some (.arr (c.result.verificationChecks.map fun e => e.toDict true)) := by
  simp only [toolEvent, Json.get?_obj, Dict.get?_append]
  cases c.result.testsRun <;> cases c.result.verificationChecks.isEmpty <;> rfl

theorem isPassingTest_iff {event : Json F} :
    isPassingTest event = true ↔ event.get? "type" = some (.str "tool") ∧
      event.get? "tool" = some (.str "run_tests") ∧
      (event.getD "returncode" .null).pyEq (.int 0) = true := by
  cases event with
  | obj kvs =>
      rw [isPassingTest, Bool.and_eq_true, Bool.and_eq_true, Json.pyEq_str_right,
        Json.pyEq_str_right, Json.getD_null_eq_str, Json.getD_null_eq_str]
  | _ => simp [isPassingTest, Json.get?]

/-- A tool's event shows a passing test exactly if the call was one. -/
theorem isPassingTest_toolEvent {env : AgentEnv F} (hkeeps : KeepsTestRuns env.redactor)
    (step : Nat) (c : ExecutedToolCall F) :
    isPassingTest (shown env (toolEvent env step c)) = true ↔
      c.name = "run_tests" ∧ c.result.returncode = 0 := by
  obtain ⟨htype, htool, hcode, -⟩ := get?_toolEvent env step c
  have hcode' : (shown env (toolEvent env step c)).getD "returncode" .null =
      .int c.result.returncode := by
    rw [Json.getD, get?_shown, hcode]
    rfl
  have hzero : (Json.int c.result.returncode : Json F).pyEq (.int 0) = true ↔
      c.result.returncode = 0 := by
    simp [Json.pyEq, Json.num?]
  rw [isPassingTest_iff, get?_shown, get?_shown, htype, htool, hcode', hzero]
  simp only [Option.map_some, redactData, hkeeps.tool, Option.some.injEq, Json.str.injEq,
    true_and]
  constructor
  · rintro ⟨hname, hcode⟩
    exact ⟨redactText_eq_runTests hname, hcode⟩
  · rintro ⟨hname, hcode⟩
    rw [hname]
    exact ⟨hkeeps.runTests, hcode⟩

/-- An event of another type shows no test. -/
theorem isPassingTest_other {env : AgentEnv F} {event : Json F} {type : String}
    (htype : event.get? "type" = some (.str type)) (hne : type ≠ "tool") :
    isPassingTest (shown env event) = false := by
  rw [Bool.eq_false_iff]
  intro h
  obtain ⟨htool, -⟩ := isPassingTest_iff.1 h
  rw [get?_shown, htype, Option.map_some, redactData, Option.some.injEq, Json.str.injEq] at htool
  exact hne (redactText_eq_tool htool)

/-! ## The evidence of one call -/

/-- A check of the matrix, as the receipt has it. -/
def shownCheck (env : AgentEnv F) (e : VerificationCheckEvidence) : Json F :=
  .obj (([("name", .str (env.redactor.redactText e.name)), ("returncode", .int e.returncode),
      ("duration_ms", .int e.durationMs)] : List (String × Json F)) ++
    (match e.testsRun with
      | some n => [("tests_run", .int n)]
      | none => [] : List (String × Json F)) ++
    (if e.exceptionInfo ≠ "" then
      [("exception_info", .str (env.redactor.redactText e.exceptionInfo))] else [] :
      List (String × Json F)) ++
    ([("blocked", .bool e.blocked), ("approved", .bool e.approved)] : List (String × Json F)) ++
    (if e.commandSha256 ≠ "" then
      [("command_sha256", .str (env.redactor.redactText e.commandSha256))] else [] :
      List (String × Json F)))

/-- A call without a matrix counts as one check. -/
def shownRun (r : ToolResult F) : Json F :=
  .obj (([("name", .str "tests"), ("returncode", .int 0), ("duration_ms", .int r.durationMs),
      ("blocked", .bool r.blocked), ("approved", .bool r.approved)] : List (String × Json F)) ++
    (match r.testsRun with
      | some n => [("tests_run", .int n)]
      | none => [] : List (String × Json F)))

/-- The checks of one `run_tests` call, as the receipt has them. -/
def shownChecks (env : AgentEnv F) (r : ToolResult F) : List (Json F) :=
  if r.verificationChecks.isEmpty then [shownRun r]
  else r.verificationChecks.map (shownCheck env)

omit [Json.PyFloat F] in
theorem checkEvidence_shown (env : AgentEnv F) (e : VerificationCheckEvidence) :
    checkEvidence (shown env (e.toDict true)) = .ok (shownCheck env e) := by
  have hget : ∀ key, (shown env (e.toDict true)).get? key =
      ((e.toDict true : Json F).get? key).map (redactData env.redactor.redactText) :=
    fun key => get?_shown env _ key
  unfold checkEvidence evidenceKeys shownCheck
  simp only [hget]
  simp only [VerificationCheckEvidence.toDict, Json.get?_obj, Dict.get?_append]
  cases e.testsRun <;> by_cases hexc : e.exceptionInfo = "" <;>
    by_cases hsha : e.commandSha256 = "" <;>
    simp [hexc, hsha, redactData]

theorem legacyEvidence_shown (env : AgentEnv F) (step : Nat) (c : ExecutedToolCall F) :
    legacyEvidence (shown env (toolEvent env step c)) = .ok (shownRun c.result) := by
  obtain ⟨-, -, -, hduration, happroved, hblocked⟩ := get?_toolEvent env step c
  have htests := get?_toolEvent_testsRun env step c
  unfold legacyEvidence legacyTestsRun shownRun
  simp only [Json.getD, get?_shown, hduration, happroved, hblocked, htests]
  cases c.result.testsRun <;> rfl

omit [Json.PyFloat F] in
theorem mapM_checkEvidence_shown (env : AgentEnv F) (checks : List VerificationCheckEvidence) :
    (checks.map fun e => shown env (e.toDict true)).mapM checkEvidence =
      .ok (checks.map (shownCheck env)) := by
  induction checks with
  | nil => rfl
  | cons e checks ih =>
      rw [List.map_cons, List.mapM_cons, checkEvidence_shown, ih]
      rfl

theorem eventChecks_shown (env : AgentEnv F) (step : Nat) (c : ExecutedToolCall F) :
    eventChecks (shown env (toolEvent env step c)) = .ok (shownChecks env c.result) := by
  have hchecks : (shown env (toolEvent env step c)).get? "verification_checks" =
      if c.result.verificationChecks.isEmpty then none
      else some (.arr (c.result.verificationChecks.map fun e => shown env (e.toDict true))) := by
    rw [get?_shown, get?_toolEvent_verificationChecks]
    split
    · rfl
    · rw [Option.map_some, redactData, redactItems_eq_map, List.map_map]
      rfl
  unfold eventChecks shownChecks
  rw [Json.getD, hchecks]
  cases hc : c.result.verificationChecks with
  | nil =>
      simp only [List.isEmpty_nil, if_true, Option.getD_none]
      rw [legacyEvidence_shown]
      rfl
  | cons e checks =>
      simp only [List.isEmpty_cons, Bool.false_eq_true, if_false, Option.getD_some,
        List.map_cons]
      exact mapM_checkEvidence_shown env (e :: checks)

/-! ## The events of a session -/

/-- The events since the last start or resume, and the passing tests they show. -/
inductive Logged (env : AgentEnv F) : List (Json F) → List (ToolResult F) → Prop
  | nil : Logged env [] []
  | tool {events : List (Json F)} {passed : List (ToolResult F)} (h : Logged env events passed)
      (step : Nat) (c : ExecutedToolCall F) :
      Logged env (events ++ [toolEvent env step c]) (passed ++ passOf c.name c.result)
  | other {events : List (Json F)} {passed : List (ToolResult F)} (h : Logged env events passed)
      {event : Json F} {type : String} (htype : event.get? "type" = some (.str type))
      (hne : type ≠ "tool") : Logged env (events ++ [event]) passed

omit [Json.PyFloat F] in
theorem Logged.batch {env : AgentEnv F} {events : List (Json F)} {passed : List (ToolResult F)}
    (h : Logged env events passed) (step : Nat) (calls : List (ExecutedToolCall F)) :
    Logged env (events ++ calls.map (toolEvent env step)) (passed ++ passes calls) := by
  induction calls generalizing events passed with
  | nil => simpa [passes] using h
  | cons c calls ih =>
      have := ih (h.tool step c)
      simpa [passes, List.append_assoc] using this

/-- The last passing test of the session is the last one its events show, with
whatever came before the session. -/
theorem Logged.last {env : AgentEnv F} (hkeeps : KeepsTestRuns env.redactor)
    {events : List (Json F)} {passed : List (ToolResult F)} (h : Logged env events passed)
    {r : ToolResult F} (hr : passed.getLast? = some r) (earlier : List (Json F)) :
    ∃ step c, c.result = r ∧
      (((earlier ++ events).map (shown env)).filter isPassingTest).getLast? =
        some (shown env (toolEvent env step c)) := by
  induction h with
  | nil => simp at hr
  | @tool events passed _ step c ih =>
      rw [← List.append_assoc, List.map_append, List.filter_append, List.map_singleton]
      by_cases hpass : c.name = "run_tests" ∧ c.result.returncode = 0
      · rw [passOf, if_pos hpass, List.getLast?_concat, Option.some.injEq] at hr
        refine ⟨step, c, hr, ?_⟩
        rw [List.filter_cons_of_pos ((isPassingTest_toolEvent hkeeps step c).2 hpass),
          List.filter_nil, List.getLast?_concat]
      · rw [passOf, if_neg hpass, List.append_nil] at hr
        obtain ⟨step', c', hresult, hlast⟩ := ih hr
        refine ⟨step', c', hresult, ?_⟩
        rw [List.filter_cons_of_neg (fun hn => hpass ((isPassingTest_toolEvent hkeeps step c).1 hn)),
          List.filter_nil, List.append_nil]
        exact hlast
  | other _ htype hne ih =>
      obtain ⟨step, c, hresult, hlast⟩ := ih hr
      refine ⟨step, c, hresult, ?_⟩
      rw [← List.append_assoc, List.map_append, List.filter_append, List.map_singleton,
        List.filter_cons_of_neg (by rw [isPassingTest_other htype hne]; simp), List.filter_nil,
        List.append_nil]
      exact hlast

/-! ## The documents -/

/-- A trajectory that says its task was submitted. -/
def EndsSubmitted (doc : Json F) : Prop :=
  (doc.getD "exit_status" .null).pyEq (.str "Submitted") = true

/-- What both kinds of document say of their run. -/
structure Shows (env : AgentEnv F) (exitStatus : String) (events : List (Json F))
    (doc : Json F) : Prop where
  exitStatus : doc.get? "exit_status" = some (.str (env.redactor.redactText exitStatus))
  events : pyGet doc "events" (.arr []) = .ok (.arr (events.map (shown env)))

theorem Shows.endsSubmitted {env : AgentEnv F} {exitStatus : String} {events : List (Json F)}
    {doc : Json F} (h : Shows env exitStatus events doc) (hends : EndsSubmitted doc) :
    exitStatus = "Submitted" := by
  rw [EndsSubmitted, Json.pyEq_str_right, Json.getD_null_eq_str, h.exitStatus,
    Option.some.injEq, Json.str.injEq] at hends
  exact redactText_eq_submitted hends

omit [Json.PyFloat F] in
theorem checkpoint_shows {env : AgentEnv F} {self : AgentSelf F} {stamp : Stamp}
    {exitStatus : String} {steps : Nat} {state : AgentState F} {doc : Json F}
    (h : checkpoint env self stamp exitStatus steps state = .ok doc) :
    Shows env exitStatus state.events doc := by
  rw [checkpoint, except_bind_ok] at h
  obtain ⟨messages, -, h⟩ := h
  cases h
  constructor
  · rw [get?_redactData]
    rfl
  · rw [redactData, redactMembers_eq_map, pyGet, Dict.get?_map]
    simp [trajectoryFields, redactData, shown]

omit [Json.PyFloat F] in
theorem finalTrajectory_shows {env : AgentEnv F} {self : AgentSelf F} {stamp : Stamp}
    {workspaceChanges : Json F} {state : AgentState F} {error : String} {doc : Json F}
    (h : finalTrajectory env self stamp workspaceChanges state error = .ok doc) :
    Shows env (if state.exitStatus = "" then "Stopped" else state.exitStatus) state.events
      doc := by
  rw [finalTrajectory, except_bind_ok] at h
  obtain ⟨messages, -, h⟩ := h
  simp only [redactData, redactMembers_eq_map] at h
  cases h
  by_cases herror : error = ""
  · rw [if_pos herror]
    constructor
    · rw [Json.get?_obj, Dict.get?_map]
      rfl
    · rw [pyGet, Dict.get?_map]
      simp [trajectoryFields, redactData, shown]
  · rw [if_neg herror]
    constructor
    · rw [Json.get?_obj, Dict.get?_set, if_neg (by decide), Dict.get?_map]
      rfl
    · rw [pyGet, Dict.get?_set, if_neg (by decide), Dict.get?_map]
      simp [trajectoryFields, redactData, shown]

/-- The evidence a receipt finds in a document of the session. -/
theorem Shows.checks {env : AgentEnv F} (hkeeps : KeepsTestRuns env.redactor)
    {exitStatus : String} {earlier events : List (Json F)} {passed : List (ToolResult F)}
    {doc : Json F} {r : ToolResult F} (h : Shows env exitStatus (earlier ++ events) doc)
    (hlogged : Logged env events passed) (hr : passed.getLast? = some r) :
    verificationChecks doc = .ok (shownChecks env r) := by
  obtain ⟨step, c, rfl, hlast⟩ := hlogged.last hkeeps hr earlier
  rw [verificationChecks, h.events, except_ok_bind, pyList, except_ok_bind, hlast]
  exact eventChecks_shown env step c

/-! ## The run -/

/-- What a session under way knows of its events and its gate. -/
def SessionInv (env : AgentEnv F) (s : Session F) (t : List (BatchEvent F)) : Prop :=
  ∃ earlier events passed, s.state.events = earlier ++ events ∧ Logged env events passed ∧
    GateInv s.state.gate t passed ∧
    (s.state.exitStatus = "Submitted" → s.node = .finish ∧
      (CapturesNonempty t →
        ∃ r, VerifiedSubmission t s.state.gate r ∧ passed.getLast? = some r))

/-- What a submitted document in the trajectory file is worth. -/
def SavedInv (env : AgentEnv F) (saved : Option (Json F)) (t : List (BatchEvent F)) : Prop :=
  ∀ doc, saved = some doc → EndsSubmitted doc → CapturesNonempty t →
    ∃ g r, VerifiedSubmission t g r ∧ verificationChecks doc = .ok (shownChecks env r)

def NotSubmitted (saved : Option (Json F)) : Prop :=
  ∀ doc, saved = some doc → ¬ EndsSubmitted doc

/-- Together: once a document is submitted, its session has nothing left to run. -/
def RunInv (env : AgentEnv F) (s : Option (Session F)) (saved : Option (Json F))
    (t : List (BatchEvent F)) : Prop :=
  SavedInv env saved t ∧
    ∀ session, s = some session →
      (session.node = .finish ∨ NotSubmitted saved) ∧ SessionInv env session t

theorem SavedInv.of_notSubmitted {env : AgentEnv F} {saved : Option (Json F)}
    (h : NotSubmitted saved) (t : List (BatchEvent F)) : SavedInv env saved t :=
  fun doc hdoc hends => absurd hends (h doc hdoc)

theorem Shows.notSubmitted {env : AgentEnv F} {exitStatus : String} {events : List (Json F)}
    {doc : Json F} (h : Shows env exitStatus events doc) (hne : exitStatus ≠ "Submitted") :
    NotSubmitted (some doc) := by
  rintro doc' ⟨⟩ hends
  exact hne (h.endsSubmitted hends)

/-- Only a batch has asked anything of the executor when a node is stopped. -/
theorem StoppedAt.quiet {env : AgentEnv F} {s : Session F} {self : AgentSelf F}
    {u : List (BatchEvent F)} (h : StoppedAt env s self u) : u = [] ∨ s.node = .tools := by
  cases h with
  | duringBatch hnode _ _ => exact Or.inr hnode
  | afterBatch hnode _ _ _ => exact Or.inr hnode
  | batchRecorded hnode _ _ => exact Or.inr hnode
  | _ => exact Or.inl rfl

/-- An exception leaves the file as it was, or saying so. -/
theorem FailedSaves.notSubmitted {env : AgentEnv F} {self : AgentSelf F} {exc : PyExc}
    {saved saved' : Option (Json F)} (h : FailedSaves env self exc saved saved') :
    saved' = saved ∨ NotSubmitted saved' := by
  have hstatus : "Error:" ++ exc.type ≠ "Submitted" := by
    intro heq
    have := congrArg String.toList heq
    rw [String.toList_append] at this
    cases this
  cases h with
  | checkpointFails => exact Or.inl rfl
  | trajectoryFails stamp hdoc =>
      exact Or.inr ((checkpoint_shows hdoc).notSubmitted hstatus)
  | both stamp changes hdoc =>
      refine Or.inr ((finalTrajectory_shows hdoc).notSubmitted ?_)
      show (if "Error:" ++ exc.type = "" then "Stopped" else "Error:" ++ exc.type) ≠ "Submitted"
      split
      · decide
      · exact hstatus

/-- A stopped session has submitted nothing it had not submitted before. -/
theorem SavedInv.stopped {env : AgentEnv F} {s : Session F} {saved : Option (Json F)}
    {self : AgentSelf F} {t u : List (BatchEvent F)} (h : SavedInv env saved t)
    (hnode : s.node = .finish ∨ NotSubmitted saved) (hstop : StoppedAt env s self u) :
    SavedInv env saved (t ++ u) := by
  rcases hnode with hfinish | hnot
  · rcases hstop.quiet with rfl | htools
    · rwa [List.append_nil]
    · rw [hfinish] at htools
      cases htools
  · exact .of_notSubmitted hnot _

omit [Json.PyFloat F] in
/-- An event of the model, the router or the limit, logged. -/
theorem SessionInv.other {env : AgentEnv F} {s s' : Session F} {t : List (BatchEvent F)}
    (h : SessionInv env s t) (hnode : s.node ≠ .finish) {event : Json F} {type : String}
    (htype : event.get? "type" = some (.str type)) (hne : type ≠ "tool")
    (hevents : s'.state.events = s.state.events ++ [event])
    (hgate : s'.state.gate = s.state.gate)
    (hstatus : s'.state.exitStatus = s.state.exitStatus ∨ s'.state.exitStatus ≠ "Submitted") :
    SessionInv env s' t := by
  obtain ⟨earlier, events, passed, hsplit, hlogged, hinv, hsub⟩ := h
  refine ⟨earlier, events ++ [event], passed, ?_, hlogged.other htype hne, ?_, ?_⟩
  · rw [hevents, hsplit, List.append_assoc]
  · rwa [hgate]
  · intro hsubmitted
    rcases hstatus with heq | hneq
    · exact absurd (hsub (heq ▸ hsubmitted)).1 hnode
    · exact absurd hsubmitted hneq

/-- The run lemma. The cases are the steps of `AgentRun`; only `tools` can
submit, and there the batch's own lemma speaks. -/
theorem AgentRun.inv {env : AgentEnv F} (hkeeps : KeepsTestRuns env.redactor)
    {s : Option (Session F)} {saved : Option (Json F)} {t : List (BatchEvent F)}
    (h : AgentRun env s saved t) : RunInv env s saved t := by
  induction h with
  | idle => exact ⟨by rintro doc ⟨⟩, by rintro session ⟨⟩⟩
  | start _ task fingerprint prompt stamp hdoc _ =>
      have hnot := (checkpoint_shows hdoc).notSubmitted (by decide)
      refine ⟨.of_notSubmitted hnot _, ?_⟩
      rintro session ⟨⟩
      refine ⟨Or.inr hnot, [], [], [], rfl, .nil, GateInv.cleared rfl rfl _ _, ?_⟩
      intro hsubmitted
      exact absurd hsubmitted (by show "" ≠ "Submitted"; decide)
  | resume _ task fingerprint stamp hrestore hdoc _ =>
      have hnot := (checkpoint_shows hdoc).notSubmitted (by decide)
      obtain ⟨hrequired, hverified⟩ := restoreState_gate hrestore
      obtain ⟨_, _, _, -, -, -, -, -, -, hstatus⟩ := restoreState_ok hrestore
      refine ⟨.of_notSubmitted hnot _, ?_⟩
      rintro session ⟨⟩
      refine ⟨Or.inr hnot, _, [], [], (List.append_nil _).symm, .nil,
        GateInv.cleared hrequired hverified _ _, ?_⟩
      intro hsubmitted
      rw [hstatus] at hsubmitted
      exact absurd hsubmitted (by decide)
  | @stepLimit s saved t _ hnode _ ih =>
      obtain ⟨hsaved, hsession⟩ := ih
      obtain ⟨hfinish, hinv⟩ := hsession s rfl
      refine ⟨hsaved, ?_⟩
      rintro session ⟨⟩
      have hne : s.node ≠ .finish := by rw [hnode]; decide
      refine ⟨Or.inl rfl, ?_⟩
      have htype : (stepLimitEvent s.state.steps : Json F).get? "type" = some (.str "limit") := rfl
      refine hinv.other hne htype (by decide) rfl rfl (Or.inr ?_)
      show "StepLimitExceeded" ≠ "Submitted"
      decide
  | @model s saved t _ hnode _ reply ih =>
      obtain ⟨hsaved, hsession⟩ := ih
      obtain ⟨hfinish, hinv⟩ := hsession s rfl
      have hne : s.node ≠ .finish := by rw [hnode]; decide
      refine ⟨hsaved, ?_⟩
      rintro session ⟨⟩
      refine ⟨Or.inr (hfinish.resolve_left hne), ?_⟩
      refine hinv.other hne (show _ = some (Json.str "model") from ?_) (by decide) rfl rfl
        (Or.inl rfl)
      rfl
  | @tools s saved t u m batch gate doc _ hnode hlast hbatch stamp hdoc ih =>
      obtain ⟨-, hsession⟩ := ih
      obtain ⟨-, earlier, events, passed, hsplit, hlogged, hinv, hsub⟩ := hsession s rfl
      obtain ⟨hinv', hverified⟩ := executeToolBatch_ok hbatch hinv
      have hshows := checkpoint_shows hdoc
      have hlogged' := hlogged.batch s.state.steps batch.calls
      have hevents : (runTools env s.self s.state batch gate).2.events =
          earlier ++ (events ++ batch.calls.map (toolEvent env s.state.steps)) := by
        show s.state.events ++ _ = _
        rw [hsplit, List.append_assoc]
      have hne : s.node ≠ .finish := by rw [hnode]; decide
      have hu {t u : List (BatchEvent F)} (h : CapturesNonempty (t ++ u)) : CapturesNonempty u :=
        fun ignored fingerprint hmem => h ignored fingerprint (List.mem_append_right t hmem)
      constructor
      · rintro doc' ⟨⟩ hends hnonempty
        have hsubmitted : batch.submitted = true := by
          have := hshows.endsSubmitted hends
          by_contra hn
          rw [if_neg hn] at this
          exact absurd this (by decide)
        obtain ⟨r, hr, hrlast⟩ := hverified hsubmitted (hu hnonempty)
        rw [hevents] at hshows
        exact ⟨gate, r, hr, hshows.checks hkeeps hlogged' hrlast⟩
      · rintro session ⟨⟩
        cases hsubmitted : batch.submitted with
        | false =>
            rw [hsubmitted] at hshows
            refine ⟨Or.inr (hshows.notSubmitted (by decide)), ?_⟩
            refine ⟨earlier, _, _, hevents, hlogged', hinv', ?_⟩
            intro hstatus
            have : s.state.exitStatus = "Submitted" := by
              simpa [runTools, hsubmitted] using hstatus
            exact absurd (hsub this).1 hne
        | true =>
            have hnode' : routeAfterTools (runTools env s.self s.state batch gate).2 = .finish := by
              simp [routeAfterTools, runTools, hsubmitted]
            refine ⟨Or.inl hnode', earlier, _, _, hevents, hlogged', hinv', ?_⟩
            intro _
            exact ⟨hnode', fun hnonempty => hverified hsubmitted (hu hnonempty)⟩
  | @formatError s saved t doc _ hnode stamp hdoc ih =>
      obtain ⟨-, hsession⟩ := ih
      obtain ⟨-, hinv⟩ := hsession s rfl
      have hnot := (checkpoint_shows hdoc).notSubmitted (by decide)
      have hne : s.node ≠ .finish := by rw [hnode]; decide
      refine ⟨.of_notSubmitted hnot _, ?_⟩
      rintro session ⟨⟩
      refine ⟨Or.inr hnot, ?_⟩
      have htype : (formatErrorEvent s.state.steps : Json F).get? "type" =
          some (.str "format_error") := rfl
      exact hinv.other hne htype (by decide) rfl rfl (Or.inl rfl)
  | @raises s saved t self u saved' _ hstop exc hexc hfailed ih =>
      obtain ⟨hsaved, hsession⟩ := ih
      obtain ⟨hfinish, -⟩ := hsession s rfl
      refine ⟨?_, by rintro session ⟨⟩⟩
      rcases hfailed.notSubmitted with rfl | hnot
      · exact hsaved.stopped hfinish hstop
      · exact .of_notSubmitted hnot _
  | @interrupted s saved t self u doc _ hstop exc stamp hexc hdoc ih =>
      refine ⟨.of_notSubmitted ((checkpoint_shows hdoc).notSubmitted ?_) _, by rintro session ⟨⟩⟩
      intro heq
      have := congrArg String.toList heq
      rw [String.toList_append] at this
      cases this
  | @killed s saved t self u _ hstop ih =>
      obtain ⟨hsaved, hsession⟩ := ih
      obtain ⟨hfinish, -⟩ := hsession s rfl
      exact ⟨hsaved.stopped hfinish hstop, by rintro session ⟨⟩⟩
  | @finish s saved t trajectory _ hnode stamp changes hdoc ih =>
      obtain ⟨-, hsession⟩ := ih
      obtain ⟨-, earlier, events, passed, hsplit, hlogged, hinv, hsub⟩ := hsession s rfl
      have hshows := finalTrajectory_shows hdoc
      refine ⟨?_, by rintro session ⟨⟩⟩
      rintro doc ⟨⟩ hends hnonempty
      have hstatus : s.state.exitStatus = "Submitted" := by
        have := hshows.endsSubmitted hends
        split at this
        · exact absurd this (by decide)
        · exact this
      obtain ⟨r, hr, hrlast⟩ := (hsub hstatus).2 hnonempty
      rw [hsplit] at hshows
      exact ⟨s.state.gate, r, hr, hshows.checks hkeeps hlogged hrlast⟩

/-- Whatever happened on the way, a trajectory that ends submitted shows the
checks of the very run that let the submission through. -/
theorem verificationChecks_submitted {env : AgentEnv F} (hkeeps : KeepsTestRuns env.redactor)
    {s : Option (Session F)} {trajectory : Json F} {t : List (BatchEvent F)}
    (hrun : AgentRun env s (some trajectory) t) (hends : EndsSubmitted trajectory)
    (hnonempty : CapturesNonempty t) :
    ∃ g r, VerifiedSubmission t g r ∧
      verificationChecks trajectory = .ok (shownChecks env r) :=
  (hrun.inv hkeeps).1 trajectory rfl hends hnonempty

/-! The shortest submitted run, under any redactor. -/

namespace Sample

def envWith (r : SecretRedactor) : AgentEnv Unit := { env with redactor := r }

def stamp : Stamp := ⟨0, ""⟩

def started : Session Unit :=
  ⟨initialSelf "task" "f" (initialState [] "f"), initialState [] "f", .model⟩

def reply : ModelReply Unit where
  message := { type := .ai, content := "", toolCalls := calls }
  usage := []
  auditedCalls := .arr []
  requestIdSha256 := ""

def called (r : SecretRedactor) : Session Unit :=
  let next := callModel (envWith r) started.self started.state reply
  ⟨next.1, next.2, .tools⟩

def submitted (r : SecretRedactor) : Session Unit :=
  let next := runTools (envWith r) (called r).self (called r).state outcome gate
  ⟨next.1, next.2, .finish⟩

def trajectory (r : SecretRedactor) : Json Unit :=
  redactData r.redactText (.obj (trajectoryFields (envWith r) (submitted r).self stamp
    "Submitted" "" 1 (submitted r).state (.obj []) (.arr []) false))

theorem run (r : SecretRedactor) :
    AgentRun (envWith r) none (some (trajectory r)) trace := by
  have hstart : AgentRun (envWith r) (some started) (some _) [] :=
    .start .idle "task" "f" [] stamp rfl
  have hmodel : AgentRun (envWith r) (some (called r)) (some _) [] :=
    .model hstart rfl (show 0 < 50 by decide) reply
  have htools : AgentRun (envWith r) (some (submitted r)) (some _) trace :=
    .tools hmodel rfl rfl batch stamp rfl
  exact .finish htools rfl stamp (.obj []) rfl

end Sample

theorem verificationChecks_submitted_sample :
    ∃ g r, VerifiedSubmission Sample.trace g r ∧
      verificationChecks (Sample.trajectory Sample.env.redactor) =
        .ok (shownChecks Sample.env r) :=
  verificationChecks_submitted (show KeepsTestRuns Sample.env.redactor from ⟨rfl, rfl⟩) (Sample.run _)
    (by unfold EndsSubmitted; decide) Sample.captures

/-- A secret that reads `run_tests` hides the test a submission rests on. -/
theorem verificationChecks_hidden :
    let r := SecretRedactor.create ["run_tests"] id markedOr_id
    AgentRun (Sample.envWith r) none (some (Sample.trajectory r)) Sample.trace ∧
      EndsSubmitted (Sample.trajectory r) ∧ CapturesNonempty Sample.trace ∧
      verificationChecks (Sample.trajectory r) =
        .error (receiptError "passing verification evidence is missing") := by
  refine ⟨Sample.run _, ?_, Sample.captures, rfl⟩
  unfold EndsSubmitted
  decide

end MiniCodeAgent
