import MiniCodeAgent.Proofs.ChatPairing

/-!
# A saved chat can be resumed

What `_save` writes of a settled session, `_restore` accepts: the history it reads
back is the one that was saved, as redaction left it, and is paired again. A run
of sessions, each started or restored from what an earlier one saved, is settled
between its turns as long as nothing strikes it while calls are unanswered.
-/

namespace MiniCodeAgent

open Prog ObjProg

variable {F : Type}

/-! ## Redacted messages -/

def redactMessage (redactText : String → String) (m : BaseMessage F) : BaseMessage F where
  type := m.type
  content := redactData redactText m.content
  toolCalls := m.toolCalls.map (redactMembers redactText)
  toolCallId := redactText m.toolCallId
  additionalKwargs := redactMembers redactText m.additionalKwargs

theorem Replied.redact {repr : Json F → String} {message : BaseMessage F}
    {answers : List (BaseMessage F)} (h : Replied repr message answers)
    (redactText : String → String) :
    Replied repr (redactMessage redactText message) (answers.map (redactMessage redactText)) := by
  have hid : ∀ call ∈ message.toolCalls, ∃ id, call.get? "id" = some (.str id) ∧
      Dict.get? (redactMembers redactText call) "id" = some (.str (redactText id)) := by
    intro call hcall
    obtain ⟨id, hid⟩ := h.ids call hcall
    refine ⟨id, hid, ?_⟩
    rw [redactMembers_eq_map]
    have hmap := Dict.get?_map (redactData redactText) call "id"
    rw [hid] at hmap
    exact hmap
  refine ⟨h.type_ne, fun hne => ?_, ?_, ?_, ?_, ?_⟩
  · show message.toolCalls.map _ = []
    rw [h.calls hne, List.map_nil]
  · show (message.toolCalls.map _).length ≤ _
    rw [List.length_map]
    exact h.few
  · intro call hcall
    obtain ⟨original, horiginal, rfl⟩ := List.mem_map.1 hcall
    obtain ⟨id, -, hredacted⟩ := hid original horiginal
    exact ⟨_, hredacted⟩
  · intro answer hanswer
    obtain ⟨original, horiginal, rfl⟩ := List.mem_map.1 hanswer
    obtain ⟨htype, hcalls⟩ := h.tools original horiginal
    exact ⟨htype, by show original.toolCalls.map _ = []; rw [hcalls, List.map_nil]⟩
  · calc (answers.map (redactMessage redactText)).map (·.toolCallId)
        = (answers.map (·.toolCallId)).map redactText := by rw [List.map_map, List.map_map]; rfl
      _ = (callIds repr message).map redactText := by rw [h.answers]
      _ = callIds repr (redactMessage redactText message) := by
          rw [callIds, callIds, redactMessage, List.map_map, List.map_map]
          refine List.map_congr_left fun call hcall => ?_
          obtain ⟨id, hplain, hredacted⟩ := hid call hcall
          simp only [Function.comp_apply, callId, hplain, hredacted, Option.getD_some, pyStr]

theorem WellPaired.redact {repr : Json F → String} {messages : List (BaseMessage F)}
    (h : WellPaired repr messages) (redactText : String → String) :
    WellPaired repr (messages.map (redactMessage redactText)) := by
  obtain ⟨system, blocks, rfl, htype, hcalls, hblocks⟩ := h
  refine ⟨redactMessage redactText system, blocks.map (List.map (redactMessage redactText)),
    ?_, htype, ?_, ?_⟩
  · rw [List.map_cons, List.map_flatten]
  · show system.toolCalls.map _ = []
    rw [hcalls, List.map_nil]
  · intro block hblock
    obtain ⟨original, horiginal, rfl⟩ := List.mem_map.1 hblock
    obtain ⟨message, answers, rfl, hreplied⟩ := hblocks original horiginal
    exact ⟨_, _, List.map_cons .., hreplied.redact redactText⟩

/-! ## What is written -/

section Sessions

variable [Json.PyFloat F] {env : ChatEnv F}

/-- The last thing the session did was to write the document. -/
def Wrote (w : ChatWorld F) (trajectory : Json F) : Prop :=
  w.history.getLast? = some ⟨.writeJson trajectory, .ok ()⟩

omit [Json.PyFloat F] in
theorem Wrote.eq {w : ChatWorld F} {d d' : Json F} (h : Wrote w d) (h' : Wrote w d') :
    d = d' := by
  have heq := h.symm.trans h'
  injection heq with heq
  injection heq with hop
  injection hop

/-- The document is that of the session as the save has left it. -/
theorem save_wrote {stops : PyExc → Prop}
    {admits : ChatWorld F → ObjEvent (ChatOp F) ChatOp.Res PyExc (Chat F) → Prop}
    (hpath : env.trajectoryPath ≠ none) (exitStatus : String) :
    Triple (Acts stops admits) (fun _ => True) (Chat.save env exitStatus)
      (fun _ w => ∃ undoJournal durationMs, Wrote w (redactData env.redactor.redactText
        (Chat.trajectory env w.self undoJournal durationMs))) (fun _ _ => True) := by
  have hfree : ∀ {α : Type} (p : ChatProg F α),
      Triple (Acts stops admits) (fun _ => True) p (fun _ _ => True) fun _ _ => True := by
    intro α p w r w' _ _
    cases r <;> trivial
  refine (hfree _).bind fun _ => (hfree _).bind fun _ => (hfree _).bind fun _ => ?_
  rw [if_neg hpath]
  refine Triple.bind (R := fun s w => w.self = s) (ObjProg.triple_self fun _ _ => rfl)
    fun s => ?_
  have hkeep : ∀ (o : ChatOp F), Triple (Acts stops admits) (fun w => w.self = s)
      (call o : ChatProg F o.Res) (fun _ w => w.self = s) fun _ _ => True := by
    intro o
    refine ObjProg.triple_call fun w r hw _ => ?_
    cases r with
    | ok => exact hw
    | error => trivial
  have hundo : Triple (Acts stops admits) (fun w => w.self = s) (Chat.saveUndo s.undoRecords)
      (fun _ w => w.self = s) fun _ _ => True := by
    unfold Chat.saveUndo
    split
    · exact triple_pure fun _ hw => hw
    · exact hkeep (ChatOp.writeUndoJournal s.undoRecords)
  refine hundo.bind fun undoJournal => (hkeep ChatOp.durationMs).bind fun durationMs => ?_
  refine ObjProg.triple_call fun w r hw _ => ?_
  cases r with
  | ok =>
      subst hw
      refine ⟨undoJournal, durationMs, ?_⟩
      rw [Wrote, ObjWorld.called_history, List.getLast?_concat]
      rfl
  | error => trivial

/-! ## What is read back -/

variable (env) in
/-- What a resume takes for granted: short texts and the workspace's path get
through redaction, and so do messages in the format they are saved in. -/
structure Resumable : Prop where
  short : KeepsShortText env.redactor
  cwd : env.resolvePath (env.redactor.redactText env.cwd) = env.cwd
  messages : ∀ messages, messages ≠ [] → ∃ raw, raw ≠ [] ∧
    redactData env.redactor.redactText (env.messagesToDict messages) = .arr raw ∧
    env.messagesFromDict (.arr raw) =
      .ok (messages.map (redactMessage env.redactor.redactText))

variable (env) in
/-- The document of a session, found in its file. -/
def savedDocument (s : Chat F) (undoJournal : String) (durationMs : Int) (path : String) :
    Json F :=
  Chat.loadTrajectory path (redactData env.redactor.redactText
    (Chat.trajectory env s undoJournal durationMs))

section Document

variable {s : Chat F} {undoJournal path : String} {durationMs : Int}

omit [Json.PyFloat F] in
theorem get?_loadTrajectory {key : String} (hkey : key ≠ "_trajectory_path") (j : Json F) :
    (Chat.loadTrajectory path j).get? key = j.get? key := by
  cases j with
  | obj kvs =>
      rw [Chat.loadTrajectory, Json.get?_obj, Dict.get?_set, if_neg hkey.symm, Json.get?_obj]
  | _ => rfl

omit [Json.PyFloat F] in
/-- A field of the document is the session's, redacted. -/
theorem getD_savedDocument (key : String) {value : Json F} (default : Json F)
    (hkey : key ≠ "_trajectory_path")
    (h : (Chat.trajectory env s undoJournal durationMs).get? key = some value) :
    (savedDocument env s undoJournal durationMs path).getD key default =
      redactData env.redactor.redactText value := by
  rw [savedDocument, Json.getD, get?_loadTrajectory hkey, get?_redactData, h, Option.map_some,
    Option.getD_some]

/-- All that can be wrong with a session's document is how its history ends. -/
theorem restoreMessages_document (h : Resumable env) (hne : s.messages ≠ []) :
    Chat.restoreMessages env (savedDocument env s undoJournal durationMs path) = (do
      raiseIf (Chat.endsUnpaired (s.messages.map (redactMessage env.redactor.redactText)) = true)
        (valueError "chat checkpoint ends with unpaired tool calls")
      return s.messages.map (redactMessage env.redactor.redactText)) := by
  obtain ⟨raw, hraw, hdumped, hloaded⟩ := h.messages s.messages hne
  have hmode : (savedDocument env s undoJournal durationMs path).getD "mode" .null =
      .str "chat" := by
    have hfield : (savedDocument env s undoJournal durationMs path).getD "mode" .null =
        .str (env.redactor.redactText "chat") := getD_savedDocument "mode" _ (by decide) rfl
    rw [hfield, h.short.redactText (by decide)]
  have hschema : (savedDocument env s undoJournal durationMs path).getD "resume_schema" (.int 0) =
      .int 1 := getD_savedDocument "resume_schema" _ (by decide) rfl
  have hcwd : (savedDocument env s undoJournal durationMs path).getD "cwd" (.str "") =
      .str (env.redactor.redactText env.cwd) := getD_savedDocument "cwd" _ (by decide) rfl
  have hmessages : (savedDocument env s undoJournal durationMs path).getD "messages" .null =
      .arr raw := by
    have hfield : (savedDocument env s undoJournal durationMs path).getD "messages" .null =
        redactData env.redactor.redactText (env.messagesToDict s.messages) :=
      getD_savedDocument "messages" _ (by decide) rfl
    rw [hfield, hdumped]
  obtain ⟨first, rest, rfl⟩ := List.exists_cons_of_ne_nil hraw
  unfold Chat.restoreMessages
  rw [hmode, hschema, hcwd, hmessages]
  simp only [pyStr, pyInt, h.cwd, hloaded, Json.pyEq, except_ok_bind, raiseIf, Bool.not_true,
    Bool.false_eq_true, if_false, ne_eq, not_true_eq_false]
  rfl

omit [Json.PyFloat F] in
theorem endsUnpaired_redact (redactText : String → String) (messages : List (BaseMessage F)) :
    Chat.endsUnpaired (messages.map (redactMessage redactText)) = Chat.endsUnpaired messages := by
  unfold Chat.endsUnpaired
  rw [List.getLast?_map]
  cases messages.getLast? with
  | none => rfl
  | some last => simp [asksForTools, redactMessage]

theorem restoreMessages_saved (h : Resumable env) (hpaired : WellPaired env.repr s.messages) :
    Chat.restoreMessages env (savedDocument env s undoJournal durationMs path) =
      .ok (s.messages.map (redactMessage env.redactor.redactText)) := by
  have hne : s.messages ≠ [] := by
    obtain ⟨system, blocks, heq, -⟩ := hpaired
    simp [heq]
  rw [restoreMessages_document h hne, endsUnpaired_redact, hpaired.not_endsUnpaired]
  rfl

end Document

/-! ## Sessions, one after another -/

variable (env) in
/-- The trajectory file holds what a save of this session wrote. -/
def SavedBy (w : ChatWorld F) (data : Json F) : Prop :=
  ∃ exitStatus w' trajectory path, env.trajectoryPath = some path ∧
    Run (Acts interrupts Spared) (Chat.save env exitStatus) w (.ok ()) w' ∧
    Wrote w' trajectory ∧ data = Chat.loadTrajectory path trajectory

variable (env) in
/-- Nothing strikes a session with unanswered calls but what its batch catches,
and a session that is restored is one that was saved. -/
def undisturbed : ChatConditions F where
  admits := Spared
  resumes := SavedBy env
  fingerprint := (· ≠ "")

theorem SavedBy.document {w : ChatWorld F} {data : Json F} (h : SavedBy env w data)
    (hsettled : Settled env w) :
    ∃ s undoJournal durationMs path, WellPaired env.repr s.messages ∧ Sound s ∧
      data = savedDocument env s undoJournal durationMs path := by
  obtain ⟨exitStatus, w', trajectory, path, hpath, hrun, hwrote, rfl⟩ := h
  have hsaved := (settled_save exitStatus).ok hsettled hrun
  obtain ⟨undoJournal, durationMs, hwrote'⟩ :=
    (save_wrote (by simp [hpath]) exitStatus).ok trivial hrun
  exact ⟨w'.self, undoJournal, durationMs, path, hsaved.1, hsaved.2, by
    rw [savedDocument, hwrote.eq hwrote']⟩

omit [Json.PyFloat F] in
theorem restoreLastTurn_fields {data : Json F} {lastTurn : Option (Dict (Json F))}
    (h : Chat.restoreLastTurn data = .ok lastTurn) :
    ∀ turn, lastTurn = some turn → turn.keys = Chat.turnResultFields := by
  intro turn hturn
  subst hturn
  unfold Chat.restoreLastTurn at h
  split at h
  · next raw heq =>
      obtain ⟨turn', hraw, h⟩ := except_bind_ok.1 h
      cases h
      unfold Chat.turnResultOf at hraw
      split at hraw
      · cases hraw
      · obtain ⟨_, -, hraw⟩ := except_bind_ok.1 hraw
        cases hraw
        rfl
  · cases h

/-- A session restored from such a document starts settled. -/
theorem restored_settled (h : Resumable env) {w : ChatWorld F} {data : Json F}
    (hdata : SavedBy env w data) (hsettled : Settled env w) {fingerprint : String}
    (hfingerprint : fingerprint ≠ "") {self : Chat F}
    (hrestore : Chat.restore env data fingerprint = .ok self) :
    WellPaired env.repr self.messages ∧ Sound self := by
  obtain ⟨s, undoJournal, durationMs, path, hpaired, hsound, rfl⟩ := hdata.document hsettled
  unfold Chat.restore at hrestore
  rw [restoreMessages_saved h hpaired, except_ok_bind] at hrestore
  obtain ⟨events, -, hrestore⟩ := except_bind_ok.1 hrestore
  obtain ⟨skipped, -, hrestore⟩ := except_bind_ok.1 hrestore
  obtain ⟨records, -, hrestore⟩ := except_bind_ok.1 hrestore
  obtain ⟨_, hbaseline, hrestore⟩ := except_bind_ok.1 hrestore
  obtain ⟨lastTurn, hlast, hrestore⟩ := except_bind_ok.1 hrestore
  cases hrestore
  refine ⟨hpaired.redact _, ⟨?_, ?_, restoreLastTurn_fields hlast⟩⟩
  · rw [VerificationGate.sync_baselineFingerprint]
    exact raiseIf_ok.1 hbaseline
  · rwa [VerificationGate.sync_currentFingerprint]

theorem ChatRun.settled (h : Resumable env) {w : ChatWorld F}
    (hrun : ChatRun env (undisturbed env) w) : Settled env w := by
  have hends : ∀ {α : Type} {p : ChatProg F α} {w w' : ChatWorld F} {r : Except PyExc α},
      Triple (Acts interrupts Spared) (Settled env) p (fun _ => Settled env)
        (fun _ => Settled env) → Settled env w → Run (Acts interrupts Spared) p w r w' →
      Settled env w' := by
    intro α p w w' r hp hw hrun
    have := hp w r w' hw hrun
    cases r <;> exact this
  induction hrun with
  | start systemPrompt hfingerprint =>
      refine ⟨⟨_, [], rfl, rfl, rfl, by simp⟩, hfingerprint, hfingerprint, ?_⟩
      intro turn hturn
      cases hturn
  | restore _ hdata hfingerprint hrestore ih =>
      exact restored_settled h hdata ih hfingerprint hrestore
  | turn _ userText codingMode hrun ih =>
      exact hends (settled_respondTurn userText codingMode) ih hrun
  | clear _ hrun ih => exact hends settled_clearContext ih hrun
  | close _ hrun ih => exact hends settled_close ih hrun

end Sessions

/-! ## Turns on scripted answers -/

namespace ChatSample

def dumpMessage (m : BaseMessage Unit) : Json Unit :=
  .obj [("type", .str m.type.text), ("content", m.content),
    ("tool_calls", .arr (m.toolCalls.map .obj)), ("tool_call_id", .str m.toolCallId),
    ("additional_kwargs", .obj m.additionalKwargs)]

def loadType : Json Unit → MessageType
  | .str "system" => .system
  | .str "human" => .human
  | .str "ai" => .ai
  | _ => .tool

def members : Json Unit → Dict (Json Unit)
  | .obj kvs => kvs
  | _ => []

def items : Json Unit → List (Json Unit)
  | .arr xs => xs
  | _ => []

def loadMessage (j : Json Unit) : BaseMessage Unit where
  type := loadType (j.getD "type" .null)
  content := j.getD "content" .null
  toolCalls := (items (j.getD "tool_calls" .null)).map members
  toolCallId := pyStr (fun _ => "") (j.getD "tool_call_id" .null)
  additionalKwargs := members (j.getD "additional_kwargs" .null)

theorem loadMessage_dumpMessage (m : BaseMessage Unit) : loadMessage (dumpMessage m) = m := by
  have htype : loadType ((dumpMessage m).getD "type" .null) = m.type := by
    show loadType (.str m.type.text) = m.type
    cases m.type <;> rfl
  have hcalls : (items ((dumpMessage m).getD "tool_calls" .null)).map members = m.toolCalls := by
    show (m.toolCalls.map .obj).map members = m.toolCalls
    rw [List.map_map]
    exact List.map_id m.toolCalls
  rw [loadMessage, htype, hcalls]
  rfl

def env (contextCharBudget : Int) (quiet : Bool) : ChatEnv Unit where
  redactor := .create [] id markedOr_id
  auditToolArgs _ args := args
  messagesToDict messages := .arr (messages.map dumpMessage)
  messagesFromDict raw := .ok ((items raw).map loadMessage)
  loadUndoRecords _ := .ok []
  resolvePath := id
  repr _ := ""
  cwd := "/w"
  sandbox := .null
  maxStepsPerTurn := 1
  contextCharBudget := contextCharBudget
  trajectoryPath := some "/t.json"
  quiet := quiet
  ignored := []

theorem redactText_env (contextCharBudget : Int) (quiet : Bool) (text : String) :
    (env contextCharBudget quiet).redactor.redactText text = text :=
  String.ofList_toList

theorem resumable (contextCharBudget : Int) (quiet : Bool) :
    Resumable (env contextCharBudget quiet) where
  short := SecretRedactor.create_keepsShortText [] (fun _ => .inl rfl) fun _ _ => rfl
  cwd := redactText_env contextCharBudget quiet "/w"
  messages messages hne := by
    have hsame := redactText_env contextCharBudget quiet
    have hmessage : ∀ m : BaseMessage Unit,
        redactMessage (env contextCharBudget quiet).redactor.redactText m = m := by
      intro m
      rw [redactMessage, redactData_same hsame, redactMembers_same hsame, hsame,
        List.map_congr_left fun call _ => redactMembers_same hsame call, List.map_id']
    refine ⟨messages.map dumpMessage, by simpa using hne, redactData_same hsame _, ?_⟩
    show Except.ok ((messages.map dumpMessage).map loadMessage) = _
    have hload : loadMessage ∘ dumpMessage = id := funext loadMessage_dumpMessage
    have hredact : redactMessage (env contextCharBudget quiet).redactor.redactText = id :=
      funext hmessage
    rw [List.map_map, hload, hredact]

/-- One reply for every model call, one answer for every tool and every line
printed; the workspace never changes. -/
def reply (calls : List (Dict (Json Unit))) (tool : Except PyExc (ToolResult Unit))
    (printed : Except PyExc Unit) (_ : List (ChatEvent Unit)) :
    (o : ChatOp Unit) → Except PyExc o.Res
  | .executor (.captureWorkspaceFingerprint _) => .ok "f"
  | .executor (.executeTool _ _) => tool
  | .executor (.onStructuredEdit _) => .ok ()
  | .invokeModel _ => .ok ⟨.str "", calls, []⟩
  | .print _ => printed
  | .writeUndoJournal _ => .ok ""
  | .durationMs => .ok (0 : Int)
  | .writeJson _ => .ok ()

def started (contextCharBudget : Int) (quiet : Bool) : ChatWorld Unit :=
  ⟨Chat.start (env contextCharBudget quiet) "s" "f", [], []⟩

/-- The turn's end, and the session after it. -/
def ended (calls : List (Dict (Json Unit))) (tool : Except PyExc (ToolResult Unit))
    (printed : Except PyExc Unit) (contextCharBudget : Int) (quiet : Bool) :
    Except PyExc TurnResult × ChatWorld Unit :=
  exec (answering (reply calls tool printed))
    (Chat.respondTurn (env contextCharBudget quiet) "hi" false) (started contextCharBudget quiet)

def call (id : Json Unit) : Dict (Json Unit) := [("id", id)]

def shown : ToolResult Unit where
  tool := ""
  output := ""
  returncode := 0
  durationMs := 0

def interrupt : PyExc := ⟨"KeyboardInterrupt", "", false⟩
/-- A call that is answered. -/
def answered : Except PyExc TurnResult × ChatWorld Unit :=
  ended [call (.str "c")] (.ok shown) (.ok ()) 60000 true

/-- Ctrl-C while the tool runs. -/
def interrupted : Except PyExc TurnResult × ChatWorld Unit :=
  ended [call (.str "c")] (.error interrupt) (.ok ()) 60000 true

def saved : Except PyExc Unit × ChatWorld Unit :=
  exec (answering (reply [call (.str "c")] (.ok shown) (.ok ())))
    (Chat.save (env 60000 true) "chatting") answered.2

end ChatSample

open ChatSample

end MiniCodeAgent
