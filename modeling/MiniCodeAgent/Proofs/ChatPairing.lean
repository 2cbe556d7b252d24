import MiniCodeAgent.Chat
import MiniCodeAgent.Proofs.Compaction

/-!
# A chat's history stays paired

The model API wants an answer behind every call, and `_restore` refuses a history
that ends with unanswered ones. Between the reply that asks for tools and the last
of its tool messages the history is not in that state, and nothing in a turn mends
it: stopped there, the session is saved as it is. So the turn's condition has two
forms, `Settled` and `Asking`, and what may strike an asking session is what the
batch catches by itself. Everything else a turn does, failures included, starts
and ends settled.
-/

namespace MiniCodeAgent

open Prog ObjProg

variable {F : Type} (repr : Json F → String)

/-! ## Replies and their answers -/

/-- Every call has an id and its answer stands behind the message, in the calls'
order. -/
structure Replied (message : BaseMessage F) (answers : List (BaseMessage F)) : Prop where
  type_ne : message.type ≠ .tool
  calls : message.type ≠ .ai → message.toolCalls = []
  few : message.toolCalls.length ≤ maxToolCallsPerMessage
  ids : ∀ call ∈ message.toolCalls, ∃ id, call.get? "id" = some (.str id)
  tools : ∀ answer ∈ answers, answer.type = .tool ∧ answer.toolCalls = []
  answers : answers.map (·.toolCallId) = callIds repr message

def RepliedBlock (block : List (BaseMessage F)) : Prop :=
  ∃ message answers, block = message :: answers ∧ Replied repr message answers

/-- The system message, and behind it blocks with every call answered. -/
def WellPaired (messages : List (BaseMessage F)) : Prop :=
  ∃ (system : BaseMessage F) (blocks : List (List (BaseMessage F))),
    messages = system :: blocks.flatten ∧ system.type = .system ∧ system.toolCalls = [] ∧
      ∀ block ∈ blocks, RepliedBlock repr block

variable {repr}

theorem Replied.length {message : BaseMessage F} {answers : List (BaseMessage F)}
    (h : Replied repr message answers) : answers.length = message.toolCalls.length := by
  have := congrArg List.length h.answers
  simpa [callIds] using this

theorem RepliedBlock.whole {block : List (BaseMessage F)} (h : RepliedBlock repr block) :
    WholeBlock block := by
  obtain ⟨message, answers, rfl, hreplied⟩ := h
  refine ⟨message, answers, rfl, hreplied.type_ne, hreplied.calls, hreplied.tools, fun hnil => ?_⟩
  have := hreplied.length
  rw [hnil] at this
  exact List.eq_nil_of_length_eq_zero this

theorem repliedBlock_plain {message : BaseMessage F} (htype : message.type ≠ .tool)
    (hcalls : message.toolCalls = []) : RepliedBlock repr [message] := by
  refine ⟨message, [], rfl, htype, fun _ => hcalls, ?_, ?_, ?_, ?_⟩
  · rw [hcalls]
    exact Nat.zero_le _
  · simp [hcalls]
  · simp
  · simp [callIds, hcalls]

theorem WellPaired.append {messages block : List (BaseMessage F)} (h : WellPaired repr messages)
    (hblock : RepliedBlock repr block) : WellPaired repr (messages ++ block) := by
  obtain ⟨system, blocks, rfl, htype, hcalls, hblocks⟩ := h
  refine ⟨system, blocks ++ [block], by simp, htype, hcalls, fun b hb => ?_⟩
  rcases List.mem_append.1 hb with hb | hb
  · exact hblocks b hb
  · rw [List.mem_singleton.1 hb]
    exact hblock

/-- The first message alone is a history too. -/
theorem WellPaired.take_one {messages : List (BaseMessage F)} (h : WellPaired repr messages) :
    WellPaired repr (messages.take 1) := by
  obtain ⟨system, blocks, rfl, htype, hcalls, -⟩ := h
  exact ⟨system, [], rfl, htype, hcalls, by simp⟩

/-- A history does not end with a call. -/
theorem WellPaired.not_endsUnpaired {messages : List (BaseMessage F)}
    (h : WellPaired repr messages) : Chat.endsUnpaired messages = false := by
  obtain ⟨system, blocks, rfl, htype, hcalls, hblocks⟩ := h
  have hlast : ∀ last, (system :: blocks.flatten).getLast? = some last →
      asksForTools last = false := by
    rcases List.eq_nil_or_concat blocks with rfl | ⟨earlier, block, rfl⟩
    · intro last hlast
      have : system = last := by simpa using hlast
      simp [asksForTools, ← this, htype]
    · obtain ⟨message, answers, rfl, hreplied⟩ := hblocks block (by simp)
      intro last hlast
      have hconcat : (system :: (earlier ++ [message :: answers]).flatten) =
          (system :: earlier.flatten ++ [message]) ++ answers := by simp
      rw [List.concat_eq_append, hconcat] at hlast
      cases hanswers : answers.getLast? with
      | some answer =>
          rw [List.getLast?_append, hanswers] at hlast
          have : answer = last := by simpa using hlast
          have htool := (hreplied.tools answer (List.mem_of_getLast? hanswers)).1
          simp [asksForTools, ← this, htool]
      | none =>
          rw [List.getLast?_eq_none_iff] at hanswers
          have hlen := hreplied.length
          rw [hanswers, List.length_nil] at hlen
          rw [hanswers, List.append_nil, List.getLast?_concat] at hlast
          have : message = last := by simpa using hlast
          simp [asksForTools, ← this, List.eq_nil_of_length_eq_zero hlen.symm]
  unfold Chat.endsUnpaired
  split
  · next last h => exact hlast last h
  · rfl

/-! ## Compaction -/

section Compaction

variable [Json.PyFloat F]

theorem RepliedBlock.cut {block : List (BaseMessage F)} (h : RepliedBlock repr block)
    (c a : Nat) : RepliedBlock repr ((keepCalls repr block).map (compactMessage repr c a)) := by
  obtain ⟨message, answers, rfl, hreplied⟩ := h
  have htake : message.toolCalls.take maxToolCallsPerMessage = message.toolCalls :=
    List.take_of_length_le hreplied.few
  have hkeep : keepCalls repr (message :: answers) = message :: answers := by
    rw [keepCalls]
    split
    · dsimp only
      rw [htake, List.filter_eq_self.2 fun answer hanswer => ?_]
      have hid : answer.toolCallId ∈ callIds repr message := by
        rw [← hreplied.answers]
        exact List.mem_map_of_mem hanswer
      rw [callIds] at hid
      simp [hid]
    · rfl
  rw [hkeep, List.map_cons]
  refine ⟨_, _, rfl, hreplied.type_ne, fun hne => compactMessage_toolCalls_nil
    (hreplied.calls hne), ?_, ?_, ?_, ?_⟩
  · simp only [compactMessage, List.length_map, htake]
    exact hreplied.few
  · intro call hcall
    simp only [compactMessage, htake] at hcall
    obtain ⟨original, horiginal, rfl⟩ := List.mem_map.1 hcall
    obtain ⟨id, hid⟩ := hreplied.ids original horiginal
    exact ⟨id, by rw [compactCall, Dict.get?_set, if_neg (by decide), hid]⟩
  · intro answer hanswer
    obtain ⟨original, horiginal, rfl⟩ := List.mem_map.1 hanswer
    obtain ⟨htype, hcalls⟩ := hreplied.tools original horiginal
    exact ⟨htype, compactMessage_toolCalls_nil hcalls⟩
  · rw [callIds_compactMessage, ← hreplied.answers, List.map_map,
      List.take_of_length_le (by rw [List.length_map, hreplied.length]; exact hreplied.few)]
    rfl

theorem WellPaired.compactMessages {messages result : List (BaseMessage F)} {maxChars : Int}
    (h : WellPaired repr messages)
    (hresult : compactMessages repr messages maxChars false = .ok result) :
    WellPaired repr result := by
  obtain ⟨system, blocks, rfl, htype, hcalls, hblocks⟩ := h
  obtain ⟨humans, later, hhumans, hlater, -, hshape, -⟩ :=
    compactMessages_whole (fun b hb => (hblocks b hb).whole) hresult
  have hcut : ∀ {chosen : List (List (BaseMessage F))}, Chosen repr later chosen →
      ∀ cut ∈ chosen, RepliedBlock repr cut := by
    intro chosen hchosen cut hmem
    obtain ⟨block, hblock, hcutof⟩ := hchosen.block hmem
    obtain ⟨c, a, rfl⟩ := hcutof.eq
    exact (hblocks block (hlater.mem hblock)).cut c a
  have hhuman : ∀ block ∈ humans.map fun m => [m], RepliedBlock repr block := by
    intro block hblock
    obtain ⟨m, hm, rfl⟩ := List.mem_map.1 hblock
    exact repliedBlock_plain (by simp [(hhumans m hm).1]) (hhumans m hm).2
  have hflat : (humans.map fun m => [m]).flatten = humans := by
    rw [← List.flatMap_def]
    exact List.flatMap_singleton' humans
  cases hshape with
  | whole => exact ⟨system, blocks, rfl, htype, hcalls, hblocks⟩
  | @fits chosen hchosen =>
      refine ⟨system, (humans.map fun m => [m]) ++ chosen, ?_, htype, hcalls, ?_⟩
      · rw [List.flatten_append, hflat, List.cons_append]
      · exact fun b hb => (List.mem_append.1 hb).elim (hhuman b) (hcut hchosen b)
  | @summary text chosen hchosen =>
      refine ⟨system, (humans.map fun m => [m]) ++ [[humanMessage text]] ++ chosen, ?_, htype,
        hcalls, ?_⟩
      · simp [hflat]
      · intro b hb
        rcases List.mem_append.1 hb with hb | hb
        · rcases List.mem_append.1 hb with hb | hb
          · exact hhuman b hb
          · rw [List.mem_singleton.1 hb]
            exact repliedBlock_plain (by simp [humanMessage]) rfl
        · exact hcut hchosen b hb

end Compaction

/-! ## Unanswered calls -/

/-- The calls of the last message with calls that no tool message answers yet. -/
def unanswered (messages : List (BaseMessage F)) : Nat :=
  messages.foldl (fun n m => if m.type = .tool then n - 1 else m.toolCalls.length) 0

theorem unanswered_append {messages answers : List (BaseMessage F)} {message : BaseMessage F}
    (htype : message.type ≠ .tool) (htools : ∀ answer ∈ answers, answer.type = .tool) :
    unanswered (messages ++ message :: answers) = message.toolCalls.length - answers.length := by
  have htail : ∀ n, answers.foldl (fun n (m : BaseMessage F) =>
      if m.type = .tool then n - 1 else m.toolCalls.length) n = n - answers.length := by
    clear htype
    induction answers with
    | nil => simp
    | cons answer answers ih =>
        intro n
        rw [List.foldl_cons, if_pos (htools answer List.mem_cons_self),
          ih fun a ha => htools a (List.mem_cons_of_mem _ ha), List.length_cons]
        omega
  rw [unanswered, List.foldl_append, List.foldl_cons, if_neg htype, htail]

theorem WellPaired.unanswered {messages : List (BaseMessage F)} (h : WellPaired repr messages) :
    unanswered messages = 0 := by
  obtain ⟨system, blocks, rfl, htype, hcalls, hblocks⟩ := h
  rcases List.eq_nil_or_concat blocks with rfl | ⟨earlier, block, rfl⟩
  · simp [MiniCodeAgent.unanswered, htype, hcalls]
  · obtain ⟨message, answers, rfl, hreplied⟩ := hblocks block (by simp)
    have hconcat : (system :: (earlier.concat (message :: answers)).flatten) =
        (system :: earlier.flatten) ++ message :: answers := by simp
    rw [hconcat, unanswered_append hreplied.type_ne fun a ha => (hreplied.tools a ha).1,
      hreplied.length]
    omega

/-! ## What may strike a turn -/

def CarriesIds (reply : AIMessage F) : Prop :=
  ∀ call ∈ reply.toolCalls, ∃ id, id ≠ "" ∧ call.get? "id" = some (.str id)

/-- While calls are unanswered only the executor raises, and only exceptions the
batch catches. Replies give each call an id, and a fingerprint is not empty. -/
structure Spared (w : ChatWorld F) (e : ObjEvent (ChatOp F) ChatOp.Res PyExc (Chat F)) :
    Prop where
  settled : unanswered w.self.messages ≠ 0 → ∀ exc, e.res = .error exc →
    exc.isException = true ∧ ∃ o, e.op = .call (.executor o)
  ids : ∀ messages reply, e = ⟨.call (.invokeModel messages), .ok reply⟩ → CarriesIds reply
  captured : ∀ ignored fingerprint,
    e = ⟨.call (.executor (.captureWorkspaceFingerprint ignored)), .ok fingerprint⟩ →
      fingerprint ≠ ""

/-- What a document needs of a session besides its messages. -/
structure Sound (s : Chat F) : Prop where
  baseline : s.gate.baselineFingerprint ≠ ""
  current : s.gate.currentFingerprint ≠ ""
  lastTurn : ∀ turn, s.lastTurn = some turn → turn.keys = Chat.turnResultFields

variable (env : ChatEnv F)

def Settled (w : ChatWorld F) : Prop := WellPaired env.repr w.self.messages ∧ Sound w.self

variable {env}

def Asking (messages : List (BaseMessage F)) (w : ChatWorld F) : Prop :=
  w.self.messages = messages ∧ Sound w.self

def Caught (messages : List (BaseMessage F)) (exc : PyExc) (w : ChatWorld F) : Prop :=
  exc.isException = true ∧ Asking messages w

theorem Sound.withGate {s : Chat F} (h : Sound s) {g : VerificationGate}
    (hbaseline : g.baselineFingerprint = s.gate.baselineFingerprint)
    (hcurrent : g.currentFingerprint ≠ "") : Sound { s with gate := g } where
  baseline := by rw [hbaseline]; exact h.baseline
  current := hcurrent
  lastTurn := h.lastTurn

/-! ## The batch -/

section Batch

variable {messages : List (BaseMessage F)} {E : PyExc → ChatWorld F → Prop} {α : Type}

/-- Nothing but the executor raises, so a protected part of the batch returns. -/
theorem asking_guarded {p : ChatProg F α} {Q : α → ChatWorld F → Prop}
    (h : Triple (Acts interrupts Spared) (Asking messages) p Q (Caught messages)) :
    Triple (Acts interrupts Spared) (Asking messages) (Chat.guarded p)
      (Ends Q fun _ => Asking messages) E := by
  refine h.rescue.weaken (fun _ hw => hw) ?_ ?_
  · intro r w hw
    cases r with
    | ok a => exact hw
    | error exc => exact hw.2.2
  · intro exc w hw
    exact absurd hw.2.1 hw.1

theorem asking_self : Triple (Acts interrupts Spared) (Asking messages) self
    (fun s w => s.gate.currentFingerprint ≠ "" ∧ Asking messages w) E :=
  ObjProg.triple_self fun _ hw => ⟨hw.2.current, hw⟩

variable (hasks : unanswered messages ≠ 0)

include hasks

theorem asking_call (o : ExecutorOp F) {φ : o.Res → Prop}
    (hφ : ∀ w a, Spared (F := F) w ⟨.call (ChatOp.executor o), .ok a⟩ → φ a) :
    Triple (Acts interrupts Spared) (Asking messages) (call (ChatOp.executor o))
      (fun a w => φ a ∧ Asking messages w) (Caught messages) := by
  refine ObjProg.triple_call fun w r hw hadm => ?_
  cases r with
  | ok a => exact ⟨hφ w a hadm, hw⟩
  | error exc =>
      have hcaught := hadm.settled (by rw [hw.1]; exact hasks) exc rfl
      exact ⟨hcaught.1, hw⟩

theorem asking_modify {f : Chat F → Chat F} (hmessages : ∀ s, (f s).messages = s.messages)
    (hsound : ∀ s, Sound s → Sound (f s)) :
    Triple (Acts interrupts Spared) (Asking messages) (modify f)
      (fun _ => Asking messages) E := by
  refine ObjProg.triple_modify ?_ ?_
  · intro w hw
    exact ⟨by rw [ObjWorld.modified_self, hmessages, hw.1], hsound w.self hw.2⟩
  · intro w exc hw hadm _
    obtain ⟨-, o, ho⟩ := hadm.settled (by rw [hw.1]; exact hasks) exc rfl
    cases ho

theorem asking_capture (ignored : List String) :
    Triple (Acts interrupts Spared) (Asking messages)
      (Chat.captureWorkspaceFingerprint ignored)
      (fun fingerprint w => fingerprint ≠ "" ∧ Asking messages w) (Caught messages) :=
  asking_call hasks (.captureWorkspaceFingerprint ignored)
    fun _ fingerprint hadm => hadm.captured ignored fingerprint rfl

theorem asking_sync {fingerprint : String} (hne : fingerprint ≠ "") :
    Triple (Acts interrupts Spared) (Asking messages)
      (Chat.updateGate (F := F) (·.sync fingerprint)) (fun _ => Asking messages) E :=
  asking_modify hasks (fun _ => rfl) fun _ hs => hs.withGate (by simp) (by simpa using hne)

theorem asking_captureFailed :
    Triple (Acts interrupts Spared) (Asking messages)
      (Chat.updateGate (F := F) VerificationGate.captureFailed) (fun _ => Asking messages) E :=
  asking_modify hasks (fun _ => rfl) fun _ hs => hs.withGate rfl hs.current

theorem asking_initialCapture (ignored : List String) :
    Triple (Acts interrupts Spared) (Asking messages) (Chat.initialCapture ignored)
      (fun x w => x.2 ≠ "" ∧ Asking messages w) E := by
  have hinner : Triple (Acts interrupts Spared) (Asking messages)
      (Prog.bind (Chat.captureWorkspaceFingerprint ignored) fun fingerprint =>
        Prog.bind (Chat.updateGate (F := F) (·.sync fingerprint)) fun _ =>
          .done (.ok fingerprint))
      (fun fingerprint w => fingerprint ≠ "" ∧ Asking messages w) (Caught messages) :=
    (asking_capture hasks ignored).bind fun fingerprint => triple_imp fun hne =>
      (asking_sync hasks hne).bind fun _ => triple_pure fun w hw => ⟨hne, hw⟩
  refine (asking_guarded hinner).bind fun r => ?_
  cases r with
  | ok fingerprint => exact triple_pure fun w hw => hw
  | error exc =>
      refine asking_self.bind fun s => triple_imp fun hne => ?_
      exact (asking_captureFailed hasks).bind fun _ => triple_pure fun w hw => ⟨hne, hw⟩

theorem asking_runTool (ignored : List String) (call : NormalizedCall F) :
    Triple (Acts interrupts Spared) (Asking messages) (Chat.runTool ignored call)
      (fun _ => Asking messages) E := by
  refine (asking_guarded (asking_call (φ := fun _ => True) hasks _ fun _ _ _ => trivial)).bind
    fun r => ?_
  cases r with
  | ok result => exact triple_pure fun w hw => hw.2
  | error exc => exact triple_pure fun w hw => hw

theorem asking_recordEdit (call : NormalizedCall F) (result : ToolResult F) :
    Triple (Acts interrupts Spared) (Asking messages)
      (Chat.recordEdit (some Chat.recordUndo) call result) (fun _ => Asking messages) E := by
  have hundo : Triple (Acts interrupts Spared) (Asking messages) (Chat.recordUndo result)
      (fun _ => Asking messages) (Caught messages) := by
    unfold Chat.recordUndo
    split
    · split
      · exact triple_pure fun w hw => hw
      · exact asking_modify hasks (fun _ => rfl) fun _ hs => ⟨hs.baseline, hs.current, hs.lastTurn⟩
    · exact triple_pure fun w hw => hw
  unfold Chat.recordEdit
  dsimp only
  split
  · refine (asking_guarded hundo).bind fun r => ?_
    cases r <;> exact triple_pure fun w hw => hw
  · exact triple_pure fun w hw => hw

theorem asking_settleCall (name : String) (result : ToolResult F) {fingerprint : String}
    (hne : fingerprint ≠ "") :
    Triple (Acts interrupts Spared) (Asking messages)
      (Chat.settleCall name result fingerprint) (fun _ => Asking messages) E := by
  unfold Chat.settleCall
  split
  · refine Triple.bind (R := fun _ => Asking messages) ?_ fun _ => triple_pure fun w hw => hw
    exact asking_modify hasks (fun _ => rfl) fun _ hs => hs.withGate (by simp) (by simpa using hne)
  · exact (asking_sync hasks hne).bind fun _ => triple_pure fun w hw => hw

theorem asking_executeCall (ignored : List String) (call : NormalizedCall F)
    {fingerprint : String} (hne : fingerprint ≠ "") :
    Triple (Acts interrupts Spared) (Asking messages)
      (Chat.executeCall ignored (some Chat.recordUndo) call fingerprint)
      (fun x w => x.2 ≠ "" ∧ Asking messages w) E := by
  refine (asking_runTool hasks ignored call).bind fun result => ?_
  refine (asking_recordEdit hasks call result).bind fun result => ?_
  have hrequire : Triple (Acts interrupts Spared) (Asking messages)
      (Chat.requireAfterMutation call.name result) (fun _ => Asking messages) E := by
    unfold Chat.requireAfterMutation
    split
    · exact asking_modify hasks (fun _ => rfl) fun s hs => hs.withGate rfl hs.current
    · exact triple_pure fun w hw => hw
  refine hrequire.bind fun _ => ?_
  split
  · refine (asking_guarded (asking_capture hasks ignored)).bind fun r => ?_
    cases r with
    | ok fingerprint =>
        exact triple_imp fun hne => (asking_settleCall hasks _ _ hne).bind
          fun _ => triple_pure fun w hw => ⟨hne, hw⟩
    | error exc =>
        exact (asking_captureFailed hasks).bind fun _ => triple_pure fun w hw => ⟨hne, hw⟩
  · exact (asking_settleCall hasks _ _ hne).bind fun _ => triple_pure fun w hw => ⟨hne, hw⟩

theorem asking_executeCalls (ignored : List String) (initialCaptureError : String)
    (calls : List (NormalizedCall F)) {fingerprint : String} (hne : fingerprint ≠ "") :
    Triple (Acts interrupts Spared) (Asking messages)
      (Chat.executeCalls ignored (some Chat.recordUndo) initialCaptureError calls fingerprint)
      (fun results w => results.length = calls.length ∧ Asking messages w) E := by
  induction calls generalizing fingerprint with
  | nil => exact triple_pure fun w hw => ⟨rfl, hw⟩
  | cons call calls ih =>
      rw [Chat.executeCalls]
      have hmore : ∀ (result : Option (ToolResult F)) {fingerprint : String}, fingerprint ≠ "" →
          Triple (Acts interrupts Spared) (Asking messages)
            (Prog.bind (Chat.executeCalls ignored (some Chat.recordUndo) initialCaptureError calls
              fingerprint) fun results => .done (.ok (result :: results)))
            (fun results w => results.length = (call :: calls).length ∧ Asking messages w) E :=
        fun result _ hne => (ih hne).bind fun results => triple_pure fun w hw =>
          ⟨congrArg (· + 1) hw.1, hw.2⟩
      split
      · exact hmore none hne
      · split
        · exact hmore _ hne
        · exact (asking_executeCall hasks ignored call hne).bind fun x =>
            triple_imp fun hne => hmore _ hne

theorem asking_decideSubmission (ignored : List String) (calls : List (NormalizedCall F)) :
    Triple (Acts interrupts Spared) (Asking messages) (Chat.decideSubmission ignored calls)
      (fun _ => Asking messages) E := by
  unfold Chat.decideSubmission
  split
  · have hinner : Triple (Acts interrupts Spared) (Asking messages)
        (Prog.bind (Chat.captureWorkspaceFingerprint ignored) fun fingerprint =>
          Prog.bind self fun s => Prog.bind (Chat.updateGate (F := F) fun g =>
            (g.submissionError fingerprint).2) fun _ =>
              .done (.ok (s.gate.submissionError fingerprint).1))
        (fun _ => Asking messages) (Caught messages) := by
      refine (asking_capture hasks ignored).bind fun fingerprint => triple_imp fun hne => ?_
      refine asking_self.bind fun s => triple_imp fun _ => ?_
      simp only [VerificationGate.submissionError_snd]
      exact (asking_sync hasks hne).bind fun _ => triple_pure fun w hw => hw
    refine (asking_guarded hinner).bind fun r => ?_
    cases r <;> exact triple_pure fun w hw => hw
  · exact triple_pure fun w hw => hw

theorem asking_executeSubmit (submissionError : Option (String × String)) (args : Json F) :
    Triple (Acts interrupts Spared) (Asking messages)
      (Chat.executeSubmit submissionError args) (fun _ => Asking messages) E := by
  cases submissionError with
  | some error => exact triple_pure fun w hw => hw
  | none =>
      refine (asking_guarded (asking_call (φ := fun _ => True) hasks _ fun _ _ _ => trivial)).bind
        fun r => ?_
      cases r with
      | ok result => exact triple_pure fun w hw => hw.2
      | error exc => exact triple_pure fun w hw => hw

/-- Every call of the batch comes back with its id, in the calls' order. -/
theorem asking_executeSubmits (submissionError : Option (String × String))
    (calls : List (NormalizedCall F)) (results : List (Option (ToolResult F)))
    (hlength : results.length = calls.length) :
    Triple (Acts interrupts Spared) (Asking messages)
      (Chat.executeSubmits submissionError calls results)
      (fun executed w => executed.map (·.toolCallId) = calls.map (·.toolCallId) ∧
        Asking messages w) E := by
  induction calls generalizing results with
  | nil =>
      cases results with
      | nil => exact triple_pure fun w hw => ⟨rfl, hw⟩
      | cons result results => cases hlength
  | cons call calls ih =>
      cases results with
      | nil => cases hlength
      | cons result results =>
          have hmore : ∀ result : ToolResult F,
              Triple (Acts interrupts Spared) (Asking messages)
                (Prog.bind (Chat.executeSubmits submissionError calls results) fun executed =>
                  .done (.ok (⟨call.name, call.args, call.toolCallId, result⟩ :: executed)))
                (fun executed w => executed.map (·.toolCallId) =
                  (call :: calls).map (·.toolCallId) ∧ Asking messages w) E :=
            fun result => (ih results (by simpa using hlength)).bind fun executed =>
              triple_pure fun w hw => ⟨by rw [List.map_cons, List.map_cons, hw.1], hw.2⟩
          cases result with
          | some result => exact hmore result
          | none => exact (asking_executeSubmit hasks submissionError call.args).bind hmore

theorem asking_executeToolBatch (ignored : List String) (toolCalls : List (ToolCall F)) :
    Triple (Acts interrupts Spared) (Asking messages)
      (Chat.executeToolBatch ignored (some Chat.recordUndo) toolCalls)
      (fun batch w => batch.calls.map (·.toolCallId) =
        (toolCalls.mapIdx normalizeCall).map (·.toolCallId) ∧ Asking messages w) E := by
  refine (asking_initialCapture hasks ignored).bind fun x => triple_imp fun hne => ?_
  refine (asking_executeCalls hasks ignored x.1 _ hne).bind fun results => ?_
  refine triple_imp fun hlength => ?_
  refine (asking_decideSubmission hasks ignored _).bind fun submissionError => ?_
  exact (asking_executeSubmits hasks submissionError _ results hlength).bind fun executed =>
    triple_pure fun w hw => hw

end Batch

/-! ## The turn -/

section Turn

variable {env : ChatEnv F}

theorem settled_modify {f : Chat F → Chat F}
    (hpaired : ∀ s, WellPaired env.repr s.messages → WellPaired env.repr (f s).messages)
    (hsound : ∀ s, Sound s → Sound (f s)) :
    Triple (Acts interrupts Spared) (Settled env) (modify f) (fun _ => Settled env)
      (fun _ => Settled env) :=
  ObjProg.triple_modify (fun w hw => ⟨hpaired w.self hw.1, hsound w.self hw.2⟩)
    fun _ _ hw _ _ => hw

theorem settled_call (o : ChatOp F) {φ : o.Res → Prop}
    (hφ : ∀ w a, Spared (F := F) w ⟨.call o, .ok a⟩ → φ a) :
    Triple (Acts interrupts Spared) (Settled env) (call o) (fun a w => φ a ∧ Settled env w)
      (fun _ => Settled env) := by
  refine ObjProg.triple_call fun w r hw hadm => ?_
  cases r with
  | ok a => exact ⟨hφ w a hadm, hw⟩
  | error exc => exact hw

theorem settled_self : Triple (Acts interrupts Spared) (Settled env) self
    (fun s w => (WellPaired env.repr s.messages ∧ Sound s) ∧ Settled env w)
    (fun _ => Settled env) :=
  ObjProg.triple_self fun _ hw => ⟨hw, hw⟩

theorem settled_appendEvent (event : Json F) :
    Triple (Acts interrupts Spared) (Settled env) (Chat.appendEvent event)
      (fun _ => Settled env) (fun _ => Settled env) :=
  settled_modify (fun _ h => h) fun _ hs => ⟨hs.baseline, hs.current, hs.lastTurn⟩

/-- A message without calls leaves nothing to answer. -/
theorem settled_appendMessage {message : BaseMessage F} (htype : message.type ≠ .tool)
    (hcalls : message.toolCalls = []) :
    Triple (Acts interrupts Spared) (Settled env) (Chat.appendMessage message)
      (fun _ => Settled env) (fun _ => Settled env) :=
  settled_modify (fun _ h => h.append (repliedBlock_plain htype hcalls))
    fun _ hs => ⟨hs.baseline, hs.current, hs.lastTurn⟩

theorem settled_capture (ignored : List String) :
    Triple (Acts interrupts Spared) (Settled env) (Chat.captureWorkspaceFingerprint ignored)
      (fun fingerprint w => fingerprint ≠ "" ∧ Settled env w) (fun _ => Settled env) :=
  settled_call (ChatOp.executor (.captureWorkspaceFingerprint ignored))
    fun _ fingerprint hadm => hadm.captured ignored fingerprint rfl

theorem settled_sync {fingerprint : String} (hne : fingerprint ≠ "") :
    Triple (Acts interrupts Spared) (Settled env)
      (Chat.updateGate (F := F) (·.sync fingerprint)) (fun _ => Settled env)
      (fun _ => Settled env) :=
  settled_modify (fun _ h => h) fun _ hs => hs.withGate (by simp) (by simpa using hne)

section

variable [Json.PyFloat F]

theorem settled_compact : Triple (Acts interrupts Spared) (Settled env) (Chat.compact env)
    (fun _ => Settled env) (fun _ => Settled env) := by
  refine settled_self.bind fun s => triple_imp fun hs => ?_
  have hlift : Triple (Acts interrupts Spared) (Settled env)
      (lift (compactMessages env.repr s.messages env.contextCharBudget false) :
        ChatProg F (List (BaseMessage F)))
      (fun messages w => WellPaired env.repr messages ∧ Settled env w)
      (fun _ => Settled env) := by
    refine triple_lift fun w hw => ?_
    cases hresult : compactMessages env.repr s.messages env.contextCharBudget false with
    | ok messages => exact ⟨hs.1.compactMessages hresult, hw⟩
    | error exc => exact hw
  refine hlift.bind fun messages => triple_imp fun hmessages => ?_
  exact settled_modify (fun _ _ => hmessages) fun _ hs => ⟨hs.baseline, hs.current, hs.lastTurn⟩

theorem settled_save (exitStatus : String) :
    Triple (Acts interrupts Spared) (Settled env) (Chat.save env exitStatus)
      (fun _ => Settled env) (fun _ => Settled env) := by
  refine Triple.bind (R := fun _ => Settled env) ?_ fun _ => ?_
  · exact settled_modify (fun _ h => h) fun _ hs => ⟨hs.baseline, hs.current, hs.lastTurn⟩
  refine settled_compact.bind fun _ => ?_
  refine Triple.bind (R := fun _ => Settled env) ?_ fun _ => ?_
  · refine settled_modify ?_ ?_
    · intro s h
      unfold Chat.trimEvents
      split <;> exact h
    · intro s hs
      unfold Chat.trimEvents
      split
      · exact ⟨hs.baseline, hs.current, hs.lastTurn⟩
      · exact hs
  split
  · exact triple_pure fun w hw => hw
  · refine settled_self.bind fun s => triple_imp fun _ => ?_
    have hundo : Triple (Acts interrupts Spared) (Settled env) (Chat.saveUndo s.undoRecords)
        (fun _ w => True ∧ Settled env w) (fun _ => Settled env) := by
      unfold Chat.saveUndo
      split
      · exact triple_pure fun w hw => ⟨trivial, hw⟩
      · exact settled_call (ChatOp.writeUndoJournal s.undoRecords) fun _ _ _ => trivial
    refine hundo.bind fun _ => triple_imp fun _ => ?_
    refine (settled_call (φ := fun _ => True) _ fun _ _ _ => trivial).bind fun _ =>
      triple_imp fun _ => ?_
    exact (settled_call (φ := fun _ => True) _ fun _ _ _ => trivial).weaken (fun _ hw => hw)
      (fun _ _ hw => hw.2) fun _ _ hw => hw

theorem settled_finish (result : TurnResult) (exitStatus : String) :
    Triple (Acts interrupts Spared) (Settled env) (Chat.finish env result exitStatus)
      (fun _ => Settled env) (fun _ => Settled env) := by
  refine Triple.bind (R := fun _ => Settled env) ?_ fun _ => ?_
  · refine settled_modify (fun _ h => h) fun _ hs => ⟨hs.baseline, hs.current, ?_⟩
    intro turn hturn
    cases hturn
    rfl
  exact (settled_save exitStatus).bind fun _ => triple_pure fun w hw => hw

theorem settled_answer (codingMode : Bool) (step : Nat) (finalText : String) :
    Triple (Acts interrupts Spared) (Settled env) (Chat.answer env codingMode step finalText)
      (fun _ => Settled env) (fun _ => Settled env) := by
  refine (settled_capture env.ignored).bind fun current => triple_imp fun hne => ?_
  refine (settled_sync hne).bind fun _ => ?_
  refine settled_self.bind fun s => triple_imp fun _ => ?_
  split
  · refine (settled_appendMessage (by simp [humanMessage]) rfl).bind fun _ => ?_
    refine (settled_appendEvent _).bind fun _ => ?_
    exact (settled_save _).bind fun _ => triple_pure fun w hw => hw
  · exact (settled_finish _ _).bind fun _ => triple_pure fun w hw => hw

theorem settled_stepLimit : Triple (Acts interrupts Spared) (Settled env) (Chat.stepLimit env)
    (fun _ => Settled env) (fun _ => Settled env) :=
  settled_self.bind fun _ => triple_imp fun _ => settled_finish _ _

theorem settled_turnStopped (exc : PyExc) :
    Triple (Acts interrupts Spared) (Settled env) (Chat.turnStopped env exc)
      (fun _ => Settled env) (fun _ => Settled env) := by
  unfold Chat.turnStopped
  split
  · refine (settled_appendEvent _).bind fun _ => ?_
    exact settled_self.bind fun _ => triple_imp fun _ => settled_finish _ _
  · split
    · refine (settled_appendEvent _).bind fun _ => ?_
      exact (settled_save _).bind fun _ => triple_throw fun w hw => hw
    · exact triple_throw fun w hw => hw

theorem settled_acceptBatch (step : Nat) (text : String) :
    Triple (Acts interrupts Spared) (Settled env) (Chat.acceptBatch env step text)
      (fun _ => Settled env) (fun _ => Settled env) := by
  refine settled_self.bind fun s => triple_imp fun _ => ?_
  refine Triple.bind (R := fun _ => Settled env) ?_ fun _ => settled_finish _ _
  exact settled_modify (fun _ h => h) fun _ hs => ⟨hs.current, hs.current, hs.lastTurn⟩

end

/-! ### A reply with calls -/

variable (env) in
/-- A message the model's reply has become, behind a paired history. -/
structure Request (messages : List (BaseMessage F)) (message : BaseMessage F) : Prop where
  paired : WellPaired env.repr messages
  type : message.type = .ai
  few : message.toolCalls.length ≤ maxToolCallsPerMessage
  ids : ∀ call ∈ message.toolCalls, ∃ id, id ≠ "" ∧ call.get? "id" = some (.str id)

theorem Request.replied {messages answers : List (BaseMessage F)} {message : BaseMessage F}
    (h : Request env messages message)
    (htools : ∀ answer ∈ answers, answer.type = .tool ∧ answer.toolCalls = [])
    (hanswers : answers.map (·.toolCallId) = callIds env.repr message) :
    WellPaired env.repr (messages ++ message :: answers) := by
  refine h.paired.append ⟨message, answers, rfl, ?_⟩
  refine ⟨by simp [h.type], fun hne => absurd h.type hne, h.few, fun call hcall => ?_, htools,
    hanswers⟩
  obtain ⟨id, -, hid⟩ := h.ids call hcall
  exact ⟨id, hid⟩

variable [Json.PyFloat F]

/-- The batch answers each call under the id it carries. -/
theorem toolCallIds_eq (calls : List (Dict (Json F)))
    (hids : ∀ call ∈ calls, ∃ id, id ≠ "" ∧ call.get? "id" = some (.str id)) :
    ((calls.map (Chat.toolCallOf env.repr)).mapIdx normalizeCall).map (·.toolCallId) =
      calls.map (callId env.repr) := by
  refine List.ext_getElem (by simp) fun i h _ => ?_
  have hi : i < calls.length := by simpa using h
  obtain ⟨id, hne, hid⟩ := hids calls[i] (List.getElem_mem hi)
  simp [normalizeCall, Chat.toolCallOf, callId, hid, Json.truthy, pyStr, hne]

/-- One answer after another; what is printed of the last one is printed in a
settled session. -/
theorem asking_recordCalls {messages : List (BaseMessage F)} {message : BaseMessage F}
    (h : Request env messages message) (step : Nat) (executed : List (ExecutedToolCall F))
    (answers : List (BaseMessage F))
    (htools : ∀ answer ∈ answers, answer.type = .tool ∧ answer.toolCalls = [])
    (hanswers : answers.map (·.toolCallId) ++ executed.map (·.toolCallId) =
      callIds env.repr message) :
    Triple (Acts interrupts Spared) (Asking (messages ++ message :: answers))
      (Chat.recordCalls env step executed) (fun _ => Settled env) (fun _ => Settled env) := by
  induction executed generalizing answers with
  | nil =>
      refine triple_pure fun w hw => ⟨?_, hw.2⟩
      rw [hw.1]
      exact h.replied htools (by simpa using hanswers)
  | cons call executed ih =>
      have hcount : answers.length + (executed.length + 1) = message.toolCalls.length := by
        have := congrArg List.length hanswers
        simpa [callIds] using this
      have hleft : ∀ answers : List (BaseMessage F),
          (∀ answer ∈ answers, answer.type = .tool ∧ answer.toolCalls = []) →
          answers.length < message.toolCalls.length →
          unanswered (messages ++ message :: answers) ≠ 0 := by
        intro answers htools hlt
        rw [unanswered_append (by simp [h.type]) fun a ha => (htools a ha).1]
        omega
      have hasks := hleft answers htools (by omega)
      have htools' : ∀ answer ∈ answers ++ [Chat.toolMessage env call],
          answer.type = .tool ∧ answer.toolCalls = [] := by
        intro answer hanswer
        rcases List.mem_append.1 hanswer with hanswer | hanswer
        · exact htools answer hanswer
        · rw [List.mem_singleton.1 hanswer]
          exact ⟨rfl, rfl⟩
      have hrest := ih (answers ++ [Chat.toolMessage env call]) htools'
        (by simpa [Chat.toolMessage] using hanswers)
      refine Triple.bind (R := fun _ => Asking (messages ++ message :: answers)) ?_ fun _ => ?_
      · exact asking_modify hasks (fun _ => rfl) fun _ hs => ⟨hs.baseline, hs.current, hs.lastTurn⟩
      refine Triple.bind (R := fun _ => Asking (messages ++ message ::
        (answers ++ [Chat.toolMessage env call]))) ?_ fun _ => ?_
      · refine ObjProg.triple_modify ?_ ?_
        · intro w hw
          refine ⟨?_, hw.2.baseline, hw.2.current, hw.2.lastTurn⟩
          simp [hw.1]
        · intro w exc hw hadm _
          obtain ⟨-, o, ho⟩ := hadm.settled (by rw [hw.1]; exact hasks) exc rfl
          cases ho
      split
      · exact hrest
      · refine Triple.bind (R := fun _ => Asking (messages ++ message ::
          (answers ++ [Chat.toolMessage env call]))) ?_ fun _ => hrest
        refine ObjProg.triple_call fun w r hw hadm => ?_
        cases r with
        | ok => exact hw
        | error exc =>
            by_cases hmore : executed = []
            · refine ⟨?_, hw.2⟩
              show WellPaired env.repr w.self.messages
              rw [hw.1]
              exact h.replied htools' (by simpa [hmore, Chat.toolMessage] using hanswers)
            · have hpos := List.length_pos_iff.2 hmore
              have hstill := hleft _ htools' (by simp; omega)
              obtain ⟨-, o, ho⟩ := hadm.settled (by rw [hw.1]; exact hstill) exc rfl
              cases ho

theorem asking_runCalls {messages : List (BaseMessage F)} {message : BaseMessage F}
    (h : Request env messages message) (hcalls : message.toolCalls ≠ []) (step : Nat)
    (finalText : String) :
    Triple (Acts interrupts Spared) (Asking (messages ++ [message]))
      (Chat.runCalls env step finalText message.toolCalls) (fun _ => Settled env)
      (fun _ => Settled env) := by
  have hasks : unanswered (messages ++ [message]) ≠ 0 := by
    rw [unanswered_append (by simp [h.type]) (by simp)]
    have := List.length_pos_iff.2 hcalls
    simp
    omega
  refine (asking_executeToolBatch hasks env.ignored _).bind fun batch => triple_imp fun hids => ?_
  rw [toolCallIds_eq message.toolCalls h.ids] at hids
  refine (asking_recordCalls h step batch.calls [] (by simp) (by simpa [callIds] using hids)).bind
    fun _ => ?_
  refine settled_compact.bind fun _ => (settled_save _).bind fun _ => ?_
  split
  · exact (settled_acceptBatch _ _).bind fun _ => triple_pure fun w hw => hw
  · exact triple_pure fun w hw => hw

theorem replyMessage_type (reply : AIMessage F) :
    (Chat.replyMessage env.repr reply).type = .ai := by
  unfold Chat.replyMessage
  split <;> rfl

theorem replyMessage_few (reply : AIMessage F) :
    (Chat.replyMessage env.repr reply).toolCalls.length ≤ maxToolCallsPerMessage := by
  unfold Chat.replyMessage
  split
  · assumption
  · exact List.length_take_le _ _

theorem replyMessage_ids {reply : AIMessage F} (h : CarriesIds reply) :
    ∀ call ∈ (Chat.replyMessage env.repr reply).toolCalls,
      ∃ id, id ≠ "" ∧ call.get? "id" = some (.str id) := by
  intro call hcall
  refine h call ?_
  unfold Chat.replyMessage at hcall
  split at hcall
  · exact hcall
  · exact List.mem_of_mem_take hcall

theorem settled_respondStep (codingMode : Bool) (step : Nat) (finalText : String) :
    Triple (Acts interrupts Spared) (Settled env)
      (Chat.respondStep env codingMode step finalText) (fun _ => Settled env)
      (fun _ => Settled env) := by
  refine Triple.bind (R := fun _ => Settled env) ?_ fun _ => ?_
  · exact settled_modify (fun _ h => h) fun _ hs => ⟨hs.baseline, hs.current, hs.lastTurn⟩
  refine settled_self.bind fun s => triple_imp fun _ => ?_
  refine Triple.bind (R := fun _ => Settled env) ?_ fun messages => ?_
  · refine triple_lift fun w hw => ?_
    cases compactMessages env.repr s.messages env.contextCharBudget false <;> exact hw
  have hinvoke : Triple (Acts interrupts Spared) (Settled env) (Chat.invokeModel messages)
      (fun reply w => CarriesIds reply ∧ Settled env w) (fun _ => Settled env) :=
    settled_call (ChatOp.invokeModel messages) fun _ reply hadm => hadm.ids messages reply rfl
  refine hinvoke.bind fun reply => triple_imp fun hids => ?_
  by_cases hcalls : (Chat.replyMessage env.repr reply).toolCalls = []
  · refine (settled_appendMessage (by rw [replyMessage_type]; decide) hcalls).bind fun _ => ?_
    refine (settled_appendEvent _).bind fun _ => ?_
    rw [if_pos (by rw [hcalls]; rfl)]
    exact settled_answer _ _ _
  · -- from here on the calls are unanswered, and the history before them is fixed
    refine Triple.bind (R := fun _ w => ∃ messages, Request env messages
      (Chat.replyMessage env.repr reply) ∧
        Asking (messages ++ [Chat.replyMessage env.repr reply]) w) ?_ fun _ => ?_
    · refine ObjProg.triple_modify ?_ fun _ _ hw _ _ => hw
      intro w hw
      refine ⟨w.self.messages, ⟨hw.1, replyMessage_type reply, replyMessage_few reply,
        replyMessage_ids hids⟩, rfl, hw.2.baseline, hw.2.current, hw.2.lastTurn⟩
    refine triple_exists fun messages => triple_imp fun hrequest => ?_
    have hasks : unanswered (messages ++ [Chat.replyMessage env.repr reply]) ≠ 0 := by
      rw [unanswered_append (by simp [hrequest.type]) (by simp)]
      have := List.length_pos_iff.2 hcalls
      simp
      omega
    refine Triple.bind (R := fun _ => Asking (messages ++ [Chat.replyMessage env.repr reply])) ?_
      fun _ => ?_
    · exact asking_modify hasks (fun _ => rfl) fun _ hs => ⟨hs.baseline, hs.current, hs.lastTurn⟩
    rw [if_neg (by simpa using hcalls)]
    exact asking_runCalls hrequest hcalls _ _

theorem settled_respondSteps (codingMode : Bool) (n step : Nat) (finalText : String) :
    Triple (Acts interrupts Spared) (Settled env)
      (Chat.respondSteps env codingMode n step finalText) (fun _ => Settled env)
      (fun _ => Settled env) := by
  induction n generalizing step finalText with
  | zero => exact settled_stepLimit
  | succ n ih =>
      refine (settled_respondStep codingMode step finalText).bind fun stepEnd => ?_
      cases stepEnd with
      | goOn finalText => exact ih (step + 1) finalText
      | returned result => exact triple_pure fun w hw => hw

theorem settled_respondTurn (userText : String) (codingMode : Bool) :
    Triple (Acts interrupts Spared) (Settled env) (Chat.respondTurn env userText codingMode)
      (fun _ => Settled env) (fun _ => Settled env) := by
  refine (settled_capture env.ignored).bind fun current => triple_imp fun hne => ?_
  refine (settled_sync hne).bind fun _ => ?_
  refine (settled_appendMessage (by simp [humanMessage]) rfl).bind fun _ => ?_
  refine Triple.bind (R := fun _ => Settled env) ?_ fun _ => ?_
  · exact settled_modify (fun _ h => h) fun _ hs => ⟨hs.baseline, hs.current, hs.lastTurn⟩
  exact (settled_respondSteps codingMode _ _ _).catchWith settled_turnStopped

theorem settled_clearContext :
    Triple (Acts interrupts Spared) (Settled env) (Chat.clearContext env)
      (fun _ => Settled env) (fun _ => Settled env) := by
  refine Triple.bind (R := fun _ => Settled env) ?_ fun _ => settled_save _
  exact settled_modify (fun _ h => h.take_one) fun _ hs => ⟨hs.baseline, hs.current, hs.lastTurn⟩

theorem settled_close :
    Triple (Acts interrupts Spared) (Settled env) (Chat.close env)
      (fun _ => Settled env) (fun _ => Settled env) := by
  refine settled_self.bind fun s => triple_imp fun _ => ?_
  split <;> exact settled_save _

end Turn

end MiniCodeAgent
