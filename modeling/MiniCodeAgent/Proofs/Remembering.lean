import MiniCodeAgent.ConversationMemory
import MiniCodeAgent.Prog.Semantics
import MiniCodeAgent.Proofs.LedgerRoundTrip
import MiniCodeAgent.Proofs.StandingCards

/-!
# What a session was told to remember

A message is the evidence of what is remembered of it, and the store keeps one
card for it. The first memory of a message is therefore kept as it was asked for,
and every later one comes back as the first: with its text and its scope, and with
whatever has become of it. So a memory takes effect exactly when the message
stands for none yet, or for one that is active and the same (`NoOther`), and this
is so in every state that sessions and other users of the store can reach.
-/

namespace MiniCodeAgent

namespace ConversationMemory

open MemoryStore (CardRow Operation Sound Rooted Shows standingCard)

variable {F : Type} [Json.PyFloat F]

/-! ## Sessions -/

/-- A call of a session's. -/
inductive Method (F : Type) where
  | openSession (s : Session)
  | recordMessage (s : Session) (nextSequence : Json F) (role content : String)
      (metadata : Dict (Json F))
  | stage (sourceEvent : ConversationEvent F)
  | remember (s : Session) (value : String) (sourceEvent : ConversationEvent F) (scope : String)
  | rememberCandidate (s : Session) (selector : String) (scope : Option String)
  | dismissCandidate (selector : String)
  | forget (s : Session) (selector : String) (sourceEvent : ConversationEvent F)
  | correct (s : Session) (selector replacement : String) (sourceEvent : ConversationEvent F)

/-- The call, its value dropped. -/
def Method.prog (env : ChatEnv F) : Method F → ChatProg F Unit
  | .openSession s => do
    let _ ← ConversationMemory.openSession env s
    return ()
  | .recordMessage s nextSequence role content metadata => do
    let _ ← ConversationMemory.recordMessage s nextSequence role content metadata
    return ()
  | .stage sourceEvent => do
    let _ ← ConversationMemory.stage env sourceEvent
    return ()
  | .remember s value sourceEvent scope => do
    let _ ← ConversationMemory.remember env s value sourceEvent scope
    return ()
  | .rememberCandidate s selector scope => do
    let _ ← ConversationMemory.rememberCandidate env s selector scope
    return ()
  | .dismissCandidate selector => do
    let _ ← ConversationMemory.dismissCandidate selector
    return ()
  | .forget s selector sourceEvent => do
    let _ ← ConversationMemory.forget env s selector sourceEvent
    return ()
  | .correct s selector replacement sourceEvent => do
    let _ ← ConversationMemory.correct env s selector replacement sourceEvent
    return ()

/-- What a session does in one piece the files answer, or it fails and changes nothing. -/
def Acts (env : ChatEnv F) : ChatWorld F → Event (ChatOp F) ChatOp.Res PyExc →
    ChatWorld F → Prop := Prog.MayFail (answer env)

/-- No file yet. -/
def ChatWorld.start (F : Type) : ChatWorld F where
  memory := .start F
  directory := false
  keyFile := false
  userIdentity := none
  events := []
  candidates := none
  moments := 0

/-- The states that calls of any sessions lead to, to their end or to a crash, while
others write to the store. -/
inductive Reachable (env : ChatEnv F) : ChatWorld F → Prop
  | start : Reachable env (.start F)
  | call {w w' : ChatWorld F} (h : Reachable env w) (method : Method F)
      (hrun : Prog.During (Acts env) (method.prog env) w w') : Reachable env w'
  | store {w : ChatWorld F} (h : Reachable env w) (op : Operation F) :
      Reachable env { w with memory := MemoryStore.perform env.store op w.memory }

/-! ## What they leave of the store -/

variable {env : ChatEnv F}

/-- The store's part of the world stays as it is. -/
def SameMemory (w w' : ChatWorld F) : Prop := w'.memory = w.memory

omit [Json.PyFloat F] in
theorem sameMemory_refl (w : ChatWorld F) : SameMemory w w := rfl

omit [Json.PyFloat F] in
theorem sameMemory_trans (a b c : ChatWorld F) (h : SameMemory a b) (h' : SameMemory b c) :
    SameMemory a c := h'.trans h

omit [Json.PyFloat F] in
theorem keepsMemory_onCandidates {α : Type} (x : ConversationLedger.LogTx α) :
    Txn.Keeps SameMemory (onCandidates x : ChatTx F α) := fun _ => rfl

omit [Json.PyFloat F] in
theorem keepsMemory_onEvents {α : Type} (conversationId : String)
    (x : ConversationLedger.LogTx α) :
    Txn.Keeps SameMemory (onEvents conversationId x : ChatTx F α) := fun _ => rfl

theorem keepsMemory_recordEvent (s : Session) (nextSequence : Json F) (role content : String)
    (metadata : Dict (Json F)) :
    Txn.Keeps SameMemory (recordEvent env s nextSequence role content metadata) := by
  refine Txn.Keeps.bind sameMemory_trans (keepsMemory_onEvents _ _) fun sequence => ?_
  refine Txn.Keeps.bind sameMemory_trans (fun _ => rfl) fun _ => ?_
  refine Txn.Keeps.bind sameMemory_trans (fun _ => rfl) fun createdAt => ?_
  refine Txn.Keeps.bind sameMemory_trans (fun _ => rfl) fun event => ?_
  refine Txn.Keeps.bind sameMemory_trans (keepsMemory_onEvents _ _) fun _ => fun _ => rfl

theorem keepsMemory_stageCandidate (candidate : Candidate) :
    Txn.Keeps SameMemory (stageCandidate env candidate) := by
  refine Txn.Keeps.bind sameMemory_trans (keepsMemory_onCandidates _) fun existing => ?_
  split
  · exact fun _ => rfl
  · exact keepsMemory_onCandidates _

theorem keepsMemory_appendDecision (candidateId decision cardId : String) :
    Txn.Keeps SameMemory (appendCandidateDecision env candidateId decision cardId) :=
  Txn.Keeps.bind sameMemory_trans (fun _ => rfl) fun _ => keepsMemory_onCandidates _

/-- What a session does in one piece leaves the store alone, creates the schema, or is
one of the store's operations. -/
theorem answer_memory (op : ChatOp F) (w : ChatWorld F) :
    (answer env op w).2.memory = w.memory ∨
      (answer env op w).2.memory = (MemoryStore.createSchema env.store w.memory).2 ∨
      ∃ op', (answer env op w).2.memory = MemoryStore.perform env.store op' w.memory := by
  cases op with
  | initializeStore => exact Or.inr (Or.inl rfl)
  | migrateEvents => exact Or.inl rfl
  | migrateCandidates => exact Or.inl rfl
  | readEventRows => exact Or.inl rfl
  | recordEvent s nextSequence role content metadata =>
      exact Or.inl (keepsMemory_recordEvent s nextSequence role content metadata w)
  | stageCandidate candidate => exact Or.inl (keepsMemory_stageCandidate candidate w)
  | readCandidates => exact Or.inl rfl
  | appendDecision candidateId decision cardId =>
      exact Or.inl (keepsMemory_appendDecision candidateId decision cardId w)
  | listCards => exact Or.inl rfl
  | rememberOnce source values =>
      exact Or.inr (Or.inr ⟨.addCardOnceForSource source values, (MemoryStore.dropValue_snd _ _).symm⟩)
  | addSource cardId source =>
      exact Or.inr (Or.inr ⟨.addSource cardId source, (MemoryStore.dropValue_snd _ _).symm⟩)
  | transition cardId status => exact Or.inr (Or.inr ⟨.transition cardId status none, rfl⟩)
  | supersede oldCardId values sources =>
      exact Or.inr (Or.inr ⟨.supersede oldCardId values sources, (MemoryStore.dropValue_snd _ _).symm⟩)

/-- What is true of the store in every state. -/
structure Steadfast (env : ChatEnv F) (w : ChatWorld F) : Prop where
  sound : Sound env.store w.memory
  rooted : Rooted w.memory.db

theorem Steadfast.of_memory {w w' : ChatWorld F} (h : Steadfast env w)
    (hmemory : w'.memory = w.memory) : Steadfast env w' := by
  refine ⟨?_, ?_⟩
  · rw [hmemory]
    exact h.sound
  · rw [hmemory]
    exact h.rooted

theorem Steadfast.store {w w' : ChatWorld F} (h : Steadfast env w) {op : Operation F}
    (hmemory : w'.memory = MemoryStore.perform env.store op w.memory) : Steadfast env w' := by
  obtain ⟨d, hd, hadmitted, -⟩ := MemoryStore.perform_extends env.store op w.memory
  refine ⟨?_, ?_⟩
  · rw [hmemory]
    exact h.sound.extends hd hadmitted
  · rw [hmemory]
    exact h.rooted.perform op

/-- One step of a session. -/
theorem Steadfast.acts {w w' : ChatWorld F} {e : Event (ChatOp F) ChatOp.Res PyExc}
    (hacts : Acts env w e w') (h : Steadfast env w) : Steadfast env w' := by
  rcases hacts with hanswer | ⟨-, rfl⟩
  · have hw : w' = (answer env e.op w).2 := congrArg Prod.snd hanswer
    subst hw
    rcases answer_memory e.op w with hsame | hschema | ⟨op, hop⟩
    · exact h.of_memory hsame
    · have hd : MemoryStore.Extends env.store w.memory .none
          (MemoryStore.createSchema env.store w.memory).2 :=
        MemoryStore.createSchema_extends (Prod.eta _).symm
      rw [← hschema] at hd
      exact ⟨h.sound.extends hd (MemoryStore.admitted_of_noCards rfl), h.rooted.unchanged hd rfl⟩
    · exact h.store hop
  · exact h

/-- Every state. -/
theorem Reachable.steadfast {w : ChatWorld F} (h : Reachable env w) : Steadfast env w := by
  induction h with
  | start => exact ⟨MemoryStore.sound_start, MemoryStore.rooted_start⟩
  | call _ method hrun ih =>
      obtain ⟨t, q, -, hsteps⟩ := hrun
      exact hsteps.invariant (fun hacts hw => Steadfast.acts hacts hw) ih
  | store _ op ih => exact ih.store rfl

/-! ## What is remembered -/

/-- The key a session gives its scopes. -/
def Session.keyOf (s : Session) (scope : String) : String :=
  if scope = "user" then s.userKey else s.workspaceKey

/-- The store answers with the card, and it is active and holds what was asked for. -/
structure Kept (env : ChatEnv F) (w : ChatWorld F) (card : MemoryCard F)
    (value scope scopeKey : String) : Prop where
  stored : MemoryStore.getCard env.store card.id w.memory.db = .ok card
  active : card.status = "active"
  value : card.value = value
  scope : card.scope = scope
  scopeKey : card.scopeKey = scopeKey

/-- The message stands for no memory yet, or the first it stands for is active and the same. -/
def NoOther (db : MemoryStore.Database F) (sourceRef value scope scopeKey : String) : Prop :=
  ∀ row, standingCard db "conversation_event" sourceRef "semantic"
      "explicit_conversation_memory" = some row →
    (∃ event, MemoryStore.latestEvent row.id db = some event ∧ event.eventType = "active") ∧
      row.value = value ∧ row.scope = scope ∧ row.scopeKey = scopeKey

theorem memoryValues_floats (value scope scopeKey validFrom : String) :
    (memoryValues env value scope scopeKey validFrom).Floats := ⟨_, _, rfl, rfl⟩

omit [Json.PyFloat F] in
theorem validateMemoryText_ok {value text : String} (h : validateMemoryText env value = .ok text) :
    text = pyStrip value := by
  unfold validateMemoryText at h
  obtain ⟨_, -, h⟩ := except_bind_ok.1 h
  obtain ⟨_, -, h⟩ := except_bind_ok.1 h
  exact (Except.ok.inj h).symm

omit [Json.PyFloat F] in
/-- What a step on the store answers, and that the candidates stay. -/
theorem onStore_ok {α : Type} {x : MemoryStore.Tx F α} {a : α} {w w' : ChatWorld F}
    (h : (.ok a, w') = onStore x w) : x w.memory = (.ok a, w'.memory) ∧
      w'.candidates = w.candidates := by
  have hvalue : .ok a = (x w.memory).1 := congrArg Prod.fst h
  have hworld : w' = { w with memory := (x w.memory).2 } := congrArg Prod.snd h
  rw [hworld]
  exact ⟨Prod.ext hvalue.symm rfl, rfl⟩

/-- What `_remember_from_source` asks for is kept exactly if the message stands for no
other memory. -/
theorem rememberFromSource_kept {w w' : ChatWorld F} (h : Steadfast env w) {s : Session}
    {value sourceRef sourceSha256 validFrom scope : String} {card : MemoryCard F}
    (hrun : Prog.Run (Acts env)
      (rememberFromSource env s value sourceRef sourceSha256 validFrom scope) w (.ok card) w') :
    w'.candidates = w.candidates ∧
      (Kept env w' card (pyStrip value) scope (s.keyOf scope) ↔
        NoOther w.memory.db sourceRef (pyStrip value) scope (s.keyOf scope)) := by
  rw [rememberFromSource] at hrun
  obtain ⟨text, w₁, hcheck, hscope⟩ := Prog.run_bind_ok.1 hrun
  obtain ⟨htext, rfl⟩ := Prog.run_done.1 hcheck
  obtain ⟨_, w₂, hcheck', honce⟩ := Prog.run_bind_ok.1 hscope
  obtain ⟨-, rfl⟩ := Prog.run_done.1 hcheck'
  rcases (Prog.run_call (S := Acts env)).1 honce with hanswer | ⟨⟨exc, hraised⟩, -⟩
  · obtain ⟨hcard, hcandidates⟩ := onStore_ok hanswer
    obtain rfl := validateMemoryText_ok htext.symm
    refine ⟨hcandidates, ?_⟩
    obtain ⟨hinit, hcases⟩ := MemoryStore.addCardOnceForSource_cases h.sound h.rooted
      (memoryValues_floats _ _ _ _) hcard
    rcases hcases with ⟨row, hstanding, hd, hshows⟩ | ⟨d, row, hnone, hd, hadded, hshows⟩
    · -- the message's first memory comes back, as it is by now
      have hsound := h.sound.extends hd (MemoryStore.admitted_of_noCards rfl)
      have hstored := (hshows.unchanged hd).getCard hinit hsound.unique
      obtain ⟨hmem, -, status, hstatus, hread⟩ := hshows
      obtain ⟨event, hevent⟩ := MemoryStore.exists_latestEvent (h.sound.covered row hmem)
      rw [MemoryStore.currentStatus_eq h.sound.eventsSigned hevent] at hstatus
      obtain rfl := Except.ok.inj hstatus
      obtain ⟨-, -, -, hscope, hscopeKey, -, hstatus⟩ := MemoryStore.cardFromRow_ok hread
      have hvalue := (MemoryStore.cardFromRow_value hread).1
      constructor
      · intro hkept row' hrow'
        obtain rfl := Option.some.inj (hstanding.symm.trans hrow')
        exact ⟨⟨event, hevent, hstatus.symm.trans hkept.active⟩, hvalue.symm.trans hkept.value,
          hscope.symm.trans hkept.scope, hscopeKey.symm.trans hkept.scopeKey⟩
      · intro hno
        obtain ⟨⟨event', hevent', hactive⟩, hrowValue, hrowScope, hrowKey⟩ := hno row hstanding
        obtain rfl := Option.some.inj (hevent.symm.trans hevent')
        exact ⟨hstored, hstatus.trans hactive, hvalue.trans hrowValue, hscope.trans hrowScope,
          hscopeKey.trans hrowKey⟩
    · -- a new memory is kept as it was asked for
      have hunique := hd.unique h.sound.unique
      obtain ⟨-, cardId, recordedAtNs, hrow⟩ := hadded.of
      obtain ⟨-, -, -, hscope, hscopeKey, -, hstatus⟩ := MemoryStore.cardFromRow_ok hadded.read
      have hvalue := (MemoryStore.cardFromRow_value hadded.read).1
      have hkept : Kept env w' card (pyStrip value) scope (s.keyOf scope) := by
        rw [hrow] at hscope hscopeKey hvalue
        exact ⟨hshows.getCard hinit hunique, hstatus, hvalue, hscope, hscopeKey⟩
      refine iff_of_true hkept fun row' hrow' => ?_
      rw [show standingCard w₂.memory.db "conversation_event" sourceRef "semantic"
        "explicit_conversation_memory" = none from hnone] at hrow'
      cases hrow'
  · cases hraised

/-- The one pending candidate that the selector names. -/
def Selected (env : ChatEnv F) (w : ChatWorld F) (selector : String) (candidate : Candidate) :
    Prop :=
  ∃ pending, pendingCandidates env false w.candidates = .ok pending ∧
    (pending.filter fun item => startsWith item.candidateId (removeAt (pyStrip selector))) =
      [candidate]

theorem resolveCandidate_ok {selector : String} {candidate : Candidate} {w w' : ChatWorld F}
    (hrun : Prog.Run (Acts env) (resolveCandidate selector) w (.ok candidate) w') :
    w' = w ∧ Selected env w selector candidate := by
  rw [resolveCandidate] at hrun
  obtain ⟨pending, w₁, hread, hmatch⟩ := Prog.run_bind_ok.1 hrun
  rcases (Prog.run_call (S := Acts env)).1 hread with hanswer | ⟨⟨exc, hraised⟩, -⟩
  · obtain rfl : w₁ = w := congrArg Prod.snd hanswer
    have hpending : .ok pending = pendingCandidates env false w₁.candidates :=
      congrArg Prod.fst hanswer
    split at hmatch
    · next found hfound =>
        obtain ⟨hcandidate, rfl⟩ := Prog.run_done.1 hmatch
        obtain rfl := Except.ok.inj hcandidate
        exact ⟨rfl, pending, hpending.symm, hfound⟩
    · cases (Prog.run_done.1 hmatch).1
    · cases (Prog.run_done.1 hmatch).1
  · cases hraised

/-- The scope that is asked for, or the candidate's own. -/
def requestedScope (scope : Option String) (candidate : Candidate) : String :=
  match scope with
  | some scope => if scope = "" then candidate.scope else scope
  | none => candidate.scope

theorem rememberCandidate_kept {w w' : ChatWorld F} (h : Steadfast env w) {s : Session}
    {selector : String} {scope : Option String} {card : MemoryCard F}
    (hrun : Prog.Run (Acts env) (rememberCandidate env s selector scope) w (.ok card) w') :
    ∃ candidate, Selected env w selector candidate ∧
      (Kept env w' card (pyStrip candidate.value) (requestedScope scope candidate)
          (s.keyOf (requestedScope scope candidate)) ↔
        NoOther w.memory.db candidate.sourceRef (pyStrip candidate.value)
          (requestedScope scope candidate) (s.keyOf (requestedScope scope candidate))) := by
  rw [rememberCandidate] at hrun
  obtain ⟨candidate, w₁, hresolve, hrest⟩ := Prog.run_bind_ok.1 hrun
  obtain ⟨rfl, hselected⟩ := resolveCandidate_ok hresolve
  obtain ⟨made, w₂, hremember, hrest'⟩ := Prog.run_bind_ok.1 hrest
  obtain ⟨_, w₃, hdecide, hreturn⟩ := Prog.run_bind_ok.1 hrest'
  obtain ⟨hmade, rfl⟩ := Prog.run_done.1 hreturn
  obtain rfl := Except.ok.inj hmade
  refine ⟨candidate, hselected, ?_⟩
  obtain ⟨-, hkept⟩ := rememberFromSource_kept h hremember
  -- the decision is written to the candidates' log, not to the store
  have hmemory : w'.memory = w₂.memory := by
    rcases (Prog.run_call (S := Acts env)).1 hdecide with hanswer | ⟨-, rfl⟩
    · rw [show w' = _ from congrArg Prod.snd hanswer]
      exact keepsMemory_appendDecision _ _ _ w₂
    · rfl
  have hsame : ∀ value scope scopeKey,
      Kept env w' card value scope scopeKey ↔ Kept env w₂ card value scope scopeKey := by
    intro value scope scopeKey
    exact ⟨fun hk => { hk with stored := by rw [← hmemory]; exact hk.stored },
      fun hk => { hk with stored := by rw [hmemory]; exact hk.stored }⟩
  rw [hsame]
  exact hkept

/-- For every state that sessions lead to and every call that returns a card: the card is
kept as it was asked for if and only if its message stands for no memory yet, or the
first memory it stands for is active and has the text and the scope that are asked for. -/
theorem remember_kept (env : ChatEnv F) (w : ChatWorld F) (hw : Reachable env w) (s : Session) :
    (∀ value sourceEvent scope card w',
      Prog.Run (Acts env) (remember env s value sourceEvent scope) w (.ok card) w' →
      (Kept env w' card (pyStrip value) scope (s.keyOf scope) ↔
        NoOther w.memory.db sourceEvent.sourceRef (pyStrip value) scope (s.keyOf scope))) ∧
    ∀ selector scope card w',
      Prog.Run (Acts env) (rememberCandidate env s selector scope) w (.ok card) w' →
      ∃ candidate, Selected env w selector candidate ∧
        (Kept env w' card (pyStrip candidate.value) (requestedScope scope candidate)
            (s.keyOf (requestedScope scope candidate)) ↔
          NoOther w.memory.db candidate.sourceRef (pyStrip candidate.value)
            (requestedScope scope candidate) (s.keyOf (requestedScope scope candidate))) :=
  ⟨fun _ _ _ _ _ hrun => (rememberFromSource_kept hw.steadfast hrun).2,
    fun _ _ _ _ hrun => rememberCandidate_kept hw.steadfast hrun⟩

/-! ## A message remembered twice -/

namespace TwoMemories

def chatEnv : ChatEnv Unit where
  store := MemoryStore.machine MemoryStore.ticking
  ledger := ConversationLedger.plainLedger
  utcNow _ := "2025-01-01T00:00:00+00:00"
  plusOne := id
  containsSecret _ := false
  lexicalTokens _ := []
  casefold := id

def session : Session := ⟨"chat.json", "sha256:user", "sha256:workspace"⟩

def message : ConversationEvent Unit where
  eventId := "first"
  hostId := "mca-chat"
  conversationId := "chat"
  sourceRef := "state:conversation-event:chat:0"
  sourceSha256 := "e3b0c44298fc1c149afbf4c8996fb92427ae41e4649b934ca495991b7852b855"
  sequence := .int 0
  role := "user"
  content := "vim"
  participantId := .str "user"
  createdAt := .str "2025-01-01T00:00:00+00:00"
  metadataJson := "\x7b\x7d"

/-- What is asked of the store. -/
def values (value : String) : MemoryStore.CardValues Unit :=
  memoryValues chatEnv value "user" "sha256:user" "2025-01-01T00:00:00+00:00"

def source : EvidenceSource :=
  evidence "conversation_event" message.sourceRef message.sourceSha256 "user"

theorem checkSource_source : MemoryStore.checkSource source = .ok () := by rfl

theorem remember_returns {w : ChatWorld Unit} {value : String}
    (h : MemoryStore.Healthy chatEnv.store w.memory)
    (hcitable : MemoryStore.Citable source w.memory.db)
    (htext : validateMemoryText chatEnv value = .ok value)
    (hvalues : MemoryStore.validateCardInput chatEnv.store (values value) = .ok ()) :
    ∃ card w', MemoryStore.addCardOnceForSource chatEnv.store source (values value) w.memory =
        (.ok card, w'.memory) ∧
      Prog.Run (Acts chatEnv) (remember chatEnv session value message "user") w (.ok card) w' := by
  obtain ⟨card, m, hadd⟩ := MemoryStore.addCardOnceForSource_returns h
    (MemoryStore.machine_obliging _) hvalues (memoryValues_floats _ _ _ _) checkSource_source
    hcitable
  have hstep : onStore (MemoryStore.addCardOnceForSource chatEnv.store source (values value)) w =
      (.ok card, { w with memory := m }) := by
    rw [onStore, hadd]
  refine ⟨card, { w with memory := m }, hadd, ?_⟩
  refine Prog.run_bind_ok.2 ⟨value, w, Prog.run_done.2 ⟨htext.symm, rfl⟩, ?_⟩
  refine Prog.run_bind_ok.2 ⟨(), w, Prog.run_done.2 ⟨rfl, rfl⟩, ?_⟩
  exact Prog.run_call.2 (Or.inl hstep.symm)

theorem memory_valid {value : String} (h : value = "vim" ∨ value = "nano") :
    validateMemoryText chatEnv value = .ok value ∧
      MemoryStore.validateCardInput chatEnv.store (values value) = .ok () := by
  rcases h with rfl | rfl <;> decide +kernel

theorem citable_start : MemoryStore.Citable source (ChatWorld.start Unit).memory.db :=
  ⟨fun _ hrow => absurd hrow List.not_mem_nil, fun _ hrow => absurd hrow List.not_mem_nil⟩

/-- The first memory of the message. -/
theorem vim_returns : ∃ card w',
    MemoryStore.addCardOnceForSource chatEnv.store source (values "vim")
        (ChatWorld.start Unit).memory = (.ok card, w'.memory) ∧
      Prog.Run (Acts chatEnv) (remember chatEnv session "vim" message "user")
        (.start Unit) (.ok card) w' :=
  remember_returns MemoryStore.healthy_start citable_start (memory_valid (Or.inl rfl)).1
    (memory_valid (Or.inl rfl)).2

/-- It is in the tables, and the message stands for it. -/
theorem vim_stands {card : MemoryCard Unit} {w : ChatWorld Unit}
    (h : MemoryStore.addCardOnceForSource chatEnv.store source (values "vim")
      (ChatWorld.start Unit).memory = (.ok card, w.memory)) :
    MemoryStore.Healthy chatEnv.store w.memory ∧ MemoryStore.Citable source w.memory.db ∧
      ∃ row, standingCard w.memory.db "conversation_event" message.sourceRef "semantic"
        "explicit_conversation_memory" = some row ∧ row.value = "vim" := by
  obtain ⟨d, hd, hadmitted, hadded⟩ := MemoryStore.addCardOnceForSource_ok h
  rcases hadded with ⟨-, hmem, -⟩ | ⟨row, event, sourceRow, rfl, hid, hof, -, hrecords, -⟩
  · cases hmem
  · have hcards : w.memory.db.cards = [row] := hd.cards
    have hsources : w.memory.db.sources = [sourceRow] := hd.sources
    obtain ⟨hcardId, htype, href, hsha, horigin⟩ := hrecords
    obtain ⟨-, cardId, recordedAtNs, hrow⟩ := id hof
    refine ⟨MemoryStore.healthy_start.extends hd hadmitted fun r hr => ?_, ⟨?_, ?_⟩, row, ?_, ?_⟩
    · rw [List.mem_singleton.1 hr]
      exact ⟨_, memoryValues_floats _ _ _ _, hof⟩
    · intro r hr _ _ hchanged
      rw [hsources] at hr
      rw [List.mem_singleton.1 hr] at hchanged
      exact hchanged.elim (fun hne => hne hsha) fun hne => hne horigin
    · intro r hr
      rw [hsources] at hr
      rw [List.mem_singleton.1 hr, hcards]
      exact ⟨row, List.mem_singleton_self row, hid.trans hcardId.symm⟩
    · have hrows : MemoryStore.referenceRows w.memory.db "conversation_event" message.sourceRef =
          [sourceRow] := by
        have hmatch : sourceRow.sourceType = "conversation_event" ∧
            sourceRow.sourceRef = message.sourceRef := ⟨htype, href⟩
        rw [MemoryStore.referenceRows, hsources, List.filter_cons_of_pos (by simpa using hmatch)]
        rfl
      have hcard : MemoryStore.cardOfRow w.memory.db "semantic" "explicit_conversation_memory"
          sourceRow = some row := by
        rw [MemoryStore.cardOfRow, hcards]
        refine List.find?_cons_of_pos (decide_eq_true ⟨hid.trans hcardId.symm, ?_⟩)
        rw [hrow]
        exact ⟨rfl, rfl⟩
      rw [standingCard, hrows, List.filterMap_cons_some hcard, List.head?_cons]
    · rw [hrow]
      rfl

end TwoMemories

theorem remember_kept_sample : ∃ card w',
    Prog.Run (Acts TwoMemories.chatEnv)
        (remember TwoMemories.chatEnv TwoMemories.session "vim" TwoMemories.message "user")
        (.start Unit) (.ok card) w' ∧
      Kept TwoMemories.chatEnv w' card (pyStrip "vim") "user"
        (TwoMemories.session.keyOf "user") := by
  obtain ⟨card, w', -, hrun⟩ := TwoMemories.vim_returns
  refine ⟨card, w', hrun, ?_⟩
  refine ((remember_kept TwoMemories.chatEnv _ .start TwoMemories.session).1 _ _ _ _ _ hrun).2 ?_
  intro row hrow
  cases hrow

/-- The message is remembered as one text and then as another: what comes back is the
first. -/
theorem remembered_before : ¬ ∀ w, Reachable TwoMemories.chatEnv w → ∀ s value sourceEvent scope
    card w', Prog.Run (Acts TwoMemories.chatEnv)
      (remember TwoMemories.chatEnv s value sourceEvent scope) w (.ok card) w' →
    Kept TwoMemories.chatEnv w' card (pyStrip value) scope (s.keyOf scope) := by
  intro hall
  obtain ⟨card, w, hadd, hrun⟩ := TwoMemories.vim_returns
  obtain ⟨hhealthy, hcitable, row, hstands, hvalue⟩ := TwoMemories.vim_stands hadd
  have hreachable : Reachable TwoMemories.chatEnv w := by
    obtain ⟨t, htrace, hsteps⟩ : Prog.Run (Acts TwoMemories.chatEnv) (Method.prog
        TwoMemories.chatEnv (.remember TwoMemories.session "vim" TwoMemories.message "user"))
        (.start Unit) (.ok ()) w :=
      Prog.run_bind_ok.2 ⟨card, w, hrun, Prog.run_done.2 ⟨rfl, rfl⟩⟩
    exact .call .start _ ⟨t, _, htrace, hsteps⟩
  obtain ⟨card', w', -, hrun'⟩ := TwoMemories.remember_returns hhealthy hcitable
    (TwoMemories.memory_valid (Or.inr rfl)).1
    (TwoMemories.memory_valid (Or.inr rfl)).2
  have hkept := hall w hreachable _ _ _ _ _ _ hrun'
  have hsame := ((rememberFromSource_kept hreachable.steadfast hrun').2.1 hkept row hstands).2.1
  rw [hvalue] at hsame
  exact absurd hsame (by decide +kernel)

end ConversationMemory

end MiniCodeAgent
