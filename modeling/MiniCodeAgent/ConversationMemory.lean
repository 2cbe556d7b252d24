import MiniCodeAgent.Conversation
import MiniCodeAgent.ConversationLedger
import MiniCodeAgent.MemoryOperations
import MiniCodeAgent.Prog.Basic

/-!
# Conversation memory

`conversation_memory.py`: a session records its messages in a log of its own,
stages candidates in a log all sessions share, and keeps what the user approved in
the memory store. The three are the world here. What a method does in one piece,
under the ledger's lock or in one store transaction, is a transaction on the
world; a method that acts more than once is a program over these.

What text looks like a secret and into which tokens it falls is decided by
regular expressions and Unicode tables, which enter as functions.
-/

namespace MiniCodeAgent

namespace ConversationMemory

open ConversationLedger (LogFile LogTx LedgerEnv)

/-- What the sessions take from the rest of the machine. -/
structure ChatEnv (F : Type) where
  store : MemoryEnv F
  ledger : LedgerEnv
  /-- `datetime.now(timezone.utc).isoformat()`. -/
  utcNow : Nat → String
  /-- `x + 1`. -/
  plusOne : F → F
  containsSecret : String → Bool
  lexicalTokens : String → List String
  casefold : String → String

structure Candidate where
  candidateId : String
  value : String
  sourceRef : String
  sourceSha256 : String
  sourceEventId : String
  createdAt : String
  scope : String
  deriving DecidableEq

/-- The files under the memory directory: the store's, and those in
`conversations`. A conversation's log stands under its id. -/
structure ChatWorld (F : Type) where
  memory : MemoryStore.MemoryWorld F
  directory : Bool
  keyFile : Bool
  userIdentity : Option String
  events : Dict ByteArray
  candidates : LogFile
  moments : Nat

abbrev ChatTx (F α : Type) := Txn (ChatWorld F) PyExc α

/-- One `LocalConversationMemory`. -/
structure Session where
  sessionPath : String
  userKey : String
  workspaceKey : String

def maxEventContentChars : Nat := 1000000

def maxCandidateChars : Nat := 2000

/-- A forget, correct or candidate selector that does not name one thing. -/
def selectionError (message : String) : PyExc := ⟨"MemorySelectionError", message, true⟩

/-! ## The candidate patterns -/

/-- What a pattern starts with: a part says where a text may go on behind it. -/
abbrev Part := List Char → List (List Char)

/-- `re.IGNORECASE`: the letters and the four signs that go with them. -/
def foldLetter (c : Char) : Char :=
  if c.toNat = 0x130 ∨ c.toNat = 0x131 then 'i'
  else if c.toNat = 0x17F then 's'
  else if c.toNat = 0x212A then 'k'
  else c.toLower

def literally (text : String) : Part := fun cs =>
  if (text.toList.map foldLetter).isPrefixOf (cs.map foldLetter) then [cs.drop text.length] else []

def oneOf (texts : List String) : Part := fun cs => texts.flatMap fun text => literally text cs

def optionally (part : Part) : Part := fun cs => part cs ++ [cs]

/-- `[...]*`. -/
def anyOf (p : Char → Bool) : Part
  | [] => [[]]
  | c :: cs => if p c then anyOf p cs ++ [c :: cs] else [c :: cs]

/-- `[...]+`. -/
def someOf (p : Char → Bool) : Part
  | [] => []
  | c :: cs => if p c then anyOf p cs else []

/-- The parts in front of `(.+)$`, of a text without space around it. -/
abbrev Pattern := List Part

def Pattern.matchesAll (pattern : Pattern) (text : String) : Bool :=
  (pattern.foldl (fun rests part => rests.flatMap part) [text.toList]).any fun rest =>
    !rest.isEmpty && !rest.contains '\n'

def isSeparator (c : Char) : Bool := c = '：' || c = ',' || c = ':' || pyIsSpace c

def candidatePatterns : List Pattern :=
  [[optionally (literally "请"), literally "记住", someOf isSeparator],
    [literally "我", optionally (literally "更"), oneOf ["喜欢", "偏好", "习惯"],
      anyOf isSeparator],
    [literally "以后请", anyOf isSeparator],
    [literally "I", someOf pyIsSpace, oneOf ["prefer", "like"], someOf pyIsSpace],
    [literally "Please", someOf pyIsSpace, literally "remember",
      optionally fun cs => (someOf pyIsSpace cs).flatMap (literally "that"), someOf pyIsSpace]]

variable {F : Type}

/-! ## The parts of the world -/

def onStore {α : Type} (x : MemoryStore.Tx F α) : ChatTx F α := fun w =>
  ((x w.memory).1, { w with memory := (x w.memory).2 })

def onCandidates {α : Type} (x : LogTx α) : ChatTx F α := fun w =>
  ((x w.candidates).1, { w with candidates := (x w.candidates).2 })

def onEvents {α : Type} (conversationId : String) (x : LogTx α) : ChatTx F α := fun w =>
  let file := Dict.get? w.events conversationId
  ((x file).1, { w with events := match (x file).2 with
    | some data => Dict.set w.events conversationId data
    | none => w.events })

section Methods

variable [Json.PyFloat F] (env : ChatEnv F)

def utcNow : ChatTx F String := fun w =>
  (.ok (env.utcNow w.moments), { w with moments := w.moments + 1 })

def digest (value : Json F) : String := digestJson env.store.digests value

def Session.conversationId (s : Session) : String :=
  digest env (.obj [("host", .str "mca-chat"), ("session_path", .str s.sessionPath)])

def eventLogName (conversationId : String) : String := "events:" ++ conversationId

def logPath (stem : String) : String := stem ++ ".jsonl"

/-! ## Payloads -/

def recreateEvent (event : ConversationEvent F) : Except PyExc (ConversationEvent F) :=
  event.recreate env.store.repr env.store.digests

/-- `_validate_event_payload`. -/
def validateEventPayload (row : Dict (Json F)) : Except PyExc Unit := do
  let event ← ConversationEvent.ofFields env.store.repr row
  let recreated ← recreateEvent env event
  raiseIf (event.pyEq recreated = false)
    (valueError "conversation event log failed integrity validation")

/-- `str(row.get(key, ""))`. -/
def textField (row : Dict (Json F)) (key : String) : String :=
  pyStr env.store.repr ((row.get? key).getD (.str ""))

/-- What a candidate's id is the digest of; rows of old have no scope. -/
def candidateFields (value sourceRef sourceSha256 sourceEventId createdAt : String)
    (scope : Option String) : Json F :=
  .obj (([("value", .str value), ("source_ref", .str sourceRef),
    ("source_sha256", .str sourceSha256), ("source_event_id", .str sourceEventId),
    ("created_at", .str createdAt)] : List (String × Json F)) ++
    (match scope with
      | some scope => [("scope", .str scope)]
      | none => [] : List (String × Json F)))

/-- The digest of what a row says of its candidate. -/
def rowDigest (row : Dict (Json F)) (scope : Option String) : String :=
  digest env (candidateFields (textField env row "value") (textField env row "source_ref")
    (textField env row "source_sha256") (textField env row "source_event_id")
    (textField env row "created_at") scope)

/-- `value in {"user", "workspace"}`. -/
def isCandidateScope (value : Json F) : Except PyExc Bool :=
  match value with
  | .str text => .ok (text = "user" || text = "workspace")
  | .arr _ => .error (typeError "unhashable type: 'list'")
  | .obj _ => .error (typeError "unhashable type: 'dict'")
  | _ => .ok false

def recordType (row : Dict (Json F)) : Json F := (row.get? "record_type").getD .null

/-- `_validate_candidate_payload`. -/
def validateCandidatePayload (row : Dict (Json F)) : Except PyExc Unit :=
  if (recordType row).pyEq (.str "decision") then
    raiseIf (textField env row "candidate_id" = "")
      (valueError "candidate decision is missing an id")
  else do
    raiseIf (¬ (recordType row).pyEq (.str "candidate"))
      (valueError "unknown conversation candidate record")
    let valid ← isCandidateScope ((row.get? "scope").getD (.str "workspace"))
    raiseIf (valid = false) (valueError "conversation memory candidate scope is invalid")
    let scope := (row.get? "scope").map (pyStr env.store.repr)
    raiseIf (textField env row "candidate_id" ≠ rowDigest env row scope)
      (valueError "conversation memory candidate digest mismatch")

/-! ## The event log -/

/-- `sequence + 1`. -/
def nextPlace (sequence : Json F) : Except PyExc (Json F) :=
  match sequence with
  | .int place => .ok (.int (place + 1))
  | .bool b => .ok (.int (if b then 2 else 1))
  | .float place => .ok (.float (env.plusOne place))
  | _ => .error (typeError "unsupported operand type(s) for +")

/-- `_persisted_next_sequence`. -/
def persistedNextSequence (conversationId : String) (file : LogFile) : Except PyExc (Json F) := do
  let last : Option (Dict (Json F)) ←
    ConversationLedger.lastPayload env.ledger (eventLogName conversationId) file
  match last with
  | none => return .int 0
  | some row => do
    validateEventPayload env row
    let event ← ConversationEvent.ofFields env.store.repr row
    nextPlace env event.sequence

/-- `_read_event_rows`. -/
def readEventRows (conversationId : String) (file : LogFile) :
    Except PyExc (List (Dict (Json F))) := do
  let rows ← ConversationLedger.read env.ledger (logPath conversationId)
    (eventLogName conversationId) file
  rows.zipIdx.forM fun (row, index) => do
    validateEventPayload env row
    let event ← ConversationEvent.ofFields env.store.repr row
    raiseIf (¬ event.sequence.pyEq (.int index))
      (valueError "conversation event log failed integrity validation")
  return rows

/-- `a < b`, on numbers. -/
def precedes (a b : Json F) : Bool :=
  match a.num?, b.num? with
  | some a, some b => a < b
  | _, _ => false

/-- The locked part of `record_event`; `nextSequence` is the session's own count. -/
def recordEvent (s : Session) (nextSequence : Json F) (role content : String)
    (metadata : Dict (Json F)) : ChatTx F (ConversationEvent F) := do
  let conversationId := s.conversationId env
  let sequence ← onEvents conversationId (Txn.reads (persistedNextSequence env conversationId))
  Txn.lift (raiseIf (precedes sequence nextSequence)
    (valueError "conversation event log was truncated while in use"))
  let createdAt ← utcNow env
  let event ← Txn.lift (ConversationEvent.create env.store.repr env.store.digests "mca-chat"
    conversationId
    ("state:conversation-event:" ++ conversationId ++ ":" ++ pyStr env.store.repr sequence)
    sequence role content (.str (if role = "user" then "user" else "mca")) (.str createdAt)
    (.obj metadata))
  onEvents conversationId (ConversationLedger.appendUnlocked env.ledger
    (eventLogName conversationId) event.asdict)
  return event

/-! ## Candidates -/

/-- The candidate a row stands for, as `pending_candidates` checks it. -/
def candidateOfRow (row : Dict (Json F)) : Except PyExc Candidate := do
  raiseIf (¬ (recordType row).pyEq (.str "candidate"))
    (valueError "unknown conversation candidate record")
  let scope := pyStr env.store.repr ((row.get? "scope").getD (.str "workspace"))
  let candidate : Candidate := {
    candidateId := textField env row "candidate_id"
    value := textField env row "value"
    sourceRef := textField env row "source_ref"
    sourceSha256 := textField env row "source_sha256"
    sourceEventId := textField env row "source_event_id"
    createdAt := textField env row "created_at"
    scope := scope }
  raiseIf (candidate.candidateId ≠ rowDigest env row (some scope) ∧
      candidate.candidateId ≠ rowDigest env row none)
    (valueError "conversation memory candidate digest mismatch")
  return candidate

/-- The candidates by id, and the ids that were decided. -/
def readCandidateRow (seen : Dict Candidate × List String) (row : Dict (Json F)) :
    Except PyExc (Dict Candidate × List String) :=
  if (recordType row).pyEq (.str "decision") then
    .ok (seen.1, seen.2 ++ [textField env row "candidate_id"])
  else do
    let candidate ← candidateOfRow env row
    return (seen.1.set candidate.candidateId candidate, seen.2)

/-- `pending_candidates`. -/
def pendingCandidates (includeDecided : Bool) (file : LogFile) :
    Except PyExc (List Candidate) := do
  let rows : List (Dict (Json F)) ←
    ConversationLedger.read env.ledger "candidates.jsonl" "candidates" file
  let seen ← rows.foldlM (readCandidateRow env) ([], [])
  return (seen.1.map Prod.snd).filter fun candidate =>
    includeDecided || !seen.2.contains candidate.candidateId

def candidateRow (candidate : Candidate) : Dict (Json F) :=
  [("record_type", .str "candidate"), ("candidate_id", .str candidate.candidateId),
    ("value", .str candidate.value), ("source_ref", .str candidate.sourceRef),
    ("source_sha256", .str candidate.sourceSha256),
    ("source_event_id", .str candidate.sourceEventId),
    ("created_at", .str candidate.createdAt), ("scope", .str candidate.scope)]

/-- The locked part of `stage_candidate`. -/
def stageCandidate (candidate : Candidate) : ChatTx F Unit := do
  let existing ← onCandidates (Txn.reads (pendingCandidates env true))
  if candidate.candidateId ∈ existing.map Candidate.candidateId then return ()
  else onCandidates (ConversationLedger.appendUnlocked env.ledger "candidates"
    (candidateRow candidate : Dict (Json F)))

def decisionRow (candidateId decision cardId recordedAt : String) : Dict (Json F) :=
  [("record_type", .str "decision"), ("candidate_id", .str candidateId),
    ("decision", .str decision), ("card_id", .str cardId), ("recorded_at", .str recordedAt)]

/-- `_append_candidate_decision`. -/
def appendCandidateDecision (candidateId decision cardId : String) : ChatTx F Unit := do
  let recordedAt ← utcNow env
  onCandidates (ConversationLedger.appendUnlocked env.ledger "candidates"
    (decisionRow candidateId decision cardId recordedAt : Dict (Json F)))

/-! ## One step of a session -/

/-- What a session does in one piece. -/
inductive ChatOp (F : Type) where
  | initializeStore
  | migrateEvents (conversationId : String)
  | migrateCandidates
  | readEventRows (conversationId : String)
  | recordEvent (s : Session) (nextSequence : Json F) (role content : String)
      (metadata : Dict (Json F))
  | stageCandidate (candidate : Candidate)
  | readCandidates
  | appendDecision (candidateId decision cardId : String)
  | listCards (s : Session)
  | rememberOnce (source : EvidenceSource) (values : MemoryStore.CardValues F)
  | addSource (cardId : String) (source : EvidenceSource)
  | transition (cardId status : String)
  | supersede (oldCardId : String) (values : MemoryStore.CardValues F)
      (sources : List EvidenceSource)

def ChatOp.Res : ChatOp F → Type
  | .initializeStore => Unit
  | .migrateEvents _ => Bool
  | .migrateCandidates => Bool
  | .readEventRows _ => List (Dict (Json F))
  | .recordEvent _ _ _ _ _ => ConversationEvent F
  | .stageCandidate _ => Unit
  | .readCandidates => List Candidate
  | .appendDecision _ _ _ => Unit
  | .listCards _ => List (MemoryCard F)
  | .rememberOnce _ _ => MemoryCard F
  | .addSource _ _ => EvidenceSource
  | .transition _ _ => Unit
  | .supersede _ _ _ => MemoryCard F

/-- The scopes a session reads. -/
def Session.scopePairs (s : Session) : List (String × String) :=
  [("user", s.userKey), ("workspace", s.workspaceKey)]

def answer : (op : ChatOp F) → ChatTx F op.Res
  | .initializeStore => onStore (MemoryStore.createSchema env.store)
  | .migrateEvents conversationId =>
    onEvents conversationId (ConversationLedger.migrateLegacy env.ledger (logPath conversationId)
      (eventLogName conversationId) (validateEventPayload env))
  | .migrateCandidates =>
    onCandidates (ConversationLedger.migrateLegacy env.ledger "candidates.jsonl" "candidates"
      (validateCandidatePayload env))
  | .readEventRows conversationId =>
    onEvents conversationId (Txn.reads (readEventRows env conversationId))
  | .recordEvent s nextSequence role content metadata =>
    recordEvent env s nextSequence role content metadata
  | .stageCandidate candidate => stageCandidate env candidate
  | .readCandidates => onCandidates (Txn.reads (pendingCandidates env false))
  | .appendDecision candidateId decision cardId =>
    appendCandidateDecision env candidateId decision cardId
  | .listCards s => onStore (Txn.reads fun w : MemoryStore.MemoryWorld F =>
      MemoryStore.listCards env.store false (some s.scopePairs) false w.db)
  | .rememberOnce source values =>
    onStore (MemoryStore.addCardOnceForSource env.store source values)
  | .addSource cardId source => onStore (MemoryStore.addSource env.store cardId source)
  | .transition cardId status => onStore (MemoryStore.transition env.store cardId status none)
  | .supersede oldCardId values sources =>
    onStore (MemoryStore.supersede env.store oldCardId values sources)

/-! ## The methods -/

abbrev ChatProg (F α : Type) := Prog (ChatOp F) ChatOp.Res PyExc α

def act (op : ChatOp F) : ChatProg F op.Res := Prog.call op

def raise {α : Type} (exc : PyExc) : ChatProg F α := .done (.error exc)

def check {α : Type} (x : Except PyExc α) : ChatProg F α := .done x

/-- `__init__`: the count of events is what the session goes on from. -/
def openSession (s : Session) : ChatProg F (Json F) := do
  let conversationId := s.conversationId env
  act .initializeStore
  let _ ← act (.migrateEvents conversationId)
  let _ ← act .migrateCandidates
  let rows : List (Dict (Json F)) ← act (.readEventRows conversationId)
  return .int rows.length

/-- `record_event`. -/
def recordMessage (s : Session) (nextSequence : Json F) (role content : String)
    (metadata : Dict (Json F)) : ChatProg F (ConversationEvent F) := do
  check (raiseIf (content.length > maxEventContentChars)
    (valueError "conversation event content is invalid or too large"))
  act (.recordEvent s nextSequence role content metadata)

/-- `_validate_memory_text`. -/
def validateMemoryText (value : String) : Except PyExc String := do
  let value := pyStrip value
  raiseIf (value = "" ∨ value.length > maxCandidateChars)
    (valueError "memory text must contain 1 to 2000 characters")
  raiseIf (env.containsSecret value)
    (valueError "refusing to persist text that looks like a credential")
  return value

/-- `_cue_anchors`. -/
def cueAnchors (value : String) : List String :=
  let tokens := (MemoryStore.dictFromkeys (env.lexicalTokens value)).take 24
  let anchors := if value.length ≤ 200 then value :: tokens else tokens
  MemoryStore.dictFromkeys (anchors.filter fun anchor => pyStrip anchor ≠ "")

/-- A float literal. -/
def literal (text : String) : F := Json.PyFloat.ofText text.toList

/-- An `EvidenceSource` as a caller writes it. -/
def evidence (sourceType sourceRef sourceSha256 origin : String) : EvidenceSource :=
  ⟨sourceType, sourceRef, sourceSha256, origin, "", "", 0⟩

/-- What `_remember_from_source` asks the store for. -/
def memoryValues (value scope scopeKey validFrom : String) : MemoryStore.CardValues F where
  value := value
  abstraction := value
  cueAnchors := cueAnchors env value
  kind := "semantic"
  subtype := "explicit_conversation_memory"
  scope := scope
  scopeKey := scopeKey
  origin := "user"
  authority := "inform"
  confidence := .float (literal "0.99")
  importance := .float (literal "0.9")
  validFrom := some validFrom
  validTo := none

/-- `_remember_from_source`. -/
def rememberFromSource (s : Session) (value sourceRef sourceSha256 validFrom scope : String) :
    ChatProg F (MemoryCard F) := do
  let value ← check (validateMemoryText env value)
  check (raiseIf (scope ≠ "user" ∧ scope ≠ "workspace")
    (valueError "conversation memory scope must be user or workspace"))
  let scopeKey := if scope = "user" then s.userKey else s.workspaceKey
  act (.rememberOnce (evidence "conversation_event" sourceRef sourceSha256 "user")
    (memoryValues env value scope scopeKey validFrom))

/-- The moment of an event, which a session has written as a text. -/
def createdAt (event : ConversationEvent F) : String := pyStr env.store.repr event.createdAt

/-- `remember`. -/
def remember (s : Session) (value : String) (sourceEvent : ConversationEvent F)
    (scope : String) : ChatProg F (MemoryCard F) :=
  rememberFromSource env s value sourceEvent.sourceRef sourceEvent.sourceSha256
    (createdAt env sourceEvent) scope

/-- `text.removeprefix("@")`. -/
def removeAt (text : String) : String :=
  match text.toList with
  | '@' :: rest => String.ofList rest
  | _ => text

/-- `_resolve_candidate`. -/
def resolveCandidate (selector : String) : ChatProg F Candidate := do
  let selector := removeAt (pyStrip selector)
  let pending : List Candidate ← act .readCandidates
  match pending.filter fun item => startsWith item.candidateId selector with
  | [candidate] => return candidate
  | [] => raise (selectionError "candidate not found")
  | _ => raise (selectionError "candidate id is ambiguous")

/-- `remember_candidate`. -/
def rememberCandidate (s : Session) (selector : String) (scope : Option String) :
    ChatProg F (MemoryCard F) := do
  let candidate ← resolveCandidate selector
  let card ← rememberFromSource env s candidate.value candidate.sourceRef candidate.sourceSha256
    candidate.createdAt (match scope with
      | some scope => if scope = "" then candidate.scope else scope
      | none => candidate.scope)
  act (.appendDecision candidate.candidateId "approved" card.id)
  return card

/-- `dismiss_candidate`. -/
def dismissCandidate (selector : String) : ChatProg F Candidate := do
  let candidate ← resolveCandidate selector
  act (.appendDecision candidate.candidateId "dismissed" "")
  return candidate

/-- `_candidate_value`. -/
def candidateValue (text : String) : Option String :=
  let stripped := pyStrip text
  if stripped = "" ∨ stripped.length > maxCandidateChars then none
  else if candidatePatterns.any fun pattern => pattern.matchesAll stripped then some stripped
  else none

/-- The candidate `stage_candidate` makes of an event. -/
def candidateOfEvent (value : String) (event : ConversationEvent F) : Candidate where
  candidateId := digest env (candidateFields value event.sourceRef event.sourceSha256 event.eventId
    (createdAt env event) (some "user"))
  value := value
  sourceRef := event.sourceRef
  sourceSha256 := event.sourceSha256
  sourceEventId := event.eventId
  createdAt := createdAt env event
  scope := "user"

/-- `stage_candidate`. -/
def stage (sourceEvent : ConversationEvent F) : ChatProg F (Option Candidate) :=
  match candidateValue sourceEvent.content with
  | none => return none
  | some value =>
    if env.containsSecret value then return none
    else do
      let candidate := candidateOfEvent env value sourceEvent
      act (.stageCandidate candidate)
      return some candidate

/-- `_event_source`. -/
def eventSource (event : ConversationEvent F) (sourceType : String) : EvidenceSource :=
  evidence sourceType event.sourceRef event.sourceSha256
    (if event.role = "user" then "user" else "agent")

/-- `" ".join(anchors)`; a card's anchors are texts. -/
def anchorText (anchors : List (Json F)) : String :=
  " ".intercalate (anchors.map (pyStr env.store.repr))

/-- The score of a card in `list_memories`: whether the query stands in its text,
how many tokens they share, and how young it is. -/
def score (query : String) (card : MemoryCard F) : Nat × Nat × Int :=
  let text := card.value ++ " " ++ card.abstraction ++ " " ++ anchorText env card.cueAnchors
  let normalized := pyStrip (env.casefold query)
  let shared := (MemoryStore.dictFromkeys (env.lexicalTokens query)).filter fun token =>
    (env.lexicalTokens text).contains token
  (if normalized.toList <:+: (env.casefold text).toList then 1 else 0, shared.length,
    card.recordedAtNs)

def scoreLE (a b : Nat × Nat × Int) : Bool :=
  a.1 < b.1 || (a.1 = b.1 && (a.2.1 < b.2.1 || (a.2.1 = b.2.1 && a.2.2 ≤ b.2.2)))

/-- `list_memories`, over the cards the store lists. -/
def matchMemories (query : String) (cards : List (MemoryCard F)) : List (MemoryCard F) :=
  if pyStrip query = "" then cards
  else
    let found := cards.filter fun card =>
      (score env query card).1 ≠ 0 || (score env query card).2.1 ≠ 0
    found.insertionSort fun a b => scoreLE (score env query b) (score env query a)

/-- `resolve_card`. -/
def resolveCard (s : Session) (selector : String) : ChatProg F (MemoryCard F) := do
  let selector := removeAt (pyStrip selector)
  check (raiseIf (selector = "") (selectionError "memory selector must not be blank"))
  let cards : List (MemoryCard F) ← act (.listCards s)
  match cards.filter fun card => startsWith card.id selector with
  | [card] => return card
  | _ :: _ :: _ => raise (selectionError "memory id prefix is ambiguous")
  | [] => do
    let listed : List (MemoryCard F) ← act (.listCards s)
    match matchMemories env selector listed with
    | [card] => return card
    | [] => raise (selectionError "no active same-workspace memory matched")
    | _ => raise (selectionError
        "memory selector matched multiple cards; use an id prefix")

/-- `forget`. -/
def forget (s : Session) (selector : String) (sourceEvent : ConversationEvent F) :
    ChatProg F (MemoryCard F) := do
  let card ← resolveCard env s selector
  let _ ← act (.addSource card.id (eventSource sourceEvent "conversation_forget_event"))
  act (.transition card.id "tombstoned")
  return card

/-- `max(old.importance, 0.9)`. -/
def raisedImportance (importance : F) : F :=
  if Json.PyFloat.val importance < Json.PyFloat.val (literal "0.9" : F) then literal "0.9"
  else importance

/-- What `correct` asks the store for. -/
def correctedValues (old : MemoryCard F) (replacement validFrom : String) :
    MemoryStore.CardValues F where
  value := replacement
  abstraction := replacement
  cueAnchors := cueAnchors env replacement
  kind := old.kind
  subtype := old.subtype
  scope := old.scope
  scopeKey := old.scopeKey
  origin := "user"
  authority := if old.authority = "none" then "none" else "inform"
  confidence := .float (literal "0.99")
  importance := .float (raisedImportance old.importance)
  validFrom := some validFrom
  validTo := none

/-- `correct`. -/
def correct (s : Session) (selector replacement : String) (sourceEvent : ConversationEvent F) :
    ChatProg F (MemoryCard F × MemoryCard F) := do
  let old ← resolveCard env s selector
  let replacement ← check (validateMemoryText env replacement)
  let new ← act (.supersede old.id
    (correctedValues env old replacement (createdAt env sourceEvent))
    [eventSource sourceEvent "conversation_event"])
  return (old, new)

end Methods

end ConversationMemory

end MiniCodeAgent
