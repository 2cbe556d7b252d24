import MiniCodeAgent.Log.Newest
import MiniCodeAgent.MemoryModels
import MiniCodeAgent.Prog.Transaction
import MiniCodeAgent.Receipt

/-!
# The memory store

`memory_store.py` over its tables. A table is the list of its rows in rowid
order, and a row has the columns the schema declares, with a `REAL` column
holding a float whatever number was bound to it. A writing operation runs under
the store's lock in one immediate SQLite transaction, so it is one `Txn`: it
ends with its value and what it wrote, or it raises and the tables are what
they were.

Identifiers and clock readings come from outside. `uuid4 n` and `timeNs n` are
the answers to the n-th call, and a call that raised has used its answers up
all the same.
-/

namespace MiniCodeAgent

/-- A timestamp `datetime.fromisoformat` has read: whether it has an offset,
and the moment it names. -/
structure DateTime where
  aware : Bool
  moment : Int
  deriving DecidableEq

/-- What the store takes from the rest of the machine. -/
structure MemoryEnv (F : Type) where
  digests : Digests
  key : ByteArray
  /-- `uuid.uuid4().hex`. -/
  uuid4 : Nat → String
  uuid4_hex : ∀ n, isHex (uuid4 n) = true
  /-- `time.time_ns()`. -/
  timeNs : Nat → Int
  fromisoformat : String → Option DateTime
  /-- `datetime.fromtimestamp(ns / 1_000_000_000, tz=timezone.utc)`. -/
  fromtimestamp : Int → Except PyExc Int
  /-- Whether this SQLite can create an FTS5 table. -/
  fts5 : Bool
  /-- `str` of a container. -/
  repr : Json F → String

/-- A number as a caller may pass it. -/
inductive PyNumber (F : Type) where
  | int (i : Int)
  | float (f : F)

namespace PyNumber

variable {F : Type}

def json : PyNumber F → Json F
  | .int i => .int i
  | .float f => .float f

variable [Json.PyFloat F]

/-- `float(number)`, and what a `REAL` column makes of it. -/
def real : PyNumber F → F
  | .int i => Json.PyFloat.ofText (Json.dumpInt i)
  | .float f => f

def val : PyNumber F → Rat
  | .int i => i
  | .float f => Json.PyFloat.val f

end PyNumber

namespace MemoryStore

/-! ## The tables -/

structure MetaRow where
  key : String
  value : String
  signature : String
  deriving DecidableEq

structure CardRow (F : Type) where
  id : String
  kind : String
  subtype : String
  scope : String
  scopeKey : String
  value : String
  abstraction : String
  cueAnchorsJson : String
  origin : String
  authority : String
  confidence : F
  importance : F
  validFrom : Option String
  validTo : Option String
  recordedAtNs : Int
  contentSha256 : String
  signature : String

structure SourceRow where
  id : String
  cardId : String
  sourceType : String
  sourceRef : String
  sourceSha256 : String
  origin : String
  recordedAtNs : Int
  signature : String
  deriving DecidableEq

structure EdgeRow where
  id : String
  sourceId : String
  targetId : String
  relation : String
  recordedAtNs : Int
  signature : String
  deriving DecidableEq

structure EventRow where
  id : String
  cardId : String
  eventType : String
  relatedCardId : Option String
  recordedAtNs : Int
  signature : String
  deriving DecidableEq

structure DecisionRow (F : Type) where
  id : String
  querySha256 : String
  stage : String
  operation : String
  selectedCardIdsJson : String
  expectedUtility : F
  reason : String
  shadow : Int
  recordedAtNs : Int
  signature : String

structure OutcomeRow (F : Type) where
  id : String
  decisionId : String
  success : Int
  reward : F
  harmful : Int
  tokenCost : Int
  evidenceType : String
  evidenceRef : String
  evidenceSha256 : String
  evidenceOrigin : String
  recordedAtNs : Int
  signature : String

structure FtsRow where
  cardId : String
  abstraction : String
  cueText : String
  deriving DecidableEq

structure Database (F : Type) where
  initialized : Bool
  metas : List MetaRow
  cards : List (CardRow F)
  sources : List SourceRow
  edges : List EdgeRow
  cardEvents : List EventRow
  memoryDecisions : List (DecisionRow F)
  memoryOutcomes : List (OutcomeRow F)
  memoryFts : List FtsRow

/-- No database file yet. -/
def Database.absent (F : Type) : Database F := ⟨false, [], [], [], [], [], [], [], []⟩

/-- The tables, and how many identifiers and clock readings have been drawn. -/
structure MemoryWorld (F : Type) where
  db : Database F
  uuids : Nat
  ticks : Nat

abbrev Tx (F α : Type) := Txn (MemoryWorld F) PyExc α

variable {F : Type}

/-- What the tables answer. -/
def select {α : Type} (f : Database F → Except PyExc α) : Tx F α := Txn.reads fun w => f w.db

def execute (f : Database F → Database F) : Tx F Unit := Txn.modify fun w => { w with db := f w.db }

/-- An `INSERT` whose constraint may be violated. -/
def insertInto (violated : Database F → Option String) (add : Database F → Database F) :
    Tx F Unit := do
  select fun db =>
    match violated db with
    | some message => .error ⟨"IntegrityError", message, true⟩
    | none => .ok ()
  execute add

section Store

variable [Json.PyFloat F] (env : MemoryEnv F)

def uuid4 : Tx F String := fun w => (.ok (env.uuid4 w.uuids), { w with uuids := w.uuids + 1 })

def timeNs : Tx F Int := fun w => (.ok (env.timeNs w.ticks), { w with ticks := w.ticks + 1 })

/-! ## Signatures -/

def sign (payload : Dict (Json F)) : String :=
  env.digests.hmacSha256 env.key (canonicalJson (.obj payload))

def jsonText : Option String → Json F
  | some text => .str text
  | none => .null

/-- `json.loads(text)`. -/
def loadsText (text : String) : Except PyExc (Json F) :=
  match Json.loads text with
  | some j => .ok j
  | none => .error ⟨"JSONDecodeError", "invalid JSON", true⟩

def cardFields (row : CardRow F) (cueAnchors : Json F) : Dict (Json F) :=
  [("id", .str row.id), ("kind", .str row.kind), ("subtype", .str row.subtype),
    ("scope", .str row.scope), ("scope_key", .str row.scopeKey), ("value", .str row.value),
    ("abstraction", .str row.abstraction), ("origin", .str row.origin),
    ("authority", .str row.authority), ("confidence", .float row.confidence),
    ("importance", .float row.importance), ("valid_from", jsonText row.validFrom),
    ("valid_to", jsonText row.validTo), ("cue_anchors", cueAnchors),
    ("recorded_at_ns", .int row.recordedAtNs), ("content_sha256", .str row.contentSha256)]

def cardPayload (row : CardRow F) : Except PyExc (Dict (Json F)) := do
  let cueAnchors ← loadsText row.cueAnchorsJson
  return cardFields row cueAnchors

def sourcePayload (row : SourceRow) : Dict (Json F) :=
  [("id", .str row.id), ("card_id", .str row.cardId), ("source_type", .str row.sourceType),
    ("source_ref", .str row.sourceRef), ("source_sha256", .str row.sourceSha256),
    ("origin", .str row.origin), ("recorded_at_ns", .int row.recordedAtNs)]

def edgePayload (row : EdgeRow) : Dict (Json F) :=
  [("id", .str row.id), ("source_id", .str row.sourceId), ("target_id", .str row.targetId),
    ("relation", .str row.relation), ("recorded_at_ns", .int row.recordedAtNs)]

def eventPayload (row : EventRow) : Dict (Json F) :=
  [("id", .str row.id), ("card_id", .str row.cardId), ("event_type", .str row.eventType),
    ("related_card_id", jsonText row.relatedCardId), ("recorded_at_ns", .int row.recordedAtNs)]

def decisionPayload (row : DecisionRow F) : Except PyExc (Dict (Json F)) := do
  let selected ← loadsText row.selectedCardIdsJson
  return [("id", .str row.id), ("query_sha256", .str row.querySha256), ("stage", .str row.stage),
    ("operation", .str row.operation), ("selected_card_ids", selected),
    ("expected_utility", .float row.expectedUtility), ("reason", .str row.reason),
    ("shadow", .bool (row.shadow ≠ 0)), ("recorded_at_ns", .int row.recordedAtNs)]

def outcomePayload (row : OutcomeRow F) : Dict (Json F) :=
  [("id", .str row.id), ("decision_id", .str row.decisionId),
    ("success", .bool (row.success ≠ 0)), ("reward", .float row.reward),
    ("harmful", .bool (row.harmful ≠ 0)), ("token_cost", .int row.tokenCost),
    ("evidence_type", .str row.evidenceType), ("evidence_ref", .str row.evidenceRef),
    ("evidence_sha256", .str row.evidenceSha256), ("evidence_origin", .str row.evidenceOrigin),
    ("recorded_at_ns", .int row.recordedAtNs)]

def metaPayload (key value : String) : Dict (Json F) := [("key", .str key), ("value", .str value)]

/-- The digest a card row carries of its own content. -/
def verifyContent (id : String) (payload : Dict (Json F)) : Except PyExc Unit := do
  let supplied := pyStr env.repr ((payload.get? "content_sha256").getD .null)
  let same ← compareDigest supplied (digestJson env.digests (.obj (payload.pop "content_sha256")))
  raiseIf (same = false) (integrityError ("memory card digest mismatch: " ++ id))

def verifySignature (label id signature : String) (payload : Dict (Json F)) :
    Except PyExc Unit := do
  let same ← compareDigest signature (sign env payload)
  raiseIf (same = false)
    (integrityError ("memory " ++ label ++ " authentication failed: " ++ id))

/-- `_verify_row` of a card; the other tables have no digest of their own. -/
def verifyCard (row : CardRow F) : Except PyExc Unit := do
  let payload ← cardPayload row
  verifyContent env row.id payload
  verifySignature env "card" row.id row.signature payload

def verifySource (row : SourceRow) : Except PyExc Unit :=
  verifySignature env "source" row.id row.signature (sourcePayload row)

def verifyEdge (row : EdgeRow) : Except PyExc Unit :=
  verifySignature env "edge" row.id row.signature (edgePayload row)

def verifyEvent (row : EventRow) : Except PyExc Unit :=
  verifySignature env "event" row.id row.signature (eventPayload row)

def verifyDecision (row : DecisionRow F) : Except PyExc Unit := do
  let payload ← decisionPayload row
  verifySignature env "decision" row.id row.signature payload

def verifyOutcome (row : OutcomeRow F) : Except PyExc Unit :=
  verifySignature env "outcome" row.id row.signature (outcomePayload row)

/-! ## Metadata -/

/-- `_meta`. -/
def getMeta (key : String) (db : Database F) : Except PyExc (Option String) :=
  match db.metas.find? fun row => row.key = key with
  | none => .ok none
  | some row => do
    let same ← compareDigest row.signature (sign env (metaPayload row.key row.value))
    raiseIf (same = false) (integrityError ("memory metadata authentication failed: " ++ key))
    return some row.value

def setMeta (key value : String) : Tx F Unit :=
  execute fun db =>
    { db with metas := db.metas.filter (fun row => row.key ≠ key) ++
        [⟨key, value, sign env (metaPayload key value)⟩] }

def readableSchemaVersions : List Int := [1, 2]

def checkExistingVersion (existing : Option String) : Except PyExc Unit :=
  match existing with
  | none => .ok ()
  | some value => do
    let version ← pyInt (.str value : Json F)
    raiseIf (version ∉ readableSchemaVersions)
      (integrityError "unsupported memory schema version")

/-- `_create_schema`, which commits by itself. -/
def createSchema : Tx F Unit := do
  execute fun db => { db with initialized := true }
  let existing ← select (getMeta env "schema_version")
  Txn.lift (checkExistingVersion (F := F) existing)
  setMeta env "schema_version" "2"
  setMeta env "fts_enabled" (if env.fts5 then "1" else "0")

/-- `_write_transaction`: the schema first, and then all of the body or nothing. -/
def writeTransaction {α : Type} (body : Tx F α) : Tx F α := do
  createSchema env
  Txn.atomically (fun w w' => { w' with db := w.db }) body

/-! ## Reading rows -/

def requireCard (cardId : String) (db : Database F) : Except PyExc (CardRow F) :=
  match db.cards.find? fun row => row.id = cardId with
  | some row => .ok row
  | none => .error (keyError ("memory card not found: " ++ cardId))

def requireAuthenticatedCard (cardId : String) (db : Database F) : Except PyExc (CardRow F) := do
  let row ← requireCard cardId db
  verifyCard env row
  return row

def cardAuthority (cardId : String) (db : Database F) : Except PyExc String := do
  let row ← requireAuthenticatedCard env cardId db
  return row.authority

/-- The event the status of a card is read from. -/
def latestEvent (cardId : String) (db : Database F) : Option EventRow :=
  Log.newest EventRow.recordedAtNs (db.cardEvents.filter fun row => row.cardId = cardId)

def currentStatus (cardId : String) (db : Database F) : Except PyExc String :=
  match latestEvent cardId db with
  | none => .error (integrityError ("memory card " ++ cardId ++ " has no state event"))
  | some row => do
    verifyEvent env row
    return row.eventType

def cardFromRow (row : CardRow F) (status : String) : Except PyExc (MemoryCard F) := do
  let parsed ← loadsText row.cueAnchorsJson
  let cueAnchors ← pyList parsed
  return {
    id := row.id
    kind := row.kind
    subtype := row.subtype
    scope := row.scope
    scopeKey := row.scopeKey
    value := row.value
    abstraction := row.abstraction
    cueAnchors := cueAnchors
    origin := row.origin
    authority := row.authority
    confidence := row.confidence
    importance := row.importance
    validFrom := row.validFrom
    validTo := row.validTo
    recordedAtNs := row.recordedAtNs
    contentSha256 := row.contentSha256
    status := status }

def sourceFromRow (row : SourceRow) : EvidenceSource where
  id := row.id
  cardId := row.cardId
  sourceType := row.sourceType
  sourceRef := row.sourceRef
  sourceSha256 := row.sourceSha256
  origin := row.origin
  recordedAtNs := row.recordedAtNs

/-! ## What a card must look like -/

/-- The keyword arguments of a new card. -/
structure CardValues (F : Type) where
  value : String
  abstraction : String
  cueAnchors : List String
  kind : String
  subtype : String
  scope : String
  scopeKey : String
  origin : String
  authority : String
  confidence : PyNumber F
  importance : PyNumber F
  validFrom : Option String
  validTo : Option String

def maxTextLength : Nat := 1000000

/-- `value.replace("Z", "+00:00")`. -/
def replaceZ (text : String) : String :=
  String.ofList (text.toList.flatMap fun c => if c = 'Z' then "+00:00".toList else [c])

/-- `_parse_timestamp`. -/
def parseTimestamp (value : Option String) (label : String) : Except PyExc (Option Int) :=
  match value with
  | none => .ok none
  | some text => do
    raiseIf (pyStrip text = "") (valueError (label ++ " must be a non-blank timestamp"))
    match env.fromisoformat (replaceZ text) with
    | none => .error (valueError (label ++ " must be an ISO-8601 timestamp"))
    | some parsed =>
      if parsed.aware then .ok (some parsed.moment)
      else .error (valueError (label ++ " must include a UTC offset"))

def checkText (field raw : String) : Except PyExc Unit := do
  raiseIf (pyStrip raw = "") (valueError ("memory " ++ field ++ " must not be blank"))
  raiseIf (raw.length > maxTextLength)
    (valueError ("memory " ++ field ++ " exceeds the size limit"))

def checkFraction (field : String) (number : PyNumber F) : Except PyExc Unit :=
  raiseIf (¬ (0 ≤ number.val ∧ number.val ≤ 1))
    (valueError ("memory " ++ field ++ " must be between 0 and 1"))

def checkOrder : Option Int → Option Int → Except PyExc Unit
  | some parsedFrom, some parsedTo =>
    raiseIf (parsedFrom > parsedTo) (valueError "valid_from must not be after valid_to")
  | _, _ => .ok ()

/-- `_validate_card_input`. -/
def validateCardInput (values : CardValues F) : Except PyExc Unit := do
  raiseIf (values.kind ∉ memoryKinds) (valueError ("unsupported memory kind: " ++ values.kind))
  validateAuthority values.origin values.authority
  checkText "value" values.value
  checkText "abstraction" values.abstraction
  checkText "subtype" values.subtype
  checkText "scope" values.scope
  raiseIf (values.scopeKey.length > maxTextLength)
    (valueError "memory scope_key exceeds the size limit")
  raiseIf (values.cueAnchors.length > 100)
    (valueError "memory cue anchors exceed the count limit")
  raiseIf (∃ cue ∈ values.cueAnchors, pyStrip cue = "" ∨ cue.length > 500)
    (valueError "memory cue anchors must be non-blank short strings")
  checkFraction "confidence" values.confidence
  checkFraction "importance" values.importance
  let parsedFrom ← parseTimestamp env values.validFrom "valid_from"
  let parsedTo ← parseTimestamp env values.validTo "valid_to"
  checkOrder parsedFrom parsedTo

/-! ## Inserting rows -/

/-- `_insert_event`. -/
def insertEvent (cardId eventType : String) (relatedCardId : Option String) : Tx F Unit := do
  Txn.lift (raiseIf (eventType ∉ memoryStatuses)
    (valueError ("unsupported memory status: " ++ eventType)))
  let id ← uuid4 env
  let recordedAtNs ← timeNs env
  let row : EventRow := ⟨id, cardId, eventType, relatedCardId, recordedAtNs, ""⟩
  insertInto (fun db => if db.cardEvents.any (fun other => other.id = id)
      then some "UNIQUE constraint failed: card_events.id" else none)
    fun db => { db with cardEvents :=
      db.cardEvents ++ [{ row with signature := sign env (eventPayload row) }] }

/-- The content a card's digest is taken of. -/
def cardContent (cardId : String) (values : CardValues F) (cueAnchors : List String)
    (recordedAtNs : Int) : Dict (Json F) :=
  [("id", .str cardId), ("value", .str values.value), ("abstraction", .str values.abstraction),
    ("kind", .str values.kind), ("subtype", .str values.subtype), ("scope", .str values.scope),
    ("scope_key", .str values.scopeKey), ("origin", .str values.origin),
    ("authority", .str values.authority), ("confidence", values.confidence.json),
    ("importance", values.importance.json), ("valid_from", jsonText values.validFrom),
    ("valid_to", jsonText values.validTo), ("cue_anchors", .arr (cueAnchors.map .str)),
    ("recorded_at_ns", .int recordedAtNs)]

/-- The row of a new card: digest and signature are taken of the numbers the
caller passed, and the columns hold floats. -/
def newCardRow (cardId : String) (values : CardValues F) (recordedAtNs : Int) : CardRow F :=
  let cueAnchors := values.cueAnchors.map pyStrip
  let payload := cardContent cardId values cueAnchors recordedAtNs
  let contentSha256 := digestJson env.digests (.obj payload)
  { id := cardId
    kind := values.kind
    subtype := values.subtype
    scope := values.scope
    scopeKey := values.scopeKey
    value := values.value
    abstraction := values.abstraction
    cueAnchorsJson := Json.dumps .compact (.arr (cueAnchors.map .str) : Json F)
    origin := values.origin
    authority := values.authority
    confidence := values.confidence.real
    importance := values.importance.real
    validFrom := values.validFrom
    validTo := values.validTo
    recordedAtNs := recordedAtNs
    contentSha256 := contentSha256
    signature := sign env (payload.set "content_sha256" (.str contentSha256)) }

def indexCard (ftsEnabled : Option String) (row : FtsRow) : Tx F Unit :=
  if ftsEnabled = some "1" then execute fun db => { db with memoryFts := db.memoryFts ++ [row] }
  else pure ()

/-- `_insert_card`. -/
def insertCard (values : CardValues F) : Tx F (MemoryCard F) := do
  let cardId ← uuid4 env
  let recordedAtNs ← timeNs env
  insertInto (fun db => if db.cards.any (fun other => other.id = cardId)
      then some "UNIQUE constraint failed: cards.id" else none)
    fun db => { db with cards := db.cards ++ [newCardRow env cardId values recordedAtNs] }
  insertEvent env cardId "active" none
  let ftsEnabled ← select (getMeta env "fts_enabled")
  indexCard ftsEnabled
    ⟨cardId, values.abstraction, " ".intercalate (values.cueAnchors.map pyStrip)⟩
  let row ← select (requireCard cardId)
  Txn.lift (cardFromRow row "active")

/-- `re.fullmatch(r"[0-9a-fA-F]{64}", text)`. -/
def isSha256Digest (text : String) : Bool :=
  text.length = 64 && text.toList.all fun c =>
    c.isDigit || ('a' ≤ c && c ≤ 'f') || ('A' ≤ c && c ≤ 'F')

/-- `text.lower()`, compared with texts in ASCII only. -/
def pyLower (text : String) : String := String.ofList (text.toList.map Char.toLower)

def checkSource (source : EvidenceSource) : Except PyExc Unit := do
  raiseIf (source.origin ∉ memoryOrigins)
    (valueError ("unsupported evidence origin: " ++ source.origin))
  raiseIf (pyStrip source.sourceType = "" ∨ pyStrip source.sourceRef = "")
    (valueError "evidence source type and reference must not be blank")
  raiseIf (source.sourceType.length > 200 ∨ source.sourceRef.length > 10000)
    (valueError "evidence source metadata exceeds the size limit")
  raiseIf (isSha256Digest source.sourceSha256 = false)
    (valueError "evidence source_sha256 must be a SHA-256 hex digest")

/-- `_insert_source`. -/
def insertSource (cardId : String) (source : EvidenceSource) : Tx F EvidenceSource := do
  Txn.lift (checkSource source)
  let id ← uuid4 env
  let recordedAtNs ← timeNs env
  let row : SourceRow := ⟨id, cardId, source.sourceType, source.sourceRef,
    pyLower source.sourceSha256, source.origin, recordedAtNs, ""⟩
  insertInto (fun db => if db.sources.any (fun other => other.id = id)
      then some "UNIQUE constraint failed: sources.id" else none)
    fun db => { db with sources :=
      db.sources ++ [{ row with signature := sign env (sourcePayload row) }] }
  return sourceFromRow row

/-- `_insert_edge`. -/
def insertEdge (sourceId targetId relation : String) : Tx F MemoryEdge := do
  Txn.lift (raiseIf (relation ∉ memoryRelations)
    (valueError ("unsupported memory relation: " ++ relation)))
  let _ ← select (requireAuthenticatedCard env sourceId)
  let _ ← select (requireAuthenticatedCard env targetId)
  let id ← uuid4 env
  let recordedAtNs ← timeNs env
  let row : EdgeRow := ⟨id, sourceId, targetId, relation, recordedAtNs, ""⟩
  insertInto (fun db => if db.edges.any (fun other => other.id = id)
      then some "UNIQUE constraint failed: edges.id" else none)
    fun db => { db with edges :=
      db.edges ++ [{ row with signature := sign env (edgePayload row) }] }
  return ⟨id, sourceId, targetId, relation, recordedAtNs⟩

def changedProvenance (row : SourceRow) (source : EvidenceSource) : Prop :=
  row.sourceSha256 ≠ pyLower source.sourceSha256 ∨ row.origin ≠ source.origin

instance (row : SourceRow) (source : EvidenceSource) : Decidable (changedProvenance row source) :=
  inferInstanceAs (Decidable (_ ∨ _))

def oldestFirst (rows : List SourceRow) : List SourceRow :=
  rows.insertionSort fun a b => a.recordedAtNs ≤ b.recordedAtNs

/-- `_add_source_in_connection`. -/
def addSourceInConnection (cardId : String) (source : EvidenceSource) : Tx F EvidenceSource := do
  let _ ← select (requireAuthenticatedCard env cardId)
  let rows ← Txn.query fun w => oldestFirst (w.db.sources.filter fun row =>
    row.cardId = cardId ∧ row.sourceType = source.sourceType ∧ row.sourceRef = source.sourceRef)
  match rows with
  | row :: _ => Txn.lift do
    verifySource env row
    raiseIf (changedProvenance row source)
      (valueError "evidence source reference cannot change provenance")
    return sourceFromRow row
  | [] => insertSource env cardId source

end Store

end MemoryStore

end MiniCodeAgent
