import MiniCodeAgent.Continuity
import Mathlib.Data.Finmap

/-!
# Memory mutations and snapshots

`memory_core/mutations.py`: changes to a semantic state, each bound to the
revision it was built on. The ledger commits a mutation that names its current
revision, its stream and a known schema; `compact` writes the state out as a
snapshot a later ledger can start from.

The dictionaries of the source are finite maps, since nothing reads the order of
their items. `append` and `compact` return what the call returns or raises beside
the ledger it leaves behind. A row of a snapshot is read into the typed fields of
the record; one of another type, which no snapshot written here has, is refused.
-/

namespace MemoryCore

open MiniCodeAgent

variable {F : Type}

/-- `_AUTHORITY_RANK`. -/
def Authority.rank : Authority → Nat
  | .none => 0
  | .inform => 1
  | .act => 2

def Authority.text : Authority → String
  | .none => "none"
  | .inform => "inform"
  | .act => "act"

def Authority.ofText : String → Option Authority
  | "none" => some .none
  | "inform" => some .inform
  | "act" => some .act
  | _ => Option.none

def RetentionClass.ofText : String → Option RetentionClass
  | "core" => some .core
  | "durable" => some .durable
  | "episodic" => some .episodic
  | "transient" => some .transient
  | _ => none

/-- `MUTATION_OPERATIONS`. -/
inductive MutationOperation where
  | assert
  | dispute
  | withdraw
  deriving DecidableEq

def MutationOperation.text : MutationOperation → String
  | .assert => "assert"
  | .dispute => "dispute"
  | .withdraw => "withdraw"

/-- The `status` of a materialized entry. -/
inductive MemoryStatus where
  | active
  | disputed
  | withdrawn
  deriving DecidableEq

def MemoryStatus.text : MemoryStatus → String
  | .active => "active"
  | .disputed => "disputed"
  | .withdrawn => "withdrawn"

def MemoryStatus.ofText : String → Option MemoryStatus
  | "active" => some .active
  | "disputed" => some .disputed
  | "withdrawn" => some .withdrawn
  | _ => none

def MutationOperation.status : MutationOperation → MemoryStatus
  | .assert => .active
  | .dispute => .disputed
  | .withdraw => .withdrawn

/-- `VALUE_TYPES`. -/
inductive ValueType where
  | text
  | number
  | boolean
  | object
  | array
  | any
  deriving DecidableEq

def ValueType.name : ValueType → String
  | .text => "text"
  | .number => "number"
  | .boolean => "boolean"
  | .object => "object"
  | .array => "array"
  | .any => "any"

/-- The `isinstance` checks; a boolean is no number here. -/
def ValueType.accepts : ValueType → Json F → Bool
  | .text, .str _ => true
  | .number, .int _ => true
  | .number, .float _ => true
  | .boolean, .bool _ => true
  | .object, .obj _ => true
  | .array, .arr _ => true
  | .any, _ => true
  | _, _ => false

/-- What the module takes from elsewhere: SHA-256 and `repr` of a text. -/
structure MutationEnv where
  digests : Digests
  reprText : String → String

/-- `_require_text`. -/
def requireText (name value : String) : Except PyExc Unit :=
  raiseIf (pyStrip value = "") (valueError (name ++ " must not be blank"))

/-! ## Schemas -/

structure SchemaFields where
  schemaId : String
  version : Int
  predicate : String
  valueType : ValueType
  description : String
  maxAuthority : Authority
  retentionClass : RetentionClass

/-- `__post_init__`; the three enumerations are what their types say. -/
def SchemaFields.postInit (f : SchemaFields) : Except PyExc Unit := do
  requireText "schema id" f.schemaId
  requireText "schema predicate" f.predicate
  raiseIf (f.version < 1) (valueError "schema version must be positive")

structure MemoryFieldSchema extends SchemaFields where
  checked : toSchemaFields.postInit = .ok ()

namespace MemoryFieldSchema

/-- The key a ledger finds the schema by. -/
def key (schema : MemoryFieldSchema) : String × Int × String :=
  (schema.schemaId, schema.version, schema.predicate)

def validate (env : MutationEnv) (schema : MemoryFieldSchema) (value : Json F) :
    Except PyExc Unit :=
  raiseIf (schema.valueType.accepts value = false)
    (typeError ("predicate " ++ env.reprText schema.predicate ++ " requires " ++
      schema.valueType.name ++ " values"))

end MemoryFieldSchema

/-! ## Mutations -/

structure MutationFields where
  mutationId : String
  streamId : String
  revision : Int
  baseRevision : Int
  operation : MutationOperation
  entityId : String
  predicate : String
  valueJson : Option String
  schemaId : String
  schemaVersion : Int
  sourceEventRevisions : List (String × String)
  authority : Authority
  recordedAt : String
  deriving DecidableEq

variable (F) in
/-- `__post_init__`. -/
def MutationFields.postInit [Json.PyFloat F] (f : MutationFields) : Except PyExc Unit := do
  requireText "mutation id" f.mutationId
  requireText "stream id" f.streamId
  requireText "entity id" f.entityId
  requireText "predicate" f.predicate
  requireText "schema id" f.schemaId
  raiseIf (f.revision < 1 ∨ f.baseRevision ≠ f.revision - 1)
    (valueError "mutation revision must immediately follow base revision")
  raiseIf (f.schemaVersion < 1) (valueError "schema version must be positive")
  raiseIf (f.sourceEventRevisions = [])
    (valueError "mutation requires source event revisions")
  f.sourceEventRevisions.forM fun source => do
    requireText "source event id" source.1
    raiseIf (source.2.length ≠ 64 ∨ isHex source.2 = false)
      (valueError "source event revision must be a lowercase SHA-256")
  raiseIf (f.operation = .assert ∧ f.valueJson = none)
    (valueError "assert mutation requires a value")
  raiseIf (∃ text ∈ f.valueJson, (Json.loads text : Option (Json F)).isNone)
    (valueError "mutation value must be valid JSON")

structure MemoryMutation (F : Type) [Json.PyFloat F] extends MutationFields where
  checked : toMutationFields.postInit F = .ok ()

/-- The key of an entry: `(entity_id, predicate)`, in the order of tuples. -/
abbrev StateKey := String ×ₗ String

def MutationFields.key (m : MutationFields) : StateKey := toLex (m.entityId, m.predicate)

def MutationFields.schemaKey (m : MutationFields) : String × Int × String :=
  (m.schemaId, m.schemaVersion, m.predicate)

/-- `source_event_revisions` as JSON writes it. -/
def revisionsJson (revisions : List (String × String)) : Json F :=
  .arr (revisions.map fun source => .arr [.str source.1, .str source.2])

def textOrNull : Option String → Json F
  | some text => .str text
  | none => .null

variable [Json.PyFloat F]

/-- `_digest`. -/
def digest (env : MutationEnv) (value : Json F) : String :=
  env.digests.sha256 (Json.canonical value).toUTF8

/-- `MemoryMutation(**fields)`. -/
def MemoryMutation.make (f : MutationFields) : Except PyExc (MemoryMutation F) :=
  match h : f.postInit F with
  | .ok () => .ok ⟨f, h⟩
  | .error exc => .error exc

/-- `MemoryMutation.create`: the id is the digest of everything else. -/
def MemoryMutation.create (env : MutationEnv) (streamId : String) (baseRevision : Int)
    (operation : MutationOperation) (entityId predicate : String)
    (sourceEventRevisions : List (String × String)) (schemaId : String) (schemaVersion : Int)
    (value : Option (Json F)) (authority : Authority) (recordedAt : String) :
    Except PyExc (MemoryMutation F) :=
  let valueJson := value.map Json.canonical
  let payload : Json F := .obj [("stream_id", .str streamId), ("revision", .int (baseRevision + 1)),
    ("base_revision", .int baseRevision), ("operation", .str operation.text),
    ("entity_id", .str entityId), ("predicate", .str predicate),
    ("value_json", textOrNull valueJson), ("schema_id", .str schemaId),
    ("schema_version", .int schemaVersion),
    ("source_event_revisions", revisionsJson sourceEventRevisions),
    ("authority", .str authority.text), ("recorded_at", .str recordedAt)]
  MemoryMutation.make {
    mutationId := digest env payload
    streamId := streamId
    revision := baseRevision + 1
    baseRevision := baseRevision
    operation := operation
    entityId := entityId
    predicate := predicate
    valueJson := valueJson
    schemaId := schemaId
    schemaVersion := schemaVersion
    sourceEventRevisions := sourceEventRevisions
    authority := authority
    recordedAt := recordedAt }

/-! ## The materialized state -/

structure MaterializedMemory where
  entityId : String
  predicate : String
  status : MemoryStatus
  valueJson : Option String
  authority : Authority
  mutationId : String
  sourceEventRevisions : List (String × String)
  retentionClass : RetentionClass
  deriving DecidableEq

def MaterializedMemory.key (item : MaterializedMemory) : StateKey :=
  toLex (item.entityId, item.predicate)

abbrev MemoryState := Finmap fun _ : StateKey => MaterializedMemory

/-- `[item for _, item in sorted(state.items())]`. -/
def MemoryState.sorted (state : MemoryState) : List MaterializedMemory :=
  (state.keys.sort (· ≤ ·)).filterMap fun key => state.lookup key

/-! ## Snapshots -/

def MaterializedMemory.row (item : MaterializedMemory) : Json F :=
  .obj [("entity_id", .str item.entityId), ("predicate", .str item.predicate),
    ("status", .str item.status.text), ("value_json", textOrNull item.valueJson),
    ("authority", .str item.authority.text), ("mutation_id", .str item.mutationId),
    ("source_event_revisions", revisionsJson item.sourceEventRevisions),
    ("retention_class", .str item.retentionClass.text)]

def asText : Json F → Except PyExc String
  | .str text => .ok text
  | _ => .error (typeError "snapshot field must be text")

/-- A field that is one of the texts of an enumeration. -/
def asOneOf {α : Type} (ofText : String → Option α) (value : Json F) : Except PyExc α :=
  match value with
  | .str text =>
    match ofText text with
    | some a => .ok a
    | none => .error (typeError "snapshot field has an unknown name")
  | _ => .error (typeError "snapshot field must be text")

def asRevision : Json F → Except PyExc (String × String)
  | .arr [.str eventId, .str sourceSha256] => .ok (eventId, sourceSha256)
  | _ => .error (typeError "source event revision must be a pair")

def asRevisions : Json F → Except PyExc (List (String × String))
  | .arr items => items.mapM asRevision
  | _ => .error (typeError "object is not iterable")

def asTextOrNull : Json F → Except PyExc (Option String)
  | .str text => .ok (some text)
  | .null => .ok none
  | _ => .error (typeError "snapshot field must be text")

def readFields (fields : Dict (Json F)) : Except PyExc MaterializedMemory := do
  let row : Json F := .obj fields
  let revisions ← pyItem "source_event_revisions" row
  let sourceEventRevisions ← asRevisions revisions
  let entityId ← pyItem "entity_id" row
  let entityId ← asText entityId
  let predicate ← pyItem "predicate" row
  let predicate ← asText predicate
  let status ← pyItem "status" row
  let status ← asOneOf MemoryStatus.ofText status
  let valueJson ← asTextOrNull ((Dict.get? fields "value_json").getD .null)
  let authority ← pyItem "authority" row
  let authority ← asOneOf Authority.ofText authority
  let mutationId ← pyItem "mutation_id" row
  let mutationId ← asText mutationId
  let retentionClass ← asOneOf RetentionClass.ofText
    ((Dict.get? fields "retention_class").getD (.str "durable"))
  return { entityId, predicate, status, valueJson, authority, mutationId, sourceEventRevisions,
           retentionClass }

/-- The loop body of `materialize`. -/
def readRow : Json F → Except PyExc MaterializedMemory
  | .obj fields => readFields fields
  | _ => .error (typeError "snapshot state rows must be objects")

structure CanonicalMemorySnapshot where
  snapshotId : String
  streamId : String
  throughRevision : Int
  stateJson : String
  mutationChainSha256 : String
  parentSnapshotId : Option String
  deriving DecidableEq

namespace CanonicalMemorySnapshot

variable (F) in
def create (env : MutationEnv) (streamId : String) (throughRevision : Int) (state : MemoryState)
    (mutationIds : List String) (parentSnapshotId : Option String) : CanonicalMemorySnapshot :=
  let stateJson := Json.canonical (.arr (state.sorted.map MaterializedMemory.row) : Json F)
  let chainSha256 := digest env (.arr (mutationIds.map .str) : Json F)
  let payload : Json F := .obj [("stream_id", .str streamId),
    ("through_revision", .int throughRevision), ("state_json", .str stateJson),
    ("mutation_chain_sha256", .str chainSha256),
    ("parent_snapshot_id", textOrNull parentSnapshotId)]
  { snapshotId := digest env payload
    streamId := streamId
    throughRevision := throughRevision
    stateJson := stateJson
    mutationChainSha256 := chainSha256
    parentSnapshotId := parentSnapshotId }

/-- `state[(item.entity_id, item.predicate)] = item`. -/
def put (state : MemoryState) (item : MaterializedMemory) : MemoryState :=
  state.insert item.key item

variable (F) in
def materialize (snapshot : CanonicalMemorySnapshot) : Except PyExc MemoryState :=
  match (Json.loads snapshot.stateJson : Option (Json F)) with
  | none => .error (valueError "snapshot state is invalid JSON")
  | some (.arr rows) => rows.foldlM (fun state row => do
      let item ← readRow row
      return put state item) ∅
  | some _ => .error (typeError "snapshot state must be a list")

end CanonicalMemorySnapshot

/-! ## The ledger -/

structure PostCondition where
  name : String
  passed : Bool
  detail : String
  deriving DecidableEq

inductive CommitOutcome where
  | committed
  | alreadyCommitted
  | conflict
  | rejected
  deriving DecidableEq

structure MemoryCommitReport where
  mutationId : String
  revision : Int
  outcome : CommitOutcome
  checks : List PostCondition
  deriving DecidableEq

structure MutationLedger (F : Type) [Json.PyFloat F] where
  streamId : String
  schemas : List MemoryFieldSchema
  snapshot : Option CanonicalMemorySnapshot
  state : MemoryState
  revision : Int
  mutations : List (MemoryMutation F)
  mutationIds : Finset String

namespace MutationLedger

variable (env : MutationEnv)

/-- `__init__`. -/
def init (streamId : String) (schemas : List MemoryFieldSchema)
    (snapshot : Option CanonicalMemorySnapshot) : Except PyExc (MutationLedger F) := do
  requireText "stream id" streamId
  raiseIf (¬ (schemas.map (·.key)).Nodup) (valueError "memory schemas must be unique")
  match snapshot with
  | none =>
    return { streamId, schemas, snapshot := none, state := ∅, revision := 0, mutations := [],
             mutationIds := ∅ }
  | some snapshot => do
    raiseIf (snapshot.streamId ≠ streamId) (valueError "snapshot belongs to another stream")
    let state ← snapshot.materialize F
    return { streamId, schemas, snapshot := some snapshot, state,
             revision := snapshot.throughRevision, mutations := [], mutationIds := ∅ }

/-- `self._schemas.get(...)`. -/
def schemaFor (schemas : List MemoryFieldSchema) (m : MutationFields) : Option MemoryFieldSchema :=
  schemas.find? fun schema => schema.key = m.schemaKey

/-- The value an entry has after the mutation: its own, or the one it finds. -/
def storedValue (state : MemoryState) (m : MutationFields) : Option String :=
  match m.valueJson with
  | some text => some text
  | none => (state.lookup m.key).bind (·.valueJson)

/-- The entry a mutation leaves behind. -/
def entryOf (state : MemoryState) (schema : MemoryFieldSchema) (m : MutationFields) :
    MaterializedMemory where
  entityId := m.entityId
  predicate := m.predicate
  status := m.operation.status
  valueJson := storedValue state m
  authority := m.authority
  mutationId := m.mutationId
  sourceEventRevisions := m.sourceEventRevisions
  retentionClass := schema.retentionClass

/-- The check of an asserted value; no other operation checks one. -/
def checkValue (schema : MemoryFieldSchema) (m : MemoryMutation F) : Except PyExc Unit :=
  if m.operation = .assert then
    match (Json.loads (m.valueJson.getD "null") : Option (Json F)) with
    | some value => schema.validate env value
    | none => .error (valueError "invalid JSON")
  else .ok ()

/-- The part of `append` that changes the ledger. -/
def commit (ledger : MutationLedger F) (schema : MemoryFieldSchema) (m : MemoryMutation F) :
    MemoryCommitReport × MutationLedger F :=
  let state := ledger.state.insert m.key (entryOf ledger.state schema m.toMutationFields)
  ({ mutationId := m.mutationId
     revision := m.revision
     outcome := .committed
     checks := [⟨"base_revision_matches", true, ""⟩, ⟨"schema_resolved", true, ""⟩,
       ⟨"schema_value_valid", true, ""⟩, ⟨"authority_within_schema_limit", true, ""⟩,
       ⟨"canonical_state_matches",
         (state.lookup m.key).map (·.mutationId) = some m.mutationId, ""⟩] },
    { ledger with
      state := state
      revision := m.revision
      mutations := ledger.mutations ++ [m]
      mutationIds := insert m.mutationId ledger.mutationIds })

def report (ledger : MutationLedger F) (m : MemoryMutation F) (outcome : CommitOutcome)
    (checks : List PostCondition) : MemoryCommitReport :=
  ⟨m.mutationId, ledger.revision, outcome, checks⟩

/-- The rest of `append`, for a mutation of this stream and revision. -/
def appendHere (ledger : MutationLedger F) (m : MemoryMutation F) :
    Except PyExc MemoryCommitReport × MutationLedger F :=
  match schemaFor ledger.schemas m.toMutationFields with
  | none => (.ok (ledger.report m .rejected [⟨"schema_resolved", false, ""⟩]), ledger)
  | some schema =>
    if schema.maxAuthority.rank < m.authority.rank then
      (.ok (ledger.report m .rejected [⟨"schema_resolved", true, ""⟩,
        ⟨"authority_within_schema_limit", false,
          "maximum authority is " ++ schema.maxAuthority.text⟩]), ledger)
    else
      match checkValue env schema m with
      | .error exc =>
        if exc.type = "TypeError" then
          (.ok (ledger.report m .rejected [⟨"schema_resolved", true, ""⟩,
            ⟨"schema_value_valid", false, exc.message⟩]), ledger)
        else (.error exc, ledger)
      | .ok () => ((.ok (ledger.commit schema m).1), (ledger.commit schema m).2)

/-- `append`. -/
def append (ledger : MutationLedger F) (m : MemoryMutation F) :
    Except PyExc MemoryCommitReport × MutationLedger F :=
  if m.mutationId ∈ ledger.mutationIds then
    (.ok (ledger.report m .alreadyCommitted [⟨"idempotent_replay", true, ""⟩]), ledger)
  else if m.streamId ≠ ledger.streamId then
    (.error (valueError "mutation belongs to another stream"), ledger)
  else if m.baseRevision ≠ ledger.revision then
    (.ok (ledger.report m .conflict [⟨"base_revision_matches", false,
      "expected " ++ toString ledger.revision ++ ", got " ++ toString m.baseRevision⟩]), ledger)
  else appendHere env ledger m

/-- `compact`. -/
def compact (ledger : MutationLedger F) :
    Except PyExc CanonicalMemorySnapshot × MutationLedger F :=
  let snapshot := CanonicalMemorySnapshot.create F env ledger.streamId ledger.revision ledger.state
    (ledger.mutations.map (·.mutationId)) (ledger.snapshot.map (·.snapshotId))
  match snapshot.materialize F with
  | .error exc => (.error exc, ledger)
  | .ok state =>
    if state ≠ ledger.state then
      (.error (valueError "snapshot failed canonical round-trip"), ledger)
    else
      (.ok snapshot,
        { ledger with snapshot := some snapshot, mutations := [], mutationIds := ∅ })

end MutationLedger

end MemoryCore
