import MiniCodeAgent.Formation
import MiniCodeAgent.MemoryStore
import MiniCodeAgent.Rendering
import MiniCodeAgent.Security

/-!
# SillyTavern chats

`memory_core/adapters/sillytavern.py`: a saved chat, as JSON, as JSON lines or as
records that are parsed already, becomes conversation events, checkpoints for the
summaries the host keeps, and candidates for the variables it holds.

A message is known by the id the host gave it, and by its place where there is
none or it has been given before.
-/

namespace MemoryCore

open MiniCodeAgent

variable {F : Type} [Json.PyFloat F]

/-! ## Scopes -/

/-- `_require_text`. -/
def requireNotBlank (name value : String) : Except PyExc Unit :=
  raiseIf (pyStrip value = "") (valueError (name ++ " must not be blank"))

structure ScopeAddress where
  level : String
  namespaceName : String
  key : String
  deriving DecidableEq

/-- `ScopeAddress(level, namespace, key)`, with the checks of `__post_init__`. -/
def ScopeAddress.create (level namespaceName key : String) : Except PyExc ScopeAddress := do
  requireNotBlank "scope level" level
  requireNotBlank "scope namespace" namespaceName
  requireNotBlank "scope key" key
  return ⟨level, namespaceName, key⟩

/-! ## Events and checkpoints -/

/-- What an import takes from outside. -/
structure ImportEnv (F : Type) where
  digests : Digests
  /-- `str` of a container. -/
  repr : Json F → String
  containsSecret : String → Bool

variable (env : ImportEnv F)

/-- `hashlib.sha256(text.encode("utf-8")).hexdigest()`. -/
def sha256Text (digests : Digests) (text : String) : String := digests.sha256 text.toUTF8

/-- The digest an event is known by. -/
def eventIdOf (F : Type) [Json.PyFloat F] (digests : Digests) (hostId sourceRef : String) : String :=
  digestJson digests (.obj [("host_id", .str hostId), ("source_ref", .str sourceRef)] : Json F)

/-- `ConversationEvent.create`, with a raw source. -/
def createEvent (hostId conversationId sourceRef : String) (sequence : Nat)
    (role content participantId createdAt : String) (metadata : Dict (Json F)) (rawSource : Json F) :
    Except PyExc (ConversationEvent F) :=
  ConversationEvent.ofFields env.repr [
    ("event_id", .str (eventIdOf F env.digests hostId sourceRef)),
    ("host_id", .str hostId), ("conversation_id", .str conversationId),
    ("source_ref", .str sourceRef), ("source_sha256", .str (digestJson env.digests rawSource)),
    ("sequence", .int sequence), ("role", .str role), ("content", .str content),
    ("participant_id", .str participantId), ("created_at", .str createdAt),
    ("metadata_json", .str (Json.canonical (.obj metadata)))]

def jsonOptText : Option String → Json F
  | some text => .str text
  | none => .null

/-- `MemoryCheckpoint.create`. -/
def MemoryCheckpoint.create (digests : Digests) (summary : String)
    (events : List (ConversationEvent F)) (parentCheckpointId : Option String)
    (producer createdAt : String) : Except PyExc MemoryCheckpoint :=
  match events with
  | [] => .error (valueError "checkpoint requires source events")
  | first :: _ => do
    raiseIf ((events.map (·.conversationId)).toFinset.card ≠ 1)
      (valueError "checkpoint events must belong to one conversation")
    let revisions := events.map fun item => (item.eventId, item.sourceSha256)
    let payload : Json F := .obj [("conversation_id", .str first.conversationId),
      ("summary", .str (pyStrip summary)),
      ("source_event_revisions", .arr (revisions.map fun r => .arr [.str r.1, .str r.2])),
      ("parent_checkpoint_id", jsonOptText parentCheckpointId), ("producer", .str producer),
      ("created_at", .str createdAt)]
    let fields : CheckpointFields := {
      checkpointId := digestJson digests payload
      conversationId := first.conversationId
      summary := pyStrip summary
      sourceEventRevisions := revisions
      parentCheckpointId := parentCheckpointId
      producer := producer
      createdAt := createdAt }
    match checked : fields.postInit with
    | .ok () => .ok ⟨fields, checked⟩
    | .error exc => .error exc

/-! ## State -/

structure StateCandidate where
  sourceRef : String
  sourceSha256 : String
  scope : String
  jsonPointer : String
  valueJson : String
  origin : String
  authority : String
  deriving DecidableEq

/-- `str(key).replace("~", "~0").replace("/", "~1")`. -/
def pointerToken (key : String) : String := pyReplace (pyReplace key "~" "~0") "/" "~1"

mutual

/-- The recursion of `_state_leaves` and `_data_leaves`, which differ in what they raise
where the value nests too deeply. -/
def leavesOf (excess : PyExc) (maxDepth : Int) :
    Json F → String → Int → Except PyExc (List (String × Json F))
  | .obj kvs, pointer, depth =>
    if depth > maxDepth then .error excess else memberLeaves excess maxDepth kvs pointer depth
  | .arr xs, pointer, depth =>
    if depth > maxDepth then .error excess else itemLeaves excess maxDepth xs 0 pointer depth
  | value, pointer, depth =>
    if depth > maxDepth then .error excess
    else .ok [(if pointer = "" then "/" else pointer, value)]
termination_by structural x => x

def memberLeaves (excess : PyExc) (maxDepth : Int) :
    List (String × Json F) → String → Int → Except PyExc (List (String × Json F))
  | [], _, _ => .ok []
  | kv :: kvs, pointer, depth => do
    let first ← childLeaves excess maxDepth kv pointer depth
    let rest ← memberLeaves excess maxDepth kvs pointer depth
    return first ++ rest
termination_by structural x => x

def childLeaves (excess : PyExc) (maxDepth : Int) :
    String × Json F → String → Int → Except PyExc (List (String × Json F))
  | (key, child), pointer, depth =>
    leavesOf excess maxDepth child (pointer ++ "/" ++ pointerToken key) (depth + 1)
termination_by structural x => x

def itemLeaves (excess : PyExc) (maxDepth : Int) :
    List (Json F) → Nat → String → Int → Except PyExc (List (String × Json F))
  | [], _, _, _ => .ok []
  | child :: xs, index, pointer, depth => do
    let first ← leavesOf excess maxDepth child
      (pointer ++ "/" ++ String.ofList (Json.dumpInt index)) (depth + 1)
    let rest ← itemLeaves excess maxDepth xs (index + 1) pointer depth
    return first ++ rest
termination_by structural x => x

end

/-- The loop of every reader of leaves: up to a limit, a leaf that looks like a secret is
counted, and every other becomes a candidate. -/
def takeLeaves {C : Type} (excess : PyExc) (maxCandidates : Int) (candidate : String → String → C)
    (target : List C) (leaves : List (String × Json F)) : Except PyExc (List C × Nat) :=
  leaves.foldlM (fun progress leaf =>
    if (progress.1.length : Int) ≥ maxCandidates then .error excess
    else if env.containsSecret (leaf.1 ++ "=" ++ Json.canonical leaf.2) then
      .ok (progress.1, progress.2 + 1)
    else .ok (progress.1 ++ [candidate leaf.1 (Json.canonical leaf.2)], progress.2)) (target, 0)

/-- `_state_leaves`. -/
def stateLeaves (maxDepth : Int) (value : Json F) : Except PyExc (List (String × Json F)) :=
  leavesOf (valueError "SillyTavern state exceeds the nesting limit") maxDepth value "" 0

/-- `_append_state_candidates`, which returns the longer list beside the count. -/
def appendStateCandidates (target : List StateCandidate) (value : Dict (Json F))
    (sourceRef sourceSha256 scope : String) (maxCandidates maxDepth : Int) :
    Except PyExc (List StateCandidate × Nat) := do
  let leaves ← stateLeaves maxDepth (.obj value)
  takeLeaves env (valueError "SillyTavern state exceeds the candidate limit") maxCandidates
    (fun pointer valueJson => ⟨sourceRef, sourceSha256, scope, pointer, valueJson,
      "tavern_helper_variables", "none"⟩) target leaves

/-! ## Records -/

/-- What a caller may pass as `records`. -/
inductive ChatInput (F : Type) where
  | text (text : String)
  | mapping (value : Dict (Json F))
  | records (values : List (Json F))

def objectRecords (values : List (Json F)) : Except PyExc (List (Dict (Json F))) :=
  values.zipIdx.mapM fun value =>
    match value.1 with
    | .obj record => .ok record
    | _ => .error (typeError ("SillyTavern record " ++ String.ofList (Json.dumpInt value.2) ++
        " is not an object"))

def recordsFromMapping (value : Dict (Json F)) : Except PyExc (List (Dict (Json F))) :=
  match ["messages", "chat"].findSome? fun key =>
    match value.get? key with
    | some (.arr candidate) => some candidate
    | _ => none with
  | some candidate => do
    let records ← objectRecords candidate
    match value.get? "chat_metadata" with
    | some (.obj metadata) => return [("chat_metadata", .obj metadata)] :: records
    | _ => return records
  | none => .ok [value]

/-- One line of the file, which may be blank. -/
def parseLine (line : String × Nat) : Except PyExc (List (Dict (Json F))) :=
  if pyStrip line.1 = "" then .ok []
  else
    let lineNumber := String.ofList (Json.dumpInt (line.2 + 1 : Nat))
    match Json.loads line.1 with
    | none => .error (valueError ("invalid SillyTavern JSONL at line " ++ lineNumber))
    | some (.obj value) => .ok [value]
    | some _ => .error (typeError ("SillyTavern JSONL line " ++ lineNumber ++ " is not an object"))

/-- `_parse_records`. -/
def parseRecords (records : ChatInput F) (maxInputBytes : Int) :
    Except PyExc (List (Dict (Json F)) × String) :=
  match records with
  | .text text =>
    if (text.utf8ByteSize : Int) > maxInputBytes then
      .error (valueError "SillyTavern chat exceeds the input byte limit")
    else if pyStrip text = "" then .ok ([], "empty")
    else
      match Json.loads (pyStrip text) with
      | some (.arr values) => do
        let parsed ← objectRecords values
        return (parsed, "json-array")
      | some (.obj value) => do
        let parsed ← recordsFromMapping value
        return (parsed, "json-object")
      | _ => do
        let parsed ← (splitlines text).zipIdx.mapM parseLine
        return (parsed.flatten, "jsonl")
  | .mapping value => do
    let parsed ← recordsFromMapping value
    return (parsed, "mapping")
  | .records values => do
    let parsed ← objectRecords values
    return (parsed, "records")

/-! ## Messages -/

section Message

variable (repr : Json F → String) (digests : Digests)

/-- `str(record.get(key, default))`. -/
def fieldText (record : Dict (Json F)) (key : String) (default : Json F) : String :=
  pyStr repr ((record.get? key).getD default)

/-- `bool(record.get(key, False))`. -/
def fieldTruth (record : Dict (Json F)) (key : String) : Bool :=
  ((record.get? key).getD (.bool false)).truthy

/-- `extra`, if it is an object. -/
def extraOf (record : Dict (Json F)) : Dict (Json F) :=
  match record.get? "extra" with
  | some (.obj extra) => extra
  | _ => []

/-- `_role_for`. -/
def roleFor (record extra : Dict (Json F)) : String :=
  if fieldTruth record "is_user" then "user"
  else if MemoryStore.pyLower (fieldText repr extra "type" (.str "")) = "narrator" then "narrator"
  else if fieldTruth record "is_system" then "system"
  else "assistant"

/-- An id of the host's own. -/
def hostIdentity (candidate : Option (Json F)) : Option String :=
  match candidate with
  | some (.str text) => if pyStrip text = "" then none else some text
  | some (.int i) => some (pyStr repr (.int i))
  | some (.bool b) => some (pyStr repr (.bool b))
  | _ => none

def positionalRef (conversationId : String) (index : Nat) : String :=
  "chat:" ++ conversationId ++ ":message:" ++ String.ofList (Json.dumpInt index)

/-- `_source_ref`. -/
def sourceRefOf (record extra : Dict (Json F)) (conversationId : String) (index : Nat) : String :=
  match [extra.get? "message_id", record.get? "message_id", record.get? "id"].findSome?
    (hostIdentity repr) with
  | some identity => "chat:" ++ conversationId ++ ":host-message:" ++
      String.ofList ((sha256Text digests identity).toList.take 24)
  | none => positionalRef conversationId index

/-- `_active_message_variables`. -/
def activeMessageVariables (record : Dict (Json F)) : Option (Dict (Json F)) :=
  match record.get? "variables" with
  | some (.obj values) => some values
  | some (.arr values) =>
    let index : Nat := match (record.get? "swipe_id").getD (.int 0) with
      | .int i => i.toNat
      | .bool b => if b then 1 else 0
      | _ => 0
    match values[index]? with
    | some (.obj active) => some active
    | _ => none
  | _ => none

/-- The digests of the swipes that are texts. -/
def swipeDigests (record : Dict (Json F)) : List String :=
  match record.get? "swipes" with
  | some (.arr swipes) => swipes.filterMap fun item =>
      match item with
      | .str text => some (sha256Text digests text)
      | _ => none
  | _ => []

def messageMetadata (record extra : Dict (Json F)) : Dict (Json F) :=
  [("is_system", .bool (fieldTruth record "is_system")),
    ("is_user", .bool (fieldTruth record "is_user")),
    ("swipe_id", (record.get? "swipe_id").getD .null),
    ("swipe_count", .int (swipeDigests digests record).length),
    ("swipe_sha256", .arr ((swipeDigests digests record).map .str)),
    ("type", (extra.get? "type").getD .null)]

end Message

/-! ## The import -/

structure ImportLimits where
  maxInputBytes : Int
  maxMessages : Int
  maxMessageChars : Int
  maxStateCandidates : Int
  maxStateDepth : Int

structure SillyTavernImport (F : Type) where
  conversationId : String
  metadataJson : String
  events : List (ConversationEvent F)
  checkpoints : List MemoryCheckpoint
  scopes : List ScopeAddress
  sourceFormat : String
  warnings : List String
  stateCandidates : List StateCandidate
  secretValuesSkipped : Nat

/-- The variables of the loop over the messages. -/
structure ImportProgress (F : Type) where
  events : List (ConversationEvent F)
  checkpoints : List MemoryCheckpoint
  ledger : CheckpointLedger
  checkpointStart : Nat
  warnings : List String
  sourceRefs : List String
  stateCandidates : List StateCandidate
  secretValuesSkipped : Nat

/-- The header, if the first record is one, and the messages. -/
def splitHeader (parsed : List (Dict (Json F))) : Dict (Json F) × List (Dict (Json F)) :=
  match parsed with
  | header :: messages =>
    if (header.get? "chat_metadata").isSome ∧ (header.get? "mes").isNone then
      match header.get? "chat_metadata" with
      | some (.obj metadata) => (metadata, messages)
      | _ => ([], messages)
    else ([], parsed)
  | [] => ([], [])

/-- `str(record.get("mes", ""))` of a message whose text is one. -/
def checkMessage (limits : ImportLimits) (record : Dict (Json F)) (index : Nat) :
    Except PyExc String :=
  let place := "SillyTavern message " ++ String.ofList (Json.dumpInt index)
  match (record.get? "mes").getD (.str "") with
  | .str mes => do
    raiseIf ((mes.length : Int) > limits.maxMessageChars)
      (valueError (place ++ " exceeds the character limit"))
    return mes
  | _ => .error (typeError (place ++ " has non-text mes"))

/-- The variables of a message, if it has any. -/
def addVariables (limits : ImportLimits) (record : Dict (Json F)) (event : ConversationEvent F)
    (progress : ImportProgress F) : Except PyExc (ImportProgress F) :=
  match activeMessageVariables record with
  | none => .ok progress
  | some values => do
    let (candidates, skipped) ← appendStateCandidates env progress.stateCandidates values
      event.sourceRef event.sourceSha256 "message" limits.maxStateCandidates limits.maxStateDepth
    return { progress with
      stateCandidates := candidates
      secretValuesSkipped := progress.secretValuesSkipped + skipped }

/-- A summary in `extra`, of the messages since the last one. -/
def addSummary (extra : Dict (Json F)) (createdAt : String) (progress : ImportProgress F) :
    Except PyExc (ImportProgress F) :=
  match extra.get? "memory" with
  | some (.str summary) =>
    if pyStrip summary = "" then .ok progress
    else do
      let checkpoint ← MemoryCheckpoint.create env.digests summary
        (progress.events.drop progress.checkpointStart)
        (progress.ledger.active.map (·.checkpointId)) "sillytavern:summarize" createdAt
      let ledger ← progress.ledger.append checkpoint
      return { progress with
        ledger := ledger
        checkpoints := progress.checkpoints ++ [checkpoint]
        checkpointStart := progress.events.length }
  | _ => .ok progress

/-- The body of the loop. -/
def importMessage (limits : ImportLimits) (conversationId : String) (progress : ImportProgress F)
    (item : Dict (Json F) × Nat) : Except PyExc (ImportProgress F) := do
  let record := item.1
  let index := item.2
  let mes ← checkMessage limits record index
  let extra := extraOf record
  let hostRef := sourceRefOf env.repr env.digests record extra conversationId index
  let repeated := decide (hostRef ∈ progress.sourceRefs)
  let sourceRef := if repeated then positionalRef conversationId index else hostRef
  let createdAt := fieldText env.repr record "send_date" (.str "")
  let event ← createEvent env "sillytavern" conversationId sourceRef index
    (roleFor env.repr record extra) mes (fieldText env.repr record "name" (.str "")) createdAt
    (messageMetadata env.digests record extra) (.obj record)
  let progress := { progress with
    warnings := if repeated then progress.warnings ++ ["duplicate host message id at index " ++
        String.ofList (Json.dumpInt index) ++ "; used positional identity"] else progress.warnings
    sourceRefs := progress.sourceRefs ++ [sourceRef]
    events := progress.events ++ [event] }
  let progress ← addVariables env limits record event progress
  addSummary env extra createdAt progress

/-- The chat's own variables. -/
def importMetadata (limits : ImportLimits) (conversationId : String) (metadata : Dict (Json F)) :
    Except PyExc (List StateCandidate × Nat) :=
  match metadata.get? "variables" with
  | some (.obj values) =>
    appendStateCandidates env [] values ("chat:" ++ conversationId ++ ":metadata")
      (digestJson env.digests (.obj metadata)) "conversation" limits.maxStateCandidates
      limits.maxStateDepth
  | _ => .ok ([], 0)

/-- `map_sillytavern_scope`. -/
def mapSillytavernScope (scope namespaceName conversationId characterId userId : String) :
    Except PyExc ScopeAddress :=
  match scope with
  | "global" => ScopeAddress.create "global" namespaceName namespaceName
  | "character" => do
    raiseIf (pyStrip characterId = "") (valueError "character scope requires a character id")
    ScopeAddress.create "agent" namespaceName characterId
  | "chat" => ScopeAddress.create "conversation" namespaceName conversationId
  | "user" => do
    raiseIf (pyStrip userId = "") (valueError "user scope requires a user id")
    ScopeAddress.create "user" namespaceName userId
  | other => .error (valueError ("unsupported SillyTavern scope: " ++ other))

/-- The scopes of an import; a user's only if there is one. -/
def importScopes (namespaceName conversationId characterId userId : String) :
    Except PyExc (List ScopeAddress) :=
  (if pyStrip userId = "" then ["global", "character", "chat"]
    else ["global", "user", "character", "chat"]).mapM fun scope =>
      mapSillytavernScope scope namespaceName conversationId characterId userId

def importSillytavernChat (limits : ImportLimits) (records : ChatInput F)
    (conversationId characterId userId namespaceName : String) :
    Except PyExc (SillyTavernImport F) := do
  let (parsed, sourceFormat) ← parseRecords records limits.maxInputBytes
  raiseIf ((parsed.length : Int) > limits.maxMessages + 1)
    (valueError "SillyTavern chat exceeds the message limit")
  let (metadata, messages) := splitHeader parsed
  let (candidates, skipped) ← importMetadata env limits conversationId metadata
  let progress ← messages.zipIdx.foldlM (importMessage env limits conversationId)
    ⟨[], [], .empty, 0, [], [], candidates, skipped⟩
  let scopes ← importScopes namespaceName conversationId characterId userId
  return {
    conversationId := conversationId
    metadataJson := Json.canonical (.obj metadata)
    events := progress.events
    checkpoints := progress.checkpoints
    scopes := scopes
    sourceFormat := sourceFormat
    warnings := if progress.secretValuesSkipped = 0 then progress.warnings
      else progress.warnings ++ ["skipped " ++
        String.ofList (Json.dumpInt progress.secretValuesSkipped) ++
        " suspected secret state value(s)"]
    stateCandidates := progress.stateCandidates
    secretValuesSkipped := progress.secretValuesSkipped }

end MemoryCore
