import MiniCodeAgent.Receipt

/-!
# Conversation events

`memory_core/conversation.py`: one message of a host's conversation. An event is
made from keyword arguments, which are checked once it is built. The check leaves
three of them as they are: a participant and a moment may be any value, and a
place any number.
-/

namespace MiniCodeAgent

variable {F : Type}

def conversationRoles : List String := ["user", "assistant", "system", "tool", "narrator"]

structure ConversationEvent (F : Type) where
  eventId : String
  hostId : String
  conversationId : String
  sourceRef : String
  sourceSha256 : String
  sequence : Json F
  role : String
  content : String
  participantId : Json F
  createdAt : Json F
  metadataJson : String

namespace ConversationEvent

def fieldNames : List String :=
  ["event_id", "host_id", "conversation_id", "source_ref", "source_sha256", "sequence", "role",
    "content", "participant_id", "created_at", "metadata_json"]

/-- The fields without a default. -/
def requiredNames : List String := fieldNames.take 8

/-- `_require_text`. -/
def requireText (name : String) (value : Json F) : Except PyExc String :=
  match value with
  | .str text => do
    raiseIf (pyStrip text = "") (valueError (name ++ " must not be blank"))
    return text
  | _ => .error (valueError (name ++ " must not be blank"))

def requireDigest (text : String) : Except PyExc Unit :=
  raiseIf (text.length ≠ 64 ∨ isHex text = false)
    (valueError "source sha256 must be a lowercase SHA-256 digest")

variable [Json.PyFloat F] (repr : Json F → String)

def requirePlace (sequence : Json F) : Except PyExc Unit :=
  match sequence.num? with
  | some place => raiseIf (place < 0) (valueError "event sequence must not be negative")
  | none => .error (typeError "'<' not supported between instances")

/-- `role in CONVERSATION_ROLES`, a set. -/
def requireRole (role : Json F) : Except PyExc String :=
  match role with
  | .str text => do
    raiseIf (text ∉ conversationRoles) (valueError ("unsupported conversation role: " ++ text))
    return text
  | .arr _ => .error (typeError "unhashable type: 'list'")
  | .obj _ => .error (typeError "unhashable type: 'dict'")
  | _ => .error (valueError ("unsupported conversation role: " ++ pyStr repr role))

def requireContent (content : Json F) : Except PyExc String :=
  match content with
  | .str text => .ok text
  | _ => .error (typeError "event content must be text")

def requireMetadata (metadataJson : Json F) : Except PyExc String :=
  let invalid := valueError "event metadata must be valid JSON"
  match metadataJson with
  | .str text =>
    match (Json.loads text : Option (Json F)) with
    | some (.obj _) => .ok text
    | some _ => .error (typeError "event metadata must be a JSON object")
    | none => .error invalid
  | _ => .error invalid

/-- `ConversationEvent(**fields)`, with the checks of `__post_init__`. -/
def ofFields (fields : Dict (Json F)) : Except PyExc (ConversationEvent F) := do
  raiseIf (∃ name ∈ fields.keys, name ∉ fieldNames)
    (typeError "ConversationEvent.__init__() got an unexpected keyword argument")
  raiseIf (∃ name ∈ requiredNames, (fields.get? name).isNone)
    (typeError "ConversationEvent.__init__() missing required positional arguments")
  let value := fun name default => (fields.get? name).getD default
  let eventId ← requireText "event id" (value "event_id" .null)
  let hostId ← requireText "host id" (value "host_id" .null)
  let conversationId ← requireText "conversation id" (value "conversation_id" .null)
  let sourceRef ← requireText "source ref" (value "source_ref" .null)
  let sourceSha256 ← requireText "source sha256" (value "source_sha256" .null)
  requireDigest sourceSha256
  requirePlace (value "sequence" .null)
  let role ← requireRole repr (value "role" .null)
  let content ← requireContent (value "content" .null)
  let metadataJson ← requireMetadata (value "metadata_json" (.str "\x7b\x7d"))
  return {
    eventId := eventId
    hostId := hostId
    conversationId := conversationId
    sourceRef := sourceRef
    sourceSha256 := sourceSha256
    sequence := value "sequence" .null
    role := role
    content := content
    participantId := value "participant_id" (.str "")
    createdAt := value "created_at" (.str "")
    metadataJson := metadataJson }

/-- `asdict(event)`. -/
def asdict (event : ConversationEvent F) : Dict (Json F) :=
  [("event_id", .str event.eventId), ("host_id", .str event.hostId),
    ("conversation_id", .str event.conversationId), ("source_ref", .str event.sourceRef),
    ("source_sha256", .str event.sourceSha256), ("sequence", event.sequence),
    ("role", .str event.role), ("content", .str event.content),
    ("participant_id", event.participantId), ("created_at", event.createdAt),
    ("metadata_json", .str event.metadataJson)]

/-- `==`, field by field. -/
def pyEq (a b : ConversationEvent F) : Bool := (Json.obj a.asdict).pyEq (.obj b.asdict)

variable (digests : Digests)

def sourcePayload (role content : String) (participantId createdAt : Json F)
    (metadata : Json F) : Dict (Json F) :=
  [("role", .str role), ("content", .str content), ("participant_id", participantId),
    ("created_at", createdAt), ("metadata", metadata)]

/-- `json.loads(text)`. -/
def loadsMetadata (text : String) : Except PyExc (Json F) :=
  match Json.loads text with
  | some value => .ok value
  | none => .error ⟨"JSONDecodeError", "invalid JSON", true⟩

/-- `ConversationEvent.create`, without a raw source. No metadata is an empty
dictionary. -/
def create (hostId conversationId sourceRef : String) (sequence : Json F) (role content : String)
    (participantId createdAt : Json F) (metadata : Json F) :
    Except PyExc (ConversationEvent F) := do
  let metadataJson := Json.canonical metadata
  let parsed ← loadsMetadata metadataJson
  let source := sourcePayload role content participantId createdAt parsed
  ofFields repr [
    ("event_id", .str (digestJson digests
      (.obj [("host_id", .str hostId), ("source_ref", .str sourceRef)] : Json F))),
    ("host_id", .str hostId), ("conversation_id", .str conversationId),
    ("source_ref", .str sourceRef), ("source_sha256", .str (digestJson digests (.obj source))),
    ("sequence", sequence), ("role", .str role), ("content", .str content),
    ("participant_id", participantId), ("created_at", createdAt),
    ("metadata_json", .str metadataJson)]

/-- The event made once more from what it holds. -/
def recreate (event : ConversationEvent F) : Except PyExc (ConversationEvent F) := do
  let metadata ← loadsMetadata event.metadataJson
  create repr digests event.hostId event.conversationId event.sourceRef event.sequence event.role
    event.content event.participantId event.createdAt metadata

end ConversationEvent

end MiniCodeAgent
