import MiniCodeAgent.Conversation
import Mathlib.Data.List.Sort
import Mathlib.Data.Finset.Card

/-!
# Formation batches and checkpoints

The rest of `memory_core/conversation.py` that a host plans with: which old events
enter memory formation next, and the graph of summaries with the revisions of the
events they were made from.

A cursor is the id of the last event that was selected, not a place, so a plan has
to find it again in a conversation that may have grown.
-/

namespace MemoryCore

open MiniCodeAgent

variable {F : Type} [Json.PyFloat F]

/-! ## Formation -/

/-- `mode`. -/
inductive FormationMode where
  | blocking
  | background
  | manual
  deriving DecidableEq

structure FormationPolicyFields where
  messageInterval : Int
  characterInterval : Int
  protectRecentMessages : Int
  maxMessagesPerBatch : Int
  mode : FormationMode

/-- `__post_init__`. The mode is an enumeration, which is what its last check asks for. -/
def FormationPolicyFields.postInit (f : FormationPolicyFields) : Except PyExc Unit := do
  raiseIf (f.messageInterval < 0 ∨ f.characterInterval < 0)
    (valueError "formation intervals must not be negative")
  raiseIf (f.messageInterval = 0 ∧ f.characterInterval = 0)
    (valueError "at least one formation interval must be enabled")
  raiseIf (f.protectRecentMessages < 0)
    (valueError "protected message count must not be negative")
  raiseIf (f.maxMessagesPerBatch < 1) (valueError "formation batch size must be positive")

structure FormationPolicy extends FormationPolicyFields where
  checked : toFormationPolicyFields.postInit = .ok ()

/-- `FormationPolicy()`. -/
def FormationPolicy.default : FormationPolicy where
  messageInterval := 10
  characterInterval := 0
  protectRecentMessages := 2
  maxMessagesPerBatch := 250
  mode := .background
  checked := rfl

/-- The `reason` of a plan. -/
inductive FormationReason where
  | noEligibleMessages
  | manualTriggerRequired
  | forced
  | messageAndCharacterThreshold
  | messageThreshold
  | characterThreshold
  | thresholdNotReached
  deriving DecidableEq

structure FormationPlan (F : Type) where
  shouldForm : Bool
  reason : FormationReason
  selected : List (ConversationEvent F)
  /-- `protected`. -/
  held : List (ConversationEvent F)
  pendingMessages : Int
  pendingCharacters : Int

/-- The number that a sequence is. Every event has one, by the check it was made with. -/
def place (event : ConversationEvent F) : Rat := (event.sequence.num?).getD 0

/-- `sorted(events, key=lambda item: item.sequence)`. -/
def orderedEvents (events : List (ConversationEvent F)) : List (ConversationEvent F) :=
  events.insertionSort fun a b => place a ≤ place b

/-- `start`: behind the first event with the id of the cursor. -/
def cursorStart (ordered : List (ConversationEvent F)) (afterEventId : Option String) :
    Except PyExc Nat :=
  match afterEventId with
  | none => .ok 0
  | some cursor =>
    match ordered.findIdx? (fun item => item.eventId = cursor) with
    | some index => .ok (index + 1)
    | none => .error (valueError "formation cursor is not present in the conversation")

/-- `pending`. -/
def pendingEvents (ordered : List (ConversationEvent F)) (start eligibleEnd : Nat) :
    List (ConversationEvent F) :=
  if start < eligibleEnd then (ordered.take eligibleEnd).drop start else []

/-- `plan_formation`. -/
def planFormation (events : List (ConversationEvent F)) (policy : FormationPolicy)
    (afterEventId : Option String) (force : Bool) : Except PyExc (FormationPlan F) := do
  let ordered := orderedEvents events
  raiseIf (ordered ≠ [] ∧ (ordered.map (·.conversationId)).toFinset.card ≠ 1)
    (valueError "formation events must belong to one conversation")
  raiseIf (ordered ≠ [] ∧ (ordered.map (·.eventId)).toFinset.card ≠ ordered.length)
    (valueError "formation events must have unique event ids")
  let start ← cursorStart ordered afterEventId
  let protectedCount := min policy.protectRecentMessages.toNat ordered.length
  let eligibleEnd := ordered.length - protectedCount
  let pending := pendingEvents ordered start eligibleEnd
  let pendingCharacters : Int := (pending.map fun item => (item.content.length : Int)).sum
  let messageDue : Bool :=
    policy.messageInterval ≠ 0 && policy.messageInterval ≤ (pending.length : Int)
  let characterDue : Bool :=
    policy.characterInterval ≠ 0 && policy.characterInterval ≤ pendingCharacters
  let waits : Bool := pending ≠ [] && policy.mode = .manual && !force
  let due := !waits && (force || messageDue || characterDue)
  let reason : FormationReason :=
    if pending = [] then .noEligibleMessages
    else if waits then .manualTriggerRequired
    else if force then .forced
    else if messageDue && characterDue then .messageAndCharacterThreshold
    else if messageDue then .messageThreshold
    else if characterDue then .characterThreshold
    else .thresholdNotReached
  let selected := if due then pending.take policy.maxMessagesPerBatch.toNat else []
  return {
    shouldForm := !selected.isEmpty
    reason := reason
    selected := selected
    held := ordered.drop eligibleEnd
    pendingMessages := pending.length
    pendingCharacters := pendingCharacters }

/-! ## Checkpoints -/

structure CheckpointFields where
  checkpointId : String
  conversationId : String
  summary : String
  sourceEventRevisions : List (String × String)
  parentCheckpointId : Option String
  producer : String
  createdAt : String

/-- `__post_init__`. -/
def CheckpointFields.postInit (f : CheckpointFields) : Except PyExc Unit := do
  raiseIf (pyStrip f.checkpointId = "") (valueError "checkpoint id must not be blank")
  raiseIf (pyStrip f.conversationId = "")
    (valueError "checkpoint conversation id must not be blank")
  raiseIf (pyStrip f.summary = "") (valueError "checkpoint summary must not be blank")
  raiseIf (f.sourceEventRevisions = []) (valueError "checkpoint requires source events")
  raiseIf ((f.sourceEventRevisions.map Prod.fst).toFinset.card ≠ f.sourceEventRevisions.length)
    (valueError "checkpoint source events must be unique")

structure MemoryCheckpoint extends CheckpointFields where
  checked : toCheckpointFields.postInit = .ok ()

structure CheckpointLedger where
  /-- `_checkpoints`. -/
  checkpoints : Dict MemoryCheckpoint
  /-- `_active_id`. -/
  activeId : Option String

namespace CheckpointLedger

/-- `CheckpointLedger()`. -/
def empty : CheckpointLedger := ⟨[], none⟩

def active (ledger : CheckpointLedger) : Option MemoryCheckpoint :=
  ledger.checkpoints.get? (ledger.activeId.getD "")

/-- What `append` checks of a checkpoint it does not have. -/
def admits (ledger : CheckpointLedger) (checkpoint : MemoryCheckpoint) : Except PyExc Unit :=
  match checkpoint.parentCheckpointId with
  | some parentId =>
    match ledger.checkpoints.get? parentId with
    | none => .error (valueError "checkpoint parent is missing")
    | some parent =>
      raiseIf (parent.conversationId ≠ checkpoint.conversationId)
        (valueError "checkpoint parent belongs to another conversation")
  | none =>
    raiseIf (ledger.checkpoints ≠ [] ∧
        checkpoint.conversationId ∈ ledger.checkpoints.map (·.2.conversationId))
      (valueError "a new checkpoint branch requires an explicit parent")

def append (ledger : CheckpointLedger) (checkpoint : MemoryCheckpoint) :
    Except PyExc CheckpointLedger :=
  if (ledger.checkpoints.get? checkpoint.checkpointId).isSome then
    .ok { ledger with activeId := some checkpoint.checkpointId }
  else do
    ledger.admits checkpoint
    return {
      checkpoints := ledger.checkpoints.set checkpoint.checkpointId checkpoint
      activeId := some checkpoint.checkpointId }

def rollback (ledger : CheckpointLedger) (checkpointId : String) :
    Except PyExc (CheckpointLedger × MemoryCheckpoint) :=
  match ledger.checkpoints.get? checkpointId with
  | none => .error (keyError checkpointId)
  | some checkpoint => .ok ({ ledger with activeId := some checkpointId }, checkpoint)

/-- `{item.event_id: item.source_sha256 for item in events}`. -/
def revisionsOf (events : List (ConversationEvent F)) : Dict String :=
  Dict.ofPairs (events.map fun item => (item.eventId, item.sourceSha256))

/-- `_lineage_is_valid`, which calls itself on the parent; `none` when the fuel is out. -/
def lineageIsValid (ledger : CheckpointLedger) (revisions : Dict String) :
    Nat → MemoryCheckpoint → List String → Option Bool
  | 0, _, _ => none
  | fuel + 1, checkpoint, seen =>
    if checkpoint.checkpointId ∈ seen then some false
    else if ∃ entry ∈ checkpoint.sourceEventRevisions, revisions.get? entry.1 ≠ some entry.2 then
      some false
    else
      match checkpoint.parentCheckpointId with
      | none => some true
      | some parentId =>
        match ledger.checkpoints.get? parentId with
        | none => some false
        | some parent =>
          lineageIsValid ledger revisions fuel parent (checkpoint.checkpointId :: seen)

/-- `while checkpoint is not None`; `none` when the fuel is out, of the walk or of a
lineage on it. -/
def latestValidFrom (ledger : CheckpointLedger) (revisions : Dict String) (fuel : Nat) :
    Nat → Option MemoryCheckpoint → Option (Option MemoryCheckpoint)
  | 0, _ => none
  | _ + 1, none => some none
  | steps + 1, some checkpoint =>
    match lineageIsValid ledger revisions fuel checkpoint [] with
    | none => none
    | some true => some (some checkpoint)
    | some false => latestValidFrom ledger revisions fuel steps
        (ledger.checkpoints.get? (checkpoint.parentCheckpointId.getD ""))

/-- `latest_valid`. -/
def latestValid (ledger : CheckpointLedger) (events : List (ConversationEvent F)) (fuel : Nat) :
    Option (Option MemoryCheckpoint) :=
  latestValidFrom ledger (revisionsOf events) fuel fuel ledger.active

end CheckpointLedger

end MemoryCore
