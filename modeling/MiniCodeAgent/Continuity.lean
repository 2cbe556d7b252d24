import MiniCodeAgent.Builtins
import Mathlib.Data.List.MinMax
import Mathlib.Data.Prod.Lex
import Mathlib.Data.Finset.Sort

/-!
# Long-horizon retention

`memory_core/continuity.py`: which active memories stay when a new one arrives
and the caps are reached, and which of them a new session starts with. The planner
only plans; a host marks what the plan retires as stale and admits the incoming
memory, or does neither.

The utility that orders the candidates is float arithmetic with logarithms. Its
operations enter as `FloatMath`, which may round, overflow and order in any way:
what a plan is allowed to do does not depend on it.
-/

namespace MemoryCore

open MiniCodeAgent

/-- `RETENTION_CLASSES`. -/
inductive RetentionClass where
  | core
  | durable
  | episodic
  | transient
  deriving DecidableEq

/-- `_RETENTION_RANK`. -/
def RetentionClass.rank : RetentionClass → Nat
  | .transient => 0
  | .episodic => 1
  | .durable => 2
  | .core => 3

/-- The class as the source spells it. -/
def RetentionClass.text : RetentionClass → String
  | .transient => "transient"
  | .episodic => "episodic"
  | .durable => "durable"
  | .core => "core"

/-- `AUTHORITIES`. -/
inductive Authority where
  | none
  | inform
  | act
  deriving DecidableEq

/-- The float operations of `_retention_utility`. -/
structure FloatMath (F : Type) where
  lit : Rat → F
  ofInt : Int → Except PyExc F
  /-- `a / b` on integers. -/
  divInt : Int → Int → Except PyExc F
  add : F → F → F
  mul : F → F → F
  div : F → F → F
  min : F → F → F
  log1p : F → F
  log : F → F
  lt : F → F → Bool

variable {F : Type} [Json.PyFloat F]

/-- The fields of a `ContinuityMemory`. The class and the authority are
enumerations, which is what two of its checks ask for. -/
structure ContinuityFields (F : Type) where
  recordId : String
  text : String
  retentionClass : RetentionClass
  recordedAtNs : Int
  lastUsedAtNs : Int
  useCount : Int
  importance : F
  confidence : F
  identityAnchor : String
  pinned : Bool
  sourceValid : Bool
  status : String
  authority : Authority
  evidenceRefs : List String

/-- `0 <= value <= 1`. -/
def inUnit (value : F) : Prop := 0 ≤ Json.PyFloat.val value ∧ Json.PyFloat.val value ≤ 1

instance (value : F) : Decidable (inUnit value) := inferInstanceAs (Decidable (_ ∧ _))

/-- `__post_init__`. -/
def ContinuityFields.postInit (f : ContinuityFields F) : Except PyExc Unit := do
  raiseIf (pyStrip f.recordId = "") (valueError "continuity record id must not be blank")
  raiseIf (pyStrip f.text = "") (valueError "continuity memory text must not be blank")
  raiseIf (f.recordedAtNs < 0 ∨ f.lastUsedAtNs < 0 ∨ f.useCount < 0)
    (valueError "continuity timestamps and use count must not be negative")
  raiseIf (¬ inUnit f.importance ∨ ¬ inUnit f.confidence)
    (valueError "continuity importance and confidence must be in [0, 1]")

structure ContinuityMemory (F : Type) [Json.PyFloat F] extends ContinuityFields F where
  checked : toContinuityFields.postInit = .ok ()

namespace ContinuityMemory

def chars (item : ContinuityMemory F) : Int := item.text.length

/-- `replace(item, status=status)`; the status is not one of the checked fields. -/
def withStatus (item : ContinuityMemory F) (status : String) : ContinuityMemory F :=
  ⟨{ item.toContinuityFields with status := status }, item.checked⟩

@[simp] theorem withStatus_status (item : ContinuityMemory F) (status : String) :
    (item.withStatus status).status = status := rfl

end ContinuityMemory

structure RetentionPolicyFields where
  maxActiveRecords : Int
  maxActiveChars : Int
  preserveAnchorCoverage : Bool
  protectCore : Bool
  protectDurable : Bool
  protectPinned : Bool
  checkpointBatchRecords : Int

/-- `__post_init__`. -/
def RetentionPolicyFields.postInit (f : RetentionPolicyFields) : Except PyExc Unit := do
  raiseIf (f.maxActiveRecords < 1 ∨ f.maxActiveChars < 1)
    (valueError "long-term retention capacities must be positive")
  raiseIf (f.checkpointBatchRecords < 2)
    (valueError "checkpoint batch must contain at least two records")

structure LongTermRetentionPolicy extends RetentionPolicyFields where
  checked : toRetentionPolicyFields.postInit = .ok ()

/-- `LongTermRetentionPolicy()`. -/
def LongTermRetentionPolicy.default : LongTermRetentionPolicy where
  maxActiveRecords := 2000
  maxActiveChars := 2000000
  preserveAnchorCoverage := true
  protectCore := true
  protectDurable := true
  protectPinned := true
  checkpointBatchRecords := 8
  checked := rfl

/-- The `reason` of a decision. -/
inductive RetentionReason where
  | incomingSourceInvalid
  | incomingNotActive
  | incomingExceedsCapacity
  | protectedCapacityExhausted
  | checkpointCompactionRequired
  | fits
  | retireInvalidOrLowerContinuityUtility
  deriving DecidableEq

structure RetentionDecision where
  /-- `admit`. -/
  admitted : Bool
  reason : RetentionReason
  retireRecordIds : List String
  compactRecordIds : List String
  protectedRecordIds : List String
  projectedRecords : Int
  projectedChars : Int
  deriving DecidableEq

/-! ## What is protected -/

/-- `by_anchor.setdefault(key, []).append(item)` for each item. -/
def groupBy {α : Type} (key : α → String) (items : List α) : Dict (List α) :=
  items.foldl (fun groups item =>
    groups.set (key item) ((groups.get? (key item)).getD [] ++ [item])) []

/-- The tuples that survivors are compared by, which Python orders by their first difference. -/
def SurvivorKey : Type := ℕ ×ₗ ℚ ×ₗ ℚ ×ₗ ℤ ×ₗ ℤ ×ₗ String

instance survivorKeyOrder : LinearOrder SurvivorKey :=
  inferInstanceAs (LinearOrder (ℕ ×ₗ ℚ ×ₗ ℚ ×ₗ ℤ ×ₗ ℤ ×ₗ String))

/-- The key that chooses the survivor of an anchor. -/
def survivorKey (item : ContinuityMemory F) : SurvivorKey :=
  toLex (item.retentionClass.rank, toLex (Json.PyFloat.val item.importance,
    toLex (Json.PyFloat.val item.confidence, toLex (item.lastUsedAtNs,
      toLex (item.recordedAtNs, item.recordId)))))

/-- The condition of the first set in `_protected_ids`. -/
def protectedByClass (policy : LongTermRetentionPolicy) (item : ContinuityMemory F) : Bool :=
  item.sourceValid &&
    ((policy.protectCore && item.retentionClass = .core) ||
      (policy.protectDurable && item.retentionClass = .durable) ||
      (policy.protectPinned && item.pinned))

/-- A record that keeps its anchor covered. -/
def anchors (item : ContinuityMemory F) : Bool :=
  item.sourceValid && pyStrip item.identityAnchor ≠ "" &&
    (item.retentionClass = .core || item.retentionClass = .durable)

def addSurvivor (kept : Finset String) (anchored : List (ContinuityMemory F)) : Finset String :=
  if ∃ item ∈ anchored, item.recordId ∈ kept then kept
  else
    match anchored.argmax survivorKey with
    | some survivor => insert survivor.recordId kept
    | none => kept

/-- `_protected_ids`. -/
def protectedIds (records : List (ContinuityMemory F)) (policy : LongTermRetentionPolicy) :
    Finset String :=
  let kept := ((records.filter (protectedByClass policy)).map (·.recordId)).toFinset
  if policy.preserveAnchorCoverage = false then kept
  else
    let byAnchor := groupBy (·.identityAnchor) (records.filter anchors)
    byAnchor.foldl (fun kept group => addSurvivor kept group.2) kept

/-! ## The plan -/

/-- `_retention_utility`. -/
def retentionUtility (m : FloatMath F) (item : ContinuityMemory F) (nowNs : Int) :
    Except PyExc F :=
  if item.sourceValid = false then .ok (m.lit (-10))
  else do
    let ageNs := max 0 (nowNs - max item.lastUsedAtNs item.recordedAtNs)
    let ageDays ← m.divInt ageNs 86400000000000
    let recency := m.div (m.lit 1) (m.add (m.lit 1) (m.log1p ageDays))
    let uses ← m.ofInt item.useCount
    let usage := m.min (m.div (m.log1p uses) (m.log (m.lit 101))) (m.lit 1)
    let rank := m.lit (item.retentionClass.rank * 2)
    return m.add (m.add (m.add (m.add rank (m.mul item.importance (m.lit (3 / 2))))
      item.confidence) usage) (m.mul recency (m.lit (1 / 2)))

/-- `key=(_retention_utility(item, now_ns), item.record_id)`, as `sorted` reads
it: `a` stays before `b` unless `b` is less. -/
def notAfter (m : FloatMath F) (a b : F × ContinuityMemory F) : Prop :=
  ¬ (m.lt b.1 a.1 = true ∨ (m.lt a.1 b.1 = false ∧ b.2.recordId < a.2.recordId))

instance (m : FloatMath F) : DecidableRel (notAfter m) := fun _ _ => instDecidableNot

def sumChars (items : List (ContinuityMemory F)) : Int := (items.map (·.chars)).sum

/-- What the retirement loop keeps count of. -/
structure Tally where
  retainedIds : Finset String
  retainedChars : Int
  retirements : List String
  compactions : List String

variable (policy : LongTermRetentionPolicy) (incoming : ContinuityMemory F)

/-- The incoming record fits beside what is retained. -/
def Tally.fits (t : Tally) : Prop :=
  (t.retainedIds.card : Int) + 1 ≤ policy.maxActiveRecords ∧
    t.retainedChars + incoming.chars ≤ policy.maxActiveChars

instance (t : Tally) : Decidable (t.fits policy incoming) := inferInstanceAs (Decidable (_ ∧ _))

/-- A candidate leaves: a valid episodic one waits for a checkpoint, any other
one is retired. -/
def Tally.drop (t : Tally) (candidate : ContinuityMemory F) : Tally :=
  let left := { t with
    retainedIds := t.retainedIds.erase candidate.recordId
    retainedChars := t.retainedChars - candidate.chars }
  if candidate.retentionClass = .episodic ∧ candidate.sourceValid = true then
    { left with compactions := t.compactions ++ [candidate.recordId] }
  else { left with retirements := t.retirements ++ [candidate.recordId] }

/-- `for candidate in candidates`, until the incoming record fits. -/
def retireUntilFits : List (ContinuityMemory F) → Tally → Tally
  | [], t => t
  | candidate :: candidates, t =>
    if t.fits policy incoming then t else retireUntilFits candidates (t.drop candidate)

/-- The second loop: more episodic candidates, until a checkpoint has enough. -/
def fillCheckpoint (minimum : Nat) : List (ContinuityMemory F) → List String → List String
  | [], compactions => compactions
  | candidate :: candidates, compactions =>
    if candidate.retentionClass = .episodic ∧ candidate.sourceValid = true ∧
        candidate.recordId ∉ compactions then
      if minimum ≤ (compactions ++ [candidate.recordId]).length then
        compactions ++ [candidate.recordId]
      else fillCheckpoint minimum candidates (compactions ++ [candidate.recordId])
    else fillCheckpoint minimum candidates compactions

/-- `sorted(ids)`. -/
def sortedIds (ids : Finset String) : List String := ids.sort (· ≤ ·)

def activeOf (records : List (ContinuityMemory F)) : List (ContinuityMemory F) :=
  records.filter fun item => item.status = "active"

def idsOf (records : List (ContinuityMemory F)) : Finset String :=
  (records.map (·.recordId)).toFinset

/-- A decision that leaves the active records as they are. -/
def refuse (active : List (ContinuityMemory F)) (reason : RetentionReason)
    (compactIds protectedIds : List String) : RetentionDecision where
  admitted := false
  reason := reason
  retireRecordIds := []
  compactRecordIds := compactIds
  protectedRecordIds := protectedIds
  projectedRecords := active.length
  projectedChars := sumChars active

/-- The state before the retirement loop: records without a valid source go first. -/
def startTally (active : List (ContinuityMemory F)) : Tally :=
  let invalidIds := idsOf (active.filter fun item => item.sourceValid = false)
  let retainedIds := idsOf active \ invalidIds
  { retainedIds := retainedIds
    retainedChars := sumChars (active.filter fun item => item.recordId ∈ retainedIds)
    retirements := sortedIds invalidIds
    compactions := [] }

/-- The candidates in the order they leave. -/
def planCandidates (m : FloatMath F) (active : List (ContinuityMemory F)) (nowNs : Int) :
    Except PyExc (List (ContinuityMemory F)) := do
  let kept := protectedIds active policy
  let candidates := active.filter fun item =>
    item.recordId ∉ kept ∧ item.recordId ∈ (startTally active).retainedIds
  let keyed ← candidates.mapM fun item => do
    let utility ← retentionUtility m item nowNs
    return (utility, item)
  return (keyed.insertionSort (notAfter m)).map Prod.snd

/-- The end of the plan, once the candidates are known. -/
def decideRetention (active candidates : List (ContinuityMemory F)) : RetentionDecision :=
  let protectedRecordIds := sortedIds (protectedIds active policy)
  let t := retireUntilFits policy incoming candidates (startTally active)
  if ¬ t.fits policy incoming then
    refuse active .protectedCapacityExhausted [] protectedRecordIds
  else if t.compactions ≠ [] then
    let minimum := if policy.maxActiveRecords < (active.length : Int) + 1 then 2 else 1
    let compactions :=
      if t.compactions.length < minimum then fillCheckpoint minimum candidates t.compactions
      else t.compactions
    if compactions.length < minimum then
      refuse active .protectedCapacityExhausted [] protectedRecordIds
    else
      refuse active .checkpointCompactionRequired
        (compactions.take policy.checkpointBatchRecords.toNat) protectedRecordIds
  else
    { admitted := true
      reason :=
        if t.retirements = [] then .fits else .retireInvalidOrLowerContinuityUtility
      retireRecordIds := t.retirements
      compactRecordIds := []
      protectedRecordIds := protectedRecordIds
      projectedRecords := t.retainedIds.card + 1
      projectedChars := t.retainedChars + incoming.chars }

/-- `plan_long_term_retention`. -/
def planLongTermRetention (m : FloatMath F) (records : List (ContinuityMemory F)) (nowNs : Int) :
    Except PyExc RetentionDecision := do
  raiseIf (nowNs < 0) (valueError "retention clock must not be negative")
  let active := activeOf records
  raiseIf ((idsOf active).card ≠ active.length)
    (valueError "continuity record ids must be unique")
  raiseIf (incoming.recordId ∈ idsOf active)
    (valueError "incoming continuity record id already exists")
  if incoming.sourceValid = false then return refuse active .incomingSourceInvalid [] []
  else if incoming.status ≠ "active" then return refuse active .incomingNotActive [] []
  else if policy.maxActiveChars < incoming.chars then
    return refuse active .incomingExceedsCapacity [] []
  else
    let candidates ← planCandidates policy m active nowNs
    return decideRetention policy incoming active candidates

/-- What a host does with an admitted plan. -/
def applyRetention (records : List (ContinuityMemory F)) (decision : RetentionDecision) :
    List (ContinuityMemory F) :=
  records.map (fun item =>
    if item.status = "active" ∧ item.recordId ∈ decision.retireRecordIds then
      item.withStatus "stale"
    else item) ++ [incoming]

/-! ## What a new session starts with -/

/-- `RecallItem` in `memory_core/conversation.py`. -/
structure RecallItem (F : Type) where
  text : String
  kind : String
  evidenceRefs : List String
  score : F
  authority : Authority

structure RecallPolicyFields where
  maxItems : Int
  maxChars : Int
  includeDurable : Bool

/-- `__post_init__`. -/
def RecallPolicyFields.postInit (f : RecallPolicyFields) : Except PyExc Unit :=
  raiseIf (f.maxItems < 1 ∨ f.maxChars < 1)
    (valueError "continuity recall budgets must be positive")

structure ContinuityRecallPolicy extends RecallPolicyFields where
  checked : toRecallPolicyFields.postInit = .ok ()

/-- `ContinuityRecallPolicy()`. -/
def ContinuityRecallPolicy.default : ContinuityRecallPolicy where
  maxItems := 12
  maxChars := 3000
  includeDurable := true
  checked := rfl

structure ContinuitySelection (F : Type) where
  items : List (RecallItem F)
  selectedRecordIds : List String
  omittedCoreRecordIds : List String
  contextChars : Int
  requiresCompaction : Bool

/-- The condition on `eligible`. -/
def eligible (policy : ContinuityRecallPolicy) (item : ContinuityMemory F) : Bool :=
  item.status = "active" && item.sourceValid &&
    (item.retentionClass = .core || policy.includeDurable && item.retentionClass = .durable)

/-- The tuples that the eligible records are sorted by. -/
def RecallKey : Type := ℤ ×ₗ ℤ ×ₗ ℚ ×ₗ ℚ ×ₗ ℤ ×ₗ ℤ ×ₗ String

instance recallKeyOrder : LinearOrder RecallKey :=
  inferInstanceAs (LinearOrder (ℤ ×ₗ ℤ ×ₗ ℚ ×ₗ ℚ ×ₗ ℤ ×ₗ ℤ ×ₗ String))

/-- The key of the sort: the pinned first, then by class, then by worth and use. -/
def recallKey (item : ContinuityMemory F) : RecallKey :=
  toLex (-(if item.pinned then 1 else 0), toLex (-(item.retentionClass.rank : ℤ),
    toLex (-Json.PyFloat.val item.importance, toLex (-Json.PyFloat.val item.confidence,
      toLex (-item.useCount, toLex (-item.lastUsedAtNs, item.recordId))))))

/-- `eligible.sort(key=...)`. -/
def recallOrder (items : List (ContinuityMemory F)) : List (ContinuityMemory F) :=
  items.insertionSort fun a b => recallKey a ≤ recallKey b

/-- `selected` and `context_chars`. -/
structure Selected (F : Type) [Json.PyFloat F] where
  items : List (ContinuityMemory F)
  contextChars : Int

/-- One turn of the loop: what does not fit is passed over. -/
def Selected.offer (policy : ContinuityRecallPolicy) (s : Selected F)
    (item : ContinuityMemory F) : Selected F :=
  let separator : Int := if s.items.isEmpty then 0 else 1
  if policy.maxItems ≤ s.items.length then s
  else if policy.maxChars < s.contextChars + separator + item.chars then s
  else ⟨s.items ++ [item], s.contextChars + (separator + item.chars)⟩

def selectAll (policy : ContinuityRecallPolicy) (items : List (ContinuityMemory F)) : Selected F :=
  items.foldl (Selected.offer policy) ⟨[], 0⟩

def recallItem (item : ContinuityMemory F) : RecallItem F where
  text := item.text
  kind := "continuity:" ++ item.retentionClass.text
  evidenceRefs := item.evidenceRefs
  score := Json.PyFloat.ofText ['0', '.', '0']
  authority := item.authority

/-- `select_continuity_context`. -/
def selectContinuityContext (records : List (ContinuityMemory F))
    (policy : ContinuityRecallPolicy) : ContinuitySelection F :=
  let ordered := recallOrder (records.filter (eligible policy))
  let selected := selectAll policy ordered
  let selectedIds := idsOf selected.items
  let omittedCore := (ordered.filter fun item =>
    item.retentionClass = .core && item.recordId ∉ selectedIds).map (·.recordId)
  { items := selected.items.map recallItem
    selectedRecordIds := selected.items.map (·.recordId)
    omittedCoreRecordIds := omittedCore
    contextChars := selected.contextChars
    requiresCompaction := !omittedCore.isEmpty }

end MemoryCore
