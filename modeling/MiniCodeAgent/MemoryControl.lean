import MiniCodeAgent.MemoryRetrieval

/-!
# The memory controller

`memory_control.py` and the feedback it reads. The controller chooses among the
items a retrieval returned, by the outcomes recorded of earlier decisions; what
is admissible is not its to decide. A decision may be recorded, and is then one
more row of the store.
-/

namespace MiniCodeAgent

variable {F : Type}

/-! ## Feedback -/

structure MemoryUtilityStats (F : Type) where
  cardId : String
  uses : Nat
  successes : Nat
  failures : Nat
  harmfulUses : Nat
  rewardTotal : F
  deriving DecidableEq

/-- `MemoryDecisionRecord`, as far as feedback reads it. -/
structure MemoryDecisionRecord (F : Type) where
  id : String
  selectedCardIds : List (Json F)
  shadow : Bool

section Feedback

variable [Json.PyFloat F] (env : RetrievalEnv F)

open MemoryStore

/-- `memory_decisions`. -/
def memoryDecisions (db : Database F) : Except PyExc (List (MemoryDecisionRecord F)) := do
  connect db
  let version ← schemaVersion env.store db
  if version < 2 then return []
  else
    (db.memoryDecisions.insertionSort fun a b => a.recordedAtNs ≤ b.recordedAtNs).mapM fun row => do
      verifyDecision env.store row
      let parsed ← loadsText row.selectedCardIdsJson
      let selected ← pyList parsed
      return ⟨row.id, selected, row.shadow ≠ 0⟩

/-- `memory_outcomes`. -/
def memoryOutcomes (db : Database F) : Except PyExc (List (OutcomeRow F)) := do
  connect db
  let version ← schemaVersion env.store db
  if version < 2 then return []
  else
    (db.memoryOutcomes.insertionSort fun a b => a.recordedAtNs ≤ b.recordedAtNs).mapM fun row => do
      verifyOutcome env.store row
      return row

def MemoryUtilityStats.empty (cardId : String) : MemoryUtilityStats F :=
  ⟨cardId, 0, 0, 0, 0, env.floats.lit 0⟩

/-- One outcome of a decision that selected the card. -/
def MemoryUtilityStats.addOutcome (stats : MemoryUtilityStats F) (outcome : OutcomeRow F) :
    MemoryUtilityStats F where
  cardId := stats.cardId
  uses := stats.uses + 1
  successes := if outcome.success ≠ 0 then stats.successes + 1 else stats.successes
  failures := if outcome.success ≠ 0 then stats.failures else stats.failures + 1
  harmfulUses := if outcome.harmful ≠ 0 then stats.harmfulUses + 1 else stats.harmfulUses
  rewardTotal := env.floats.add stats.rewardTotal outcome.reward

def addOutcomeOf (requested : List String) (outcome : OutcomeRow F)
    (aggregates : Dict (MemoryUtilityStats F)) (selected : Json F) :
    Except PyExc (Dict (MemoryUtilityStats F)) :=
  match selected with
  | .str cardId =>
    if requested ≠ [] ∧ cardId ∉ requested then .ok aggregates
    else
      let stats := (aggregates.get? cardId).getD (.empty env cardId)
      .ok (aggregates.set cardId (stats.addOutcome env outcome))
  | _ => .error (typeError "unsupported card id")

/-- `memory_utility_stats`. -/
def memoryUtilityStats (requested : List String) (db : Database F) :
    Except PyExc (List (MemoryUtilityStats F)) := do
  let decisions ← memoryDecisions env db
  let outcomes ← memoryOutcomes env db
  let aggregates : Dict (MemoryUtilityStats F) :=
    requested.dedup.map fun cardId => (cardId, .empty env cardId)
  let aggregates ← outcomes.foldlM (fun aggregates outcome =>
    match decisions.reverse.find? fun record => record.id = outcome.decisionId with
    | none => .error (integrityError ("memory outcome has no decision: " ++ outcome.id))
    | some decision =>
      if decision.shadow then .ok aggregates
      else decision.selectedCardIds.foldlM (addOutcomeOf env requested outcome) aggregates)
    aggregates
  return (aggregates.insertionSort fun a b => a.1 ≤ b.1).map Prod.snd

/-- `mean_reward`. -/
def MemoryUtilityStats.meanReward (stats : MemoryUtilityStats F) : F :=
  if stats.uses = 0 then env.floats.lit 0
  else env.floats.div stats.rewardTotal (env.floats.lit stats.uses)

end Feedback

/-! ## Decisions -/

def memoryStages : List String := ["start", "working", "stuck", "pre_submit", "config_changed"]

/-- `_CONTRAINDICATION_SUBTYPES`. -/
def contraindicationSubtypes : List String :=
  ["contraindication", "counterexample", "failure_pattern"]

structure MemoryControlContext where
  query : MemoryQuery
  stage : String
  recentFailures : Int
  tokenBudget : Int
  shadow : Bool
  record : Bool

structure ControlledMemoryItem (F : Type) where
  memory : MemoryContextItem F
  role : String
  expectedUtility : F
  feedbackUses : Nat

structure ControlledMemoryDecision (F : Type) where
  operation : String
  reason : String
  items : List (ControlledMemoryItem F)
  sourcePack : MemoryContextPack F
  shadow : Bool

/-- `EvidenceGroundedMemoryController`, less its store. -/
structure MemoryController (F : Type) where
  retriever : Retriever F
  minExpectedUtility : F

section Controller

variable [Json.PyFloat F] (env : RetrievalEnv F)

/-- `_validate_context`. -/
def validateContext (context : MemoryControlContext) : Except PyExc Unit := do
  raiseIf (context.stage ∉ memoryStages) (valueError "unsupported memory control stage")
  raiseIf (context.recentFailures < 0)
    (valueError "recent failures must be a non-negative integer")
  raiseIf (context.tokenBudget < 1) (valueError "memory token budget must be a positive integer")

/-- `stage_bonus`. -/
def stageBonus (item : MemoryContextItem F) (role : String) (context : MemoryControlContext) : F :=
  let ops := env.floats
  let bonus := ops.lit 0
  let bonus := if context.stage = "pre_submit" ∧ item.kind = "procedural"
    then ops.add bonus (ops.lit (1 / 10)) else bonus
  let bonus := if context.stage = "stuck" ∧ context.recentFailures ≠ 0
    then ops.add bonus (ops.lit (4 / 100)) else bonus
  let bonus := if role = "contraindication" ∧ context.stage ∈ ["stuck", "config_changed"]
    then ops.add bonus (ops.lit (8 / 100)) else bonus
  if context.stage = "start" then ops.sub bonus (ops.lit (6 / 100)) else bonus

/-- `_expected_utility`. -/
def expectedUtility (item : MemoryContextItem F) (stats : MemoryUtilityStats F) (role : String)
    (context : MemoryControlContext) : F :=
  let ops := env.floats
  let helpProbability := ops.div (ops.lit (stats.successes + 1)) (ops.lit (stats.uses + 2))
  let harmProbability := ops.div (ops.lit stats.harmfulUses) (ops.lit (stats.uses + 2))
  let feedbackReward := if stats.uses = 0 then ops.lit 0
    else ops.mul (ops.lit (1 / 10)) (stats.meanReward env)
  let estimatedTokens := max 1 (item.value.length / 4)
  let tokenPenalty := floatMin (ops.lit (2 / 10)) (ops.div
    (ops.mul (ops.lit (15 / 100)) (ops.lit estimatedTokens)) (ops.lit (max context.tokenBudget 1)))
  let utility := ops.sub (ops.sub (ops.add (ops.add (ops.add
    (ops.mul (ops.lit (55 / 100)) item.score) (ops.mul (ops.lit (35 / 100)) helpProbability))
    feedbackReward) (stageBonus env item role context))
    (ops.mul (ops.lit (55 / 100)) harmProbability)) tokenPenalty
  floatMax (ops.lit (-1)) (floatMin (ops.lit 1) utility)

/-- The item as the controller would hand it out, if it is useful enough. -/
def controlItem (controller : MemoryController F) (stats : List (MemoryUtilityStats F))
    (context : MemoryControlContext) (item : MemoryContextItem F) :
    Option (ControlledMemoryItem F) :=
  let feedback := (stats.reverse.find? fun stat => stat.cardId = item.cardId).getD
    (.empty env item.cardId)
  let role := if item.subtype ∈ contraindicationSubtypes then "contraindication" else "support"
  let utility := expectedUtility env item feedback role context
  if Json.PyFloat.val controller.minExpectedUtility ≤ Json.PyFloat.val utility then
    some ⟨item, role, env.floats.round6 utility, feedback.uses⟩
  else none

/-- `key=lambda item: (-item.expected_utility, item.role, item.card_id)`. -/
def controlledBefore (a b : ControlledMemoryItem F) : Prop :=
  Json.PyFloat.val b.expectedUtility < Json.PyFloat.val a.expectedUtility ∨
    (Json.PyFloat.val a.expectedUtility = Json.PyFloat.val b.expectedUtility ∧
      (a.role < b.role ∨ (a.role = b.role ∧ a.memory.cardId ≤ b.memory.cardId)))

instance controlledBeforeDecidable : DecidableRel (controlledBefore (F := F)) :=
  fun _ _ => inferInstanceAs (Decidable (_ ∨ _))

/-- `_finish`. -/
def finishDecision (context : MemoryControlContext) (pack : MemoryContextPack F)
    (operation reason : String) (items : List (ControlledMemoryItem F)) :
    MemoryStore.Tx F (ControlledMemoryDecision F) := do
  if context.record then
    MemoryStore.recordMemoryDecision env.store (env.store.digests.sha256 context.query.text.toUTF8)
      context.stage operation (items.map (·.memory.cardId))
      (.float (floatMaxOf (env.floats.lit 0) (items.map (·.expectedUtility)))) reason context.shadow
  return ⟨operation, reason, items, pack, context.shadow⟩

/-- The operation when nothing is selected. -/
def emptyOperation (context : MemoryControlContext) : String :=
  if context.stage = "stuck" ∧ 2 ≤ context.recentFailures then "requery" else "no_memory"

/-- What becomes of the items that are useful enough. -/
def decideSelected (context : MemoryControlContext) (pack : MemoryContextPack F)
    (selected : List (ControlledMemoryItem F)) :
    MemoryStore.Tx F (ControlledMemoryDecision F) :=
  if selected = [] then
    finishDecision env context pack (emptyOperation context)
      (if emptyOperation context = "requery" then "feedback_suppressed_candidates_requery"
        else "feedback_suppressed_candidates") []
  else if selected.any fun item => item.role = "contraindication" then
    finishDecision env context pack "retrieve_with_warning" "eligible_contraindication" selected
  else finishDecision env context pack "retrieve" "positive_expected_utility" selected

/-- `decide`. -/
def decideMemory (controller : MemoryController F) (context : MemoryControlContext) :
    MemoryStore.Tx F (ControlledMemoryDecision F) := do
  Txn.lift (validateContext context)
  let pack ← MemoryStore.select fun db => retrieve env controller.retriever db context.query
  if pack.decision.kind = .noMemory ∨ pack.items = [] then
    finishDecision env context pack (emptyOperation context)
      (if emptyOperation context = "requery" then "stuck_without_relevant_memory"
        else pack.decision.reason) []
  else do
    let stats ← MemoryStore.select (memoryUtilityStats env (pack.items.map (·.cardId)))
    let ranked := (pack.items.filterMap (controlItem env controller stats context)).insertionSort
      controlledBefore
    decideSelected env context pack (pyPrefix context.query.limit ranked)

end Controller

end MiniCodeAgent
