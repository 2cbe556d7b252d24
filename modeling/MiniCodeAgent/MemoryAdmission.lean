import MiniCodeAgent.MemoryOperations
import MiniCodeAgent.MemoryRetrieval

/-!
# Memory admission

`memory_admission.py`, with the drafts of `memory_core/experience.py` and the capacity
policy of `memory_core/lifecycle.py`. A committed transaction is the evidence of two
memories: the checks it was verified with, one card a workspace, and the patch, one
card a transaction, of which as many stay active as the policy has room for. What a
transaction has to say is resolved outside, and so is what looks like a secret.
-/

namespace MiniCodeAgent

namespace MemoryAdmission

open MemoryStore (CardValues Tx)

/-! ## Contracts -/

structure EvidenceReference where
  sourceType : String
  sourceRef : String
  sourceSha256 : String
  origin : String
  deriving DecidableEq

structure VerifiedCheck where
  name : String
  commandSha256 : String
  deriving DecidableEq

/-- Facts of a transaction that have been authenticated. -/
structure VerifiedExperience where
  evidence : EvidenceReference
  scope : String
  scopeKey : String
  validFrom : String
  task : String
  checks : List VerifiedCheck
  artifactText : Option String
  artifactSizeBytes : Int
  artifactBinary : Bool

/-- What a card shall hold, and what a singleton is told apart by. -/
structure MemoryDraft (F : Type) where
  values : CardValues F
  identityAnchor : Option String

/-! ## Drafts -/

/-- `ExperienceFactory`, its policy among the fields. -/
structure ExperienceFactory where
  maxArtifactBytes : Int
  maxCues : Nat
  containsSecret : String → Bool
  casefold : String → String

/-- `ExperiencePolicy()`. -/
def ExperienceFactory.standard (containsSecret : String → Bool) (casefold : String → String) :
    ExperienceFactory where
  maxArtifactBytes := 200000
  maxCues := 24
  containsSecret := containsSecret
  casefold := casefold

section Drafts

variable {F : Type} [Json.PyFloat F]

/-- A float literal. -/
def floatLiteral (text : String) : PyNumber F := .float (Json.PyFloat.ofText text.toList)

/-- `_tokens`. -/
def ExperienceFactory.tokens (factory : ExperienceFactory) (text : String) : List String :=
  let normalized := (joinWords (factory.casefold text)).toList
  let values := findRuns isTokenStart isTokenRest [] normalized ++
    (findRuns isCjk isCjk [] normalized).flatMap spanTokens
  MemoryStore.dictFromkeys (values.filter fun item => item.length ≥ 2)

/-- `\uXXXX`. -/
def escapeUnit (n : Nat) : List Char :=
  ['\\', 'u', Json.hexDigit (n / 4096 % 16), Json.hexDigit (n / 256 % 16),
    Json.hexDigit (n / 16 % 16), Json.hexDigit (n % 16)]

/-- What `ensure_ascii` makes of a character. -/
def asciiChar (c : Char) : List Char :=
  if c.toNat < 0x7F then [c]
  else if c.toNat < 0x10000 then escapeUnit c.toNat
  else escapeUnit (0xD800 + (c.toNat - 0x10000) / 1024) ++
    escapeUnit (0xDC00 + (c.toNat - 0x10000) % 1024)

/-- `json.dumps(value, sort_keys=True, separators=(",", ":"))`. -/
def asciiJson (value : Json F) : String :=
  String.ofList ((Json.canonical value).toList.flatMap asciiChar)

/-- `text.removeprefix(start)`. -/
def withoutStart (start text : String) : String :=
  if startsWith text start then String.ofList (text.toList.drop start.length) else text

/-- `re.fullmatch(r"[0-9a-f]{64}", text)`. -/
def isLowerDigest (text : String) : Bool :=
  text.length = 64 && isHex text

/-- The names of the checks, each bound to a command and none twice. -/
def checkNames (names : List String) : List VerifiedCheck → Except PyExc (List String)
  | [] => .ok names
  | check :: checks => do
    raiseIf (check.name = "" ∨ check.name ∈ names ∨ isLowerDigest check.commandSha256 = false)
      (valueError "verified check is not command-bound")
    checkNames (names ++ [check.name]) checks

/-- What a workspace's verification is known by. -/
def workflowAnchor (digests : Digests) (experience : VerifiedExperience) : String :=
  let bindings : List (Json F) := experience.checks.map fun check =>
    .obj [("name", .str check.name), ("command_sha256", .str check.commandSha256)]
  let payload : Json F := .obj [("schema_version", .int 1),
    ("workspace_identity", .str (withoutStart "sha256:" experience.scopeKey)),
    ("checks", .arr bindings)]
  "workflow-sha256:" ++ digests.sha256 (asciiJson payload).toUTF8

/-- `ExperienceFactory.workflow`. -/
def workflow (digests : Digests) (experience : VerifiedExperience) :
    Except PyExc (MemoryDraft F) := do
  raiseIf (experience.checks = []) (valueError "verified experience has no checks")
  let names ← checkNames [] experience.checks
  let anchor := workflowAnchor (F := F) digests experience
  let rendered := ", ".intercalate names
  return {
    values := {
      value := "Before submission, run the configured verification matrix. " ++
        "Its authenticated checks are: " ++ rendered ++ "."
      abstraction := "Workspace verification workflow: run_tests executes the configured " ++
        "checks before submission (" ++ rendered ++ ")."
      cueAnchors := ["run_tests", "verification workflow"] ++ names ++ [anchor]
      kind := "procedural"
      subtype := "verified_workflow"
      scope := experience.scope
      scopeKey := experience.scopeKey
      origin := "agent"
      authority := "inform"
      confidence := floatLiteral "0.9"
      importance := floatLiteral "0.8"
      validFrom := some experience.validFrom
      validTo := none }
    identityAnchor := some anchor }

/-- The values of the card that a patch is kept in. -/
def repairValues (factory : ExperienceFactory) (experience : VerifiedExperience)
    (artifact : String) : CardValues F where
  value := "Automatically captured verified repair experience.\n" ++
    "Task: " ++ experience.task ++ "\n" ++
    "Authenticated implementation patch:\n" ++ artifact
  abstraction := experience.task
  cueAnchors := (factory.tokens experience.task).take factory.maxCues
  kind := "episodic"
  subtype := "verified_repair"
  scope := experience.scope
  scopeKey := experience.scopeKey
  origin := "trusted_tool"
  authority := "inform"
  confidence := floatLiteral "1.0"
  importance := floatLiteral "0.8"
  validFrom := some experience.validFrom
  validTo := none

/-- `ExperienceFactory.repair`. -/
def repair (factory : ExperienceFactory) (experience : VerifiedExperience) :
    Option (MemoryDraft F) :=
  match experience.artifactText with
  | none => none
  | some artifact =>
    if artifact = "" ∨ experience.artifactBinary = true ∨
        experience.artifactSizeBytes > factory.maxArtifactBytes ∨
        factory.containsSecret (experience.task ++ "\n" ++ artifact) = true then none
    else some ⟨repairValues factory experience artifact, none⟩

end Drafts

/-! ## Capacity -/

/-- `CapacityPolicy`, which refuses to be less than one. -/
structure CapacityPolicy where
  maxActiveRecordsPerScope : Int
  maxActiveCharsPerScope : Int
  records_pos : 1 ≤ maxActiveRecordsPerScope
  chars_pos : 1 ≤ maxActiveCharsPerScope

/-- `CapacityPolicy()`. -/
def CapacityPolicy.standard : CapacityPolicy where
  maxActiveRecordsPerScope := 64
  maxActiveCharsPerScope := 1000000
  records_pos := by decide
  chars_pos := by decide

structure LifecycleRecord where
  recordId : String
  recordedAtNs : Int
  chars : Int
  deriving DecidableEq

/-- Whether the retained records leave no room for what comes in. -/
def overCapacity (policy : CapacityPolicy) (incomingChars : Int)
    (retained : List LifecycleRecord) : Prop :=
  (retained.length : Int) + 1 > policy.maxActiveRecordsPerScope ∨
    (retained.map LifecycleRecord.chars).sum + incomingChars > policy.maxActiveCharsPerScope

instance (policy : CapacityPolicy) (incomingChars : Int) (retained : List LifecycleRecord) :
    Decidable (overCapacity policy incomingChars retained) := inferInstanceAs (Decidable (_ ∨ _))

/-- The loop, on the retained records from the last one on. -/
def retireLoop (policy : CapacityPolicy) (incomingChars : Int) :
    List LifecycleRecord → List String
  | [] => []
  | item :: retained =>
    if overCapacity policy incomingChars (item :: retained) then
      item.recordId :: retireLoop policy incomingChars retained
    else []

/-- `select_retirements`. -/
def selectRetirements (records : List LifecycleRecord) (incomingChars : Int)
    (policy : CapacityPolicy) : Except PyExc (List String) := do
  raiseIf (incomingChars < 0) (valueError "incoming character count must not be negative")
  let retained := records.insertionSort fun a b => b.recordedAtNs ≤ a.recordedAtNs
  return retireLoop policy incomingChars retained.reverse

/-! ## Admission -/

section Admission

variable {F : Type} [Json.PyFloat F]

/-- What the service takes from outside: `evidence_provider.resolve`, and the manifests. -/
structure AdmissionHost (F : Type) where
  resolve : String → Except PyExc VerifiedExperience
  load : String → Except PyExc (Dict (Json F))

/-- A `MemoryAdmissionService`, its store apart. -/
structure AdmissionService (F : Type) where
  host : AdmissionHost F
  factory : ExperienceFactory
  policy : CapacityPolicy

def admissionError (message : String) : PyExc := ⟨"MemoryAdmissionError", message, true⟩

/-- `FileNotFoundError`, `ReceiptError`, `TransactionError` and `ValueError`, with its kinds. -/
def isEvidenceError (exc : PyExc) : Bool :=
  ["FileNotFoundError", "ReceiptError", "TransactionError", "ValueError", "JSONDecodeError",
    "UnicodeDecodeError"].contains exc.type

/-- What it raises, an error of admission's own. -/
def reraise {α : Type} (caught : PyExc → Bool) (x : Except PyExc α) : Except PyExc α :=
  match x with
  | .ok a => .ok a
  | .error exc => if caught exc then .error (admissionError exc.message) else .error exc

/-- `_source`. -/
def sourceOf (reference : EvidenceReference) : EvidenceSource where
  sourceType := reference.sourceType
  sourceRef := reference.sourceRef
  sourceSha256 := reference.sourceSha256
  origin := reference.origin
  id := ""
  cardId := ""
  recordedAtNs := 0

variable (env : MemoryEnv F) (service : AdmissionService F)

/-- `_verified_experience`. -/
def verifiedExperience (transactionId : String) : Except PyExc VerifiedExperience :=
  reraise isEvidenceError (service.host.resolve transactionId)

/-- `admit_verification_workflow`. -/
def admitVerificationWorkflow (transactionId : String) : Tx F (MemoryCard F) := do
  let experience ← Txn.lift (verifiedExperience service transactionId)
  let draft ← Txn.lift (reraise (fun exc => exc.type = "ValueError")
    (workflow env.digests experience))
  match draft.identityAnchor with
  | none => Txn.lift (.error (admissionError "workflow draft has no identity anchor"))
  | some anchor =>
    MemoryStore.upsertScopedSingleton env anchor draft.values [sourceOf experience.evidence]

/-- The record of a card that stands beside the incoming one. -/
def lifecycleRecord (card : MemoryCard F) : LifecycleRecord :=
  ⟨card.id, card.recordedAtNs, card.value.length⟩

def besideIncoming (incoming card : MemoryCard F) : Prop :=
  card.id ≠ incoming.id ∧ card.subtype = "verified_repair" ∧ card.scope = incoming.scope ∧
    card.scopeKey = incoming.scopeKey

instance (incoming card : MemoryCard F) : Decidable (besideIncoming incoming card) :=
  inferInstanceAs (Decidable (_ ∧ _))

/-- `_enforce_repair_capacity`. -/
def enforceRepairCapacity (incoming : MemoryCard F) : Tx F Unit := do
  let cards ← MemoryStore.select (MemoryStore.listCards env false none true)
  let records := (cards.filter fun card => besideIncoming incoming card).map lifecycleRecord
  let retirements ← Txn.lift (selectRetirements records incoming.value.length service.policy)
  retirements.forM fun cardId =>
    MemoryStore.transition env cardId "stale" (some incoming.id)

/-- `admit_verified_repair`. -/
def admitVerifiedRepair (transactionId : String) : Tx F (Option (MemoryCard F)) := do
  let experience ← Txn.lift (verifiedExperience service transactionId)
  match repair service.factory experience with
  | none => return none
  | some draft =>
    if (draft.values.value.length : Int) > service.policy.maxActiveCharsPerScope then return none
    else do
      let card ← MemoryStore.addCardOnceForSource env (sourceOf experience.evidence) draft.values
      enforceRepairCapacity env service card
      return some card

/-- `manifest.get(key, default)`. -/
def manifestField (manifest : Dict (Json F)) (key : String) (default : Json F) : Json F :=
  (manifest.get? key).getD default

/-- `form_committed_transaction_memories`. -/
def formCommittedTransactionMemories (transactionId : String) : Tx F (List (MemoryCard F)) := do
  let manifest ← Txn.lift (service.host.load transactionId)
  if (manifestField manifest "memory_mode" (.str "off")).pyEq (.str "off") then return []
  else do
    Txn.lift (raiseIf
      (¬ (manifestField manifest "memory_mode" .null).pyEq (.str "local") ∨
        ¬ (manifestField manifest "status" .null).pyEq (.str "committed"))
      (admissionError "transaction memory requires a committed local mode"))
    let workflowCard ← admitVerificationWorkflow env service transactionId
    let repairCard ← admitVerifiedRepair env service transactionId
    return workflowCard :: repairCard.toList

end Admission

end MemoryAdmission

end MiniCodeAgent
