import MiniCodeAgent.Builtins

/-!
# Transaction receipts

`receipt.py` without its files: what a receipt's payload is made of, what its
envelope must satisfy to be accepted, and what binds an accepted receipt to a
manifest and a trajectory. Reading and writing, the clock and the key are left
to the transaction's programs.
-/

namespace MiniCodeAgent

variable {F : Type}

def receiptError (message : String) : PyExc := ⟨"ReceiptError", message, true⟩

/-- `canonical_json`. -/
def canonicalJson [Json.PyFloat F] (value : Json F) : ByteArray := (Json.canonical value).toUTF8

def digestJson [Json.PyFloat F] (digests : Digests) (value : Json F) : String :=
  digests.sha256 (canonicalJson value)

/-! ## The evidence -/

section Evidence

variable [Json.PyFloat F]

def isPassingTest : Json F → Bool
  | .obj kvs =>
    let event : Json F := .obj kvs
    (event.getD "type" .null).pyEq (.str "tool") &&
      ((event.getD "tool" .null).pyEq (.str "run_tests") &&
        (event.getD "returncode" .null).pyEq (.int 0))
  | _ => false

def evidenceKeys : List String :=
  ["name", "returncode", "duration_ms", "tests_run", "exception_info", "blocked", "approved",
    "command_sha256"]

def checkEvidence (raw : Json F) : Except PyExc (Json F) :=
  match raw.get? "name" with
  | some (.str _) =>
    .ok (.obj (evidenceKeys.filterMap fun key => (raw.get? key).map fun v => (key, v)))
  | _ => .error (receiptError "verification check evidence is malformed")

def legacyTestsRun (event : Json F) : Except PyExc (Dict (Json F)) :=
  match event.getD "tests_run" .null with
  | .null => .ok []
  | testsRun => do
    let n ← pyInt testsRun
    return [("tests_run", .int n)]

/-- The event of a run without a matrix stands for one check. -/
def legacyEvidence (event : Json F) : Except PyExc (Json F) := do
  let durationMs ← pyInt (event.getD "duration_ms" (.int 0))
  let testsRun ← legacyTestsRun event
  return .obj (([("name", .str "tests"), ("returncode", .int 0),
    ("duration_ms", .int durationMs),
    ("blocked", .bool (event.getD "blocked" (.bool false)).truthy),
    ("approved", .bool (event.getD "approved" (.bool true)).truthy)] : List (String × Json F)) ++
      testsRun)

def eventChecks (event : Json F) : Except PyExc (List (Json F)) :=
  match event.getD "verification_checks" .null with
  | .arr (raw :: raws) => (raw :: raws).mapM checkEvidence
  | _ => do
    let legacy ← legacyEvidence event
    return [legacy]

/-- `_verification_checks`. -/
def verificationChecks (trajectory : Json F) : Except PyExc (List (Json F)) := do
  let raw ← pyGet trajectory "events" (.arr [])
  let events ← pyList raw
  match (events.filter isPassingTest).getLast? with
  | none => throw (receiptError "passing verification evidence is missing")
  | some event => eventChecks event

end Evidence

/-! ## Issuing -/

section Issue

variable [Json.PyFloat F] (digests : Digests) (resolve : Json F → Except PyExc String)

/-- `manifest.get("workspace_identity_sha256") or sha256(source)`; `resolve` is
`str(Path(_).resolve())`. -/
def workspaceIdentity (manifest : Dict (Json F)) : Except PyExc (Json F) :=
  let recorded := (Json.obj manifest).getD "workspace_identity_sha256" .null
  if recorded.truthy then .ok recorded
  else do
    let source ← pyItem "source" (.obj manifest)
    let path ← resolve source
    return .str (digests.sha256 path.toUTF8)

def receiptKind : String := "mini-code-agent/transaction-receipt"

/-- What a receipt says of the manifest and the trajectory: the values
`issue_receipt` signs are the ones `validate_receipt` expects. -/
structure DurableEvidence (F : Type) where
  transactionId : Json F
  baselineCommit : Json F
  baselineFingerprint : Json F
  preparedFingerprint : Json F
  preparedSourceFingerprint : Json F
  preparedPatchSha256 : Json F
  verificationStatus : Json F
  verificationFingerprint : Json F
  trajectorySha256 : String
  accessLogSha256 : String
  readSet : List (Json F)
  writeSet : List (Json F)
  broadRead : Bool
  broadWrite : Bool

def durableEvidence (manifest : Dict (Json F)) (trajectory : Json F) :
    Except PyExc (DurableEvidence F) := do
  let m : Json F := .obj manifest
  let transactionId ← pyItem "id" m
  let baselineCommit ← pyItem "baseline_commit" m
  let baselineFingerprint ← pyItem "baseline_fingerprint" m
  let preparedFingerprint ← pyItem "prepared_fingerprint" m
  let preparedSourceFingerprint ← pyItem "prepared_source_fingerprint" m
  let preparedPatchSha256 ← pyItem "prepared_patch_sha256" m
  let verificationStatus ← pyGet trajectory "verification_status" (.str "")
  let verificationFingerprint ← pyGet trajectory "verified_fingerprint" (.str "")
  let accessLog ← pyItem "access_log" m
  let rawReadSet ← pyItem "read_set" m
  let readSet ← pyList rawReadSet
  let rawWriteSet ← pyItem "write_set" m
  let writeSet ← pyList rawWriteSet
  let broadRead ← pyItem "broad_read" m
  let broadWrite ← pyItem "broad_write" m
  return {
    transactionId := transactionId
    baselineCommit := baselineCommit
    baselineFingerprint := baselineFingerprint
    preparedFingerprint := preparedFingerprint
    preparedSourceFingerprint := preparedSourceFingerprint
    preparedPatchSha256 := preparedPatchSha256
    verificationStatus := verificationStatus
    verificationFingerprint := verificationFingerprint
    trajectorySha256 := digestJson digests trajectory
    accessLogSha256 := digestJson digests accessLog
    readSet := readSet
    writeSet := writeSet
    broadRead := broadRead.truthy
    broadWrite := broadWrite.truthy }

/-- The payload `issue_receipt` signs. -/
def receiptPayload (manifest : Dict (Json F)) (trajectory : Json F) (checks : List (Json F))
    (issuedAt : Int) : Except PyExc (Json F) := do
  let identity ← workspaceIdentity digests resolve manifest
  let e ← durableEvidence digests manifest trajectory
  return .obj
    [("version", .int 1), ("kind", .str receiptKind), ("transaction_id", e.transactionId),
      ("issued_at_ns", .int issuedAt), ("state", .str "prepared"),
      ("workspace", .obj [("identity_sha256", identity)]),
      ("memory", .obj [("mode", (Json.obj manifest).getD "memory_mode" (.str "off"))]),
      ("baseline", .obj [("commit", e.baselineCommit),
        ("workspace_fingerprint", e.baselineFingerprint)]),
      ("prepared", .obj [("workspace_fingerprint", e.preparedFingerprint),
        ("projected_source_fingerprint", e.preparedSourceFingerprint),
        ("patch_sha256", e.preparedPatchSha256)]),
      ("verification", .obj [("status", e.verificationStatus),
        ("fingerprint", e.verificationFingerprint), ("checks", .arr checks)]),
      ("provenance", .obj [("trajectory_sha256", .str e.trajectorySha256),
        ("access_log_sha256", .str e.accessLogSha256),
        ("read_set", .arr e.readSet), ("write_set", .arr e.writeSet),
        ("broad_read", .bool e.broadRead), ("broad_write", .bool e.broadWrite)])]

/-- The signed envelope, as it is written. -/
def receiptEnvelope (key : ByteArray) (payload : Json F) : Json F :=
  .obj [("receipt_id", .str (digestJson digests payload)), ("payload", payload),
    ("hmac_sha256", .str (digests.hmacSha256 key (canonicalJson payload)))]

/-! ## Accepting -/

def envelopePayload (envelope : Json F) : Except PyExc (Json F) :=
  match envelope.get? "payload" with
  | some (.obj kvs) => .ok (.obj kvs)
  | _ => .error (receiptError "transaction receipt is malformed")

def hasReceiptIdentity (transactionId : String) (payload : Json F) : Bool :=
  (payload.getD "version" .null).pyEq (.int 1) &&
    ((payload.getD "kind" .null).pyEq (.str receiptKind) &&
      ((payload.getD "transaction_id" .null).pyEq (.str transactionId) &&
        (payload.getD "state" .null).pyEq (.str "prepared")))

/-- `load_receipt` before it needs the key: the payload of an envelope whose
identity and digest are right. `repr` is `str` of a container. -/
def checkReceiptDigest (repr : Json F → String) (transactionId : String) (envelope : Json F) :
    Except PyExc (Json F) := do
  let payload ← envelopePayload envelope
  raiseIf (hasReceiptIdentity transactionId payload = false)
    (receiptError "transaction receipt identity is invalid")
  let same ← compareDigest (pyStr repr (envelope.getD "receipt_id" (.str "")))
    (digestJson digests payload)
  raiseIf (same = false) (receiptError "transaction receipt digest is invalid")
  return payload

/-- `load_receipt` once it has the key. -/
def checkReceiptMac (repr : Json F → String) (key : ByteArray) (envelope payload : Json F) :
    Except PyExc Unit := do
  let same ← compareDigest (pyStr repr (envelope.getD "hmac_sha256" (.str "")))
    (digests.hmacSha256 key (canonicalJson payload))
  raiseIf (same = false) (receiptError "transaction receipt authentication failed")

/-- A field the receipt and the durable state must agree on. -/
structure BoundField (F : Type) where
  name : String
  expected : Json F
  actual : Json F

/-- The fields of one section of the payload. -/
def sectionFields (payload : Json F) (sectionName : String)
    (fields : List (String × String × Json F)) : Except PyExc (List (BoundField F)) :=
  fields.mapM fun field => do
    let actual ← pyGet (payload.getD sectionName (.obj [])) field.2.1 .null
    return ⟨field.1, field.2.2, actual⟩

/-- The fields older receipts have no section for. -/
def optionalFields (payload : Json F) (sectionName : String) (name field : String)
    (expected : Except PyExc (Json F)) : Except PyExc (List (BoundField F)) :=
  match payload.get? sectionName with
  | some (.obj kvs) => do
    let expected ← expected
    return [⟨name, expected, (Json.obj kvs).getD field .null⟩]
  | _ => .ok []

/-- What `validate_receipt` compares. -/
def boundFields (payload : Json F) (manifest : Dict (Json F)) (trajectory : Json F) :
    Except PyExc (List (BoundField F)) := do
  let e ← durableEvidence digests manifest trajectory
  let baseline ← sectionFields payload "baseline"
    [("baseline_commit", "commit", e.baselineCommit),
      ("baseline_fingerprint", "workspace_fingerprint", e.baselineFingerprint)]
  let prepared ← sectionFields payload "prepared"
    [("prepared_fingerprint", "workspace_fingerprint", e.preparedFingerprint),
      ("prepared_source_fingerprint", "projected_source_fingerprint",
        e.preparedSourceFingerprint),
      ("prepared_patch_sha256", "patch_sha256", e.preparedPatchSha256)]
  let verification ← sectionFields payload "verification"
    [("verification_status", "status", e.verificationStatus),
      ("verification_fingerprint", "fingerprint", e.verificationFingerprint)]
  let provenance ← sectionFields payload "provenance"
    [("trajectory_sha256", "trajectory_sha256", .str e.trajectorySha256),
      ("access_log_sha256", "access_log_sha256", .str e.accessLogSha256),
      ("read_set", "read_set", .arr e.readSet), ("write_set", "write_set", .arr e.writeSet),
      ("broad_read", "broad_read", .bool e.broadRead),
      ("broad_write", "broad_write", .bool e.broadWrite)]
  let workspace ← optionalFields payload "workspace" "workspace_identity_sha256"
    "identity_sha256" (workspaceIdentity digests resolve manifest)
  let memory ← optionalFields payload "memory" "memory_mode" "mode"
    (.ok ((Json.obj manifest).getD "memory_mode" (.str "off")))
  return ⟨"transaction_id", e.transactionId, payload.getD "transaction_id" .null⟩ ::
    (baseline ++ (prepared ++ (verification ++ (provenance ++ (workspace ++ memory)))))

def receiptMismatches (fields : List (BoundField F)) : List String :=
  (fields.filter fun field => !field.actual.pyEq field.expected).map BoundField.name

/-- `validate_receipt`. -/
def validateReceipt (envelope : Json F) (manifest : Dict (Json F)) (trajectory : Json F) :
    Except PyExc Unit := do
  let payload ← pyItem "payload" envelope
  let fields ← boundFields digests resolve payload manifest trajectory
  raiseIf (receiptMismatches fields ≠ [])
    (receiptError ("transaction receipt does not match durable state: " ++
      ", ".intercalate (receiptMismatches fields)))

end Issue

end MiniCodeAgent
