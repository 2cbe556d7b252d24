import MiniCodeAgent.Prog.Semantics
import MiniCodeAgent.Receipt
import MiniCodeAgent.Workspace

/-!
# The transaction store

`transaction.py` as programs over the effects it has on the machine: the lock,
the files of one transaction directory, the receipt key, the clock, and what it
asks of Git and of the workspace scanner. An operation of the store is a
program, so every point where it can fail or be stopped is a point of the
program, and every order in which two of them can meet is an interleaving of
their effects.

The programs speak of one transaction, whose identifier they are given. A
manifest, a trajectory and a receipt are the dictionaries the code has, written
and read as the bytes the code writes and reads.
-/

namespace MiniCodeAgent

/-- The files of a transaction directory. -/
inductive TxFile where
  | manifest
  | trajectory
  | receipt
  | patch
  | baseline
  deriving DecidableEq

/-- The two trees the store scans. -/
inductive Root where
  | source (path : String)
  | workspace
  deriving DecidableEq

/-- What the store does to the machine. -/
inductive TxOp where
  | lock
  | unlock
  | readFile (file : TxFile)
  | writeFile (file : TxFile) (data : ByteArray)
  | loadOrCreateKey
  | loadKey
  | timeNs
  /-- `self.workspace(id)`, which raises when there is none. -/
  | workspacePath
  | workspaceExists
  | capture (root : Root)
  | contentSnapshot (root : Root)
  | revParseHead (source : String)
  | untracked
  | addIntents (paths : List String)
  | diffNames
  | diff
  /-- `git apply --check`: the reason for refusing, if it does. -/
  | applyCheck (source : String) (patch : ByteArray)
  | apply (source : String) (patch : ByteArray)
  /-- `git worktree remove --force`: the reason for failing, if it does. -/
  | removeWorktree (source : String)
  | isDirectory (source : String)
  | makeStateDirectory
  | topLevel (source : String)
  | status (source : String)
  | projectIdentity (source : String)
  | tokenHex
  | makeDirectory
  | addWorktree (source commit : String)
  | removeDirectory
  deriving DecidableEq

def TxOp.Res : TxOp → Type
  | .lock | .unlock | .writeFile _ _ | .workspacePath | .addIntents _ | .apply _ _
  | .makeStateDirectory | .makeDirectory | .addWorktree _ _ | .removeDirectory => Unit
  | .readFile _ | .loadOrCreateKey | .loadKey | .diff | .status _ => ByteArray
  | .timeNs => Int
  | .workspaceExists | .isDirectory _ => Bool
  | .capture _ | .contentSnapshot _ => Dict String
  | .revParseHead _ | .topLevel _ | .projectIdentity _ | .tokenHex => String
  | .untracked | .diffNames => List String
  | .applyCheck _ _ | .removeWorktree _ => Option String

abbrev TxProg (α : Type) := Prog TxOp TxOp.Res PyExc α

abbrev TxEvent := Event TxOp TxOp.Res PyExc

/-- A manifest in memory. -/
abbrev Manifest (F : Type) := Dict (Json F)

/-- What the store takes from the rest of the machine. -/
structure Platform (F : Type) where
  digests : Digests
  /-- `str(Path(_).resolve())`. -/
  resolve : Json F → Except PyExc String
  /-- `str` of a container. -/
  repr : Json F → String
  /-- Whether the state directory is inside the path. -/
  stateInside : String → Bool
  /-- `str(directory / "trajectory.json")`. -/
  trajectoryPath : String → String

def txError (message : String) : PyExc := ⟨"TransactionError", message, true⟩

/-- One effect. The functions after it are the effects by name. -/
def tx (o : TxOp) : TxProg o.Res := Prog.call o

def acquireLock : TxProg Unit := tx .lock
def releaseLock : TxProg Unit := tx .unlock
def readFile (file : TxFile) : TxProg ByteArray := tx (.readFile file)
def writeFile (file : TxFile) (data : ByteArray) : TxProg Unit := tx (.writeFile file data)
def loadOrCreateKey : TxProg ByteArray := tx .loadOrCreateKey
def loadExistingKey : TxProg ByteArray := tx .loadKey
def timeNs : TxProg Int := tx .timeNs
def workspacePath : TxProg Unit := tx .workspacePath
def workspaceExists : TxProg Bool := tx .workspaceExists
def captureRoot (root : Root) : TxProg (Dict String) := tx (.capture root)
def contentSnapshotRoot (root : Root) : TxProg (Dict String) := tx (.contentSnapshot root)
def gitRevParseHead (source : String) : TxProg String := tx (.revParseHead source)
def gitUntracked : TxProg (List String) := tx .untracked
def gitAddIntents (paths : List String) : TxProg Unit := tx (.addIntents paths)
def gitDiffNames : TxProg (List String) := tx .diffNames
def gitDiff : TxProg ByteArray := tx .diff
def gitApplyCheck (source : String) (patch : ByteArray) : TxProg (Option String) :=
  tx (.applyCheck source patch)
def gitApply (source : String) (patch : ByteArray) : TxProg Unit := tx (.apply source patch)
def gitRemoveWorktree (source : String) : TxProg (Option String) := tx (.removeWorktree source)
def isDirectory (source : String) : TxProg Bool := tx (.isDirectory source)
def makeStateDirectory : TxProg Unit := tx .makeStateDirectory
def gitTopLevel (source : String) : TxProg String := tx (.topLevel source)
def gitStatus (source : String) : TxProg ByteArray := tx (.status source)
def projectIdentity (source : String) : TxProg String := tx (.projectIdentity source)
def tokenHex : TxProg String := tx .tokenHex
def makeDirectory : TxProg Unit := tx .makeDirectory
def gitAddWorktree (source commit : String) : TxProg Unit := tx (.addWorktree source commit)
def removeDirectory : TxProg Unit := tx .removeDirectory

section Store

variable {F : Type}

/-- A check between two effects. -/
def raise (cond : Prop) [Decidable cond] (exc : PyExc) : TxProg Unit := .done (raiseIf cond exc)

/-- A command that answers with its reason for refusing. -/
def raiseRefused (refused : Option String) (default : String) : TxProg Unit :=
  raise (refused.isSome = true) (txError (refused.getD default))

/-- `manifest[key]`. -/
def item (manifest : Manifest F) (key : String) : TxProg (Json F) :=
  .done (pyItem key (.obj manifest))

/-! ## Files -/

def readBytes (file : TxFile) (tooLarge : PyExc) : TxProg ByteArray := do
  let data ← readFile file
  raise (maxStateFileBytes < data.size) tooLarge
  return data

/-- `atomic_write_text`. -/
def writeText (file : TxFile) (text : String) : TxProg Unit := do
  raise (maxStateFileBytes < text.toUTF8.size)
    (valueError "state file exceeds the 268435456-byte safety limit")
  writeFile file text.toUTF8

variable [Json.PyFloat F] (P : Platform F) (id : String)

/-- `write_json`. -/
def writeJson (file : TxFile) (data : Json F) : TxProg Unit :=
  writeText file (Json.dumps .indent2 data)

/-- `json.loads(data.decode("utf-8"))`. -/
def decodeJson (data : ByteArray) : Except PyExc (Json F) := do
  let text ← decodeUtf8 data
  match Json.loads text with
  | some value => .ok value
  | none => .error ⟨"JSONDecodeError", "Expecting value", true⟩

/-- `data.setdefault(key, value)`. -/
def setDefault (data : Dict (Json F)) (key : String) (value : Json F) : Dict (Json F) :=
  if (Dict.get? data key).isSome then data else Dict.set data key value

def manifestData (data : Json F) : Except PyExc (Manifest F) :=
  match data with
  | .obj kvs => .ok kvs
  | _ => .error (attributeError "object has no attribute 'get'")

def pathDigest (source : Json F) : Except PyExc (Json F) := do
  let path ← P.resolve source
  return .str (P.digests.sha256 path.toUTF8)

/-- `load`, given what the file holds. -/
def decodeManifest (data : ByteArray) : Except PyExc (Manifest F) := do
  let value ← decodeJson data
  let manifest ← manifestData value
  raiseIf (((Json.obj manifest).getD "version" .null).pyEq (.int 1) = false ∨
      ((Json.obj manifest).getD "id" .null).pyEq (.str id) = false)
    (txError "transaction manifest identity is invalid")
  let manifest := setDefault manifest "memory_mode" (.str "off")
  let source ← pyItem "source" (.obj manifest)
  let identity ← pathDigest P source
  return setDefault manifest "workspace_identity_sha256" identity

/-- `load`. -/
def load : TxProg (Manifest F) := do
  let data ← readBytes .manifest (txError "transaction manifest exceeds the state size limit")
  .done (decodeManifest P id data)

/-- `save`: the manifest as it stands in memory afterwards. -/
def save (manifest : Manifest F) : TxProg (Manifest F) := do
  let now ← timeNs
  let manifest := Dict.set manifest "updated_at_ns" (.int now)
  writeJson .manifest (.obj manifest)
  return manifest

/-- `with self.locked(id) as manifest: body(manifest)`. -/
def locked {α : Type} (body : Manifest F → TxProg α) : TxProg α := do
  acquireLock
  Prog.andFinally (load P id >>= body) (releaseLock)

/-! ## Receipts -/

/-- `issue_receipt`. -/
def issueReceipt (manifest : Manifest F) (trajectory : Json F) : TxProg (Json F) := do
  let checks ← .done (verificationChecks trajectory)
  let issuedAt ← timeNs
  let payload ← .done (receiptPayload P.digests P.resolve manifest trajectory checks issuedAt)
  let key ← loadOrCreateKey
  let envelope := receiptEnvelope P.digests key payload
  writeJson .receipt envelope
  return envelope

/-- `load_receipt`. -/
def loadReceipt : TxProg (Json F) := do
  let data ← readBytes .receipt (receiptError "transaction receipt exceeds the state size limit")
  let envelope ← .done (decodeJson data)
  let payload ← .done (checkReceiptDigest P.digests P.repr id envelope)
  let key ← loadExistingKey
  .done (checkReceiptMac P.digests P.repr key envelope payload)
  return envelope

/-! ## Prepare -/

/-- What `create` saw of the two trees. -/
structure Baseline where
  sourceFiles : Dict String
  workspaceFiles : Dict String

def baselineMember : String × Json F → Option (String × String)
  | (path, .str digest) => some (path, digest)
  | _ => none

def baselineFiles (data : Json F) (key : String) : Option (Dict String) :=
  match data.get? key with
  | some (.obj kvs) => kvs.mapM baselineMember
  | _ => none

def baselineJson (baseline : Baseline) : Json F :=
  .obj [("source_files", filesJson F baseline.sourceFiles),
    ("workspace_files", filesJson F baseline.workspaceFiles)]

/-- `_load_baseline`, given what the file holds. -/
def decodeBaseline (data : ByteArray) : Except PyExc Baseline := do
  let value ← decodeJson (F := F) data
  match baselineFiles value "source_files", baselineFiles value "workspace_files" with
  | some sourceFiles, some workspaceFiles => .ok ⟨sourceFiles, workspaceFiles⟩
  | _, _ => .error (txError "transaction baseline is malformed")

def loadBaseline : TxProg Baseline := do
  let data ← readBytes .baseline (txError "transaction baseline exceeds the state size limit")
  .done (decodeBaseline (F := F) data)

/-- The baseline of the source with the workspace's changes laid over it. -/
def expectedSourceFiles (baseline : Baseline) (changed : SnapshotDiff) (content : Dict String) :
    Dict String :=
  (changed.created ++ changed.modified).foldl
    (fun files path => Dict.set files path ((Dict.get? content path).getD ""))
    (changed.deleted.foldl Dict.pop baseline.sourceFiles)

/-- What `prepare` finds in the workspace. -/
structure Prepared where
  snapshot : String
  content : Dict String
  changed : SnapshotDiff
  patch : ByteArray

def preparedManifest (manifest : Manifest F) (baseline : Baseline) (p : Prepared) : Manifest F :=
  let manifest := Dict.set manifest "prepared_fingerprint" (.str p.snapshot)
  let manifest := Dict.set manifest "prepared_content_fingerprint"
    (.str (fingerprint F P.digests p.content))
  let manifest := Dict.set manifest "prepared_source_fingerprint"
    (.str (fingerprint F P.digests (expectedSourceFiles baseline p.changed p.content)))
  let manifest := Dict.set manifest "prepared_patch_sha256" (.str (P.digests.sha256 p.patch))
  let manifest := Dict.set manifest "status" (.str "prepared")
  Dict.set manifest "failure" (.str "")

/-- A prepare that gives up: the transaction stays open and says why. -/
def refuse (manifest : Manifest F) (failure : String) : TxProg (Manifest F) :=
  save (Dict.set manifest "failure" (.str failure))

/-- The durable end of `prepare`: trajectory, receipt and manifest. -/
def recordPrepared (manifest : Manifest F) (trajectory : Json F) : TxProg (Manifest F) := do
  writeJson .trajectory trajectory
  let receipt ← issueReceipt P manifest trajectory
  let receiptId ← .done (pyItem "receipt_id" receipt)
  save (Dict.set manifest "receipt_id" receiptId)

def addIntents (paths : List String) : TxProg Unit :=
  if paths = [] then .done (.ok ()) else gitAddIntents paths

def unrepresented (expected represented : List String) : String :=
  match sortPaths (expected.filter fun path => path ∉ represented) with
  | [] => "unknown"
  | missing => ", ".intercalate missing

def samePaths (a b : List String) : Bool := a.all (· ∈ b) && b.all (· ∈ a)

/-- The part of `prepare` that makes the patch. -/
def preparePatch (manifest : Manifest F) (trajectory : Json F) (snapshot : String)
    (content : Dict String) (baseline : Baseline) : TxProg (Manifest F) := do
  let patch ← gitDiff
  let text ← .done (decodeUtf8 patch)
  writeText .patch text
  let p : Prepared := ⟨snapshot, content, snapshotDiff baseline.workspaceFiles content, patch⟩
  recordPrepared P (preparedManifest P manifest baseline p) trajectory

/-- `prepare` once the submission is known to be bound to the workspace. -/
def prepareSubmitted (manifest : Manifest F) (trajectory : Json F) (snapshot : String) :
    TxProg (Manifest F) := do
  let paths ← gitUntracked
  addIntents paths
  let content ← contentSnapshotRoot .workspace
  let baseline ← loadBaseline (F := F)
  let expected := (snapshotDiff baseline.workspaceFiles content).paths
  let represented ← gitDiffNames
  if samePaths represented expected then
    preparePatch P manifest trajectory snapshot content baseline
  else
    refuse manifest ("workspace contains changes the Git patch cannot represent: " ++
      unrepresented expected represented)

/-- The submission names the workspace it was verified in. -/
def boundToWorkspace (trajectory : Json F) (snapshot : String) : Bool :=
  (trajectory.getD "verification_status" .null).pyEq (.str "passed") &&
    (trajectory.getD "verified_fingerprint" .null).pyEq (.str snapshot)

def prepareLocked (trajectory : Json F) (manifest : Manifest F) : TxProg (Manifest F) := do
  let status ← item manifest "status"
  raise (status.pyEq (.str "open") = false)
    (txError ("cannot prepare transaction in " ++ pyStr P.repr status ++ " state"))
  workspacePath
  let files ← captureRoot .workspace
  let snapshot := fingerprint F P.digests files
  let exitStatus ← .done (pyGet trajectory "exit_status" .null)
  if exitStatus.pyEq (.str "Submitted") = false then refuse manifest "agent did not submit"
  else if boundToWorkspace trajectory snapshot then
    prepareSubmitted P manifest trajectory snapshot
  else refuse manifest "submission is not bound to the prepared workspace"

/-- `prepare`. -/
def prepare (trajectory : Json F) : TxProg (Manifest F) :=
  locked P id (prepareLocked P trajectory)

/-! ## Commit -/

/-- `Path(manifest["source"]).resolve()`. -/
def sourcePath (manifest : Manifest F) : Except PyExc String := do
  let source ← pyItem "source" (.obj manifest)
  P.resolve source

/-- A digest in the manifest against one just computed. -/
def checkItem (manifest : Manifest F) (key digest : String) (message : String) : TxProg Unit := do
  let recorded ← item manifest key
  raise (recorded.pyEq (.str digest) = false) (txError message)

def loadTrajectory : TxProg (Json F) := do
  let data ← readBytes .trajectory
    (txError "transaction trajectory exceeds the state size limit")
  .done (decodeJson data)

/-- The receipt's part of commit's checks. -/
def checkReceipt (manifest : Manifest F) : TxProg Unit := do
  let trajectory ← loadTrajectory
  let receipt ← loadReceipt P id
  let receiptId ← .done (pyItem "receipt_id" receipt)
  let recorded ← item manifest "receipt_id"
  raise (receiptId.pyEq recorded = false)
    (txError "transaction receipt id does not match manifest")
  .done (validateReceipt P.digests P.resolve receipt manifest trajectory)

/-- The workspace's and the source's part. -/
def checkTrees (manifest : Manifest F) (source : String) : TxProg Unit := do
  workspacePath
  let head ← gitRevParseHead source
  checkItem manifest "baseline_commit" head
    "source HEAD changed since transaction begin; aborting"
  let current ← captureRoot (.source source)
  checkItem manifest "baseline_fingerprint" (fingerprint F P.digests current)
    "source workspace changed since transaction begin; aborting"
  let prepared ← captureRoot .workspace
  checkItem manifest "prepared_fingerprint" (fingerprint F P.digests prepared)
    "prepared workspace changed after verification; aborting"

def loadPatch (manifest : Manifest F) : TxProg ByteArray := do
  let patch ← readBytes .patch (txError "prepared patch exceeds the state size limit")
  checkItem manifest "prepared_patch_sha256" (P.digests.sha256 patch)
    "prepared patch integrity check failed"
  return patch

def checkPrepared (manifest : Manifest F) : TxProg Unit := do
  let status ← item manifest "status"
  raise (status.pyEq (.str "prepared") = false)
    (txError ("cannot commit transaction in " ++ pyStr P.repr status ++ " state"))

/-- Everything `commit` checks before it hands the patch to Git. -/
def validateCommit (manifest : Manifest F) : TxProg (String × ByteArray) := do
  checkPrepared P manifest
  let source ← .done (sourcePath P manifest)
  checkTrees P manifest source
  checkReceipt P id manifest
  let patch ← loadPatch P manifest
  return (source, patch)

/-- An empty patch is not handed to Git at all. -/
def applyPrepared (source : String) (patch : ByteArray) : TxProg Unit :=
  if patch.size = 0 then .done (.ok ())
  else do
    let refused ← gitApplyCheck source patch
    raiseRefused refused "prepared patch no longer applies"
    gitApply source patch

def recordCommitted (manifest : Manifest F) (source : String) : TxProg (Manifest F) := do
  let committed ← contentSnapshotRoot (.source source)
  checkItem manifest "prepared_source_fingerprint" (fingerprint F P.digests committed)
    "committed workspace does not match prepared state"
  let now ← timeNs
  save (Dict.set (Dict.set manifest "status" (.str "committed")) "committed_at_ns" (.int now))

def commitLocked (manifest : Manifest F) : TxProg String := do
  let (source, patch) ← validateCommit P id manifest
  applyPrepared source patch
  let _ ← recordCommitted P manifest source
  return source

def removeWorktree (source : String) : TxProg Unit := do
  let refused ← gitRemoveWorktree source
  raiseRefused refused "could not remove transaction worktree"

/-- `_remove_workspace`. -/
def removeWorkspace (source : String) : TxProg Unit := do
  let present ← workspaceExists
  if present then removeWorktree source else .done (.ok ())

/-- `commit`. -/
def commit : TxProg (Manifest F) := do
  let source ← locked P id (commitLocked P id)
  removeWorkspace source
  load P id

/-! ## Abort -/

def recordAborted (manifest : Manifest F) : TxProg (Manifest F) := do
  let now ← timeNs
  save (Dict.set (Dict.set manifest "status" (.str "aborted")) "aborted_at_ns" (.int now))

/-- An abort of an aborted transaction writes nothing. -/
def settleAborted (manifest : Manifest F) (status : Json F) : TxProg (Manifest F) :=
  if status.pyEq (.str "aborted") then .done (.ok manifest) else recordAborted manifest

def abortLocked (manifest : Manifest F) : TxProg String := do
  let status ← item manifest "status"
  raise (status.pyEq (.str "committed") = true)
    (txError "a committed transaction cannot be aborted")
  let manifest ← settleAborted manifest status
  .done (sourcePath P manifest)

/-- `abort`. -/
def abort : TxProg (Manifest F) := do
  let source ← locked P id (abortLocked P)
  removeWorkspace source
  load P id

/-! ## Create -/

/-- The manifest `create` writes. -/
def createdManifest (transactionId source baselineCommit baselineFingerprint
    baselineContentFingerprint task memoryMode identity : String) (createdAt updatedAt : Int) :
    Manifest F :=
  [("version", .int 1), ("id", .str transactionId), ("status", .str "open"),
    ("source", .str source), ("baseline_commit", .str baselineCommit),
    ("baseline_fingerprint", .str baselineFingerprint),
    ("baseline_content_fingerprint", .str baselineContentFingerprint),
    ("prepared_fingerprint", .str ""), ("prepared_content_fingerprint", .str ""),
    ("prepared_source_fingerprint", .str ""), ("prepared_patch_sha256", .str ""),
    ("receipt_id", .str ""), ("task", .str task), ("memory_mode", .str memoryMode),
    ("workspace_identity_sha256", .str identity), ("created_at_ns", .int createdAt),
    ("updated_at_ns", .int updatedAt), ("trajectory", .str (P.trajectoryPath transactionId)),
    ("read_set", .arr []), ("write_set", .arr []), ("broad_read", .bool false),
    ("broad_write", .bool false), ("access_log", .arr []), ("failure", .str "")]

def workspaceIdentityOf (source memoryMode : String) : TxProg String :=
  if memoryMode = "local" then projectIdentity source
  else .done (.ok (P.digests.sha256 source.toUTF8))

def sourceUnchanged (baseline : Dict String) (baselineCommit : String) (dirty : ByteArray)
    (files : Dict String) (head : String) : Bool :=
  dirty.size = 0 && fingerprint F P.digests files = fingerprint F P.digests baseline &&
    head = baselineCommit

/-- The source, seen again after the worktree was added. -/
def checkSourceUnchanged (source baselineCommit : String) (baseline : Dict String) :
    TxProg Unit := do
  let dirty ← gitStatus source
  let files ← captureRoot (.source source)
  let head ← gitRevParseHead source
  raise (sourceUnchanged P baseline baselineCommit dirty files head = false)
    (txError "source workspace changed while transaction begin was taking its snapshot")

/-- What `create` makes durable. -/
def recordCreated (source baselineCommit : String) (baseline baselineContent : Dict String)
    (manifest : Manifest F) : TxProg (Manifest F) := do
  checkSourceUnchanged P source baselineCommit baseline
  let overlayBaseline ← contentSnapshotRoot .workspace
  writeJson .baseline (baselineJson ⟨baselineContent, overlayBaseline⟩ : Json F)
  save manifest

/-- `except BaseException: ...; raise`. -/
def orElse {α : Type} (p : TxProg α) (cleanup : TxProg Unit) : TxProg α :=
  Prog.catchWith p fun exc => do
    cleanup
    .done (.error exc)

def removeCreated (source : String) : TxProg Unit := do
  let _ ← gitRemoveWorktree source
  removeDirectory

/-- The checks of `create` on the source, and its commit. -/
def checkSource (source memoryMode : String) : TxProg String := do
  raise (memoryMode ≠ "off" ∧ memoryMode ≠ "local")
    (valueError "transaction memory mode must be 'off' or 'local'")
  let present ← isDirectory source
  raise (present = false)
    ⟨"FileNotFoundError", "source workspace is not a directory: " ++ source, true⟩
  raise (P.stateInside source = true)
    (txError "transaction state directory must be outside the source workspace")
  makeStateDirectory
  let topLevel ← gitTopLevel source
  raise (topLevel ≠ source)
    (txError "transaction --cwd must be the root of its Git worktree")
  let dirty ← gitStatus source
  raise (dirty.size ≠ 0) (txError ("transaction source worktree must be clean at " ++
    "begin; inspect it with 'git status --short'"))
  gitRevParseHead source

/-- `create`. -/
def create (path : Json F) (task memoryMode : String) : TxProg (Manifest F) := do
  let source ← .done (P.resolve path)
  let baselineCommit ← checkSource P source memoryMode
  let identity ← workspaceIdentityOf P source memoryMode
  let baseline ← captureRoot (.source source)
  let baselineContent ← contentSnapshotRoot (.source source)
  let transactionId ← tokenHex
  makeDirectory
  orElse (gitAddWorktree source baselineCommit) (removeDirectory)
  let createdAt ← timeNs
  let updatedAt ← timeNs
  orElse (recordCreated P source baselineCommit baseline baselineContent
      (createdManifest P transactionId source baselineCommit (fingerprint F P.digests baseline)
        (fingerprint F P.digests baselineContent) task memoryMode identity createdAt updatedAt))
    (removeCreated source)

end Store

end MiniCodeAgent
