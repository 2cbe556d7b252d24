import MiniCodeAgent.Json.Size
import MiniCodeAgent.Proofs.Persistence

/-!
# What a prepare that returned has done

A prepare that gives up saves a manifest that is still open, so a manifest that
comes back prepared says that every branch of the code was the good one.
`Prepares` is that reading: what was seen on the way, and the world it left.
-/

namespace MiniCodeAgent

open Prog

section Runs

variable {F : Type} [Json.PyFloat F] {P : Platform F} {id : String}
variable {digests : Digests} {git : Git} {pid : Nat}
variable {S : TxWorld → TxEvent → TxWorld → Prop}
variable (hS : OkAnswers digests git pid S)

include hS in
theorem run_addIntents {paths : List String} {u : Unit} {w w' : TxWorld} :
    Run S (addIntents paths) w (.ok u) w' ↔
      (paths = [] ∧ w' = w) ∨ (paths ≠ [] ∧ w.intend paths = some w') := by
  unfold addIntents
  split
  · next h => simp [h, run_done]
  · next h => simp [h, run_gitAddIntents hS]

include hS in
theorem run_recordPrepared {manifest manifest' : Manifest F} {trajectory : Json F}
    {w w' : TxWorld} :
    Run S (recordPrepared P manifest trajectory) w (.ok manifest') w' ↔
      ∃ envelope receiptId w₁,
        (jsonBytes trajectory).size ≤ maxStateFileBytes ∧
        Run S (issueReceipt P manifest trajectory)
          (w.setFile .trajectory (some (jsonBytes trajectory))) (.ok envelope) w₁ ∧
        pyItem "receipt_id" envelope = .ok receiptId ∧
        Run S (save (Dict.set manifest "receipt_id" receiptId)) w₁ (.ok manifest') w' := by
  unfold recordPrepared
  simp only [bind_eq, run_bind_ok, run_writeJson hS, run_done]
  constructor
  · rintro ⟨_, _, ⟨hsize, rfl⟩, envelope, w₁, hissue, receiptId, _, ⟨hid, rfl⟩, hsave⟩
    exact ⟨envelope, receiptId, _, hsize, hissue, hid.symm, hsave⟩
  · rintro ⟨envelope, receiptId, w₁, hsize, hissue, hid, hsave⟩
    exact ⟨(), _, ⟨hsize, rfl⟩, envelope, w₁, hissue, receiptId, w₁, ⟨hid.symm, rfl⟩, hsave⟩

include hS in
theorem run_preparePatch {manifest manifest' : Manifest F} {trajectory : Json F}
    {snapshot : String} {content : Dict String} {baseline : Baseline} {w w' : TxWorld} :
    Run S (preparePatch P manifest trajectory snapshot content baseline) w (.ok manifest') w' ↔
      ∃ patch text, w.workspace.map git.diff = some patch ∧ decodeUtf8 patch = .ok text ∧
        patch.size ≤ maxStateFileBytes ∧
        Run S (recordPrepared P (preparedManifest P manifest baseline
            ⟨snapshot, content, snapshotDiff baseline.workspaceFiles content, patch⟩) trajectory)
          (w.setFile .patch (some patch)) (.ok manifest') w' := by
  unfold preparePatch
  simp only [bind_eq, run_bind_ok, run_gitDiff hS, run_done, run_writeText hS]
  constructor
  · rintro ⟨patch, _, ⟨hdiff, rfl⟩, text, _, ⟨hdecode, rfl⟩, _, _, ⟨hsize, rfl⟩, hrecord⟩
    have hbytes := toUTF8_of_decodeUtf8 hdecode.symm
    rw [hbytes] at hsize hrecord
    exact ⟨patch, text, hdiff, hdecode.symm, hsize, hrecord⟩
  · rintro ⟨patch, text, hdiff, hdecode, hsize, hrecord⟩
    have hbytes := toUTF8_of_decodeUtf8 hdecode
    rw [← hbytes] at hsize hrecord
    refine ⟨patch, w, ⟨hdiff, rfl⟩, text, w, ⟨hdecode.symm, rfl⟩, (), _, ⟨hsize, rfl⟩, ?_⟩
    rwa [← hbytes]

include hS in
theorem run_prepareSubmitted {manifest manifest' : Manifest F} {trajectory : Json F}
    {snapshot : String} {w w' : TxWorld} :
    Run S (prepareSubmitted P manifest trajectory snapshot) w (.ok manifest') w' ↔
      ∃ paths w₁ content data baseline represented,
        w.workspace.map git.untracked = some paths ∧
        Run S (addIntents paths) w (.ok ()) w₁ ∧
        w₁.workspace.map (contentSnapshot digests) = some content ∧
        w₁.files .baseline = some data ∧ data.size ≤ maxStateFileBytes ∧
        decodeBaseline (F := F) data = .ok baseline ∧
        w₁.workspace.map git.diffNames = some represented ∧
        Run S (if samePaths represented (snapshotDiff baseline.workspaceFiles content).paths then
            preparePatch P manifest trajectory snapshot content baseline
          else
            refuse manifest ("workspace contains changes the Git patch cannot represent: " ++
              unrepresented (snapshotDiff baseline.workspaceFiles content).paths represented))
          w₁ (.ok manifest') w' := by
  unfold prepareSubmitted
  simp only [bind_eq, run_bind_ok, run_gitUntracked hS, run_contentSnapshotRoot hS,
    run_loadBaseline hS, run_gitDiffNames hS]
  constructor
  · rintro ⟨paths, _, ⟨hpaths, rfl⟩, _, w₁, hadd, content, _, ⟨hcontent, rfl⟩, baseline, _,
      ⟨data, hfile, hsize, hdecode, rfl⟩, represented, _, ⟨hnames, rfl⟩, hrest⟩
    exact ⟨paths, _, content, data, baseline, represented, hpaths, hadd, hcontent, hfile, hsize,
      hdecode, hnames, hrest⟩
  · rintro ⟨paths, w₁, content, data, baseline, represented, hpaths, hadd, hcontent, hfile,
      hsize, hdecode, hnames, hrest⟩
    exact ⟨paths, w, ⟨hpaths, rfl⟩, (), w₁, hadd, content, w₁, ⟨hcontent, rfl⟩, baseline, w₁,
      ⟨data, hfile, hsize, hdecode, rfl⟩, represented, w₁, ⟨hnames, rfl⟩, hrest⟩

include hS in
theorem run_prepareLocked {manifest manifest' : Manifest F} {trajectory : Json F}
    {w w' : TxWorld} :
    Run S (prepareLocked P trajectory manifest) w (.ok manifest') w' ↔
      ∃ files exitStatus, Dict.get? manifest "status" = some (.str "open") ∧
        w.workspace.map (capture digests) = some files ∧
        pyGet trajectory "exit_status" .null = .ok exitStatus ∧
        Run S (if exitStatus.pyEq (.str "Submitted") = false then
            refuse manifest "agent did not submit"
          else if boundToWorkspace trajectory (fingerprint F P.digests files) then
            prepareSubmitted P manifest trajectory (fingerprint F P.digests files)
          else refuse manifest "submission is not bound to the prepared workspace")
          w (.ok manifest') w' := by
  unfold prepareLocked
  simp only [bind_eq, run_bind_ok, run_item, run_raise, run_workspacePath hS,
    run_captureRoot hS, run_done, Bool.not_eq_false, Json.pyEq_str_right]
  constructor
  · rintro ⟨status, _, ⟨hstatus, rfl⟩, _, _, ⟨rfl, rfl⟩, _, _, ⟨-, rfl⟩, files, _, ⟨hfiles, rfl⟩,
      exitStatus, _, ⟨hexit, rfl⟩, hrest⟩
    exact ⟨files, exitStatus, hstatus, hfiles, hexit.symm, hrest⟩
  · rintro ⟨files, exitStatus, hstatus, hfiles, hexit, hrest⟩
    have hsome : w.workspace.isSome = true := by
      cases hw : w.workspace with
      | none => simp [hw] at hfiles
      | some repo => rfl
    exact ⟨_, w, ⟨hstatus, rfl⟩, (), w, ⟨rfl, rfl⟩, (), w, ⟨hsome, rfl⟩, files, w, ⟨hfiles, rfl⟩,
      exitStatus, w, ⟨hexit.symm, rfl⟩, hrest⟩

/-! ## A prepare that prepared -/

/-- A prepare that gives up leaves the status as it was. -/
theorem refuse_status {manifest manifest' : Manifest F} {failure : String} {w w' : TxWorld}
    (hS : OkAnswers digests git pid S)
    (h : Run S (refuse manifest failure) w (.ok manifest') w') :
    Dict.get? manifest' "status" = Dict.get? manifest "status" := by
  obtain ⟨rfl, -, -⟩ := (run_save hS).1 h
  rw [stamped, Dict.get?_set, if_neg (by decide), Dict.get?_set, if_neg (by decide)]

/-- What a prepare sees and makes on its way. -/
structure PrepareSteps (F : Type) where
  manifest : Manifest F
  files : Dict String
  /-- The world with the lock taken and the untracked files announced. -/
  intended : TxWorld
  content : Dict String
  baseline : Baseline
  patch : ByteArray
  receipt : Json F
  receiptId : Json F
  /-- The world with everything written but the manifest. -/
  issued : TxWorld

namespace PrepareSteps

def changed (x : PrepareSteps F) : SnapshotDiff := snapshotDiff x.baseline.workspaceFiles x.content

/-- The manifest the receipt is issued for. -/
def prepared (P : Platform F) (x : PrepareSteps F) : Manifest F :=
  preparedManifest P x.manifest x.baseline
    ⟨fingerprint F P.digests x.files, x.content, x.changed, x.patch⟩

/-- The manifest that is saved. -/
def final (P : Platform F) (x : PrepareSteps F) : Manifest F :=
  stamped (Dict.set (x.prepared P) "receipt_id" x.receiptId) x.issued.now

/-- The world the receipt is issued in. -/
def written (x : PrepareSteps F) (trajectory : Json F) : TxWorld :=
  (x.intended.setFile .patch (some x.patch)).setFile .trajectory (some (jsonBytes trajectory))

end PrepareSteps

/-- A prepare of the trajectory went this way, from the one world to the other. -/
structure Prepares (S : TxWorld → TxEvent → TxWorld → Prop) (digests : Digests) (git : Git)
    (pid : Nat) (P : Platform F) (id : String) (trajectory : Json F) (w : TxWorld)
    (x : PrepareSteps F) (w' : TxWorld) : Prop where
  lock : w.holder = none
  loaded : ∃ data, w.files .manifest = some data ∧ data.size ≤ maxStateFileBytes ∧
    decodeManifest P id data = .ok x.manifest
  wasOpen : Dict.get? x.manifest "status" = some (.str "open")
  files : w.workspace.map (capture digests) = some x.files
  submitted : pyGet trajectory "exit_status" .null = .ok (.str "Submitted")
  bound : boundToWorkspace trajectory (fingerprint F P.digests x.files) = true
  intents : ∃ paths, w.workspace.map git.untracked = some paths ∧
    (w.held pid).intend paths = some x.intended
  content : x.intended.workspace.map (contentSnapshot digests) = some x.content
  baseline : ∃ data, w.files .baseline = some data ∧ data.size ≤ maxStateFileBytes ∧
    decodeBaseline (F := F) data = .ok x.baseline
  represented : ∃ paths, x.intended.workspace.map git.diffNames = some paths ∧
    samePaths paths x.changed.paths = true
  diff : x.intended.workspace.map git.diff = some x.patch
  isText : ∃ text, decodeUtf8 x.patch = .ok text
  patchSize : x.patch.size ≤ maxStateFileBytes
  trajectorySize : (jsonBytes trajectory).size ≤ maxStateFileBytes
  issue : Run S (issueReceipt P (x.prepared P) trajectory) (x.written trajectory) (.ok x.receipt)
    x.issued
  receiptId : pyItem "receipt_id" x.receipt = .ok x.receiptId
  manifestSize : (jsonBytes (.obj (x.final P) : Json F)).size ≤ maxStateFileBytes
  left : w' = (x.issued.tick.setFile .manifest (some (jsonBytes (.obj (x.final P))))).release

theorem preparedManifest_status (manifest : Manifest F) (baseline : Baseline) (p : Prepared) :
    Dict.get? (preparedManifest P manifest baseline p) "status" = some (.str "prepared") := by
  unfold preparedManifest
  rw [Dict.get?_set, if_neg (by decide), Dict.get?_set, if_pos rfl]

theorem PrepareSteps.final_status (x : PrepareSteps F) :
    Dict.get? (x.final P) "status" = some (.str "prepared") := by
  rw [final, stamped, Dict.get?_set, if_neg (by decide), Dict.get?_set, if_neg (by decide),
    prepared, preparedManifest_status]

omit [Json.PyFloat F] in
/-- With no untracked file there is nothing to announce. -/
theorem intend_nil {w : TxWorld} {repo : Repo} (h : w.workspace = some repo) :
    w.intend [] = some w := by
  rw [TxWorld.intend, h, Option.map_some, List.append_nil, ← h]

include hS in
theorem run_addIntents_intend {paths : List String} {w w' : TxWorld}
    (hpaths : w.workspace.map git.untracked = some paths) :
    Run S (addIntents paths) w (.ok ()) w' ↔ w.intend paths = some w' := by
  obtain ⟨repo, hrepo, -⟩ := Option.map_eq_some_iff.1 hpaths
  rw [run_addIntents hS]
  by_cases h : paths = []
  · subst h
    rw [intend_nil hrepo]
    simp [eq_comm]
  · simp [h]

omit [Json.PyFloat F] in
/-- Announcing files touches no file. -/
theorem intend_files {w w' : TxWorld} {paths : List String} (h : w.intend paths = some w') :
    w'.files = w.files := by
  obtain ⟨repo, -, rfl⟩ := Option.map_eq_some_iff.1 h
  rfl

include hS in
theorem prepares_of_run {trajectory : Json F} {manifest' : Manifest F} {w w' : TxWorld}
    (h : Run S (prepare P id trajectory) w (.ok manifest') w')
    (hstatus : Dict.get? manifest' "status" = some (.str "prepared")) :
    ∃ x, Prepares S digests git pid P id trajectory w x w' ∧ manifest' = x.final P := by
  obtain ⟨w₁, data, manifest, w₂, hlock, hfile, hsize, hdecode, hbody, rfl⟩ :=
    (run_locked hS).1 h
  obtain ⟨hfree, rfl⟩ := TxWorld.acquire_eq hlock
  obtain ⟨files, exitStatus, hopen, hfiles, hexit, hbody⟩ := (run_prepareLocked hS).1 hbody
  have hrefuse : ∀ {failure : String} {w : TxWorld},
      ¬ Run S (refuse manifest failure) w (.ok manifest') w₂ := by
    intro failure w hrun
    have := refuse_status hS hrun
    rw [hstatus, hopen] at this
    simp at this
  split at hbody
  · exact absurd hbody hrefuse
  · next hsubmitted =>
    split at hbody
    · next hbound =>
      obtain ⟨paths, w₃, content, bdata, baseline, represented, hpaths, hadd, hcontent, hbfile,
        hbsize, hbaseline, hnames, hbody⟩ := (run_prepareSubmitted hS).1 hbody
      split at hbody
      · next hsame =>
        obtain ⟨patch, text, hdiff, htext, hpsize, hrecord⟩ := (run_preparePatch hS).1 hbody
        obtain ⟨receipt, receiptId, w₄, htsize, hissue, hid, hsave⟩ :=
          (run_recordPrepared hS).1 hrecord
        obtain ⟨rfl, hmsize, rfl⟩ := (run_save hS).1 hsave
        rw [Bool.not_eq_false, Json.pyEq_str_right] at hsubmitted
        subst hsubmitted
        have hintend := (run_addIntents_intend hS hpaths).1 hadd
        have hbfile' : w.files .baseline = some bdata := by rwa [intend_files hintend] at hbfile
        exact ⟨⟨manifest, files, w₃, content, baseline, patch, receipt, receiptId, w₄⟩, {
          lock := hfree
          loaded := ⟨data, hfile, hsize, hdecode⟩
          wasOpen := hopen
          files := hfiles
          submitted := hexit
          bound := hbound
          intents := ⟨paths, hpaths, hintend⟩
          content := hcontent
          baseline := ⟨bdata, hbfile', hbsize, hbaseline⟩
          represented := ⟨represented, hnames, hsame⟩
          diff := hdiff
          isText := ⟨text, htext⟩
          patchSize := hpsize
          trajectorySize := htsize
          issue := hissue
          receiptId := hid
          manifestSize := hmsize
          left := rfl }, rfl⟩
      · exact absurd hbody hrefuse
    · exact absurd hbody hrefuse

include hS in
theorem Prepares.run {trajectory : Json F} {x : PrepareSteps F} {w w' : TxWorld}
    (h : Prepares S digests git pid P id trajectory w x w') :
    Run S (prepare P id trajectory) w (.ok (x.final P)) w' := by
  obtain ⟨data, hfile, hsize, hdecode⟩ := h.loaded
  obtain ⟨paths, hpaths, hintend⟩ := h.intents
  obtain ⟨bdata, hbfile, hbsize, hbaseline⟩ := h.baseline
  obtain ⟨represented, hnames, hsame⟩ := h.represented
  obtain ⟨text, htext⟩ := h.isText
  have hsave : Run S (save (Dict.set (x.prepared P) "receipt_id" x.receiptId)) x.issued
      (.ok (x.final P))
      (x.issued.tick.setFile .manifest (some (jsonBytes (.obj (x.final P))))) :=
    (run_save hS).2 ⟨rfl, h.manifestSize, rfl⟩
  have hrecord := (run_recordPrepared hS).2
    ⟨x.receipt, x.receiptId, x.issued, h.trajectorySize, h.issue, h.receiptId, hsave⟩
  have hpatch := (run_preparePatch (P := P) hS).2
    ⟨x.patch, text, h.diff, htext, h.patchSize, hrecord⟩
  have hacquire : w.acquire pid = some (w.held pid) := if_pos h.lock
  refine (run_locked hS).2 ⟨_, data, x.manifest, _, hacquire, hfile, hsize, hdecode,
    (run_prepareLocked hS).2 ⟨x.files, _, h.wasOpen, h.files, h.submitted, ?_⟩, h.left⟩
  rw [if_neg (by simp [Json.pyEq]), if_pos h.bound]
  refine (run_prepareSubmitted hS).2 ⟨paths, x.intended, x.content, bdata, x.baseline, represented,
    hpaths, (run_addIntents_intend hS (w := w.held pid) hpaths).2 hintend, h.content, ?_, hbsize, hbaseline, hnames,
    ?_⟩
  · rw [intend_files hintend]
    exact hbfile
  · have hsame : samePaths represented
        (snapshotDiff x.baseline.workspaceFiles x.content).paths = true := hsame
    rw [if_pos hsame]
    exact hpatch

/-! ## What it leaves on disk -/

include hS in
theorem Prepares.files_left {trajectory : Json F} {x : PrepareSteps F} {w w' : TxWorld}
    (h : Prepares S digests git pid P id trajectory w x w') :
    w'.files .manifest = some (jsonBytes (.obj (x.final P))) ∧
      w'.files .receipt = some (jsonBytes x.receipt) ∧
      w'.files .trajectory = some (jsonBytes trajectory) ∧
      w'.files .patch = some x.patch := by
  obtain ⟨-, -, -, -, -, -, -, -, hissued⟩ := (run_issueReceipt hS).1 h.issue
  rw [h.left, hissued]
  exact ⟨rfl, rfl, rfl, rfl⟩

include hS in
/-- The key the receipt was made with is there, and it is a key. -/
theorem Prepares.key_left {trajectory : Json F} {x : PrepareSteps F} {w w' : TxWorld}
    (h : Prepares S digests git pid P id trajectory w x w') :
    ∃ checks payload key, verificationChecks trajectory = .ok checks ∧
      receiptPayload P.digests P.resolve (x.prepared P) trajectory checks
        (x.written trajectory).now = .ok payload ∧
      x.receipt = receiptEnvelope P.digests key payload ∧
      (jsonBytes x.receipt).size ≤ maxStateFileBytes ∧ decodeKey w'.key = .ok key := by
  obtain ⟨checks, payload, key, hchecks, hpayload, hkey, hreceipt, hsize, hissued⟩ :=
    (run_issueReceipt hS).1 h.issue
  refine ⟨checks, payload, key, hchecks, hpayload, hreceipt, hsize, ?_⟩
  rw [h.left, hissued]
  exact hkey

end Runs

/-! ## The smallest prepare

One file, one line of it changed, and nothing that could go wrong. Digests that
write out their input are as good as any here, and never collide; so the
documents are long, and the bounds on them are the only thing to see to.
-/

namespace Small

def resolve : Json Unit → Except PyExc String
  | .str path => .ok path
  | _ => .error (typeError "argument should be a str or an os.PathLike object")

def platform : Platform Unit where
  digests := hexDigests
  resolve := resolve
  repr _ := ""
  stateInside _ := false
  trajectoryPath id := "/state/transactions/" ++ id ++ "/trajectory.json"

def id : String := "0123456789abcdef01234567"

def before : Dict Entry := [("a.txt", .file 0o644 "a\n".toUTF8 true)]

def after : Dict Entry := [("a.txt", .file 0o644 "b\n".toUTF8 true)]

def repo (tree : Dict Entry) : Repo := ⟨tree, [], "78981922613b2afb6025042ff6bd878ac1994e85", []⟩

def patch : ByteArray := ("diff --git a/a.txt b/a.txt\nindex 7898192..6178079 100644\n" ++
  "--- a/a.txt\n+++ b/a.txt\n@@ -1 +1 @@\n-a\n+b\n").toUTF8

/-- What Git makes of these two trees and the patch between them. -/
def git : Git where
  topLevel source := source
  status _ := ByteArray.empty
  checkout repo _ := repo
  untracked _ := []
  diffNames repo := if repo.tree = after then ["a.txt"] else []
  diff repo := if repo.tree = after then patch else ByteArray.empty
  apply data tree := if data = patch ∧ tree = before then some after else none

def snapshot (tree : Dict Entry) : Dict String := capture hexDigests (repo tree)

def print (tree : Dict Entry) : String := fingerprint Unit hexDigests (snapshot tree)

/-- The manifest in any of its states, given what changes in it. -/
def manifestOf (identity was is patchDigest receiptId status : String) (updatedAt : Int) :
    Manifest Unit :=
  [("version", .int 1), ("id", .str id), ("status", .str status), ("source", .str "/src"),
    ("baseline_commit", .str (repo before).head), ("baseline_fingerprint", .str was),
    ("baseline_content_fingerprint", .str was), ("prepared_fingerprint", .str is),
    ("prepared_content_fingerprint", .str is), ("prepared_source_fingerprint", .str is),
    ("prepared_patch_sha256", .str patchDigest), ("receipt_id", .str receiptId),
    ("task", .str "Change a.txt"), ("memory_mode", .str "off"),
    ("workspace_identity_sha256", .str identity), ("created_at_ns", .int 0),
    ("updated_at_ns", .int updatedAt), ("trajectory", .str (platform.trajectoryPath id)),
    ("read_set", .arr []), ("write_set", .arr []), ("broad_read", .bool false),
    ("broad_write", .bool false), ("access_log", .arr []), ("failure", .str "")]

def manifest : Manifest Unit :=
  stamped (createdManifest platform id "/src" (repo before).head (print before) (print before)
    "Change a.txt" "off" (hexText "/src".toUTF8) 0 1) 2

def baseline : Baseline := ⟨snapshot before, snapshot before⟩

def trajectory : Json Unit := .obj [("exit_status", .str "Submitted"),
  ("verification_status", .str "passed"), ("verified_fingerprint", .str (print after)),
  ("events", .arr [.obj [("type", .str "tool"), ("tool", .str "run_tests"),
    ("returncode", .int 0)]])]

def files : TxFile → Option ByteArray
  | .manifest => some (jsonBytes (.obj manifest))
  | .baseline => some (jsonBytes (baselineJson baseline : Json Unit))
  | _ => none

def world : TxWorld where
  holder := none
  files := files
  key := none
  freshKey := ⟨Array.replicate 32 7⟩
  freshKey_size := rfl
  clock n := n
  ticks := 3
  repos path := if path = "/src" then some (repo before) else none
  workspace := some (repo after)
  transactionId := id
  identities _ := ""
  applied := []

theorem snapshot_before : snapshot before = [("a.txt", "file:644:610a")] := by decide +kernel

theorem snapshot_after : snapshot after = [("a.txt", "file:644:620a")] := by decide +kernel

theorem content_eq (tree : Dict Entry) (h : tree = before ∨ tree = after) :
    contentSnapshot hexDigests (repo tree) = snapshot tree := by
  rcases h with rfl | rfl <;> decide +kernel

theorem changed_eq : snapshotDiff (snapshot before) (snapshot after) = ⟨[], [], ["a.txt"]⟩ := by
  rw [snapshot_before, snapshot_after]
  rfl

theorem expected_eq :
    expectedSourceFiles baseline ⟨[], [], ["a.txt"]⟩ (snapshot after) = snapshot after := by
  rw [baseline, snapshot_before, snapshot_after]
  rfl

def checks : List (Json Unit) := [.obj [("name", .str "tests"), ("returncode", .int 0),
  ("duration_ms", .int 0), ("blocked", .bool false), ("approved", .bool true)]]

/-- The payload, given the fingerprints and the digests in it. -/
def payloadOf (identity was is patchDigest trajectoryDigest logDigest : String) : Json Unit := .obj
  [("version", .int 1), ("kind", .str "mini-code-agent/transaction-receipt"),
    ("transaction_id", .str id), ("issued_at_ns", .int 3), ("state", .str "prepared"),
    ("workspace", .obj [("identity_sha256", .str identity)]),
    ("memory", .obj [("mode", .str "off")]),
    ("baseline", .obj [("commit", .str (repo before).head),
      ("workspace_fingerprint", .str was)]),
    ("prepared", .obj [("workspace_fingerprint", .str is),
      ("projected_source_fingerprint", .str is),
      ("patch_sha256", .str patchDigest)]),
    ("verification", .obj [("status", .str "passed"), ("fingerprint", .str is),
      ("checks", .arr checks)]),
    ("provenance", .obj [("trajectory_sha256", .str trajectoryDigest),
      ("access_log_sha256", .str logDigest),
      ("read_set", .arr []), ("write_set", .arr []), ("broad_read", .bool false),
      ("broad_write", .bool false)])]

def payload : Json Unit :=
  payloadOf (hexText "/src".toUTF8) (print before) (print after) (hexText patch)
    (digestJson hexDigests trajectory) (digestJson hexDigests (.arr [] : Json Unit))

def key : ByteArray := ⟨Array.replicate 32 7⟩

def receipt : Json Unit := receiptEnvelope hexDigests key payload

def receiptId : String := digestJson hexDigests payload

def written (pid : Nat) : TxWorld :=
  ((world.held pid).setFile .patch (some patch)).setFile .trajectory (some (jsonBytes trajectory))

def steps (pid : Nat) : PrepareSteps Unit where
  manifest := manifest
  files := snapshot after
  intended := world.held pid
  content := snapshot after
  baseline := baseline
  patch := patch
  receipt := receipt
  receiptId := .str receiptId
  issued := (written pid).tick.keyed.setFile .receipt (some (jsonBytes receipt))

def prepared : Manifest Unit :=
  preparedManifest platform manifest baseline
    ⟨print after, snapshot after, ⟨[], [], ["a.txt"]⟩, patch⟩

theorem prepared_eq (pid : Nat) : (steps pid).prepared platform = prepared := by
  unfold PrepareSteps.prepared PrepareSteps.changed prepared
  show preparedManifest platform manifest baseline ⟨print after, snapshot after,
    snapshotDiff (snapshot before) (snapshot after), patch⟩ = _
  rw [changed_eq]

theorem payload_eq : receiptPayload hexDigests resolve prepared trajectory checks 3 = .ok payload := by
  unfold prepared preparedManifest
  rw [expected_eq]
  rfl

/-! ### Everything fits -/

theorem digest_length (value : Json Unit) :
    (digestJson hexDigests value).length ≤ 2 * Json.room value 0 := by
  show (hexText _).length ≤ _
  rw [length_hexText]
  exact Nat.mul_le_mul_left 2 (Json.size_canonical_le value)

theorem print_length {tree : Dict Entry} {text : String} (h : snapshot tree = [("a.txt", text)])
    (htext : text.length = 13) : (print tree).length ≤ 400 := by
  have hdigest : (print tree).length ≤ 2 * Json.room (filesJson Unit (snapshot tree)) 0 :=
    digest_length _
  have hroom : Json.room (filesJson Unit (snapshot tree)) 0 ≤ 200 := by
    rw [h]
    simp [filesJson, Json.room, Json.roomMembers, Json.roomMember, ← String.length_toList]
      at htext ⊢
    omega
  omega

theorem dumpInt_zero : Json.dumpInt 0 = ['0'] := by decide

theorem dumpInt_one : Json.dumpInt 1 = ['1'] := by decide

theorem dumpInt_three : Json.dumpInt 3 = ['3'] := by decide

theorem trajectory_room : Json.room trajectory 0 ≤ 4000 := by
  have h := print_length snapshot_after rfl
  unfold trajectory
  generalize print after = text at h ⊢
  simp [Json.room, Json.roomItems, Json.roomMembers, Json.roomMember, dumpInt_zero,
    ← String.length_toList] at h ⊢
  omega

theorem dumpInt_two : Json.dumpInt 2 = ['2'] := by decide

theorem dumpInt_four : Json.dumpInt 4 = ['4'] := by decide

theorem payloadOf_room {t1 t2 t3 t4 t5 t6 : String} (h1 : t1.length ≤ 8) (h2 : t2.length ≤ 400)
    (h3 : t3.length ≤ 400) (h4 : t4.length ≤ 400) (h5 : t5.length ≤ 8000) (h6 : t6.length ≤ 6)
    (d : Nat) : Json.room (payloadOf t1 t2 t3 t4 t5 t6) d ≤ 100000 + 100 * d := by
  simp [payloadOf, checks, id, repo, Json.room, Json.roomItems, Json.roomMembers, Json.roomMember,
    dumpInt_zero, dumpInt_one, dumpInt_three, ← String.length_toList] at h1 h2 h3 h4 h5 h6 ⊢
  omega

theorem identity_length : (hexText "/src".toUTF8).length ≤ 8 := by
  rw [length_hexText]
  decide

theorem patchDigest_length : (hexText patch).length ≤ 400 := by
  rw [length_hexText]
  decide

theorem payload_room (d : Nat) : Json.room payload d ≤ 100000 + 100 * d :=
  payloadOf_room identity_length (print_length snapshot_before rfl)
    (print_length snapshot_after rfl) patchDigest_length
    (le_trans (digest_length trajectory) (Nat.mul_le_mul_left 2 trajectory_room))
    (digest_length _) d

theorem receiptId_length : receiptId.length ≤ 200000 :=
  le_trans (digest_length payload) (Nat.mul_le_mul_left 2 (payload_room 0))

theorem manifestOf_room {t1 t2 t3 t4 t5 t6 : String} {updatedAt : Int} (h1 : t1.length ≤ 8)
    (h2 : t2.length ≤ 400) (h3 : t3.length ≤ 400) (h4 : t4.length ≤ 400)
    (h5 : t5.length ≤ 200000) (h6 : t6.length ≤ 9)
    (h7 : (Json.dumpInt updatedAt).length ≤ 19) :
    Json.room (.obj (manifestOf t1 t2 t3 t4 t5 t6 updatedAt)) 0 ≤ 2000000 := by
  simp [manifestOf, platform, id, repo, Json.room, Json.roomItems, Json.roomMembers,
    Json.roomMember, dumpInt_zero, dumpInt_one, ← String.length_toList] at h1 h2 h3 h4 h5 h6 h7 ⊢
  omega

theorem fits {value : Json Unit} (h : Json.room value 0 ≤ 3000000) :
    (jsonBytes value).size ≤ maxStateFileBytes :=
  le_trans (le_trans (Json.size_dumps_le value) h) (by decide)

theorem hmac_length : (hexDigests.hmacSha256 key (canonicalJson payload)).length ≤ 200064 := by
  have hsize : (canonicalJson payload).size ≤ 100000 :=
    le_trans (Json.size_canonical_le payload) (payload_room 0)
  show (hexText _).length ≤ _
  rw [length_hexText, ByteArray.size_append]
  have hkey : key.size = 32 := rfl
  omega

theorem envelope_room {t1 t2 : String} {value : Json Unit} (h1 : t1.length ≤ 200000)
    (h2 : Json.room value 1 ≤ 100100) (h3 : t2.length ≤ 200064) :
    Json.room (.obj [("receipt_id", .str t1), ("payload", value), ("hmac_sha256", .str t2)]) 0 ≤
      3000000 := by
  simp [Json.room, Json.roomMembers, Json.roomMember, ← String.length_toList] at h1 h2 h3 ⊢
  omega

theorem receipt_fits : (jsonBytes receipt).size ≤ maxStateFileBytes :=
  fits (envelope_room receiptId_length (payload_room 1) hmac_length)

theorem manifest_eq :
    manifest = manifestOf (hexText "/src".toUTF8) (print before) "" "" "" "open" 2 := rfl

theorem final_eq (pid : Nat) : (steps pid).final platform =
    manifestOf (hexText "/src".toUTF8) (print before) (print after) (hexText patch) receiptId
      "prepared" 4 := by
  unfold PrepareSteps.final
  rw [prepared_eq]
  unfold prepared preparedManifest
  rw [expected_eq]
  rfl

theorem manifest_loaded : Loaded platform id manifest where
  wf := by
    rw [manifest_eq]
    simp [manifestOf, Dict.keys]
  version := rfl
  sameId := rfl
  source := ⟨.str "/src", "/src", rfl, rfl⟩
  memoryMode := rfl
  identity := rfl

theorem manifest_fits : (jsonBytes (.obj manifest : Json Unit)).size ≤ maxStateFileBytes := by
  refine fits (le_trans ?_ (by decide : 2000000 ≤ 3000000))
  rw [manifest_eq]
  exact manifestOf_room identity_length (print_length snapshot_before rfl) (by decide) (by decide)
    (by decide) (by decide) (by rw [dumpInt_two]; decide)

theorem baseline_room : Json.room (baselineJson baseline : Json Unit) 0 ≤ 1000 := by
  unfold baseline
  rw [snapshot_before]
  simp [baselineJson, filesJson, Json.room, Json.roomMembers, Json.roomMember,
    ← String.length_toList]

theorem baseline_decode : decodeBaseline (F := Unit) (jsonBytes (baselineJson baseline : Json Unit)) =
    .ok baseline := by
  have hwf : (baselineJson baseline : Json Unit).WF := by
    unfold baseline
    rw [snapshot_before]
    simp [baselineJson, filesJson, Dict.keys]
  unfold decodeBaseline
  refine except_bind_ok.2 ⟨_, decodeJson_jsonBytes hwf, ?_⟩
  unfold baseline
  rw [snapshot_before]
  rfl

theorem represented_eq : git.diffNames (repo after) = ["a.txt"] :=
  show (if (repo after).tree = after then ["a.txt"] else []) = _ from if_pos rfl

theorem diff_eq : git.diff (repo after) = patch :=
  show (if (repo after).tree = after then patch else ByteArray.empty) = _ from if_pos rfl

/-- Preparing the smallest transaction, whatever else the machine may do. -/
theorem prepares {S : TxWorld → TxEvent → TxWorld → Prop} {pid : Nat}
    (hS : OkAnswers hexDigests git pid S) :
    Prepares S hexDigests git pid platform id trajectory world (steps pid)
      (((written pid).tick.keyed.setFile .receipt (some (jsonBytes receipt))).tick.setFile .manifest
        (some (jsonBytes (.obj ((steps pid).final platform))))).release where
  lock := rfl
  loaded := ⟨_, rfl, manifest_fits, manifest_loaded.decode⟩
  wasOpen := rfl
  files := rfl
  submitted := rfl
  bound := by
    unfold boundToWorkspace
    rw [Bool.and_eq_true]
    exact ⟨rfl, (Json.pyEq_str_right _ _).2 rfl⟩
  intents := ⟨[], rfl, intend_nil (w := world.held pid) rfl⟩
  content := congrArg some (content_eq after (Or.inr rfl))
  baseline := ⟨_, rfl, fits (le_trans baseline_room (by decide)), baseline_decode⟩
  represented := by
    refine ⟨_, congrArg some represented_eq, ?_⟩
    unfold PrepareSteps.changed
    show samePaths _ (snapshotDiff (snapshot before) (snapshot after)).paths = true
    rw [changed_eq]
    decide
  diff := congrArg some diff_eq
  isText := ⟨_, decodeUtf8_toUTF8 _⟩
  patchSize := show patch.size ≤ maxStateFileBytes by decide
  trajectorySize := fits (le_trans trajectory_room (by decide))
  issue := by
    refine (run_issueReceipt hS).2 ⟨checks, payload, key, rfl, ?_, rfl, rfl, receipt_fits, rfl⟩
    rw [prepared_eq]
    exact payload_eq
  receiptId := rfl
  manifestSize := by
    refine fits (le_trans ?_ (by decide : 2000000 ≤ 3000000))
    rw [final_eq]
    exact manifestOf_room identity_length (print_length snapshot_before rfl)
      (print_length snapshot_after rfl) patchDigest_length receiptId_length (by decide)
      (by rw [dumpInt_four]; decide)
  left := rfl

end Small

end MiniCodeAgent
