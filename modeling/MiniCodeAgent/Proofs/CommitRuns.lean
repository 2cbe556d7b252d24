import MiniCodeAgent.Proofs.StoreRuns

/-!
# What a commit that returned has done

One lemma for each function on commit's way. All of its checks leave the world
as it was, so what they saw is what the patch was applied to.
-/

namespace MiniCodeAgent

open Prog

variable {F : Type} [Json.PyFloat F] {P : Platform F} {id : String}
variable {digests : Digests} {git : Git} {pid : Nat}
variable {S : TxWorld → TxEvent → TxWorld → Prop}
variable (hS : OkAnswers digests git pid S)

omit [Json.PyFloat F] in
theorem run_raiseRefused {refused : Option String} {default : String} {u : Unit}
    {w w' : TxWorld} :
    Run S (raiseRefused refused default) w (.ok u) w' ↔ refused = none ∧ w' = w := by
  unfold raiseRefused
  rw [run_raise, Bool.not_eq_true, Option.isSome_eq_false_iff, Option.isNone_iff_eq_none]

theorem run_checkItem {manifest : Manifest F} {key digest message : String} {u : Unit}
    {w w' : TxWorld} :
    Run S (checkItem manifest key digest message) w (.ok u) w' ↔
      Dict.get? manifest key = some (.str digest) ∧ w' = w := by
  unfold checkItem
  simp only [bind_eq, run_bind_ok, run_item, run_raise, Bool.not_eq_false, Json.pyEq_str_right]
  constructor
  · rintro ⟨recorded, _, ⟨hrecorded, rfl⟩, rfl, rfl⟩
    exact ⟨hrecorded, rfl⟩
  · rintro ⟨hrecorded, rfl⟩
    exact ⟨_, w', ⟨hrecorded, rfl⟩, rfl, rfl⟩

theorem run_checkPrepared {manifest : Manifest F} {u : Unit} {w w' : TxWorld} :
    Run S (checkPrepared P manifest) w (.ok u) w' ↔
      Dict.get? manifest "status" = some (.str "prepared") ∧ w' = w := by
  unfold checkPrepared
  simp only [bind_eq, run_bind_ok, run_item, run_raise, Bool.not_eq_false, Json.pyEq_str_right]
  constructor
  · rintro ⟨status, _, ⟨hstatus, rfl⟩, rfl, rfl⟩
    exact ⟨hstatus, rfl⟩
  · rintro ⟨hstatus, rfl⟩
    exact ⟨_, w', ⟨hstatus, rfl⟩, rfl, rfl⟩

include hS in
theorem run_checkTrees {manifest : Manifest F} {source : String} {u : Unit} {w w' : TxWorld} :
    Run S (checkTrees P manifest source) w (.ok u) w' ↔
      ∃ head current prepared, (w.repos source).map Repo.head = some head ∧
        Dict.get? manifest "baseline_commit" = some (.str head) ∧
        (w.repos source).map (capture digests) = some current ∧
        Dict.get? manifest "baseline_fingerprint" =
          some (.str (fingerprint F P.digests current)) ∧
        w.workspace.map (capture digests) = some prepared ∧
        Dict.get? manifest "prepared_fingerprint" =
          some (.str (fingerprint F P.digests prepared)) ∧ w' = w := by
  unfold checkTrees
  simp only [bind_eq, run_bind_ok, run_workspacePath hS, run_gitRevParseHead hS, run_checkItem,
    run_captureRoot hS]
  constructor
  · rintro ⟨_, _, ⟨-, rfl⟩, head, _, ⟨hhead, rfl⟩, _, _, ⟨hcommit, rfl⟩, current, _,
      ⟨hcurrent, rfl⟩, _, _, ⟨hbaseline, rfl⟩, prepared, _, ⟨hprepared, rfl⟩, hfingerprint, rfl⟩
    exact ⟨head, current, prepared, hhead, hcommit, hcurrent, hbaseline, hprepared, hfingerprint,
      rfl⟩
  · rintro ⟨head, current, prepared, hhead, hcommit, hcurrent, hbaseline, hprepared, hfingerprint,
      rfl⟩
    have hsome : w'.workspace.isSome = true := by
      cases hw : w'.workspace with
      | none => simp [hw] at hprepared
      | some repo => rfl
    exact ⟨(), w', ⟨hsome, rfl⟩, head, w', ⟨hhead, rfl⟩, (), w', ⟨hcommit, rfl⟩, current, w',
      ⟨hcurrent, rfl⟩, (), w', ⟨hbaseline, rfl⟩, prepared, w', ⟨hprepared, rfl⟩, hfingerprint,
      rfl⟩

include hS in
theorem run_checkReceipt {manifest : Manifest F} {u : Unit} {w w' : TxWorld} :
    Run S (checkReceipt P id manifest) w (.ok u) w' ↔
      ∃ trajectory receipt receiptId recorded,
        Run S (loadTrajectory (F := F)) w (.ok trajectory) w ∧
        Run S (loadReceipt P id) w (.ok receipt) w ∧
        pyItem "receipt_id" receipt = .ok receiptId ∧
        Dict.get? manifest "receipt_id" = some recorded ∧ receiptId.pyEq recorded = true ∧
        validateReceipt P.digests P.resolve receipt manifest trajectory = .ok () ∧ w' = w := by
  unfold checkReceipt
  simp only [bind_eq, run_bind_ok, run_done, run_item, run_raise, Bool.not_eq_false]
  constructor
  · rintro ⟨trajectory, w₁, htrajectory, receipt, w₂, hreceipt, receiptId, _, ⟨hid, rfl⟩,
      recorded, _, ⟨hrecorded, rfl⟩, _, _, ⟨heq, rfl⟩, hvalid, rfl⟩
    obtain ⟨-, -, -, -, rfl⟩ := (run_loadTrajectory hS).1 htrajectory
    obtain ⟨-, -, -, -, -, -, -, -, -, rfl⟩ := (run_loadReceipt hS).1 hreceipt
    exact ⟨trajectory, receipt, receiptId, recorded, htrajectory, hreceipt, hid.symm, hrecorded,
      heq, hvalid.symm, rfl⟩
  · rintro ⟨trajectory, receipt, receiptId, recorded, htrajectory, hreceipt, hid, hrecorded, heq,
      hvalid, rfl⟩
    exact ⟨trajectory, w', htrajectory, receipt, w', hreceipt, receiptId, w', ⟨hid.symm, rfl⟩,
      recorded, w', ⟨hrecorded, rfl⟩, (), w', ⟨heq, rfl⟩, hvalid.symm, rfl⟩

include hS in
theorem run_loadPatch {manifest : Manifest F} {patch : ByteArray} {w w' : TxWorld} :
    Run S (loadPatch P manifest) w (.ok patch) w' ↔
      w.files .patch = some patch ∧ patch.size ≤ maxStateFileBytes ∧
        Dict.get? manifest "prepared_patch_sha256" = some (.str (P.digests.sha256 patch)) ∧
        w' = w := by
  unfold loadPatch
  simp only [bind_eq, run_bind_ok, run_readBytes hS, run_checkItem, pure_eq, run_done]
  constructor
  · rintro ⟨data, _, ⟨hfile, hsize, rfl⟩, _, _, ⟨hdigest, rfl⟩, h, rfl⟩
    cases h
    exact ⟨hfile, hsize, hdigest, rfl⟩
  · rintro ⟨hfile, hsize, hdigest, rfl⟩
    exact ⟨patch, w', ⟨hfile, hsize, rfl⟩, (), w', ⟨hdigest, rfl⟩, rfl, rfl⟩

include hS in
theorem run_validateCommit {manifest : Manifest F} {source : String} {patch : ByteArray}
    {w w' : TxWorld} :
    Run S (validateCommit P id manifest) w (.ok (source, patch)) w' ↔
      Dict.get? manifest "status" = some (.str "prepared") ∧
        sourcePath P manifest = .ok source ∧
        Run S (checkTrees P manifest source) w (.ok ()) w ∧
        Run S (checkReceipt P id manifest) w (.ok ()) w ∧
        Run S (loadPatch P manifest) w (.ok patch) w ∧ w' = w := by
  unfold validateCommit
  simp only [bind_eq, run_bind_ok, run_checkPrepared, run_done, pure_eq]
  constructor
  · rintro ⟨_, _, ⟨hstatus, rfl⟩, source', _, ⟨hsource, rfl⟩, _, w₁, htrees, _, w₂, hreceipt,
      patch', w₃, hpatch, h, rfl⟩
    cases h
    obtain ⟨-, -, -, -, -, -, -, -, -, rfl⟩ := (run_checkTrees hS).1 htrees
    obtain ⟨-, -, -, -, -, -, -, -, -, -, rfl⟩ := (run_checkReceipt hS).1 hreceipt
    obtain ⟨-, -, -, rfl⟩ := (run_loadPatch hS).1 hpatch
    exact ⟨hstatus, hsource.symm, htrees, hreceipt, hpatch, rfl⟩
  · rintro ⟨hstatus, hsource, htrees, hreceipt, hpatch, rfl⟩
    exact ⟨(), w', ⟨hstatus, rfl⟩, source, w', ⟨hsource.symm, rfl⟩, (), w', htrees, (), w',
      hreceipt, patch, w', hpatch, rfl, rfl⟩

include hS in
/-- An empty patch changes nothing; any other was applicable, and has landed. -/
theorem run_applyPrepared {source : String} {patch : ByteArray} {u : Unit} {w w' : TxWorld} :
    Run S (applyPrepared source patch) w (.ok u) w' ↔
      (patch.size = 0 ∧ w' = w) ∨
        (patch.size ≠ 0 ∧ w.refusal git source patch = some none ∧
          w.land git source patch = some w') := by
  unfold applyPrepared
  split
  · next h => simp [h, run_done]
  · next h =>
      simp only [bind_eq, run_bind_ok, run_gitApplyCheck hS, run_raiseRefused, run_gitApply hS,
        h, false_and, false_or, ne_eq, not_false_eq_true, true_and]
      constructor
      · rintro ⟨_, _, ⟨hcheck, rfl⟩, _, _, ⟨rfl, rfl⟩, hland⟩
        exact ⟨hcheck, hland⟩
      · rintro ⟨hcheck, hland⟩
        exact ⟨none, w, ⟨hcheck, rfl⟩, (), w, ⟨rfl, rfl⟩, hland⟩

/-- The manifest of a transaction committed at a time. -/
def committedManifest (manifest : Manifest F) (now : Int) : Manifest F :=
  Dict.set (Dict.set manifest "status" (.str "committed")) "committed_at_ns" (.int now)

include hS in
theorem run_recordCommitted {manifest manifest' : Manifest F} {source : String}
    {w w' : TxWorld} :
    Run S (recordCommitted P manifest source) w (.ok manifest') w' ↔
      ∃ committed, (w.repos source).map (contentSnapshot digests) = some committed ∧
        Dict.get? manifest "prepared_source_fingerprint" =
          some (.str (fingerprint F P.digests committed)) ∧
        Run S (save (committedManifest manifest w.now)) w.tick (.ok manifest') w' := by
  unfold recordCommitted
  simp only [bind_eq, run_bind_ok, run_contentSnapshotRoot hS, run_checkItem, run_timeNs hS]
  constructor
  · rintro ⟨committed, _, ⟨hcommitted, rfl⟩, _, _, ⟨hdigest, rfl⟩, _, _, ⟨rfl, rfl⟩, hsave⟩
    exact ⟨committed, hcommitted, hdigest, hsave⟩
  · rintro ⟨committed, hcommitted, hdigest, hsave⟩
    exact ⟨committed, w, ⟨hcommitted, rfl⟩, (), w, ⟨hdigest, rfl⟩, _, _, ⟨rfl, rfl⟩, hsave⟩

include hS in
theorem run_commitLocked {manifest : Manifest F} {source : String} {w w' : TxWorld} :
    Run S (commitLocked P id manifest) w (.ok source) w' ↔
      ∃ patch w₁ manifest', Run S (validateCommit P id manifest) w (.ok (source, patch)) w ∧
        Run S (applyPrepared source patch) w (.ok ()) w₁ ∧
        Run S (recordCommitted P manifest source) w₁ (.ok manifest') w' := by
  unfold commitLocked
  simp only [bind_eq, run_bind_ok, pure_eq, run_done]
  constructor
  · rintro ⟨⟨source', patch⟩, w₁, hvalid, _, w₂, happly, manifest', w₃, hrecord, h, rfl⟩
    cases h
    obtain ⟨-, -, -, -, -, rfl⟩ := (run_validateCommit hS).1 hvalid
    exact ⟨patch, w₂, manifest', hvalid, happly, hrecord⟩
  · rintro ⟨patch, w₁, manifest', hvalid, happly, hrecord⟩
    exact ⟨(source, patch), w, hvalid, (), w₁, happly, manifest', w', hrecord, rfl, rfl⟩

include hS in
theorem run_commit {manifest : Manifest F} {w w' : TxWorld} :
    Run S (commit P id) w (.ok manifest) w' ↔
      ∃ source w₁, Run S (locked P id (commitLocked P id)) w (.ok source) w₁ ∧
        Run S (removeWorkspace source) w₁ (.ok ()) w' ∧ Run S (load P id) w' (.ok manifest) w' := by
  unfold commit
  simp only [bind_eq, run_bind_ok]
  constructor
  · rintro ⟨source, w₁, hlocked, _, w₂, hremove, hload⟩
    obtain ⟨-, -, -, -, rfl⟩ := (run_load hS).1 hload
    exact ⟨source, w₁, hlocked, hremove, hload⟩
  · rintro ⟨source, w₁, hlocked, hremove, hload⟩
    exact ⟨source, w₁, hlocked, (), w', hremove, hload⟩

end MiniCodeAgent
