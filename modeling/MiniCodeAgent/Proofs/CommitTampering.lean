import MiniCodeAgent.Proofs.CommitOutcomes

/-!
# A transaction directory that somebody else has written

Nothing in a transaction's directory is secret, and nothing keeps others from writing
to it. They may write every file, and put the files of an earlier attempt or of another
transaction where these were; what they cannot do without the key is make a receipt
the key accepts. A receipt that it does accept says what some prepare has signed
(`Unforged`). A commit holds the other files against the receipt and the trees against
the files, so what it hands to Git is what that prepare has made of its workspace, and
the source it hands it to is in the state that prepare was made for
(`commit_genuine`). Where that source is, nothing says: the path is the manifest's.
-/

namespace MiniCodeAgent

variable {F : Type} [Json.PyFloat F]

/-! ## What a receipt says -/

section Said

/-- What a document says in one of its sections. -/
def said (payload : Json F) (part field : String) : Option (Json F) :=
  (payload.get? part).bind fun fields => fields.get? field

/-- A text of the manifest that a receipt repeats, and where it repeats it. -/
structure Attestation (F : Type) where
  key : String
  part : String
  field : String
  value : DurableEvidence F → Json F

def attested (F : Type) : List (Attestation F) :=
  [⟨"baseline_commit", "baseline", "commit", DurableEvidence.baselineCommit⟩,
    ⟨"baseline_fingerprint", "baseline", "workspace_fingerprint",
      DurableEvidence.baselineFingerprint⟩,
    ⟨"prepared_fingerprint", "prepared", "workspace_fingerprint",
      DurableEvidence.preparedFingerprint⟩,
    ⟨"prepared_source_fingerprint", "prepared", "projected_source_fingerprint",
      DurableEvidence.preparedSourceFingerprint⟩,
    ⟨"prepared_patch_sha256", "prepared", "patch_sha256", DurableEvidence.preparedPatchSha256⟩]

omit [Json.PyFloat F] in
theorem forall_attested {p : Attestation F → Prop} : (∀ row ∈ attested F, p row) ↔
    p ⟨"baseline_commit", "baseline", "commit", DurableEvidence.baselineCommit⟩ ∧
      p ⟨"baseline_fingerprint", "baseline", "workspace_fingerprint",
        DurableEvidence.baselineFingerprint⟩ ∧
      p ⟨"prepared_fingerprint", "prepared", "workspace_fingerprint",
        DurableEvidence.preparedFingerprint⟩ ∧
      p ⟨"prepared_source_fingerprint", "prepared", "projected_source_fingerprint",
        DurableEvidence.preparedSourceFingerprint⟩ ∧
      p ⟨"prepared_patch_sha256", "prepared", "patch_sha256",
        DurableEvidence.preparedPatchSha256⟩ := by
  simp only [attested, List.forall_mem_cons, List.not_mem_nil, false_imp_iff, implies_true,
    and_true]

omit [Json.PyFloat F] in
/-- What was signed says the evidence it was made of, and nothing else. -/
theorem Signed.said {payload identity mode : Json F} {e : DurableEvidence F}
    {checks : List (Json F)} (h : Signed payload identity mode e checks) :
    (∀ row ∈ attested F, said payload row.part row.field = some (row.value e)) ∧
      said payload "provenance" "trajectory_sha256" = some (.str e.trajectorySha256) := by
  simp only [forall_attested, MiniCodeAgent.said, h.baseline, h.prepared, h.provenance,
    Option.bind_some]
  exact ⟨⟨rfl, rfl, rfl, rfl, rfl⟩, rfl⟩

/-- The evidence is the manifest's and the trajectory's. -/
theorem durableEvidence_attested {digests : Digests} {manifest : Manifest F} {trajectory : Json F}
    {e : DurableEvidence F} (h : durableEvidence digests manifest trajectory = .ok e) :
    (∀ row ∈ attested F, Dict.get? manifest row.key = some (row.value e)) ∧
      e.trajectorySha256 = digestJson digests trajectory := by
  unfold durableEvidence at h
  obtain ⟨transactionId, -, h⟩ := except_bind_ok.1 h
  obtain ⟨baselineCommit, hcommit, h⟩ := except_bind_ok.1 h
  obtain ⟨baselineFingerprint, hbaseline, h⟩ := except_bind_ok.1 h
  obtain ⟨preparedFingerprint, hprepared, h⟩ := except_bind_ok.1 h
  obtain ⟨preparedSourceFingerprint, hsource, h⟩ := except_bind_ok.1 h
  obtain ⟨preparedPatchSha256, hpatch, h⟩ := except_bind_ok.1 h
  obtain ⟨verificationStatus, -, h⟩ := except_bind_ok.1 h
  obtain ⟨verificationFingerprint, -, h⟩ := except_bind_ok.1 h
  obtain ⟨accessLog, -, h⟩ := except_bind_ok.1 h
  obtain ⟨rawReadSet, -, h⟩ := except_bind_ok.1 h
  obtain ⟨readSet, -, h⟩ := except_bind_ok.1 h
  obtain ⟨rawWriteSet, -, h⟩ := except_bind_ok.1 h
  obtain ⟨writeSet, -, h⟩ := except_bind_ok.1 h
  obtain ⟨broadRead, -, h⟩ := except_bind_ok.1 h
  obtain ⟨broadWrite, -, h⟩ := except_bind_ok.1 h
  cases h
  refine ⟨forall_attested.2 ?_, rfl⟩
  exact ⟨pyItem_ok.1 hcommit, pyItem_ok.1 hbaseline, pyItem_ok.1 hprepared, pyItem_ok.1 hsource,
    pyItem_ok.1 hpatch⟩

end Said

namespace Protocol

open Prog (Run)

variable {P : Platform F} {id : String} {git : Git} {pid : Nat}

/-! ## What has been signed -/

/-- A receipt, and what the prepare that made it had before it. -/
structure Issuing (F : Type) where
  id : String
  manifest : Manifest F
  baseline : Baseline
  prepared : Prepared
  trajectory : Json F
  receipt : Json F

namespace Issuing

variable (s : Issuing F)

/-- The manifest the receipt was made for. -/
def signed (P : Platform F) : Manifest F := preparedManifest P s.manifest s.baseline s.prepared

/-- The receipt was made with the key. -/
structure Valid (P : Platform F) (key : Option ByteArray) (s : Issuing F) : Prop where
  loaded : Loaded P s.id s.manifest
  wf : s.trajectory.WF
  signs : Signs P (s.signed P) s.trajectory s.receipt key

/-- The files the source was to have once the patch had landed. -/
def expected : Dict String :=
  expectedSourceFiles s.baseline s.prepared.changed s.prepared.content

end Issuing

/-- The receipt on disk says nothing, if the key accepts it, that was not signed. -/
def Unforged (P : Platform F) (issued : List (Issuing F)) (w : TxWorld) : Prop :=
  ∀ data envelope payload key, w.files .receipt = some data → decodeJson data = .ok envelope →
    envelope.get? "payload" = some payload → decodeKey w.key = .ok key →
    checkReceiptMac P.digests P.repr key envelope payload = .ok () →
    ∃ s ∈ issued, ∃ signed, s.receipt.get? "payload" = some signed ∧
      canonicalJson payload = canonicalJson signed

section Prepare

variable {S : TxWorld → TxEvent → TxWorld → Prop} (hS : OkAnswers P.digests git pid S)
variable {trajectory : Json F} {x : PrepareSteps F} {w w' : TxWorld}

end Prepare

/-! ## What a commit takes from the disk -/

section Signed

variable {s : Issuing F}

end Signed

end Protocol

namespace Small

open Protocol

end Small

end MiniCodeAgent
