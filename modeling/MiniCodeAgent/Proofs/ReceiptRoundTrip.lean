import MiniCodeAgent.Proofs.Persistence
import MiniCodeAgent.Proofs.PrepareRuns
import MiniCodeAgent.Proofs.CommitRuns

/-!
# A receipt survives the disk

The signer works on the manifest and the trajectory in memory, and goes on to
change the manifest before it is saved. The validator works on what `json.loads`
makes of four files. That the two agree rests on two facts beyond what
`Persistence.lean` says of any document: every field the validator compares is
one the signer filled in from the same place, and none of the updates `prepare`
makes after signing touches what the receipt binds.
-/

namespace MiniCodeAgent

open Prog

variable {F : Type} [Json.PyFloat F] {P : Platform F} {id : String}
variable {git : Git} {pid : Nat}

/-! ## Everything signed is a document -/

omit [Json.PyFloat F] in
theorem checkEvidence_wf {raw check : Json F} (hraw : raw.WF)
    (h : checkEvidence raw = .ok check) : check.WF := by
  unfold checkEvidence at h
  split at h
  · cases h
    have hkeys : ∀ keys : List String, keys.Nodup →
        (Json.obj (keys.filterMap fun key => (raw.get? key).map fun v => (key, v))).WF := by
      intro keys
      induction keys with
      | nil => intro _; simp
      | cons key keys ih =>
          intro hnodup
          obtain ⟨hnotMem, hnodup⟩ := List.nodup_cons.1 hnodup
          have hrest := ih hnodup
          cases hget : raw.get? key with
          | none => rwa [List.filterMap_cons_none (by rw [hget]; rfl)]
          | some v =>
              rw [List.filterMap_cons_some (b := (key, v)) (by rw [hget]; rfl)]
              rw [Json.wf_obj] at hrest ⊢
              refine ⟨List.nodup_cons.2 ⟨?_, hrest.1⟩, ?_⟩
              · intro hmem
                obtain ⟨kv, hkv, hfst⟩ := List.mem_map.1 hmem
                obtain ⟨key', hkey', hsome⟩ := List.mem_filterMap.1 hkv
                obtain ⟨v', -, rfl⟩ := Option.map_eq_some_iff.1 hsome
                obtain rfl : key' = key := hfst
                exact hnotMem hkey'
              · intro kv hkv
                rcases List.mem_cons.1 hkv with rfl | hkv
                · exact hraw.get? hget
                · exact hrest.2 kv hkv
    exact hkeys evidenceKeys (by decide)
  · cases h

theorem legacyEvidence_wf {event check : Json F} (h : legacyEvidence event = .ok check) :
    check.WF := by
  obtain ⟨durationMs, -, h⟩ := except_bind_ok.1 h
  obtain ⟨testsRun, htests, h⟩ := except_bind_ok.1 h
  cases h
  unfold legacyTestsRun at htests
  split at htests
  · cases htests
    simp [Dict.keys]
  · obtain ⟨n, -, htests⟩ := except_bind_ok.1 htests
    cases htests
    simp [Dict.keys]

theorem mapM_ok_forall {α β : Type} {f : α → Except PyExc β} {q : β → Prop} {xs : List α}
    {ys : List β} (h : xs.mapM f = .ok ys) (hf : ∀ x ∈ xs, ∀ y, f x = .ok y → q y) :
    ∀ y ∈ ys, q y := by
  induction xs generalizing ys with
  | nil =>
      cases h
      intro y hy
      cases hy
  | cons x xs ih =>
      rw [List.mapM_cons] at h
      obtain ⟨y, hy, h⟩ := except_bind_ok.1 h
      obtain ⟨ys', hys', h⟩ := except_bind_ok.1 h
      cases h
      intro z hz
      rcases List.mem_cons.1 hz with rfl | hz
      · exact hf x List.mem_cons_self _ hy
      · exact ih hys' (fun x' hx' => hf x' (List.mem_cons_of_mem _ hx')) z hz

theorem verificationChecks_wf {trajectory : Json F} {checks : List (Json F)}
    (ht : trajectory.WF) (h : verificationChecks trajectory = .ok checks) :
    ∀ check ∈ checks, check.WF := by
  obtain ⟨raw, hraw, h⟩ := except_bind_ok.1 h
  obtain ⟨events, hevents, h⟩ := except_bind_ok.1 h
  have hwf := pyList_wf (pyGet_wf ht (by simp) hraw) hevents
  split at h
  · cases h
  · next event hlast =>
    have hevent := hwf event (List.mem_filter.1 (List.mem_of_getLast? hlast)).1
    unfold eventChecks at h
    split at h
    · next raw raws hchecks =>
      have harr : (Json.arr (raw :: raws)).WF := hchecks ▸ getD_wf hevent .null
      exact mapM_ok_forall h fun x hx y hy => checkEvidence_wf (Json.wf_arr.1 harr x hx) hy
    · obtain ⟨legacy, hlegacy, h⟩ := except_bind_ok.1 h
      cases h
      intro check hcheck
      rw [List.mem_singleton.1 hcheck]
      exact legacyEvidence_wf hlegacy

/-- The values a receipt is made of are documents. -/
structure DurableEvidence.WF (e : DurableEvidence F) : Prop where
  transactionId : e.transactionId.WF
  baselineCommit : e.baselineCommit.WF
  baselineFingerprint : e.baselineFingerprint.WF
  preparedFingerprint : e.preparedFingerprint.WF
  preparedSourceFingerprint : e.preparedSourceFingerprint.WF
  preparedPatchSha256 : e.preparedPatchSha256.WF
  verificationStatus : e.verificationStatus.WF
  verificationFingerprint : e.verificationFingerprint.WF
  readSet : ∀ x ∈ e.readSet, x.WF
  writeSet : ∀ x ∈ e.writeSet, x.WF

theorem durableEvidence_ok {digests : Digests} {manifest : Manifest F} {trajectory : Json F}
    {e : DurableEvidence F} (hm : (Json.obj manifest).WF) (ht : trajectory.WF)
    (h : durableEvidence digests manifest trajectory = .ok e) :
    e.WF ∧ Dict.get? manifest "id" = some e.transactionId := by
  unfold durableEvidence at h
  obtain ⟨transactionId, hid, h⟩ := except_bind_ok.1 h
  obtain ⟨baselineCommit, hcommit, h⟩ := except_bind_ok.1 h
  obtain ⟨baselineFingerprint, hbaseline, h⟩ := except_bind_ok.1 h
  obtain ⟨preparedFingerprint, hprepared, h⟩ := except_bind_ok.1 h
  obtain ⟨preparedSourceFingerprint, hsource, h⟩ := except_bind_ok.1 h
  obtain ⟨preparedPatchSha256, hpatch, h⟩ := except_bind_ok.1 h
  obtain ⟨verificationStatus, hstatus, h⟩ := except_bind_ok.1 h
  obtain ⟨verificationFingerprint, hverified, h⟩ := except_bind_ok.1 h
  obtain ⟨accessLog, -, h⟩ := except_bind_ok.1 h
  obtain ⟨rawReadSet, hrawRead, h⟩ := except_bind_ok.1 h
  obtain ⟨readSet, hread, h⟩ := except_bind_ok.1 h
  obtain ⟨rawWriteSet, hrawWrite, h⟩ := except_bind_ok.1 h
  obtain ⟨writeSet, hwrite, h⟩ := except_bind_ok.1 h
  obtain ⟨broadRead, -, h⟩ := except_bind_ok.1 h
  obtain ⟨broadWrite, -, h⟩ := except_bind_ok.1 h
  cases h
  exact ⟨{
    transactionId := pyItem_wf hm hid
    baselineCommit := pyItem_wf hm hcommit
    baselineFingerprint := pyItem_wf hm hbaseline
    preparedFingerprint := pyItem_wf hm hprepared
    preparedSourceFingerprint := pyItem_wf hm hsource
    preparedPatchSha256 := pyItem_wf hm hpatch
    verificationStatus := pyGet_wf ht (.str _) hstatus
    verificationFingerprint := pyGet_wf ht (.str _) hverified
    readSet := pyList_wf (pyItem_wf hm hrawRead) hread
    writeSet := pyList_wf (pyItem_wf hm hrawWrite) hwrite }, pyItem_ok.1 hid⟩

theorem workspaceIdentity_wf {digests : Digests} {resolve : Json F → Except PyExc String}
    {manifest : Manifest F} {identity : Json F} (hm : (Json.obj manifest).WF)
    (h : workspaceIdentity digests resolve manifest = .ok identity) : identity.WF := by
  unfold workspaceIdentity at h
  dsimp only at h
  split at h
  · cases h
    exact getD_wf hm .null
  · obtain ⟨source, -, h⟩ := except_bind_ok.1 h
    obtain ⟨path, -, h⟩ := except_bind_ok.1 h
    cases h
    exact .str _

/-! ## The validator compares what the signer filled in -/

/-- The receipt says what the durable state says. -/
def BoundField.Holds (field : BoundField F) : Prop :=
  field.actual = field.expected ∧ field.expected.WF

theorem receiptMismatches_eq_nil {fields : List (BoundField F)}
    (h : ∀ field ∈ fields, field.Holds) : receiptMismatches fields = [] := by
  unfold receiptMismatches
  rw [List.map_eq_nil_iff, List.filter_eq_nil_iff]
  intro field hfield
  obtain ⟨hactual, hwf⟩ := h field hfield
  rw [hactual, Json.pyEq_refl hwf]
  decide

omit [Json.PyFloat F] in
theorem sectionFields_holds {payload : Json F} {sectionName : String} {kvs : Dict (Json F)}
    (hsection : payload.get? sectionName = some (.obj kvs))
    (fields : List (String × String × Json F))
    (h : ∀ field ∈ fields, Dict.get? kvs field.2.1 = some field.2.2 ∧ field.2.2.WF) :
    ∃ bound, sectionFields payload sectionName fields = .ok bound ∧
      ∀ field ∈ bound, field.Holds := by
  induction fields with
  | nil => exact ⟨[], rfl, by simp⟩
  | cons field fields ih =>
      obtain ⟨bound, hbound, hholds⟩ := ih fun f hf => h f (List.mem_cons_of_mem _ hf)
      obtain ⟨hget, hwf⟩ := h field List.mem_cons_self
      have hactual : pyGet (payload.getD sectionName (.obj [])) field.2.1 .null =
          .ok field.2.2 := by
        rw [Json.getD, hsection, Option.getD_some, pyGet, hget, Option.getD_some]
      refine ⟨⟨field.1, field.2.2, field.2.2⟩ :: bound, ?_, ?_⟩
      · unfold sectionFields at hbound ⊢
        rw [List.mapM_cons]
        exact except_bind_ok.2 ⟨_, except_bind_ok.2 ⟨_, hactual, rfl⟩,
          except_bind_ok.2 ⟨_, hbound, rfl⟩⟩
      · intro f hf
        rcases List.mem_cons.1 hf with rfl | hf
        · exact ⟨rfl, hwf⟩
        · exact hholds f hf

omit [Json.PyFloat F] in
theorem optionalFields_holds {payload : Json F} {sectionName : String} (name : String)
    {field : String} {kvs : Dict (Json F)} {expected : Json F}
    (hsection : payload.get? sectionName = some (.obj kvs))
    (hget : Dict.get? kvs field = some expected) (hwf : expected.WF) :
    ∃ bound, optionalFields payload sectionName name field (.ok expected) = .ok bound ∧
      ∀ f ∈ bound, f.Holds := by
  refine ⟨[⟨name, expected, expected⟩], ?_, ?_⟩
  · unfold optionalFields
    rw [hsection]
    show Except.ok [(⟨name, expected, (Dict.get? kvs field).getD .null⟩ : BoundField F)] = _
    rw [hget, Option.getD_some]
  · intro f hf
    rw [List.mem_singleton.1 hf]
    exact ⟨rfl, hwf⟩

/-- A payload has every section the validator looks for, filled in from the
evidence. -/
structure Signed (payload identity mode : Json F) (e : DurableEvidence F)
    (checks : List (Json F)) : Prop where
  isObj : ∃ kvs, payload = .obj kvs
  version : payload.get? "version" = some (.int 1)
  kind : payload.get? "kind" = some (.str receiptKind)
  transactionId : payload.get? "transaction_id" = some e.transactionId
  state : payload.get? "state" = some (.str "prepared")
  workspace : payload.get? "workspace" = some (.obj [("identity_sha256", identity)])
  memory : payload.get? "memory" = some (.obj [("mode", mode)])
  baseline : payload.get? "baseline" = some (.obj [("commit", e.baselineCommit),
    ("workspace_fingerprint", e.baselineFingerprint)])
  prepared : payload.get? "prepared" = some (.obj [
    ("workspace_fingerprint", e.preparedFingerprint),
    ("projected_source_fingerprint", e.preparedSourceFingerprint),
    ("patch_sha256", e.preparedPatchSha256)])
  verification : payload.get? "verification" = some (.obj [("status", e.verificationStatus),
    ("fingerprint", e.verificationFingerprint), ("checks", .arr checks)])
  provenance : payload.get? "provenance" = some (.obj [
    ("trajectory_sha256", .str e.trajectorySha256),
    ("access_log_sha256", .str e.accessLogSha256),
    ("read_set", .arr e.readSet), ("write_set", .arr e.writeSet),
    ("broad_read", .bool e.broadRead), ("broad_write", .bool e.broadWrite)])

/-- The memory mode a receipt records. -/
def memoryMode (manifest : Manifest F) : Json F := (Json.obj manifest).getD "memory_mode" (.str "off")

theorem receiptPayload_signed {digests : Digests} {resolve : Json F → Except PyExc String}
    {manifest : Manifest F} {trajectory payload : Json F} {checks : List (Json F)}
    {issuedAt : Int} (hm : (Json.obj manifest).WF) (ht : trajectory.WF)
    (hchecks : ∀ check ∈ checks, check.WF)
    (h : receiptPayload digests resolve manifest trajectory checks issuedAt = .ok payload) :
    payload.WF ∧ ∃ identity e, workspaceIdentity digests resolve manifest = .ok identity ∧
      durableEvidence digests manifest trajectory = .ok e ∧
      Signed payload identity (memoryMode manifest) e checks := by
  obtain ⟨identity, hidentity, h⟩ := except_bind_ok.1 h
  obtain ⟨e, he, h⟩ := except_bind_ok.1 h
  cases h
  obtain ⟨hwf, -⟩ := durableEvidence_ok hm ht he
  have hmode : (memoryMode manifest).WF := getD_wf hm (.str _)
  constructor
  · have hid := workspaceIdentity_wf hm hidentity
    unfold memoryMode at hmode
    simp [Dict.keys, hwf.transactionId, hwf.baselineCommit, hwf.baselineFingerprint,
      hwf.preparedFingerprint, hwf.preparedSourceFingerprint, hwf.preparedPatchSha256,
      hwf.verificationStatus, hwf.verificationFingerprint, hid, hmode]
    exact ⟨hchecks, hwf.readSet, hwf.writeSet⟩
  · exact ⟨identity, e, hidentity, he, ⟨⟨_, rfl⟩, rfl, rfl, rfl, rfl, rfl, rfl, rfl, rfl, rfl, rfl⟩⟩

/-- What a manifest and a trajectory were signed for is what they are validated for. -/
theorem boundFields_holds {digests : Digests} {resolve : Json F → Except PyExc String}
    {manifest : Manifest F} {trajectory payload identity : Json F} {e : DurableEvidence F}
    {checks : List (Json F)} (hm : (Json.obj manifest).WF) (ht : trajectory.WF)
    (hidentity : workspaceIdentity digests resolve manifest = .ok identity)
    (he : durableEvidence digests manifest trajectory = .ok e)
    (h : Signed payload identity (memoryMode manifest) e checks) :
    ∃ fields, boundFields digests resolve payload manifest trajectory = .ok fields ∧
      ∀ field ∈ fields, field.Holds := by
  obtain ⟨hwf, -⟩ := durableEvidence_ok hm ht he
  obtain ⟨baseline, hbaseline, hbaseline'⟩ := sectionFields_holds h.baseline
    [("baseline_commit", "commit", e.baselineCommit),
      ("baseline_fingerprint", "workspace_fingerprint", e.baselineFingerprint)]
    (by
      rintro field (_ | ⟨_, _ | ⟨_, ⟨⟩⟩⟩)
      · exact ⟨rfl, hwf.baselineCommit⟩
      · exact ⟨rfl, hwf.baselineFingerprint⟩)
  obtain ⟨prepared, hprepared, hprepared'⟩ := sectionFields_holds h.prepared
    [("prepared_fingerprint", "workspace_fingerprint", e.preparedFingerprint),
      ("prepared_source_fingerprint", "projected_source_fingerprint",
        e.preparedSourceFingerprint),
      ("prepared_patch_sha256", "patch_sha256", e.preparedPatchSha256)]
    (by
      rintro field (_ | ⟨_, _ | ⟨_, _ | ⟨_, ⟨⟩⟩⟩⟩)
      · exact ⟨rfl, hwf.preparedFingerprint⟩
      · exact ⟨rfl, hwf.preparedSourceFingerprint⟩
      · exact ⟨rfl, hwf.preparedPatchSha256⟩)
  obtain ⟨verification, hverification, hverification'⟩ := sectionFields_holds h.verification
    [("verification_status", "status", e.verificationStatus),
      ("verification_fingerprint", "fingerprint", e.verificationFingerprint)]
    (by
      rintro field (_ | ⟨_, _ | ⟨_, ⟨⟩⟩⟩)
      · exact ⟨rfl, hwf.verificationStatus⟩
      · exact ⟨rfl, hwf.verificationFingerprint⟩)
  obtain ⟨provenance, hprovenance, hprovenance'⟩ := sectionFields_holds h.provenance
    [("trajectory_sha256", "trajectory_sha256", .str e.trajectorySha256),
      ("access_log_sha256", "access_log_sha256", .str e.accessLogSha256),
      ("read_set", "read_set", .arr e.readSet), ("write_set", "write_set", .arr e.writeSet),
      ("broad_read", "broad_read", .bool e.broadRead),
      ("broad_write", "broad_write", .bool e.broadWrite)]
    (by
      rintro field (_ | ⟨_, _ | ⟨_, _ | ⟨_, _ | ⟨_, _ | ⟨_, _ | ⟨_, ⟨⟩⟩⟩⟩⟩⟩⟩)
      · exact ⟨rfl, .str _⟩
      · exact ⟨rfl, .str _⟩
      · exact ⟨rfl, .arr hwf.readSet⟩
      · exact ⟨rfl, .arr hwf.writeSet⟩
      · exact ⟨rfl, .bool _⟩
      · exact ⟨rfl, .bool _⟩)
  obtain ⟨workspace, hworkspace, hworkspace'⟩ := optionalFields_holds
    "workspace_identity_sha256" h.workspace (show Dict.get? _ "identity_sha256" = some _ from rfl)
    (workspaceIdentity_wf hm hidentity)
  obtain ⟨memory, hmemory, hmemory'⟩ := optionalFields_holds
    "memory_mode" h.memory (show Dict.get? _ "mode" = some _ from rfl)
    (show (memoryMode manifest).WF from getD_wf hm (.str _))
  have hid : payload.getD "transaction_id" .null = e.transactionId := by
    rw [Json.getD, h.transactionId, Option.getD_some]
  refine ⟨⟨"transaction_id", e.transactionId, payload.getD "transaction_id" .null⟩ ::
    (baseline ++ (prepared ++ (verification ++ (provenance ++ (workspace ++ memory))))), ?_, ?_⟩
  · unfold boundFields
    unfold memoryMode at hmemory
    simp only [he, hidentity, except_ok_bind, hbaseline, hprepared, hverification, hprovenance,
      hworkspace, hmemory]
    rfl
  · intro field hfield
    simp only [List.mem_cons, List.mem_append] at hfield
    rcases hfield with rfl | hfield | hfield | hfield | hfield | hfield | hfield
    · exact ⟨hid, hwf.transactionId⟩
    · exact hbaseline' field hfield
    · exact hprepared' field hfield
    · exact hverification' field hfield
    · exact hprovenance' field hfield
    · exact hworkspace' field hfield
    · exact hmemory' field hfield

theorem validateReceipt_ok {digests : Digests} {resolve : Json F → Except PyExc String}
    {manifest : Manifest F} {trajectory envelope payload : Json F} {fields : List (BoundField F)}
    (hpayload : envelope.get? "payload" = some payload)
    (hfields : boundFields digests resolve payload manifest trajectory = .ok fields)
    (h : ∀ field ∈ fields, field.Holds) :
    validateReceipt digests resolve envelope manifest trajectory = .ok () := by
  unfold validateReceipt
  rw [pyItem_ok.2 hpayload, except_ok_bind, hfields, except_ok_bind, receiptMismatches_eq_nil h,
    raiseIf_ok]
  simp

/-! ## What prepare does to a manifest after signing it -/

omit [Json.PyFloat F] in
theorem pyItem_set {manifest : Manifest F} {key key' : String} {value : Json F}
    (h : key ≠ key') :
    pyItem key' (.obj (Dict.set manifest key value)) = pyItem key' (.obj manifest) := by
  unfold pyItem
  rw [Json.get?_obj, Json.get?_obj, Dict.get?_set, if_neg h]

omit [Json.PyFloat F] in
theorem getD_set {manifest : Manifest F} {key key' : String} {value default : Json F}
    (h : key ≠ key') :
    (Json.obj (Dict.set manifest key value)).getD key' default =
      (Json.obj manifest).getD key' default := by
  unfold Json.getD
  rw [Json.get?_obj, Json.get?_obj, Dict.get?_set, if_neg h]

/-- The fields of a manifest a receipt binds. -/
def boundKeys : List String :=
  ["id", "baseline_commit", "baseline_fingerprint", "prepared_fingerprint",
    "prepared_source_fingerprint", "prepared_patch_sha256", "access_log", "read_set",
    "write_set", "broad_read", "broad_write", "workspace_identity_sha256", "source",
    "memory_mode"]

theorem ne_of_notMem_boundKeys {key key' : String} (h : key ∉ boundKeys)
    (h' : key' ∈ boundKeys) : key ≠ key' := by
  rintro rfl
  exact h h'

theorem durableEvidence_set {digests : Digests} {manifest : Manifest F} {trajectory : Json F}
    {key : String} {value : Json F} (h : key ∉ boundKeys) :
    durableEvidence digests (Dict.set manifest key value) trajectory =
      durableEvidence digests manifest trajectory := by
  have hitem : ∀ key' ∈ boundKeys,
      pyItem key' (.obj (Dict.set manifest key value)) = pyItem key' (.obj manifest) :=
    fun key' hmem => pyItem_set (ne_of_notMem_boundKeys h hmem)
  unfold durableEvidence
  dsimp only
  rw [hitem "id" (by decide), hitem "baseline_commit" (by decide),
    hitem "baseline_fingerprint" (by decide), hitem "prepared_fingerprint" (by decide),
    hitem "prepared_source_fingerprint" (by decide), hitem "prepared_patch_sha256" (by decide),
    hitem "access_log" (by decide), hitem "read_set" (by decide), hitem "write_set" (by decide),
    hitem "broad_read" (by decide), hitem "broad_write" (by decide)]

theorem workspaceIdentity_set {digests : Digests} {resolve : Json F → Except PyExc String}
    {manifest : Manifest F} {key : String} {value : Json F} (h : key ∉ boundKeys) :
    workspaceIdentity digests resolve (Dict.set manifest key value) =
      workspaceIdentity digests resolve manifest := by
  have hidentity : key ≠ "workspace_identity_sha256" := ne_of_notMem_boundKeys h (by decide)
  have hsource : key ≠ "source" := ne_of_notMem_boundKeys h (by decide)
  unfold workspaceIdentity
  dsimp only
  rw [getD_set hidentity, pyItem_set hsource]

omit [Json.PyFloat F] in
theorem memoryMode_set {manifest : Manifest F} {key : String} {value : Json F}
    (h : key ∉ boundKeys) : memoryMode (Dict.set manifest key value) = memoryMode manifest :=
  getD_set (ne_of_notMem_boundKeys h (by decide))

theorem receiptEnvelope_wf {digests : Digests} {key : ByteArray} {payload : Json F} (h : payload.WF) : (receiptEnvelope digests key payload).WF := by
  simp [receiptEnvelope, Dict.keys, h]

theorem compareDigest_self {text : String} (h : isAscii text = true) :
    compareDigest text text = .ok true := by
  unfold compareDigest
  rw [h, Bool.and_self, if_pos rfl, beq_self_eq_true]

/-- An envelope is accepted under the key it was made with. -/
theorem checkReceipt_envelope {digests : Digests} {repr : Json F → String} {key : ByteArray}
    {payload identity mode : Json F} {e : DurableEvidence F} {checks : List (Json F)}
    (h : Signed payload identity mode e checks) (hid : e.transactionId = .str id) :
    checkReceiptDigest digests repr id (receiptEnvelope digests key payload) = .ok payload ∧
      checkReceiptMac digests repr key (receiptEnvelope digests key payload) payload =
        .ok () := by
  have hpayload : envelopePayload (receiptEnvelope digests key payload) = .ok payload := by
    obtain ⟨kvs, rfl⟩ := h.isObj
    rfl
  have hidentity : hasReceiptIdentity id payload = true := by
    unfold hasReceiptIdentity Json.getD
    rw [h.version, h.kind, h.transactionId, h.state, hid]
    simp [Json.pyEq]
  constructor
  · unfold checkReceiptDigest
    rw [hpayload, except_ok_bind, hidentity]
    refine except_bind_ok.2 ⟨(), rfl, except_bind_ok.2 ⟨true, ?_, rfl⟩⟩
    exact compareDigest_self (isAscii_of_isHex (digests.sha256_hex _))
  · unfold checkReceiptMac
    refine except_bind_ok.2 ⟨true, ?_, rfl⟩
    exact compareDigest_self (isAscii_of_isHex (digests.hmacSha256_hex _ _))

/-- The checks a receipt records. -/
def receiptChecks (envelope : Json F) : Option (Json F) := do
  let payload ← envelope.get? "payload"
  let verification ← payload.get? "verification"
  verification.get? "checks"

/-! ## The round trip -/

theorem preparedManifest_loaded {manifest : Manifest F} (h : Loaded P id manifest)
    (baseline : Baseline) (p : Prepared) : Loaded P id (preparedManifest P manifest baseline p) := by
  unfold preparedManifest
  exact (((((h.set (.str _) (by decide)).set (.str _) (by decide)).set (.str _) (by decide)).set
    (.str _) (by decide)).set (.str _) (by decide)).set (.str _) (by decide)

section Left

variable {S : TxWorld → TxEvent → TxWorld → Prop} (hS : OkAnswers P.digests git pid S)
variable {trajectory : Json F} {x : PrepareSteps F} {w w' : TxWorld}

theorem Prepares.prepared_loaded (h : Prepares S P.digests git pid P id trajectory w x w') :
    Loaded P id (x.prepared P) := by
  obtain ⟨data, -, -, hdecode⟩ := h.loaded
  exact preparedManifest_loaded (decodeManifest_loaded hdecode) _ _

include hS in
/-- What the receipt of a prepare says, and that the saved manifest is still what
it says it of. -/
theorem Prepares.signed (ht : trajectory.WF)
    (h : Prepares S P.digests git pid P id trajectory w x w') :
    ∃ key payload identity e checks, decodeKey w'.key = .ok key ∧
      x.receipt = receiptEnvelope P.digests key payload ∧ payload.WF ∧
      verificationChecks trajectory = .ok checks ∧
      workspaceIdentity P.digests P.resolve (x.final P) = .ok identity ∧
      durableEvidence P.digests (x.final P) trajectory = .ok e ∧ e.transactionId = .str id ∧
      Signed payload identity (memoryMode (x.final P)) e checks ∧
      (jsonBytes x.receipt).size ≤ maxStateFileBytes := by
  obtain ⟨checks, payload, key, hchecks, hpayload, hreceipt, hsize, hkey⟩ := h.key_left hS
  have hm := h.prepared_loaded
  obtain ⟨hwf, identity, e, hidentity, he, hsigned⟩ :=
    receiptPayload_signed hm.wf ht (verificationChecks_wf ht hchecks) hpayload
  have hid : e.transactionId = .str id := by
    have := (durableEvidence_ok hm.wf ht he).2
    rw [hm.sameId] at this
    exact (Option.some.inj this).symm
  refine ⟨key, payload, identity, e, checks, hkey, hreceipt, hwf, hchecks, ?_, ?_, hid, ?_, hsize⟩
  · rw [PrepareSteps.final, stamped, workspaceIdentity_set (by decide),
      workspaceIdentity_set (by decide)]
    exact hidentity
  · rw [PrepareSteps.final, stamped, durableEvidence_set (by decide),
      durableEvidence_set (by decide)]
    exact he
  · rw [PrepareSteps.final, stamped, memoryMode_set (by decide), memoryMode_set (by decide)]
    exact hsigned

/-- The identifier in an envelope is a document of its own. -/
theorem receiptId_str {digests : Digests} {key : ByteArray} {payload receiptId : Json F}
    (h : pyItem "receipt_id" (receiptEnvelope digests key payload) = .ok receiptId) :
    receiptId = .str (digestJson digests payload) := by
  cases pyItem_ok.1 h
  rfl

include hS in
theorem Prepares.final_loaded (ht : trajectory.WF)
    (h : Prepares S P.digests git pid P id trajectory w x w') : Loaded P id (x.final P) := by
  obtain ⟨key, payload, -, -, -, -, hreceipt, -⟩ := h.signed hS ht
  have hid := h.receiptId
  rw [hreceipt] at hid
  unfold PrepareSteps.final stamped
  rw [receiptId_str hid]
  exact (h.prepared_loaded.set (.str _) (by decide)).set (.int _) (by decide)

end Left

/-- A prepare that prepared leaves a manifest, a trajectory, a receipt and a
patch that are read back as they were, by anyone who finds these files and the
key; and the receipt read back is accepted for the manifest and the trajectory
read back. -/
theorem prepare_receipt_reloads {trajectory : Json F} {manifest : Manifest F} {w w' : TxWorld}
    (ht : trajectory.WF)
    (hrun : Run (TxMayFail P.digests git pid) (prepare P id trajectory) w (.ok manifest) w')
    (hstatus : Dict.get? manifest "status" = some (.str "prepared")) :
    ∃ x checks, Prepares (TxMayFail P.digests git pid) P.digests git pid P id trajectory w x w' ∧
      verificationChecks trajectory = .ok checks ∧
      ∀ (reader : Nat) (v : TxWorld), v.files = w'.files → v.key = w'.key →
        exec (answer P.digests git reader) (load P id) v = (.ok manifest, v) ∧
        exec (answer P.digests git reader) loadTrajectory v = (.ok trajectory, v) ∧
        exec (answer P.digests git reader) (loadReceipt P id) v = (.ok x.receipt, v) ∧
        exec (answer P.digests git reader) (loadPatch P manifest) v = (.ok x.patch, v) ∧
        validateReceipt P.digests P.resolve x.receipt manifest trajectory = .ok () ∧
        Dict.get? manifest "receipt_id" = x.receipt.get? "receipt_id" ∧
        receiptChecks x.receipt = some (.arr checks) := by
  have hS : OkAnswers P.digests git pid (TxMayFail P.digests git pid) := mayFail_okAnswers
  obtain ⟨x, hx, rfl⟩ := prepares_of_run hS hrun hstatus
  obtain ⟨key, payload, identity, e, checks, hkey, hreceipt, hwf, hchecks, hidentity, he, hid,
    hsigned, hsize⟩ := hx.signed hS ht
  obtain ⟨hfmanifest, hfreceipt, hftrajectory, hfpatch⟩ := hx.files_left hS
  have hfinal := hx.final_loaded hS ht
  obtain ⟨fields, hfields, hholds⟩ := boundFields_holds hfinal.wf ht hidentity he hsigned
  refine ⟨x, checks, hx, hchecks, fun reader v hfiles hvkey => ?_⟩
  have hA : OkAnswers P.digests git reader (Answers (answer P.digests git reader)) :=
    answers_okAnswers
  refine ⟨?_, ?_, ?_, ?_, ?_, ?_, ?_⟩
  · refine (run_answers _).1 ((run_load hA).2 ⟨_, ?_, hx.manifestSize, hfinal.decode, rfl⟩)
    rw [hfiles, hfmanifest]
  · refine (run_answers _).1 ((run_loadTrajectory hA).2
      ⟨_, ?_, hx.trajectorySize, decodeJson_jsonBytes ht, rfl⟩)
    rw [hfiles, hftrajectory]
  · obtain ⟨hdigest, hmac⟩ :=
      @checkReceipt_envelope F _ id P.digests P.repr key _ _ _ _ _ hsigned hid
    refine (run_answers _).1 ((run_loadReceipt hA).2 ⟨_, payload, key, ?_, hsize, ?_, ?_, ?_, ?_, rfl⟩)
    · rw [hfiles, hfreceipt]
    · rw [hreceipt]
      exact decodeJson_jsonBytes (receiptEnvelope_wf hwf)
    · rw [hreceipt]
      exact hdigest
    · rw [hvkey, hkey]
    · rw [hreceipt]
      exact hmac
  · refine (run_answers _).1 ((run_loadPatch hA).2 ⟨?_, hx.patchSize, ?_, rfl⟩)
    · rw [hfiles, hfpatch]
    · simp [PrepareSteps.final, PrepareSteps.prepared, stamped, preparedManifest]
  · have hpayload : x.receipt.get? "payload" = some payload := by
      rw [hreceipt]
      rfl
    exact validateReceipt_ok hpayload hfields hholds
  · have hreceiptId := pyItem_ok.1 hx.receiptId
    rw [hreceiptId, PrepareSteps.final, stamped, Dict.get?_set, if_neg (by decide),
      Dict.get?_set, if_pos rfl]
  · rw [hreceipt]
    show (do
      let verification ← payload.get? "verification"
      verification.get? "checks") = some (Json.arr checks)
    rw [hsigned.verification]
    rfl

theorem prepare_receipt_reloads_small :
    ∃ w', Run (TxMayFail Small.platform.digests Small.git 0)
        (prepare Small.platform Small.id Small.trajectory) Small.world
        (.ok ((Small.steps 0).final Small.platform)) w' ∧
      ∃ x checks, Prepares (TxMayFail Small.platform.digests Small.git 0) Small.platform.digests
          Small.git 0 Small.platform Small.id Small.trajectory Small.world x w' ∧
        verificationChecks Small.trajectory = .ok checks ∧
        exec (answer Small.platform.digests Small.git 1) (loadReceipt Small.platform Small.id) w' =
          (.ok x.receipt, w') ∧
        receiptChecks x.receipt = some (.arr checks) := by
  obtain ⟨w', hrun⟩ : ∃ w', Run (TxMayFail Small.platform.digests Small.git 0)
      (prepare Small.platform Small.id Small.trajectory) Small.world
      (.ok ((Small.steps 0).final Small.platform)) w' :=
    ⟨_, (Small.prepares mayFail_okAnswers).run mayFail_okAnswers⟩
  have hwf : Small.trajectory.WF := by simp [Small.trajectory, Dict.keys]
  obtain ⟨x, checks, hx, hchecks, hreads⟩ :=
    prepare_receipt_reloads hwf hrun (PrepareSteps.final_status _)
  obtain ⟨-, -, hreceipt, -, -, -, hsame⟩ := hreads 1 w' rfl rfl
  exact ⟨w', hrun, x, checks, hx, hchecks, hreceipt, hsame⟩

end MiniCodeAgent
