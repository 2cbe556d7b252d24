import MiniCodeAgent.Proofs.TransactionProtocol

/-!
# What a prepared transaction rests on

A prepare writes the manifest last. So at whatever point a process is stopped,
and whoever else is preparing, committing or aborting meanwhile, a manifest that
says prepared or committed stands beside the patch, the trajectory and the
receipt it was written for: the trajectory was submitted, it was verified in the
workspace the manifest names, and the receipt passes every check a commit makes
of it.
-/

namespace MiniCodeAgent

namespace Protocol

open Prog (Run Turns exec Answers run_answers)

variable {F : Type} [Json.PyFloat F] {P : Platform F} {id : String} {git : Git}

/-! ## What is stored -/

theorem Stored.unique {d : Durable} {manifest manifest' : Manifest F}
    (h : Stored P id d manifest) (h' : Stored P id d manifest') : manifest = manifest' := by
  obtain ⟨data, hdata, -, hdecode⟩ := h
  obtain ⟨data', hdata', -, hdecode'⟩ := h'
  cases hdata.symm.trans hdata'
  exact Except.ok.inj (hdecode.symm.trans hdecode')

theorem Stored.loaded {d : Durable} {manifest : Manifest F} (h : Stored P id d manifest) :
    Loaded P id manifest := by
  obtain ⟨_, -, -, hdecode⟩ := h
  exact decodeManifest_loaded hdecode

theorem Stored.source {d : Durable} {manifest : Manifest F} (h : Stored P id d manifest) :
    ∃ source, sourcePath P manifest = .ok source := by
  obtain ⟨source, path, hsource, hpath⟩ := h.loaded.source
  exact ⟨path, except_bind_ok.2 ⟨source, pyItem_ok.2 hsource, hpath⟩⟩

theorem stamped_loaded {manifest : Manifest F} (h : Loaded P id manifest) (now : Int) :
    Loaded P id (stamped manifest now) := h.set (.int now) (by decide)

/-- A manifest that is written is read again. -/
theorem stored_save {d : Durable} {manifest : Manifest F} {now : Int} (h : Loaded P id manifest)
    (hfits : Fits manifest now) : Stored P id (d.save manifest now) (stamped manifest now) :=
  ⟨_, Durable.setFile_files_self, hfits, (stamped_loaded h now).decode⟩

omit [Json.PyFloat F] in
theorem stamped_get? {manifest : Manifest F} {now : Int} {key : String}
    (h : "updated_at_ns" ≠ key) : Dict.get? (stamped manifest now) key = Dict.get? manifest key := by
  rw [stamped, Dict.get?_set, if_neg h]

omit [Json.PyFloat F] in
theorem hasStatus_stamped {manifest : Manifest F} {now : Int} {text : String} :
    HasStatus (stamped manifest now) text ↔ HasStatus manifest text := by
  rw [HasStatus, HasStatus, Protocol.status, Protocol.status, stamped_get? (by decide)]

omit [Json.PyFloat F] in
theorem HasStatus.unique {manifest : Manifest F} {text text' : String}
    (h : HasStatus manifest text) (h' : HasStatus manifest text') : text = text' := by
  cases h.symm.trans h'
  rfl

theorem committedManifest_loaded {manifest : Manifest F} (h : Loaded P id manifest) (now : Int) :
    Loaded P id (committedManifest manifest now) :=
  (h.set (.str _) (by decide)).set (.int now) (by decide)

theorem abortedManifest_loaded {manifest : Manifest F} (h : Loaded P id manifest) (now : Int) :
    Loaded P id (abortedManifest manifest now) :=
  (h.set (.str _) (by decide)).set (.int now) (by decide)

theorem Proposal.saved_loaded {manifest : Manifest F} (h : Loaded P id manifest)
    (x : Proposal F) : Loaded P id (x.saved P manifest) :=
  (preparedManifest_loaded h x.baseline x.prepared).set (.str x.receiptId) (by decide)

omit [Json.PyFloat F] in
theorem sourcePath_congr {manifest manifest' : Manifest F}
    (h : Dict.get? manifest' "source" = Dict.get? manifest "source") :
    sourcePath P manifest' = sourcePath P manifest := by
  unfold sourcePath pyItem
  rw [Json.get?_obj, Json.get?_obj, h]

/-- What a manifest with its receipt says of the patch. -/
theorem Proposal.saved_patched {d : Durable} {manifest : Manifest F} {x : Proposal F}
    {source : String} {now : Int} (hsource : sourcePath P manifest = .ok source)
    (hpatch : d.files .patch = some x.prepared.patch) :
    Patched P (d.save (x.saved P manifest) now) (stamped (x.saved P manifest) now) source
      x.prepared.patch where
  resolved := by
    rw [← hsource]
    refine sourcePath_congr ?_
    rw [stamped_get? (by decide), Proposal.saved, Proposal.signed, preparedManifest]
    simp only [Dict.get?_set, String.reduceEq, if_false]
  onDisk := (Durable.setFile_files_of_ne (by decide)).trans hpatch
  digest := by
    rw [stamped_get? (by decide), Proposal.saved, Proposal.signed, preparedManifest]
    simp only [Dict.get?_set, String.reduceEq, if_false, if_true]

theorem Proposal.saved_status {manifest : Manifest F} {x : Proposal F} :
    HasStatus (x.saved P manifest) "prepared" := by
  rw [HasStatus, Protocol.status, Proposal.saved, Dict.get?_set, if_neg (by decide),
    Proposal.signed, preparedManifest_status]

omit [Json.PyFloat F] in
theorem failedManifest_status {manifest : Manifest F} {failure : String}
    (h : HasStatus manifest "open") : HasStatus (failedManifest manifest failure) "open" := by
  rw [HasStatus, Protocol.status, failedManifest, Dict.get?_set, if_neg (by decide)]
  exact h

omit [Json.PyFloat F] in
theorem committedManifest_status {manifest : Manifest F} {now : Int} :
    HasStatus (committedManifest manifest now) "committed" := by
  rw [HasStatus, Protocol.status, committedManifest, Dict.get?_set, if_neg (by decide),
    Dict.get?_set, if_pos rfl]

omit [Json.PyFloat F] in
theorem abortedManifest_status {manifest : Manifest F} {now : Int} :
    HasStatus (abortedManifest manifest now) "aborted" := by
  rw [HasStatus, Protocol.status, abortedManifest, Dict.get?_set, if_neg (by decide),
    Dict.get?_set, if_pos rfl]

theorem committedManifest_patched {d : Durable} {manifest : Manifest F} {source : String}
    {patch : ByteArray} (h : Patched P d manifest source patch) (committedAt now : Int) :
    Patched P (d.save (committedManifest manifest committedAt) now)
      (stamped (committedManifest manifest committedAt) now) source patch where
  resolved := by
    rw [← h.resolved]
    refine sourcePath_congr ?_
    rw [stamped_get? (by decide), committedManifest]
    simp only [Dict.get?_set, String.reduceEq, if_false]
  onDisk := (Durable.setFile_files_of_ne (by decide)).trans h.onDisk
  digest := by
    rw [stamped_get? (by decide), committedManifest, ← h.digest]
    simp only [Dict.get?_set, String.reduceEq, if_false]

omit [Json.PyFloat F] in
theorem Patched.unique {d : Durable} {manifest : Manifest F} {source source' : String}
    {patch patch' : ByteArray} (h : Patched P d manifest source patch)
    (h' : Patched P d manifest source' patch') : source = source' ∧ patch = patch' :=
  ⟨Except.ok.inj (h.resolved.symm.trans h'.resolved),
    Option.some.inj (h.onDisk.symm.trans h'.onDisk)⟩

/-! ## What a receipt binds, and what it does not -/

theorem receiptPayload_set {digests : Digests} {resolve : Json F → Except PyExc String}
    {manifest : Manifest F} {trajectory value : Json F} {checks : List (Json F)} {issuedAt : Int}
    {key : String} (h : key ∉ boundKeys) :
    receiptPayload digests resolve (Dict.set manifest key value) trajectory checks issuedAt =
      receiptPayload digests resolve manifest trajectory checks issuedAt := by
  have hmode : memoryMode (Dict.set manifest key value) = memoryMode manifest := memoryMode_set h
  unfold memoryMode at hmode
  unfold receiptPayload
  rw [workspaceIdentity_set h, durableEvidence_set h, hmode]

theorem Signs.set {manifest : Manifest F} {trajectory receipt value : Json F}
    {secret : Option ByteArray} (h : Signs P manifest trajectory receipt secret) {key : String}
    (hkey : key ∉ boundKeys) : Signs P (Dict.set manifest key value) trajectory receipt secret := by
  obtain ⟨key', checks, payload, issuedAt, hsecret, hchecks, hpayload, hreceipt⟩ := h
  exact ⟨key', checks, payload, issuedAt, hsecret, hchecks,
    (receiptPayload_set hkey).trans hpayload, hreceipt⟩

/-! ## The invariant -/

/-- The manifest stands beside what it was written for. -/
structure Backed (P : Platform F) (d : Durable) (manifest : Manifest F) (x : Proposal F) :
    Prop where
  wf : x.trajectory.WF
  submitted : pyGet x.trajectory "exit_status" .null = .ok (.str "Submitted")
  verified : boundToWorkspace x.trajectory x.prepared.snapshot = true
  patch : OnDisk d .patch x.prepared.patch
  trajectory : OnDisk d .trajectory (jsonBytes x.trajectory)
  receipt : OnDisk d .receipt (jsonBytes x.receipt)
  signed : Signs P manifest x.trajectory x.receipt d.key
  receiptId : pyItem "receipt_id" x.receipt = .ok (.str x.receiptId)
  recorded : Dict.get? manifest "receipt_id" = some (.str x.receiptId)
  snapshot : Dict.get? manifest "prepared_fingerprint" = some (.str x.prepared.snapshot)
  digest : Dict.get? manifest "prepared_patch_sha256" =
    some (.str (P.digests.sha256 x.prepared.patch))

/-- Nothing in the way between a proposal and its being committed. -/
def Proposed (manifest : Manifest F) : Prop :=
  HasStatus manifest "prepared" ∨ HasStatus manifest "committed"

def Evidenced (P : Platform F) (id : String) (d : Durable) : Prop :=
  ∀ manifest : Manifest F, Stored P id d manifest → Proposed manifest →
    ∃ x, Backed P d manifest x

/-- The keys the evidence speaks of. -/
def evidenceItems : List String := "receipt_id" :: boundKeys

/-- Writing the manifest leaves the files beside it. -/
theorem Backed.save {d : Durable} {manifest : Manifest F} {x : Proposal F}
    (h : Backed P d manifest x) (manifest' : Manifest F) (now : Int) :
    Backed P (d.save manifest' now) manifest x :=
  have hkeep : ∀ {file data}, file ≠ .manifest → OnDisk d file data →
      OnDisk (d.save manifest' now) file data :=
    fun hne hd => ⟨(Durable.setFile_files_of_ne hne).trans hd.1, hd.2⟩
  { h with
    patch := hkeep (by decide) h.patch
    trajectory := hkeep (by decide) h.trajectory
    receipt := hkeep (by decide) h.receipt }

/-- What the evidence does not speak of may be set. -/
theorem Backed.set {d : Durable} {manifest : Manifest F} {x : Proposal F}
    (h : Backed P d manifest x) {key : String} {value : Json F} (hkey : key ∉ evidenceItems) :
    Backed P d (Dict.set manifest key value) x := by
  have hget : ∀ key' ∈ evidenceItems,
      Dict.get? (Dict.set manifest key value) key' = Dict.get? manifest key' := by
    intro key' hmem
    rw [Dict.get?_set, if_neg]
    rintro rfl
    exact hkey hmem
  exact { h with
    signed := h.signed.set fun hmem => hkey (List.mem_cons_of_mem _ hmem)
    recorded := (hget _ (by decide)).trans h.recorded
    snapshot := (hget _ (by decide)).trans h.snapshot
    digest := (hget _ (by decide)).trans h.digest }

/-- The manifest of a proposal, when it is saved. -/
theorem Issued.backed {d : Durable} {manifest : Manifest F} {x : Proposal F} (h : Issued P d manifest x)
    (now : Int) :
    Backed P (d.save (x.saved P manifest) now) (stamped (x.saved P manifest) now) x := by
  have hunset : Backed P d (x.saved P manifest) x := {
    h with
    signed := h.signed.set (by decide)
    recorded := by rw [Proposal.saved, Dict.get?_set, if_pos rfl]
    snapshot := by
      rw [Proposal.saved, Proposal.signed, preparedManifest]
      simp only [Dict.get?_set, String.reduceEq, if_false, if_true]
    digest := by
      rw [Proposal.saved, Proposal.signed, preparedManifest]
      simp only [Dict.get?_set, String.reduceEq, if_false, if_true] }
  exact (hunset.save _ now).set (by decide)

omit [Json.PyFloat F] in
theorem not_proposed {manifest : Manifest F} {text : String} (h : HasStatus manifest text)
    (hprepared : text ≠ "prepared") (hcommitted : text ≠ "committed") : ¬ Proposed manifest := by
  rintro (h' | h')
  · exact hprepared (h.unique h')
  · exact hcommitted (h.unique h')

theorem Move.evidenced {d d' : Durable} (hmove : Move P id git d d') (h : Evidenced P id d) :
    Evidenced P id d' := by
  intro manifest' hstored' hproposed
  cases hmove with
  | draft hstored hopen file hfile data =>
      obtain rfl := (hstored.setFile hfile data).unique hstored'
      exact absurd hproposed (not_proposed hopen (by decide) (by decide))
  | createKey hstored hopen key =>
      obtain rfl := (hstored : Stored P id _ _).unique hstored'
      exact absurd hproposed (not_proposed hopen (by decide) (by decide))
  | giveUp hstored hopen failure now hfits =>
      have hloaded : Loaded P id (failedManifest _ failure) :=
        hstored.loaded.set (.str failure) (by decide)
      obtain rfl := (stored_save hloaded hfits).unique hstored'
      exact absurd hproposed (not_proposed (hasStatus_stamped.2 (failedManifest_status hopen))
        (by decide) (by decide))
  | prepare hstored hopen x hissued now hfits =>
      obtain rfl := (stored_save (x.saved_loaded hstored.loaded) hfits).unique hstored'
      exact ⟨x, hissued.backed now⟩
  | land hstored hprepared hpatched hne hrepo hbaseline htree =>
      obtain ⟨x, hx⟩ := h manifest' hstored' hproposed
      exact ⟨x, { hx with }⟩
  | commit hstored hprepared hpatched hlanded hrepo hcontent committedAt now hfits =>
      obtain rfl := (stored_save (committedManifest_loaded hstored.loaded _) hfits).unique hstored'
      obtain ⟨x, hx⟩ := h _ hstored (Or.inl hprepared)
      exact ⟨x, (((hx.save _ now).set (by decide)).set (by decide)).set (by decide)⟩
  | abort hstored hcommitted haborted abortedAt now hfits =>
      obtain rfl := (stored_save (abortedManifest_loaded hstored.loaded _) hfits).unique hstored'
      exact absurd hproposed (not_proposed (hasStatus_stamped.2 abortedManifest_status)
        (by decide) (by decide))

theorem moves_evidenced {d d' : Durable} (hmoves : Relation.ReflTransGen (Move P id git) d d')
    (h : Evidenced P id d) : Evidenced P id d' :=
  Prog.Stable.along (fun _ _ hmove hd => hmove.evidenced hd) hmoves h

/-! ## What a commit makes of it -/

section Accepted

variable {S : TxWorld → TxEvent → TxWorld → Prop} {reader : Nat}
variable (hS : OkAnswers P.digests git reader S)
variable {manifest : Manifest F} {x : Proposal F} {w : TxWorld}

include hS

/-- The receipt is accepted, in any world with these files and this key. -/
theorem Backed.accepted (h : Backed P (durable w) manifest x) (hloaded : Loaded P id manifest) :
    Run S (checkReceipt P id manifest) w (.ok ()) w := by
  obtain ⟨secret, checks, payload, issuedAt, hsecret, hchecks, hpayload, hreceipt⟩ := h.signed
  obtain ⟨hwf, identity, e, hidentity, he, hsigned⟩ :=
    receiptPayload_signed hloaded.wf h.wf (verificationChecks_wf h.wf hchecks) hpayload
  have hid : e.transactionId = .str id := by
    have hsame := (durableEvidence_ok hloaded.wf h.wf he).2
    rw [hloaded.sameId] at hsame
    exact (Option.some.inj hsame).symm
  have henvelope : _ ∧ checkReceiptMac P.digests P.repr secret _ payload = .ok () :=
    checkReceipt_envelope hsigned hid
  obtain ⟨hdigest, hmac⟩ := henvelope
  obtain ⟨fields, hfields, hholds⟩ := boundFields_holds hloaded.wf h.wf hidentity he hsigned
  have hget : x.receipt.get? "payload" = some payload := by
    rw [hreceipt]
    rfl
  refine (run_checkReceipt hS).2 ⟨x.trajectory, x.receipt, .str x.receiptId,
    .str x.receiptId, ?_, ?_, h.receiptId, h.recorded, (Json.pyEq_str_right _ _).2 rfl,
    validateReceipt_ok hget hfields hholds, rfl⟩
  · exact (run_loadTrajectory hS).2 ⟨_, h.trajectory.1, h.trajectory.2, decodeJson_jsonBytes h.wf,
      rfl⟩
  · refine (run_loadReceipt hS).2 ⟨_, payload, secret, h.receipt.1, h.receipt.2, ?_, ?_, hsecret,
      ?_, rfl⟩
    · rw [hreceipt]
      exact decodeJson_jsonBytes (receiptEnvelope_wf hwf)
    · rw [hreceipt]
      exact hdigest
    · rw [hreceipt]
      exact hmac

theorem Backed.loadPatch (h : Backed P (durable w) manifest x) :
    Run S (loadPatch P manifest) w (.ok x.prepared.patch) w :=
  (run_loadPatch hS).2 ⟨h.patch.1, h.patch.2, h.digest, rfl⟩

/-- If the source and the workspace are as they were, all of commit's checks pass. -/
theorem Backed.validated (h : Backed P (durable w) manifest x) (hloaded : Loaded P id manifest)
    (hstatus : HasStatus manifest "prepared") {source : String}
    (hsource : sourcePath P manifest = .ok source)
    (htrees : Run S (checkTrees P manifest source) w (.ok ()) w) :
    Run S (validateCommit P id manifest) w (.ok (source, x.prepared.patch)) w :=
  (run_validateCommit hS).2
    ⟨hstatus, hsource, htrees, h.accepted hS hloaded, h.loadPatch hS, rfl⟩

end Accepted

/-- What is said of a manifest that is prepared or committed: the trajectory beside it
was verified in its workspace, and in any world with what is on disk here the receipt
and the patch pass. -/
structure Rests (P : Platform F) (id : String) (git : Git) (d : Durable) (manifest : Manifest F) :
    Prop where
  verified : ∃ (trajectory : Json F) (snapshot : String),
    d.files .trajectory = some (jsonBytes trajectory) ∧
    pyGet trajectory "exit_status" .null = .ok (.str "Submitted") ∧
    Dict.get? manifest "prepared_fingerprint" = some (.str snapshot) ∧
    boundToWorkspace trajectory snapshot = true
  accepted : ∀ reader w, durable w = d →
    exec (answer P.digests git reader) (checkReceipt P id manifest) w = (.ok (), w)
  patched : ∃ patch, ∀ reader w, durable w = d →
    exec (answer P.digests git reader) (loadPatch P manifest) w = (.ok patch, w)

/-- However the processes take turns, and wherever they fail or are stopped: what is
prepared or committed rests on evidence that is there and passes. -/
theorem interleaving_rests {w : TxWorld} {calls : Nat → List (Call F)} {pool : TxPool}
    {first manifest : Manifest F} (hfirst : Stored P id (durable w) first)
    (hopen : HasStatus first "open") (h : Interleaving P git (start P id w calls) pool)
    (hstored : Stored P id (durable pool.world) manifest) (hproposed : Proposed manifest) :
    Rests P id git (durable pool.world) manifest := by
  have hnone : Evidenced P id (durable w) := by
    intro other hother hproposed
    obtain rfl := hfirst.unique hother
    exact absurd hproposed (not_proposed hopen (by decide) (by decide))
  have hstart : Interleaving P git (start P id w calls) (start P id w calls) := .refl
  have hmoves := interleaving_moves P id git hstart h
  obtain ⟨x, hx⟩ := moves_evidenced hmoves hnone manifest hstored hproposed
  exact {
    verified := ⟨x.trajectory, _, hx.trajectory.1, hx.submitted, hx.snapshot, hx.verified⟩
    accepted := by
      rintro reader v hv
      rw [← hv] at hx
      exact (run_answers _).1 (hx.accepted answers_okAnswers hstored.loaded)
    patched := by
      refine ⟨x.prepared.patch, ?_⟩
      rintro reader v hv
      rw [← hv] at hx
      exact (run_answers _).1 (hx.loadPatch answers_okAnswers) }

end Protocol

namespace Small

open Protocol

theorem stored_open : Protocol.Stored platform id (durable world) manifest :=
  ⟨_, rfl, manifest_fits, manifest_loaded.decode⟩

theorem stored_prepared :
    Protocol.Stored platform id (durable preparedWorld) ((steps 0).final platform) := by
  have hS : OkAnswers platform.digests git 0 (Alone 0) := alone_okAnswers
  have hx : Prepares (Alone 0) platform.digests git 0 platform id trajectory world (steps 0)
      preparedWorld := prepares alone_okAnswers
  exact ⟨_, (hx.files_left hS).1, hx.manifestSize, (hx.final_loaded hS trajectory_wf).decode⟩

theorem interleaving_rests_small :
    Rests platform id git (durable preparedPool.world) ((steps 0).final platform) :=
  interleaving_rests stored_open rfl interleaving_prepared stored_prepared
    (Or.inl (PrepareSteps.final_status _))

end Small

end MiniCodeAgent
