import MiniCodeAgent.Prog.Lasting
import MiniCodeAgent.TransactionReceipts
import MiniCodeAgent.Proofs.CommitTampering

/-!
# What readers are shown

Others learn from a transaction by its receipt and its patch. They read them in two
calls, and processes that prepare, commit and abort may come between the two. Whatever
these do, a reader is shown the receipt and the patch of one and the same prepare: once a
manifest is no longer open, nothing beside it is ever written again
(`carries_stable`). And where a prepare has left what it is to leave, a reader is
shown it (`Carried.reads`).
-/

namespace MiniCodeAgent

namespace Protocol

open Prog (Secure Ends Lock Turns Pool Stable OnTrack Run)

variable {F : Type} [Json.PyFloat F] {P : Platform F} {id : String} {git : Git}

/-! ## What lasts -/

/-- A proposal, and the manifest that stands beside it, now and later. -/
structure Carried (P : Platform F) (id : String) (x : Proposal F) (d : Durable)
    (manifest : Manifest F) : Prop where
  stored : Stored P id d manifest
  settled : ¬ HasStatus manifest "open"
  backed : Backed P d manifest x
  landed : HasStatus manifest "committed" → ∃ source, sourcePath P manifest = .ok source ∧
    (x.prepared.patch.size = 0 ∨ (source, x.prepared.patch) ∈ d.applied)

def Carries (P : Platform F) (id : String) (x : Proposal F) (d : Durable) : Prop :=
  ∃ manifest, Carried P id x d manifest

theorem carries_stable {x : Proposal F} : Stable (Move P id git) (Carries P id x) := by
  rintro d d' hmove ⟨manifest, h⟩
  cases hmove with
  | draft hstored hopen | createKey hstored hopen | giveUp hstored hopen | prepare hstored hopen =>
      obtain rfl := h.stored.unique hstored
      exact absurd hopen h.settled
  | land hstored hprepared hpatched hne hrepo hbaseline htree =>
      obtain rfl := h.stored.unique hstored
      exact ⟨manifest, h.stored, h.settled, { h.backed with },
        fun hcommitted => absurd (hcommitted.unique hprepared) (by decide)⟩
  | @commit manifest' hstored hprepared source patch hpatched hlanded repo hrepo hcontent
      committedAt now hfits =>
      obtain rfl := h.stored.unique hstored
      obtain rfl : patch = x.prepared.patch :=
        Option.some.inj (hpatched.onDisk.symm.trans h.backed.patch.1)
      have hstatus : HasStatus (stamped (committedManifest manifest committedAt) now) "committed" :=
        hasStatus_stamped.2 committedManifest_status
      refine ⟨_, stored_save (committedManifest_loaded h.stored.loaded _) hfits,
        fun hopen => absurd (hstatus.unique hopen) (by decide), ?_, fun _ => ⟨source, ?_, hlanded⟩⟩
      · exact (((h.backed.save _ now).set (by decide)).set (by decide)).set (by decide)
      · exact (committedManifest_patched hpatched committedAt now).resolved
  | abort hstored hcommitted haborted abortedAt now hfits =>
      obtain rfl := h.stored.unique hstored
      have hstatus : HasStatus (stamped (abortedManifest manifest abortedAt) now) "aborted" :=
        hasStatus_stamped.2 abortedManifest_status
      refine ⟨_, stored_save (abortedManifest_loaded h.stored.loaded _) hfits,
        fun hopen => absurd (hstatus.unique hopen) (by decide), ?_,
        fun hcommitted => absurd (hstatus.unique hcommitted) (by decide)⟩
      exact (((h.backed.save _ now).set (by decide)).set (by decide)).set (by decide)

/-- Every manifest that is prepared or committed carries a proposal. -/
def Accounted (P : Platform F) (id : String) (d : Durable) : Prop :=
  ∀ manifest : Manifest F, Stored P id d manifest → Proposed manifest →
    ∃ x, Carried P id x d manifest

theorem accounted_open {d : Durable} {manifest : Manifest F} (h : Stored P id d manifest)
    (hopen : HasStatus manifest "open") : Accounted P id d := by
  intro manifest' hstored hproposed
  obtain rfl := h.unique hstored
  exact absurd hproposed (not_proposed hopen (by decide) (by decide))

theorem accounted_stable : Stable (Move P id git) (Accounted P id) := by
  intro d d' hmove h manifest' hstored' hproposed
  have hcarried : ∀ {manifest : Manifest F}, Stored P id d manifest →
      HasStatus manifest "prepared" → ∃ x, Carried P id x d' manifest' := by
    intro manifest hstored hprepared
    obtain ⟨x, hx⟩ := h manifest hstored (Or.inl hprepared)
    obtain ⟨next, hnext⟩ := carries_stable d d' hmove ⟨manifest, hx⟩
    obtain rfl := hnext.stored.unique hstored'
    exact ⟨x, hnext⟩
  cases hmove with
  | draft hstored hopen file hfile data =>
      obtain rfl := (hstored.setFile hfile data).unique hstored'
      exact absurd hproposed (not_proposed hopen (by decide) (by decide))
  | createKey hstored hopen key =>
      obtain rfl := (hstored : Stored P id _ _).unique hstored'
      exact absurd hproposed (not_proposed hopen (by decide) (by decide))
  | giveUp hstored hopen failure now hfits =>
      have hloaded : Loaded P id (failedManifest _ failure) :=
        hstored.loaded.set (.str failure) (by decide)
      obtain rfl := (stored_save hloaded hfits).unique hstored'
      exact absurd hproposed (not_proposed (hasStatus_stamped.2 (failedManifest_status hopen))
        (by decide) (by decide))
  | @prepare manifest hstored hopen x hissued now hfits =>
      obtain rfl := (stored_save (x.saved_loaded hstored.loaded) hfits).unique hstored'
      have hstatus : HasStatus (stamped (x.saved P manifest) now) "prepared" :=
        hasStatus_stamped.2 Proposal.saved_status
      exact ⟨x, hstored', fun hopen => absurd (hstatus.unique hopen) (by decide),
        hissued.backed now, fun hcommitted => absurd (hstatus.unique hcommitted) (by decide)⟩
  | land hstored hprepared | commit hstored hprepared => exact hcarried hstored hprepared
  | abort hstored hcommitted haborted abortedAt now hfits =>
      obtain rfl := (stored_save (abortedManifest_loaded hstored.loaded _) hfits).unique hstored'
      exact absurd hproposed (not_proposed (hasStatus_stamped.2 abortedManifest_status)
        (by decide) (by decide))

/-- The receipt on disk is read as it was made. -/
theorem Carried.receipt_eq {x : Proposal F} {d : Durable} {manifest : Manifest F}
    (h : Carried P id x d manifest) {data : ByteArray} {receipt : Json F}
    (hfile : d.files .receipt = some data) (hdecode : decodeJson data = .ok receipt) :
    x.receipt = receipt := by
  obtain ⟨secret, checks, payload, issuedAt, -, hchecks, hpayload, hreceipt⟩ := h.backed.signed
  obtain ⟨hwf, -⟩ := receiptPayload_signed h.stored.loaded.wf h.backed.wf
    (verificationChecks_wf h.backed.wf hchecks) hpayload
  obtain rfl : data = jsonBytes x.receipt :=
    Option.some.inj (hfile.symm.trans h.backed.receipt.1)
  have hread : decodeJson (jsonBytes x.receipt) = .ok x.receipt := by
    rw [hreceipt]
    exact decodeJson_jsonBytes (receiptEnvelope_wf hwf)
  exact Except.ok.inj (hread.symm.trans hdecode)

/-! ## What is read under the lock -/

section Under

variable {i : Nat} {α : Type} {φ : Durable → Prop} {ψ : α → Durable → Prop} {manifest : Manifest F}

omit [Json.PyFloat F] in
theorem isAdmissible_ok {status : Json F} :
    isAdmissible status = .ok true ↔ status = .str "prepared" ∨ status = .str "committed" := by
  cases status with
  | str text => simp [isAdmissible]
  | null => simp [isAdmissible]
  | bool b => simp [isAdmissible]
  | int n => simp [isAdmissible]
  | float f => simp [isAdmissible]
  | arr xs => simp [isAdmissible]
  | obj kvs => simp [isAdmissible]

omit [Json.PyFloat F] in
theorem getD_eq_str {value : Option (Json F)} {text : String} :
    value.getD .null = .str text ↔ value = some (.str text) := by
  cases value with
  | none =>
      constructor
      · intro h
        cases h
      · intro h
        cases h
  | some v => exact ⟨congrArg some, Option.some.inj⟩

omit [Json.PyFloat F] in
/-- Only what is prepared or committed is shown. -/
theorem isAdmissible_iff :
    isAdmissible ((Dict.get? manifest "status").getD .null) = .ok true ↔ Proposed manifest := by
  rw [isAdmissible_ok, getD_eq_str, getD_eq_str]
  rfl

theorem within_checkAdmissible :
    Within P id git i φ (checkAdmissible P manifest) fun _ d => Proposed manifest ∧ φ d := by
  refine Lock.Inside.bind (ψ := fun admissible d =>
    isAdmissible ((Dict.get? manifest "status").getD .null) = .ok admissible ∧ φ d)
    (Lock.inside_done fun _ h _ hd => ⟨h, hd⟩) fun admissible =>
    Lock.inside_imp fun hadmissible => ?_
  refine within_raise.mono fun _ d hd => ⟨?_, hd.2⟩
  rw [Bool.eq_true_of_not_eq_false hd.1] at hadmissible
  exact isAdmissible_iff.1 hadmissible

/-- The file a receipt was read from. -/
theorem within_readReceipt :
    Within P id git i φ (loadReceipt P id)
      fun receipt d => (∃ data, d.files .receipt = some data ∧
        decodeJson data = .ok receipt) ∧ φ d := by
  refine Lock.Inside.bind within_readBytes fun data => Lock.inside_imp fun _ => ?_
  refine Lock.Inside.bind (ψ := fun envelope d => decodeJson data = .ok envelope ∧
    d.files .receipt = some data ∧ φ d) (Lock.inside_done fun _ h _ hd => ⟨h, hd⟩)
    fun envelope => Lock.inside_imp fun hdecode => ?_
  refine Lock.Inside.bind (Lock.inside_done fun _ _ _ hd => hd) fun payload => ?_
  refine Lock.Inside.bind (within_skip rfl) fun key => ?_
  refine Lock.Inside.bind (Lock.inside_done fun _ _ _ hd => hd) fun _ => ?_
  refine Lock.inside_done fun _ h d hd => ?_
  cases h
  exact ⟨⟨data, hd.1, hdecode⟩, hd.2⟩

theorem within_validatedReceiptForManifest :
    Within P id git i φ (validatedReceiptForManifest P id manifest)
      fun receipt d => Proposed manifest ∧ (∃ data, d.files .receipt = some data ∧
        decodeJson data = .ok receipt) ∧ φ d := by
  refine Lock.Inside.bind within_checkAdmissible fun _ => Lock.inside_imp fun hproposed => ?_
  refine Lock.Inside.bind within_raise fun _ => Lock.inside_imp fun _ => ?_
  refine Lock.Inside.bind within_loadTrajectory fun trajectory => ?_
  refine Lock.Inside.bind within_readReceipt fun receipt => ?_
  refine Lock.Inside.bind (Lock.inside_done fun _ _ _ hd => hd) fun receiptId => ?_
  refine Lock.Inside.bind within_raise fun _ => Lock.inside_imp fun _ => ?_
  refine Lock.Inside.bind (Lock.inside_done fun _ _ _ hd => hd) fun _ => ?_
  refine Lock.inside_done fun _ h d hd => ?_
  cases h
  exact ⟨hproposed, hd⟩

theorem within_checkPatchDigest {receipt : Json F} {digest : String} :
    Within P id git i φ (checkPatchDigest manifest receipt digest) fun _ => φ := by
  refine Lock.Inside.bind within_raise fun _ => Lock.inside_imp fun _ => ?_
  refine Lock.Inside.bind (Lock.inside_done fun _ _ _ hd => hd) fun signed => ?_
  exact within_raise.mono fun _ _ hd => hd.2

theorem within_validatedPatchLocked :
    Within P id git i φ (validatedPatchLocked P id manifest)
      fun patch d => d.files .patch = some patch ∧ φ d := by
  refine Lock.Inside.bind (within_validatedReceiptForManifest.mono fun _ _ hd => hd.2.2)
    fun receipt => ?_
  refine Lock.Inside.bind within_readBytes fun patch => Lock.inside_imp fun _ => ?_
  refine Lock.Inside.bind within_checkPatchDigest fun _ => Lock.inside_done fun _ h d hd => ?_
  cases h
  exact hd

/-! ## What is known without it -/

/-- The program goes from what is known before to what is known after, whatever the others
do meanwhile. -/
abbrev Learns (P : Platform F) (id : String) (git : Git) (i : Nat) (φ : Durable → Prop)
    (p : TxProg α) (ψ : α → Durable → Prop) : Prop :=
  txLock.Knowing (Move P id git) i (Effect P git i) φ p ψ

theorem learns_locked {body : Manifest F → TxProg α} (hψ : ∀ a, Stable (Move P id git) (ψ a))
    (h : ∀ manifest, Within P id git i (fun d => Stored P id d manifest ∧ φ d) (body manifest) ψ) :
    Learns P id git i φ (locked P id body) ψ := by
  refine Lock.knowing_locked hψ ?_ (Lock.Inside.bind within_load h) fun χ hχ => ?_
  · refine Prog.secure_call (fun _ => Lock.stable_watch Lock.stable_held) (fun _ _ _ _ _ => trivial)
      fun r w w' hw hS => ?_
    obtain ⟨hdurable, ⟨rfl, hfree, hholder⟩ | ⟨⟨exc, rfl⟩, hholder⟩⟩ := effect_lock hS
    · refine ⟨⟨Or.inl hdurable, Or.inr (Or.inl ⟨hfree, hholder⟩)⟩, hholder, ?_⟩
      rw [show txLock.guarded w' = txLock.guarded w from hdurable]
      exact hw
    · exact ⟨⟨Or.inl hdurable, Or.inl hholder⟩, trivial⟩
  · refine Prog.secure_call (fun _ => Lock.stable_known hχ) (fun _ _ _ _ _ => trivial)
      fun r w w' hw hS => ?_
    obtain ⟨hdurable, hholder⟩ := effect_unlock hS
    refine ⟨⟨Or.inl hdurable, hholder.elim (fun hnone => Or.inr (Or.inr ⟨hw.1, hnone⟩)) Or.inl⟩, ?_⟩
    cases r with
    | ok a =>
        show χ (durable w')
        rw [hdurable]
        exact hw.2
    | error e => exact trivial

/-- The receipt is a proposal's. -/
def ReceiptOf (P : Platform F) (id : String) (receipt : Json F) (d : Durable) : Prop :=
  ∃ x, x.receipt = receipt ∧ Carries P id x d

/-- The receipt and the patch are one proposal's. -/
def BothOf (P : Platform F) (id : String) (receipt : Json F) (patch : ByteArray) (d : Durable) :
    Prop :=
  ∃ x, x.receipt = receipt ∧ x.prepared.patch = patch ∧ Carries P id x d

theorem receiptOf_stable {receipt : Json F} :
    Stable (Move P id git) (ReceiptOf P id receipt) := by
  rintro d d' hmove ⟨x, hreceipt, hx⟩
  exact ⟨x, hreceipt, carries_stable d d' hmove hx⟩

theorem bothOf_stable {receipt : Json F} {patch : ByteArray} :
    Stable (Move P id git) (BothOf P id receipt patch) := by
  rintro d d' hmove ⟨x, hreceipt, hpatch, hx⟩
  exact ⟨x, hreceipt, hpatch, carries_stable d d' hmove hx⟩

theorem learns_validatedReceipt :
    Learns P id git i (Accounted P id) (validatedReceipt P id) (ReceiptOf P id) := by
  refine learns_locked (fun _ => receiptOf_stable) fun manifest => ?_
  refine within_validatedReceiptForManifest.mono fun receipt d hd => ?_
  obtain ⟨hproposed, ⟨data, hfile, hdecode⟩, hstored, haccounted⟩ := hd
  obtain ⟨x, hx⟩ := haccounted manifest hstored hproposed
  exact ⟨x, hx.receipt_eq hfile hdecode, manifest, hx⟩

theorem learns_validatedPatch {receipt : Json F} :
    Learns P id git i (ReceiptOf P id receipt) (validatedPatch P id) (BothOf P id receipt) := by
  refine learns_locked (fun _ => bothOf_stable) fun manifest => ?_
  refine within_validatedPatchLocked.mono fun patch d hd => ?_
  obtain ⟨hfile, -, x, hreceipt, carrier, hx⟩ := hd
  exact ⟨x, hreceipt, Option.some.inj (hx.backed.patch.1.symm.trans hfile), carrier, hx⟩

end Under

/-! ## What is there is shown -/

section Shows

variable {S : TxWorld → TxEvent → TxWorld → Prop} {pid : Nat}
variable (hS : OkAnswers P.digests git pid S)
variable {x : Proposal F} {manifest : Manifest F} {w : TxWorld}

/-- The receipt repeats the digest of the patch. -/
theorem Carried.receiptPatchSha256 (h : Carried P id x (durable w) manifest) :
    receiptPatchSha256 x.receipt = .ok (.str (P.digests.sha256 x.prepared.patch)) := by
  obtain ⟨secret, checks, payload, issuedAt, -, hchecks, hpayload, hreceipt⟩ := h.backed.signed
  obtain ⟨-, identity, e, -, he, hsigned⟩ := receiptPayload_signed h.stored.loaded.wf
    h.backed.wf (verificationChecks_wf h.backed.wf hchecks) hpayload
  have hdigest : e.preparedPatchSha256 = .str (P.digests.sha256 x.prepared.patch) := by
    have hitem := (forall_attested.1 (durableEvidence_attested he).1).2.2.2.2
    exact Option.some.inj (hitem.symm.trans h.backed.digest)
  have hget : x.receipt.get? "payload" = some payload := by
    rw [hreceipt]
    rfl
  obtain ⟨kvs, rfl⟩ := hsigned.isObj
  have hprepared := hsigned.prepared
  rw [Json.get?_obj] at hprepared
  have hpart : pyGet (.obj kvs) "prepared" (.obj []) = .ok (.obj [
      ("workspace_fingerprint", e.preparedFingerprint),
      ("projected_source_fingerprint", e.preparedSourceFingerprint),
      ("patch_sha256", e.preparedPatchSha256)]) := by
    rw [pyGet, hprepared, Option.getD_some]
  exact except_bind_ok.2 ⟨.obj kvs, pyItem_ok.2 hget,
    except_bind_ok.2 ⟨_, hpart, congrArg Except.ok hdigest⟩⟩

include hS

theorem Carried.validated (h : Carried P id x (durable w) manifest) (hproposed : Proposed manifest)
    (hne : x.receiptId ≠ "") :
    Run S (validatedReceiptForManifest P id manifest) w (.ok x.receipt) w := by
  obtain ⟨trajectory, receipt, receiptId, recorded, htrajectory, hreceipt, hid, hrecorded, heq,
    hvalid, -⟩ := (run_checkReceipt hS).1 (h.backed.accepted hS h.stored.loaded)
  obtain ⟨data, payload, key, hfile, -, hdecode, -⟩ := (run_loadReceipt hS).1 hreceipt
  obtain rfl : x.receipt = receipt := h.receipt_eq hfile hdecode
  have hitem : recordedReceiptId manifest = recorded := by
    rw [recordedReceiptId, hrecorded, Option.getD_some]
  have htruthy : ¬ (recordedReceiptId manifest).truthy = false := by
    rw [recordedReceiptId, h.backed.recorded, Option.getD_some]
    simpa [Json.truthy] using hne
  rw [← hitem] at heq
  unfold validatedReceiptForManifest checkAdmissible
  simp only [Prog.bind_eq, Prog.run_bind_ok, Prog.run_done, run_raise, Prog.pure_eq]
  refine ⟨(), w, ⟨true, w, ⟨(isAdmissible_iff.2 hproposed).symm, rfl⟩, Bool.noConfusion, rfl⟩, (),
    w, ⟨htruthy, rfl⟩, trajectory, w, htrajectory, x.receipt, w, hreceipt, receiptId, w,
    ⟨hid.symm, rfl⟩, (), w, ⟨ne_false_of_eq_true heq, rfl⟩, (), w, ⟨hvalid.symm, rfl⟩, rfl, rfl⟩

theorem Carried.patchValidated (h : Carried P id x (durable w) manifest)
    (hproposed : Proposed manifest) (hne : x.receiptId ≠ "") :
    Run S (validatedPatchLocked P id manifest) w (.ok x.prepared.patch) w := by
  have hrecorded : ((Dict.get? manifest "prepared_patch_sha256").getD .null).pyEq
      (.str (P.digests.sha256 x.prepared.patch)) = true := by
    rw [h.backed.digest, Option.getD_some, Json.pyEq_str_right]
  unfold validatedPatchLocked checkPatchDigest
  simp only [Prog.bind_eq, Prog.run_bind_ok, Prog.run_done, run_raise, Prog.pure_eq,
    run_readBytes hS]
  refine ⟨x.receipt, w, h.validated hS hproposed hne, x.prepared.patch, w,
    ⟨h.backed.patch.1, h.backed.patch.2, rfl⟩, (), w, ⟨(), w, ⟨ne_false_of_eq_true hrecorded, rfl⟩,
    _, w, ⟨h.receiptPatchSha256.symm, rfl⟩, ?_, rfl⟩, rfl, rfl⟩
  exact ne_false_of_eq_true ((Json.pyEq_str_right _ _).2 rfl)

/-- Under a free lock, the body finds the manifest and all else as they are. -/
theorem run_locked_of_free {α : Type} {body : Manifest F → TxProg α} {a : α}
    (hstored : Stored P id (durable w) manifest) (hfree : w.holder = none)
    (hbody : Run S (body manifest) (w.held pid) (.ok a) (w.held pid)) :
    Run S (locked P id body) w (.ok a) w := by
  obtain ⟨data, hfile, hsize, hdecode⟩ := hstored
  refine (run_locked hS).2 ⟨w.held pid, data, manifest, w.held pid, if_pos hfree, hfile, hsize,
    hdecode, hbody, ?_⟩
  rw [TxWorld.release, TxWorld.held, ← hfree]

end Shows

/-! ## Readers among the others -/

/-- Who works on a transaction, and who only reads of it. -/
inductive Party (F : Type) where
  | works (calls : List (Call F))
  | reads

section Readers

variable {α : Type} (reader : TxProg α)

/-- What a reader has found is handed out. -/
def Party.program (P : Platform F) (id : String) (reader : TxProg α) :
    Party F → TxProg (Option α)
  | .works calls => do
    session P id calls
    return none
  | .reads => do
    let found ← reader
    return some found

abbrev PartyPool (α : Type) := Pool Nat TxWorld TxOp TxOp.Res PyExc (Option α)

/-- Who asks for a lock that is taken waits. -/
def Vacant (pool : PartyPool α) (_ : Nat) (o : TxOp) : Prop :=
  o = .lock → pool.world.holder = none

def gather (P : Platform F) (id : String) (reader : TxProg α) (w : TxWorld)
    (parties : Nat → Party F) : PartyPool α :=
  ⟨w, fun i => (parties i).program P id reader⟩

variable {reader} {ψ : α → Durable → Prop}

theorem learns_party {i : Nat} (hreader : Learns P id git i (Accounted P id) reader ψ)
    (party : Party F) :
    Learns P id git i (Accounted P id) (party.program P id reader)
      fun found d => ∀ a, found = some a → ψ a d := by
  cases party with
  | works calls =>
      have hsession : Learns P id git i (fun _ => True) (session P id calls) fun _ _ => True :=
        Secure.rely (without_session calls) fun _ _ h => h.1
      refine Lock.Knowing.bind (hsession.weaken fun _ _ => trivial) fun _ => ?_
      refine Lock.knowing_done fun found h d _ a ha => ?_
      rw [← Except.ok.inj h] at ha
      cases ha
  | reads =>
      refine Lock.Knowing.bind hreader fun found => ?_
      refine Lock.knowing_done fun found' h d hd a ha => ?_
      rw [← Except.ok.inj h] at ha
      cases ha
      exact hd

/-- What a reader learns alone it learns among others, and it still holds when they go on. -/
theorem turns_learnt (hreader : ∀ j, Learns P id git j (Accounted P id) reader ψ) {w : TxWorld}
    {parties : Nat → Party F} {pool : PartyPool α} {first : Manifest F}
    (hfirst : Stored P id (durable w) first) (hopen : HasStatus first "open")
    (h : Turns (Effect P git) Vacant (gather P id reader w parties) pool) {i : Nat} {a : α}
    (hend : pool.rest i = .done (.ok (some a))) : ψ a (durable pool.world) := by
  have hstart : ∀ j, OnTrack (Effect P git j) (txLock.Watch (Move P id git) j)
      (txLock.Guarantee (Move P id git) j)
      (Ends (fun found w => ∀ a, found = some a → ψ a (durable w)) fun _ _ => True)
      ((gather P id reader w parties).rest j) (gather P id reader w parties).world :=
    fun j => ⟨_, Lock.stable_known accounted_stable, accounted_open hfirst hopen,
      learns_party (hreader j) (parties j)⟩
  exact Lock.turns_known (Q := fun _ => _) h hstart hend a rfl

end Readers

/-- A receipt, and then the patch. -/
def readBoth (P : Platform F) (id : String) : TxProg (Json F × ByteArray) := do
  let receipt ← validatedReceipt P id
  let patch ← validatedPatch P id
  return (receipt, patch)

theorem learns_readBoth {i : Nat} :
    Learns P id git i (Accounted P id) (readBoth P id) fun found => BothOf P id found.1 found.2 := by
  refine Lock.Knowing.bind learns_validatedReceipt fun receipt => ?_
  refine Lock.Knowing.bind learns_validatedPatch fun patch => ?_
  refine Lock.knowing_done fun found h d hd => ?_
  rw [← Except.ok.inj h]
  exact hd

/-- A reader who finds the lock free is shown what the last prepare has left. -/
theorem Carried.reads {S : TxWorld → TxEvent → TxWorld → Prop} {pid : Nat}
    (hS : OkAnswers P.digests git pid S) {x : Proposal F} {manifest : Manifest F} {w : TxWorld}
    (h : Carried P id x (durable w) manifest) (hproposed : Proposed manifest)
    (hne : x.receiptId ≠ "") (hfree : w.holder = none) :
    Run S (readBoth P id) w (.ok (x.receipt, x.prepared.patch)) w := by
  have hheld : Carried P id x (durable (w.held pid)) manifest := h
  unfold readBoth
  simp only [Prog.bind_eq, Prog.run_bind_ok, Prog.run_done, Prog.pure_eq]
  exact ⟨x.receipt, w, run_locked_of_free hS h.stored hfree (hheld.validated hS hproposed hne),
    x.prepared.patch, w, run_locked_of_free hS h.stored hfree
      (hheld.patchValidated hS hproposed hne), rfl, rfl⟩

/-- However the processes take turns, who has read a receipt and then a patch has read what
one prepare has made, and where the transaction is committed by now, it is this patch that
has landed. -/
theorem interleaving_reads {w : TxWorld} {parties : Nat → Party F}
    {pool : PartyPool (Json F × ByteArray)} {first : Manifest F}
    (hfirst : Stored P id (durable w) first) (hopen : HasStatus first "open")
    (h : Turns (Effect P git) Vacant (gather P id (readBoth P id) w parties) pool) {i : Nat}
    {receipt : Json F} {patch : ByteArray}
    (hend : pool.rest i = .done (.ok (some (receipt, patch)))) :
    ∃ x manifest, x.receipt = receipt ∧ x.prepared.patch = patch ∧
      Carried P id x (durable pool.world) manifest := by
  obtain ⟨x, hreceipt, hpatch, manifest, hx⟩ :=
    turns_learnt (fun _ => learns_readBoth) hfirst hopen h hend
  exact ⟨x, manifest, hreceipt, hpatch, hx⟩

end Protocol

namespace Small

open Protocol
open Prog (Run Turns)

theorem digestJson_ne (value : Json Unit) : digestJson hexDigests value ≠ "" := by
  intro h
  have hempty : canonicalJson value = "".toUTF8 := hexText_injective (h.trans (by decide))
  have htext : Json.canonical value = "" := String.toByteArray_inj.1 hempty
  obtain ⟨c, rest, hdump, -⟩ := Json.dump_opens .compact value.sortKeys 0
  rw [Json.canonical, Json.dumps, hdump] at htext
  cases String.ofList_inj.1 (htext.trans String.ofList_nil.symm)

theorem receiptId_ne : receiptId ≠ "" := digestJson_ne payload

theorem final_carried : ∃ x, Carried platform id x (durable preparedWorld) final ∧
    x.receipt = receipt ∧ x.prepared.patch = patch ∧ x.receiptId ≠ "" := by
  have haccounted : Accounted platform id (durable preparedWorld) :=
    accounted_stable.along interleaving_moves_prepared (accounted_open stored_open rfl)
  obtain ⟨x, hx⟩ := haccounted final stored_prepared (Or.inl (PrepareSteps.final_status _))
  have hS : OkAnswers platform.digests git 0 (Alone 0) := alone_okAnswers
  have hprepares : Prepares (Alone 0) platform.digests git 0 platform id trajectory world (steps 0)
      preparedWorld := prepares alone_okAnswers
  obtain ⟨secret, signed, -, -, -, -, hreceipt, hwf, -⟩ := hprepares.signed hS trajectory_wf
  have hread : decodeJson (jsonBytes receipt) = .ok receipt := by
    rw [show receipt = receiptEnvelope platform.digests secret signed from hreceipt]
    exact decodeJson_jsonBytes (receiptEnvelope_wf hwf)
  have hrecorded : Dict.get? final "receipt_id" = some (.str receiptId) := by
    rw [final_manifestOf]
    rfl
  refine ⟨x, hx, hx.receipt_eq (hprepares.files_left hS).2.1 hread,
    (Option.some.inj hx.backed.patch.1).symm, ?_⟩
  rw [Json.str.inj (Option.some.inj (hx.backed.recorded.symm.trans hrecorded))]
  exact receiptId_ne

/-- The first process prepares, the second reads. -/
def parties : Nat → Party Unit
  | 0 => .works [.prepare trajectory trajectory_wf]
  | 1 => .reads
  | _ => .works []

def gathered : PartyPool (Json Unit × ByteArray) :=
  gather platform id (readBoth platform id) world parties

/-- Once the first has prepared. -/
def workedPool : PartyPool (Json Unit × ByteArray) :=
  ⟨preparedWorld, Function.update gathered.rest 0 (.done (.ok none))⟩

/-- And once the second has read. -/
def readPool : PartyPool (Json Unit × ByteArray) :=
  ⟨preparedWorld, Function.update workedPool.rest 1 (.done (.ok (some (receipt, patch))))⟩

theorem gathered_read : Turns (Effect platform git) Vacant gathered readPool := by
  have hprepare : Run (Alone 0) ((parties 0).program platform id (readBoth platform id)) world
      (.ok none) preparedWorld :=
    Prog.run_bind.2 (Or.inr ⟨(), preparedWorld, session_run prepare_run,
      Prog.run_done.2 ⟨rfl, rfl⟩⟩)
  have hread : Run (Alone 1) ((parties 1).program platform id (readBoth platform id))
      preparedWorld (.ok (some (receipt, patch))) preparedWorld := by
    have hS : OkAnswers platform.digests git 1 (Alone 1) := alone_okAnswers
    obtain ⟨x, hx, hreceipt, hpatch, hne⟩ := final_carried
    rw [← hreceipt, ← hpatch]
    exact Prog.run_bind.2 (Or.inr ⟨_, preparedWorld,
      hx.reads hS (Or.inl (PrepareSteps.final_status _)) hne rfl, Prog.run_done.2 ⟨rfl, rfl⟩⟩)
  have hwaits : workedPool.rest 1 = (parties 1).program platform id (readBoth platform id) :=
    Function.update_of_ne Nat.one_ne_zero (.done (.ok none)) gathered.rest
  have hworked : Turns (Effect platform git) Vacant gathered workedPool :=
    Prog.turns_run (fun _ _ h => h) rfl (effect_run hprepare)
  exact hworked.trans (Prog.turns_run (fun _ _ h => h) hwaits (effect_run hread))

theorem interleaving_reads_small : ∃ x manifest, x.receipt = receipt ∧ x.prepared.patch = patch ∧
    Carried platform id x (durable readPool.world) manifest :=
  interleaving_reads stored_open rfl gathered_read (i := 1) rfl

end Small

end MiniCodeAgent
