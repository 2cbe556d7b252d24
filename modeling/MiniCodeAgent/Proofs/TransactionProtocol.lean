import MiniCodeAgent.Prog.Lock
import MiniCodeAgent.Proofs.CommitRuns
import MiniCodeAgent.Proofs.ReceiptRoundTrip

/-!
# The protocol of a transaction

Any number of processes prepare, commit and abort one transaction, each as often
as it likes and whatever its last call ended with; any effect may fail, and
between two effects the workspace may be edited in any way. What is left of it
all on the machine has come about by the moves of a protocol: a prepare drafts
its files and then writes the manifest, a commit lands the patch and then writes
the manifest, an abort writes the manifest. A move says what the code has checked
before it makes it.

What a process has read holds on till it lets the lock go, so a check made early
in a call is still good when the patch is handed to Git. A process that is killed
is one that fails from there on: nothing between taking the lock and letting it
go handles an exception.
-/

namespace MiniCodeAgent

namespace Protocol

open Prog (Secure Ends Lock Turns Pool)

variable {F : Type} [Json.PyFloat F] (P : Platform F) (id : String) (git : Git)

/-! ## What is left on the machine -/

/-- What the lock protects, and what outlives the processes. -/
structure Durable where
  files : TxFile → Option ByteArray
  key : Option ByteArray
  repos : String → Option Repo
  applied : List (String × ByteArray)

def durable (w : TxWorld) : Durable := ⟨w.files, w.key, w.repos, w.applied⟩

def txLock : Lock Nat TxWorld Durable := ⟨TxWorld.holder, durable⟩

namespace Durable

variable (d : Durable)

def setFile (file : TxFile) (data : ByteArray) : Durable :=
  { d with files := fun f => if f = file then some data else d.files f }

/-- The manifest, saved at a time. -/
def save (manifest : Manifest F) (now : Int) : Durable :=
  d.setFile .manifest (jsonBytes (.obj (stamped manifest now)))

def setTree (source : String) (repo : Repo) (patch : ByteArray) (tree : Dict Entry) : Durable :=
  { d with repos := fun p => if p = source then some { repo with tree := tree } else d.repos p
           applied := (source, patch) :: d.applied }

variable {d}

theorem setFile_files_self {file : TxFile} {data : ByteArray} :
    (d.setFile file data).files file = some data := if_pos rfl

theorem setFile_files_of_ne {file file' : TxFile} (h : file' ≠ file) {data : ByteArray} :
    (d.setFile file data).files file' = d.files file' := if_neg h

end Durable

/-- What `load` returns there. -/
def Stored (d : Durable) (manifest : Manifest F) : Prop :=
  ∃ data, d.files .manifest = some data ∧ data.size ≤ maxStateFileBytes ∧
    decodeManifest P id data = .ok manifest

def status (manifest : Manifest F) : Option (Json F) := Dict.get? manifest "status"

def HasStatus (manifest : Manifest F) (text : String) : Prop := status manifest = some (.str text)

/-- The manifest can be written. -/
def Fits (manifest : Manifest F) (now : Int) : Prop :=
  (jsonBytes (.obj (stamped manifest now) : Json F)).size ≤ maxStateFileBytes

/-! ## Moves -/

/-- The files a prepare writes before it writes the manifest. -/
def drafts : List TxFile := [.patch, .trajectory, .receipt]

/-- The manifest of a prepare that gives up. -/
def failedManifest (manifest : Manifest F) (failure : String) : Manifest F :=
  Dict.set manifest "failure" (.str failure)

/-- What a prepare makes of a workspace and a trajectory. -/
structure Proposal (F : Type) where
  baseline : Baseline
  prepared : Prepared
  trajectory : Json F
  receipt : Json F
  receiptId : String

namespace Proposal

variable (x : Proposal F) (manifest : Manifest F)

/-- The manifest the receipt is issued for. -/
def signed : Manifest F := preparedManifest P manifest x.baseline x.prepared

/-- The manifest that is saved. -/
def saved : Manifest F := Dict.set (x.signed P manifest) "receipt_id" (.str x.receiptId)

end Proposal

/-- The bytes fit into a file, and are there. -/
def OnDisk (d : Durable) (file : TxFile) (data : ByteArray) : Prop :=
  d.files file = some data ∧ data.size ≤ maxStateFileBytes

/-- The receipt is the one of the manifest and the trajectory, made with the key there is. -/
def Signs (manifest : Manifest F) (trajectory receipt : Json F) (key : Option ByteArray) : Prop :=
  ∃ secret checks payload issuedAt, decodeKey key = .ok secret ∧
    verificationChecks trajectory = .ok checks ∧
    receiptPayload P.digests P.resolve manifest trajectory checks issuedAt = .ok payload ∧
    receipt = receiptEnvelope P.digests secret payload

/-- A prepare has come to the point where only the manifest is left to write. -/
structure Issued (d : Durable) (manifest : Manifest F) (x : Proposal F) : Prop where
  wf : x.trajectory.WF
  submitted : pyGet x.trajectory "exit_status" .null = .ok (.str "Submitted")
  verified : boundToWorkspace x.trajectory x.prepared.snapshot = true
  patch : OnDisk d .patch x.prepared.patch
  trajectory : OnDisk d .trajectory (jsonBytes x.trajectory)
  receipt : OnDisk d .receipt (jsonBytes x.receipt)
  signed : Signs P (x.signed P manifest) x.trajectory x.receipt d.key
  receiptId : pyItem "receipt_id" x.receipt = .ok (.str x.receiptId)

def abortedManifest (manifest : Manifest F) (now : Int) : Manifest F :=
  Dict.set (Dict.set manifest "status" (.str "aborted")) "aborted_at_ns" (.int now)

/-- The patch on disk is the one the manifest names. -/
structure Patched (d : Durable) (manifest : Manifest F) (source : String) (patch : ByteArray) :
    Prop where
  resolved : sourcePath P manifest = .ok source
  onDisk : d.files .patch = some patch
  digest : Dict.get? manifest "prepared_patch_sha256" = some (.str (P.digests.sha256 patch))

inductive Move : Durable → Durable → Prop
  | draft {d : Durable} {manifest : Manifest F} (h : Stored P id d manifest)
      (hopen : HasStatus manifest "open") (file : TxFile) (hfile : file ∈ drafts)
      (data : ByteArray) : Move d (d.setFile file data)
  | createKey {d : Durable} {manifest : Manifest F} (h : Stored P id d manifest)
      (hopen : HasStatus manifest "open") (key : ByteArray) :
      Move d { d with key := some (d.key.getD key) }
  | giveUp {d : Durable} {manifest : Manifest F} (h : Stored P id d manifest)
      (hopen : HasStatus manifest "open") (failure : String) (now : Int)
      (hfits : Fits (failedManifest manifest failure) now) :
      Move d (d.save (failedManifest manifest failure) now)
  | prepare {d : Durable} {manifest : Manifest F} (h : Stored P id d manifest)
      (hopen : HasStatus manifest "open") (x : Proposal F) (hissued : Issued P d manifest x)
      (now : Int) (hfits : Fits (x.saved P manifest) now) :
      Move d (d.save (x.saved P manifest) now)
  | land {d : Durable} {manifest : Manifest F} (h : Stored P id d manifest)
      (hprepared : HasStatus manifest "prepared") {source : String} {patch : ByteArray}
      (hpatched : Patched P d manifest source patch) (hne : patch.size ≠ 0) {repo : Repo}
      (hrepo : d.repos source = some repo)
      (hbaseline : Dict.get? manifest "baseline_fingerprint" =
        some (.str (fingerprint F P.digests (capture P.digests repo))))
      {tree : Dict Entry} (htree : git.apply patch repo.tree = some tree) :
      Move d (d.setTree source repo patch tree)
  | commit {d : Durable} {manifest : Manifest F} (h : Stored P id d manifest)
      (hprepared : HasStatus manifest "prepared") {source : String} {patch : ByteArray}
      (hpatched : Patched P d manifest source patch)
      (hlanded : patch.size = 0 ∨ (source, patch) ∈ d.applied) {repo : Repo}
      (hrepo : d.repos source = some repo)
      (hcontent : Dict.get? manifest "prepared_source_fingerprint" =
        some (.str (fingerprint F P.digests (contentSnapshot P.digests repo))))
      (committedAt now : Int) (hfits : Fits (committedManifest manifest committedAt) now) :
      Move d (d.save (committedManifest manifest committedAt) now)
  | abort {d : Durable} {manifest : Manifest F} (h : Stored P id d manifest)
      (hcommitted : ¬ HasStatus manifest "committed") (haborted : ¬ HasStatus manifest "aborted")
      (abortedAt now : Int) (hfits : Fits (abortedManifest manifest abortedAt) now) :
      Move d (d.save (abortedManifest manifest abortedAt) now)

/-! ## Processes -/

inductive Call (F : Type) where
  | prepare (trajectory : Json F) (wf : trajectory.WF)
  | commit
  | abort

def Call.program : Call F → TxProg (Manifest F)
  | .prepare trajectory _ => MiniCodeAgent.prepare P id trajectory
  | .commit => MiniCodeAgent.commit P id
  | .abort => MiniCodeAgent.abort P id

/-- One call after the other, whatever it ends with. -/
def session : List (Call F) → TxProg Unit
  | [] => .done (.ok ())
  | c :: rest => do
    let _ ← Prog.rescue (fun _ => True) (c.program P id)
    session rest

/-- An effect of a process, before which the workspace may have been edited. -/
def Effect (i : Nat) (w : TxWorld) (e : TxEvent) (w' : TxWorld) : Prop :=
  ∃ workspace, TxMayFail P.digests git i { w with workspace := workspace } e w'

abbrev TxPool := Pool Nat TxWorld TxOp TxOp.Res PyExc Unit

/-- Who asks for a lock that is taken waits. -/
def Free (pool : TxPool) (_ : Nat) (o : TxOp) : Prop := o = .lock → pool.world.holder = none

/-- The processes, numbered, and the calls each of them is going to make. -/
def start (w : TxWorld) (calls : Nat → List (Call F)) : TxPool :=
  ⟨w, fun i => session P id (calls i)⟩

/-- What the processes do from there, in any order. -/
abbrev Interleaving : TxPool → TxPool → Prop := Turns (Effect P git) Free

/-! ## What one effect does -/

/-- The effect has nothing to do with the lock and what it protects. -/
def aloof : TxOp → Bool
  | .lock | .unlock | .writeFile _ _ | .loadOrCreateKey | .apply _ _ | .makeDirectory
  | .removeDirectory => false
  | _ => true

omit [Json.PyFloat F] in
theorem answer_aloof {digests : Digests} {i : Nat} {o : TxOp} (h : aloof o = true) (w : TxWorld) :
    (answer digests git i o w).2.holder = w.holder ∧
      durable (answer digests git i o w).2 = durable w := by
  have hask : ∀ {α : Type} {value : Option α} {exc : PyExc}, (ask w value exc).2 = w := by
    intro α value exc
    cases value <;> rfl
  have hbecome : ∀ {next : Option TxWorld} {exc : PyExc},
      (∀ w', next = some w' → w'.holder = w.holder ∧ durable w' = durable w) →
      (become w next exc).2.holder = w.holder ∧ durable (become w next exc).2 = durable w := by
    intro next exc hnext
    cases next with
    | none => exact ⟨rfl, rfl⟩
    | some w' => exact hnext w' rfl
  cases o with
  | addIntents paths =>
      refine hbecome fun w' hw' => ?_
      obtain ⟨repo, -, rfl⟩ := Option.map_eq_some_iff.1 hw'
      exact ⟨rfl, rfl⟩
  | addWorktree source commit =>
      refine hbecome fun w' hw' => ?_
      obtain ⟨repo, -, rfl⟩ := Option.map_eq_some_iff.1 hw'
      exact ⟨rfl, rfl⟩
  | removeWorktree source =>
      rw [answer]
      split <;> exact ⟨rfl, rfl⟩
  | lock | unlock | writeFile | loadOrCreateKey | apply | makeDirectory | removeDirectory => cases h
  | _ => first | exact ⟨rfl, rfl⟩ | exact ⟨congrArg _ hask, congrArg _ hask⟩

section Within

variable {P id git} {i : Nat} {α β : Type} {φ φ' : Durable → Prop} {ψ : α → Durable → Prop}

/-- With the lock held, the program moves from what is known before to what is known after. -/
abbrev Within (P : Platform F) (id : String) (git : Git) (i : Nat) (φ : Durable → Prop)
    (p : TxProg α) (ψ : α → Durable → Prop) : Prop :=
  txLock.Inside (Move P id git) i (Effect P git i) φ p ψ

theorem within_tx {o : TxOp} {ψ : o.Res → Durable → Prop}
    (h : ∀ w r w', φ (durable w) → answer P.digests git i o w = (r, w') →
      w'.holder = w.holder ∧
      (durable w' = durable w ∨ Move P id git (durable w) (durable w')) ∧
      ∀ a, r = .ok a → ψ a (durable w')) :
    Within P id git i φ (tx o) ψ := by
  refine Lock.inside_call fun w r w' _ hφ hS => ?_
  obtain ⟨workspace, hanswer | ⟨⟨exc, hexc⟩, hsame⟩⟩ := hS
  · exact h { w with workspace := workspace } r w' hφ hanswer.symm
  · rw [hsame]
    refine ⟨rfl, Or.inl rfl, fun a ha => ?_⟩
    rw [show r = .error exc from hexc] at ha
    cases ha

theorem within_aloof {o : TxOp} {ψ : o.Res → Durable → Prop} (h : aloof o = true)
    (hψ : ∀ w a, φ (durable w) → (answer P.digests git i o w).1 = .ok a → ψ a (durable w)) :
    Within P id git i φ (tx o) ψ := by
  refine within_tx fun w r w' hφ hanswer => ?_
  obtain ⟨hholder, hdurable⟩ : (answer P.digests git i o w).2.holder = w.holder ∧ _ :=
    answer_aloof git h w
  rw [hanswer] at hholder hdurable
  refine ⟨hholder, Or.inl hdurable, fun a ha => ?_⟩
  rw [show durable w' = durable w from hdurable]
  exact hψ w a hφ (by rw [hanswer, ha])

/-- An effect whose answer does not matter. -/
theorem within_skip {o : TxOp} (h : aloof o = true) :
    Within P id git i φ (tx o) fun _ => φ :=
  within_aloof h fun _ _ hφ _ => hφ

theorem within_readFile {file : TxFile} :
    Within P id git i φ (readFile file) fun data d => d.files file = some data ∧ φ d :=
  within_aloof rfl fun w data hφ hanswer =>
    ⟨(ask_ok.1 (Prod.ext hanswer rfl : ask w (w.files file) _ = (.ok data, _))).1, hφ⟩

theorem within_raise {cond : Prop} [Decidable cond] {exc : PyExc} :
    Within P id git i φ (raise cond exc) fun _ d => ¬ cond ∧ φ d :=
  Lock.inside_done fun _ h _ hd => ⟨raiseIf_ok.1 h, hd⟩

theorem within_item {manifest : Manifest F} {key : String} :
    Within P id git i φ (item manifest key)
      fun v d => Dict.get? manifest key = some v ∧ φ d := by
  refine Lock.inside_done fun v h d hd => ⟨?_, hd⟩
  rw [pyItem_ok, Json.get?_obj] at h
  exact h

theorem within_checkItem {manifest : Manifest F} {key digest message : String} :
    Within P id git i φ (checkItem manifest key digest message)
      fun _ d => Dict.get? manifest key = some (.str digest) ∧ φ d := by
  refine Lock.Inside.bind within_item fun recorded => Lock.inside_imp fun hrecorded => ?_
  refine within_raise.mono fun _ d hd => ⟨?_, hd.2⟩
  have hsame : recorded = .str digest :=
    (Json.pyEq_str_right _ _).1 (Bool.eq_true_of_not_eq_false hd.1)
  rw [hrecorded, hsame]

theorem within_readBytes {file : TxFile} {tooLarge : PyExc} :
    Within P id git i φ (readBytes file tooLarge)
      fun data d => data.size ≤ maxStateFileBytes ∧ d.files file = some data ∧ φ d := by
  refine Lock.Inside.bind within_readFile fun data => Lock.Inside.bind within_raise fun _ => ?_
  refine Lock.inside_imp fun hsize => Lock.inside_done fun _ h d hd => ?_
  cases h
  exact ⟨Nat.le_of_not_lt hsize, hd⟩

theorem within_load :
    Within P id git i φ (load P id) fun manifest d => Stored P id d manifest ∧ φ d := by
  refine Lock.Inside.bind within_readBytes fun data => Lock.inside_imp fun hsize => ?_
  exact Lock.inside_done fun manifest h d hd => ⟨⟨data, hd.1, hsize, h⟩, hd.2⟩

/-- A write that is a move. -/
theorem within_writeText {file : TxFile} {text : String}
    (h : ∀ d, φ d → text.toUTF8.size ≤ maxStateFileBytes →
      Move P id git d (d.setFile file text.toUTF8) ∧ φ' (d.setFile file text.toUTF8)) :
    Within P id git i φ (writeText file text) fun _ => φ' := by
  refine Lock.Inside.bind within_raise fun _ => Lock.inside_imp fun hsize => ?_
  refine within_tx fun w r w' hφ hanswer => ?_
  cases hanswer
  obtain ⟨hmove, hφ'⟩ := h _ hφ (Nat.le_of_not_lt hsize)
  exact ⟨rfl, Or.inr hmove, fun _ _ => hφ'⟩

theorem within_save {manifest : Manifest F}
    (h : ∀ d now, φ d → Fits manifest now → Move P id git d (d.save manifest now)) :
    Within P id git i φ (save manifest) fun _ _ => True := by
  refine Lock.Inside.bind (within_skip rfl) fun now => ?_
  refine Lock.Inside.bind (ψ := fun _ _ => True) ?_ fun _ =>
    Lock.inside_done fun _ _ _ _ => trivial
  exact within_writeText fun d hd hfits => ⟨h d now hd hfits, trivial⟩

/-! ## Prepare -/

theorem Stored.setFile {d : Durable} {manifest : Manifest F} (h : Stored P id d manifest)
    {file : TxFile} (hfile : file ∈ drafts) (data : ByteArray) :
    Stored P id (d.setFile file data) manifest := by
  obtain ⟨stored, hstored, hrest⟩ := h
  have hne : TxFile.manifest ≠ file := by
    rintro rfl
    revert hfile
    decide
  exact ⟨stored, (Durable.setFile_files_of_ne hne).trans hstored, hrest⟩

section Prepare

variable {manifest : Manifest F} (hopen : HasStatus manifest "open")

include hopen

theorem within_refuse {failure : String} :
    Within P id git i (fun d => Stored P id d manifest) (refuse manifest failure)
      fun _ _ => True :=
  within_save fun _ now hd hfits => .giveUp hd hopen failure now hfits

theorem within_writeDraft {file : TxFile} (hfile : file ∈ drafts) {text : String}
    {χ : Durable → Prop} (hχ : ∀ d data, χ d → χ (d.setFile file data)) :
    Within P id git i (fun d => Stored P id d manifest ∧ χ d) (writeText file text)
      fun _ d => Stored P id d manifest ∧ χ d ∧ OnDisk d file text.toUTF8 :=
  within_writeText fun d hd hsize => ⟨.draft hd.1 hopen file hfile _, hd.1.setFile hfile _,
    hχ d _ hd.2, Durable.setFile_files_self, hsize⟩

/-- The key is the guarded state's, and the files are as they were. -/
theorem within_loadOrCreateKey {χ : (TxFile → Option ByteArray) → Prop} :
    Within P id git i (fun d => Stored P id d manifest ∧ χ d.files) loadOrCreateKey
      fun key d => Stored P id d manifest ∧ χ d.files ∧ decodeKey d.key = .ok key := by
  refine within_tx fun w r w' hφ hanswer => ?_
  have hkey : decodeKey (some w.theKey) = r := congrArg Prod.fst hanswer
  have hw' : w.keyed = w' := congrArg Prod.snd hanswer
  subst hw'
  exact ⟨rfl, Or.inr (.createKey hφ.1 hopen w.freshKey),
    fun key hr => ⟨hφ.1, hφ.2, hkey.trans hr⟩⟩

theorem within_issueReceipt {trajectory : Json F} {prepared : Manifest F}
    {χ : (TxFile → Option ByteArray) → Prop}
    (hχ : ∀ (d : Durable) data, χ d.files → χ (d.setFile .receipt data).files) :
    Within P id git i (fun d => Stored P id d manifest ∧ χ d.files)
      (issueReceipt P prepared trajectory)
      fun receipt d => Stored P id d manifest ∧ χ d.files ∧
        OnDisk d .receipt (jsonBytes receipt) ∧ Signs P prepared trajectory receipt d.key := by
  refine Lock.Inside.bind (ψ := fun checks d => verificationChecks trajectory = .ok checks ∧
    Stored P id d manifest ∧ χ d.files) (Lock.inside_done fun _ h _ hd => ⟨h, hd⟩)
    fun checks => Lock.inside_imp fun hchecks => ?_
  refine Lock.Inside.bind (within_skip rfl) fun issuedAt => ?_
  refine Lock.Inside.bind (ψ := fun payload d => receiptPayload P.digests P.resolve prepared
    trajectory checks issuedAt = .ok payload ∧ Stored P id d manifest ∧ χ d.files)
    (Lock.inside_done fun _ h _ hd => ⟨h, hd⟩) fun payload => Lock.inside_imp fun hpayload => ?_
  refine Lock.Inside.bind (within_loadOrCreateKey hopen) fun secret => ?_
  have hsigns : ∀ key, decodeKey key = .ok secret →
      Signs P prepared trajectory (receiptEnvelope P.digests secret payload) key :=
    fun key hkey => ⟨secret, checks, payload, issuedAt, hkey, hchecks, hpayload, rfl⟩
  generalize receiptEnvelope P.digests secret payload = receipt at hsigns
  refine Lock.Inside.bind (within_writeDraft (χ := fun d => χ d.files ∧
    decodeKey d.key = .ok secret) hopen (by decide) fun d data hd => ⟨hχ d data hd.1, hd.2⟩)
    fun _ => Lock.inside_done fun _ h d hd => ?_
  cases h
  exact ⟨hd.1, hd.2.1.1, hd.2.2, hsigns _ hd.2.1.2⟩

/-- The patch and the trajectory are written. -/
def Written (patch : ByteArray) (trajectory : Json F) (files : TxFile → Option ByteArray) :
    Prop :=
  (files .patch = some patch ∧ patch.size ≤ maxStateFileBytes) ∧
    files .trajectory = some (jsonBytes trajectory) ∧
    (jsonBytes trajectory).size ≤ maxStateFileBytes

theorem within_recordPrepared {baseline : Baseline} {prepared : Prepared} {trajectory : Json F}
    (hwf : trajectory.WF)
    (hsubmitted : pyGet trajectory "exit_status" .null = .ok (.str "Submitted"))
    (hverified : boundToWorkspace trajectory prepared.snapshot = true) :
    Within P id git i (fun d => Stored P id d manifest ∧ OnDisk d .patch prepared.patch)
      (recordPrepared P (preparedManifest P manifest baseline prepared) trajectory)
      fun _ _ => True := by
  have hkeep : ∀ (d : Durable) file data, file ≠ .patch → OnDisk d .patch prepared.patch →
      OnDisk (d.setFile file data) .patch prepared.patch :=
    fun d file data hne hd => ⟨(Durable.setFile_files_of_ne hne.symm).trans hd.1, hd.2⟩
  refine Lock.Inside.bind (within_writeDraft hopen (by decide) fun d data hd =>
    hkeep d .trajectory data (by decide) hd) fun _ => ?_
  refine Lock.Inside.bind (within_issueReceipt (χ := Written prepared.patch trajectory) hopen
    fun d data hd => ⟨hkeep d .receipt data (by decide) hd.1,
      (Durable.setFile_files_of_ne (by decide)).trans hd.2.1, hd.2.2⟩) fun receipt => ?_
  refine Lock.Inside.bind (ψ := fun receiptId d =>
    (pyItem "receipt_id" receipt = .ok receiptId ∧ ∃ text, receiptId = .str text) ∧
      Stored P id d manifest ∧ Written prepared.patch trajectory d.files ∧
      OnDisk d .receipt (jsonBytes receipt) ∧
      Signs P (preparedManifest P manifest baseline prepared) trajectory receipt d.key)
    (Lock.inside_done fun receiptId h d hd => ⟨⟨h, ?_⟩, hd⟩)
    fun receiptId => Lock.inside_imp fun hid => ?_
  · obtain ⟨secret, checks, payload, issuedAt, -, -, -, rfl⟩ := hd.2.2.2
    exact ⟨_, receiptId_str h⟩
  · obtain ⟨hid, text, rfl⟩ := hid
    exact within_save fun d now hd hfits => .prepare hd.1 hopen
      ⟨baseline, prepared, trajectory, receipt, text⟩
      ⟨hwf, hsubmitted, hverified, hd.2.1.1, hd.2.1.2, hd.2.2.1, hd.2.2.2, hid⟩ now hfits

theorem within_preparePatch {trajectory : Json F} {snapshot : String} {content : Dict String}
    {baseline : Baseline} (hwf : trajectory.WF)
    (hsubmitted : pyGet trajectory "exit_status" .null = .ok (.str "Submitted"))
    (hverified : boundToWorkspace trajectory snapshot = true) :
    Within P id git i (fun d => Stored P id d manifest)
      (preparePatch P manifest trajectory snapshot content baseline) fun _ _ => True := by
  refine Lock.Inside.bind (within_skip rfl) fun patch => ?_
  refine Lock.Inside.bind (ψ := fun text d => patch = text.toUTF8 ∧ Stored P id d manifest ∧ True)
    (Lock.inside_done fun text h d hd => ⟨(toUTF8_of_decodeUtf8 h).symm, hd, trivial⟩) fun text =>
    Lock.inside_imp fun hpatch => ?_
  subst hpatch
  refine Lock.Inside.bind (within_writeDraft hopen (by decide) fun _ _ hd => hd) fun _ => ?_
  exact (within_recordPrepared hopen hwf hsubmitted hverified).weaken fun d hd => ⟨hd.1, hd.2.2⟩

theorem within_prepareSubmitted {trajectory : Json F} {snapshot : String} (hwf : trajectory.WF)
    (hsubmitted : pyGet trajectory "exit_status" .null = .ok (.str "Submitted"))
    (hverified : boundToWorkspace trajectory snapshot = true) :
    Within P id git i (fun d => Stored P id d manifest)
      (prepareSubmitted P manifest trajectory snapshot) fun _ _ => True := by
  refine Lock.Inside.bind (within_skip rfl) fun paths => ?_
  refine Lock.Inside.bind (ψ := fun _ d => Stored P id d manifest) ?_ fun _ => ?_
  · unfold addIntents
    split
    · exact Lock.inside_done fun _ _ _ hd => hd
    · exact within_skip rfl
  refine Lock.Inside.bind (within_skip rfl) fun content => ?_
  refine Lock.Inside.bind (ψ := fun _ d => Stored P id d manifest) ?_ fun baseline => ?_
  · exact Lock.Inside.bind within_readBytes fun data => Lock.inside_done fun _ _ _ hd => hd.2.2
  refine Lock.Inside.bind (within_skip rfl) fun represented => ?_
  split
  · exact within_preparePatch hopen hwf hsubmitted hverified
  · exact within_refuse hopen

omit hopen in
theorem within_prepareLocked {trajectory : Json F} (hwf : trajectory.WF) :
    Within P id git i (fun d => Stored P id d manifest) (prepareLocked P trajectory manifest)
      fun _ _ => True := by
  refine Lock.Inside.bind within_item fun status => Lock.inside_imp fun hstatus => ?_
  refine Lock.Inside.bind within_raise fun _ => Lock.inside_imp fun hopen => ?_
  have hopen : HasStatus manifest "open" := by
    rw [HasStatus, Protocol.status, hstatus,
      (Json.pyEq_str_right _ _).1 (Bool.eq_true_of_not_eq_false hopen)]
  refine Lock.Inside.bind (within_skip rfl) fun _ => Lock.Inside.bind (within_skip rfl)
    fun files => ?_
  refine Lock.Inside.bind (ψ := fun exitStatus d =>
    pyGet trajectory "exit_status" .null = .ok exitStatus ∧ Stored P id d manifest)
    (Lock.inside_done fun _ h _ hd => ⟨h, hd⟩) fun exitStatus =>
    Lock.inside_imp fun hexit => ?_
  split
  · exact within_refuse hopen
  · next hsubmitted =>
      split
      · next hverified =>
          refine within_prepareSubmitted hopen hwf ?_ hverified
          rw [hexit, (Json.pyEq_str_right _ _).1 (Bool.eq_true_of_not_eq_false hsubmitted)]
      · exact within_refuse hopen

end Prepare

/-! ## Commit -/

section Commit

variable {manifest : Manifest F} {source : String} {patch : ByteArray}

/-- The source is as it was when the transaction began. -/
def Unchanged (P : Platform F) (manifest : Manifest F) (source : String) (d : Durable) : Prop :=
  ∃ repo, d.repos source = some repo ∧ Dict.get? manifest "baseline_fingerprint" =
    some (.str (fingerprint F P.digests (capture P.digests repo)))

theorem within_checkPrepared :
    Within P id git i φ (checkPrepared P manifest)
      fun _ d => HasStatus manifest "prepared" ∧ φ d := by
  refine Lock.Inside.bind within_item fun status => Lock.inside_imp fun hstatus => ?_
  refine within_raise.mono fun _ d hd => ⟨?_, hd.2⟩
  rw [HasStatus, Protocol.status, hstatus,
    (Json.pyEq_str_right _ _).1 (Bool.eq_true_of_not_eq_false hd.1)]

theorem within_captureSource :
    Within P id git i φ (captureRoot (.source source))
      fun files d => (∃ repo, d.repos source = some repo ∧
        files = capture P.digests repo) ∧ φ d := by
  refine within_aloof rfl fun w files hφ hanswer => ⟨?_, hφ⟩
  have hfiles := (ask_ok.1 (Prod.ext hanswer rfl :
    ask w ((w.repo (.source source)).map (capture P.digests)) _ = (.ok files, _))).1
  obtain ⟨repo, hrepo, rfl⟩ := Option.map_eq_some_iff.1 hfiles
  exact ⟨repo, hrepo, rfl⟩

theorem within_contentSnapshotSource :
    Within P id git i φ (contentSnapshotRoot (.source source))
      fun files d => (∃ repo, d.repos source = some repo ∧
        files = contentSnapshot P.digests repo) ∧ φ d := by
  refine within_aloof rfl fun w files hφ hanswer => ⟨?_, hφ⟩
  have hfiles := (ask_ok.1 (Prod.ext hanswer rfl :
    ask w ((w.repo (.source source)).map (contentSnapshot P.digests)) _ = (.ok files, _))).1
  obtain ⟨repo, hrepo, rfl⟩ := Option.map_eq_some_iff.1 hfiles
  exact ⟨repo, hrepo, rfl⟩

theorem within_checkTrees :
    Within P id git i φ (checkTrees P manifest source)
      fun _ d => Unchanged P manifest source d ∧ φ d := by
  refine Lock.Inside.bind (within_skip rfl) fun _ => Lock.Inside.bind (within_skip rfl)
    fun head => ?_
  refine Lock.Inside.bind within_checkItem fun _ => ?_
  refine (Lock.Inside.bind within_captureSource fun current => ?_).weaken fun d hd => hd.2
  refine Lock.Inside.bind within_checkItem fun _ => ?_
  refine Lock.Inside.bind (ψ := fun _ d => Unchanged P manifest source d ∧ φ d)
    ((within_skip rfl).weaken fun d hd => ?_) fun prepared => ?_
  · obtain ⟨hbaseline, ⟨repo, hrepo, rfl⟩, hd⟩ := hd
    exact ⟨⟨repo, hrepo, hbaseline⟩, hd⟩
  · exact within_checkItem.mono fun _ _ hd => hd.2

theorem within_loadTrajectory : Within P id git i φ (loadTrajectory (F := F)) fun _ => φ :=
  Lock.Inside.bind within_readBytes fun _ => Lock.inside_done fun _ _ _ hd => hd.2.2

theorem within_loadReceipt : Within P id git i φ (loadReceipt P id) fun _ => φ := by
  refine Lock.Inside.bind within_readBytes fun data => ?_
  refine Lock.Inside.bind (Lock.inside_done fun _ _ _ hd => hd.2.2) fun envelope => ?_
  refine Lock.Inside.bind (Lock.inside_done fun _ _ _ hd => hd) fun payload => ?_
  refine Lock.Inside.bind (within_skip rfl) fun key => ?_
  refine Lock.Inside.bind (Lock.inside_done fun _ _ _ hd => hd) fun _ => ?_
  exact Lock.inside_done fun _ _ _ hd => hd

theorem within_checkReceipt :
    Within P id git i φ (checkReceipt P id manifest) fun _ => φ := by
  refine Lock.Inside.bind within_loadTrajectory fun trajectory => ?_
  refine Lock.Inside.bind within_loadReceipt fun receipt => ?_
  refine Lock.Inside.bind (Lock.inside_done fun _ _ _ hd => hd) fun receiptId => ?_
  refine Lock.Inside.bind within_item fun recorded => ?_
  refine Lock.Inside.bind within_raise fun _ => ?_
  exact Lock.inside_done fun _ _ _ hd => hd.2.2

theorem within_loadPatch :
    Within P id git i φ (loadPatch P manifest)
      fun patch d => d.files .patch = some patch ∧ Dict.get? manifest "prepared_patch_sha256" =
        some (.str (P.digests.sha256 patch)) ∧ φ d := by
  refine Lock.Inside.bind within_readBytes fun patch => Lock.Inside.bind within_checkItem
    fun _ => Lock.inside_done fun _ h d hd => ?_
  cases h
  exact ⟨hd.2.2.1, hd.1, hd.2.2.2⟩

/-- Everything a commit has checked, and still counts on when it hands over the patch. -/
structure Checked (P : Platform F) (id : String) (manifest : Manifest F) (source : String)
    (patch : ByteArray) (d : Durable) : Prop where
  stored : Stored P id d manifest
  prepared : HasStatus manifest "prepared"
  patched : Patched P d manifest source patch
  unchanged : Unchanged P manifest source d

theorem within_validateCommit :
    Within P id git i (fun d => Stored P id d manifest) (validateCommit P id manifest)
      fun out => Checked P id manifest out.1 out.2 := by
  refine Lock.Inside.bind within_checkPrepared fun _ => Lock.inside_imp fun hprepared => ?_
  refine Lock.Inside.bind (ψ := fun source d => sourcePath P manifest = .ok source ∧
    Stored P id d manifest) (Lock.inside_done fun source h d hd => ⟨h, hd⟩) fun source =>
    Lock.inside_imp fun hsource => ?_
  refine Lock.Inside.bind within_checkTrees fun _ => ?_
  refine Lock.Inside.bind within_checkReceipt fun _ => ?_
  refine Lock.Inside.bind within_loadPatch fun patch => Lock.inside_done fun out h d hd => ?_
  cases h
  exact ⟨hd.2.2.2, hprepared, ⟨hsource, hd.1, hd.2.1⟩, hd.2.2.1⟩

/-- The patch has landed, or there was nothing to land. -/
structure Landed (P : Platform F) (id : String) (manifest : Manifest F) (source : String)
    (patch : ByteArray) (d : Durable) : Prop where
  stored : Stored P id d manifest
  prepared : HasStatus manifest "prepared"
  patched : Patched P d manifest source patch
  landed : patch.size = 0 ∨ (source, patch) ∈ d.applied

theorem within_gitApply (hne : patch.size ≠ 0) :
    Within P id git i (Checked P id manifest source patch) (gitApply source patch)
      fun _ => Landed P id manifest source patch := by
  refine within_tx fun w r w' hφ hanswer => ?_
  rw [answer] at hanswer
  cases hland : w.land git source patch with
  | none =>
      rw [hland] at hanswer
      cases hanswer
      exact ⟨rfl, Or.inl rfl, fun _ hok => by cases hok⟩
  | some landed =>
      rw [hland] at hanswer
      cases hanswer
      obtain ⟨repo, hrepo, hland⟩ := Option.bind_eq_some_iff.1 hland
      obtain ⟨tree, htree, hland⟩ := Option.bind_eq_some_iff.1 hland
      cases hland
      obtain ⟨repo', hrepo', hbaseline⟩ := hφ.unchanged
      obtain rfl : repo' = repo := Option.some.inj (hrepo'.symm.trans hrepo)
      exact ⟨rfl, Or.inr (.land hφ.stored hφ.prepared hφ.patched hne hrepo hbaseline htree),
        fun _ _ => ⟨hφ.stored, hφ.prepared,
          ⟨hφ.patched.resolved, hφ.patched.onDisk, hφ.patched.digest⟩,
          Or.inr (List.mem_cons_self ..)⟩⟩

theorem within_applyPrepared :
    Within P id git i (Checked P id manifest source patch) (applyPrepared source patch)
      fun _ => Landed P id manifest source patch := by
  unfold applyPrepared
  split
  · next hempty =>
      exact Lock.inside_done fun _ _ _ hd => ⟨hd.stored, hd.prepared, hd.patched, Or.inl hempty⟩
  · next hne =>
      refine Lock.Inside.bind (within_skip rfl) fun refused => ?_
      exact Lock.Inside.bind within_raise fun _ => (within_gitApply hne).weaken fun _ hd => hd.2

theorem within_recordCommitted :
    Within P id git i (Landed P id manifest source patch) (recordCommitted P manifest source)
      fun _ _ => True := by
  refine Lock.Inside.bind within_contentSnapshotSource fun committed => ?_
  refine Lock.Inside.bind within_checkItem fun _ => Lock.Inside.bind (within_skip rfl)
    fun committedAt => ?_
  refine within_save fun d now hd hfits => ?_
  obtain ⟨hcontent, ⟨repo, hrepo, rfl⟩, hlanded⟩ := hd
  exact .commit hlanded.stored hlanded.prepared hlanded.patched hlanded.landed hrepo hcontent
    committedAt now hfits

theorem within_commitLocked :
    Within P id git i (fun d => Stored P id d manifest) (commitLocked P id manifest)
      fun _ _ => True := by
  refine Lock.Inside.bind within_validateCommit fun out => ?_
  refine Lock.Inside.bind within_applyPrepared fun _ => ?_
  exact Lock.Inside.bind within_recordCommitted fun _ => Lock.inside_done fun _ _ _ _ => trivial

theorem within_abortLocked :
    Within P id git i (fun d => Stored P id d manifest) (abortLocked P manifest)
      fun _ _ => True := by
  refine Lock.Inside.bind within_item fun found => Lock.inside_imp fun hfound => ?_
  refine Lock.Inside.bind within_raise fun _ => Lock.inside_imp fun hcommitted => ?_
  have hother : ∀ text, found.pyEq (.str text) ≠ true → ¬ HasStatus manifest text := by
    intro text hne hstatus
    rw [HasStatus, Protocol.status, hfound] at hstatus
    exact hne ((Json.pyEq_str_right _ _).2 (Option.some.inj hstatus))
  refine Lock.Inside.bind (ψ := fun _ _ => True) ?_ fun _ =>
    Lock.inside_done fun _ _ _ _ => trivial
  unfold settleAborted
  split
  · exact Lock.inside_done fun _ _ _ _ => trivial
  · next haborted =>
      refine Lock.Inside.bind (within_skip rfl) fun abortedAt =>
        within_save fun d now hd hfits => ?_
      exact .abort hd (hother _ hcommitted) (hother _ haborted) abortedAt now hfits

end Commit

/-! ## Calls -/

/-- A program that takes no lock and changes nothing the lock protects. -/
abbrev Without (P : Platform F) (id : String) (git : Git) (i : Nat) (p : TxProg α) : Prop :=
  txLock.Outside (Move P id git) i (Effect P git i) p

theorem without_aloof {o : TxOp} (h : aloof o = true) : Without P id git i (tx o) := by
  refine Lock.outside_call fun w r w' hS => ?_
  obtain ⟨workspace, hanswer | ⟨-, hsame⟩⟩ := hS
  · have hw' : w' = (answer P.digests git i o { w with workspace := workspace }).2 :=
      congrArg Prod.snd hanswer
    rw [hw']
    exact answer_aloof git h { w with workspace := workspace }
  · rw [hsame]
    exact ⟨rfl, rfl⟩

omit [Json.PyFloat F] in
theorem effect_lock {w w' : TxWorld} {r : Except PyExc Unit}
    (h : Effect P git i w ⟨.lock, r⟩ w') :
    durable w' = durable w ∧ ((r = .ok () ∧ w.holder = none ∧ w'.holder = some i) ∨
      ((∃ exc, r = .error exc) ∧ w'.holder = w.holder)) := by
  obtain ⟨workspace, hanswer | ⟨hexc, hsame⟩⟩ := h
  · dsimp only [answer] at hanswer
    cases hlock : TxWorld.acquire { w with workspace := workspace } i with
    | none =>
        rw [hlock] at hanswer
        cases hanswer
        exact ⟨rfl, Or.inr ⟨⟨_, rfl⟩, rfl⟩⟩
    | some held =>
        obtain ⟨hfree, rfl⟩ := TxWorld.acquire_eq hlock
        rw [hlock] at hanswer
        cases hanswer
        exact ⟨rfl, Or.inl ⟨rfl, hfree, rfl⟩⟩
  · subst hsame
    exact ⟨rfl, Or.inr ⟨hexc, rfl⟩⟩

omit [Json.PyFloat F] in
theorem effect_unlock {w w' : TxWorld} {r : Except PyExc Unit}
    (h : Effect P git i w ⟨.unlock, r⟩ w') :
    durable w' = durable w ∧ (w'.holder = none ∨ w'.holder = w.holder) := by
  obtain ⟨workspace, hanswer | ⟨-, hsame⟩⟩ := h
  · cases hanswer
    exact ⟨rfl, Or.inl rfl⟩
  · subst hsame
    exact ⟨rfl, Or.inr rfl⟩

theorem without_locked {body : Manifest F → TxProg α}
    (h : ∀ manifest, Within P id git i (fun d => Stored P id d manifest) (body manifest)
      fun _ _ => True) : Without P id git i (locked P id body) := by
  refine Lock.outside_locked ?_ ?_ ?_
  · refine Prog.secure_call (fun _ => Lock.stable_held) (fun _ => Lock.stable_true)
      fun r w w' _ hS => ?_
    obtain ⟨hdurable, ⟨rfl, hfree, hholder⟩ | ⟨⟨exc, rfl⟩, hholder⟩⟩ := effect_lock hS
    · exact ⟨⟨Or.inl hdurable, Or.inr (Or.inl ⟨hfree, hholder⟩)⟩, hholder, trivial⟩
    · exact ⟨⟨Or.inl hdurable, Or.inl hholder⟩, trivial⟩
  · exact (Lock.Inside.bind within_load fun manifest =>
      (h manifest).weaken fun d hd => hd.1)
  · refine Prog.secure_call (fun _ => Lock.stable_true) (fun _ => Lock.stable_true)
      fun r w w' hw hS => ?_
    obtain ⟨hdurable, hholder⟩ := effect_unlock hS
    refine ⟨⟨Or.inl hdurable, hholder.elim (fun hnone => Or.inr (Or.inr ⟨hw.1, hnone⟩)) Or.inl⟩, ?_⟩
    cases r <;> exact trivial

theorem without_raise {cond : Prop} [Decidable cond] {exc : PyExc} :
    Without P id git i (raise cond exc) := Lock.outside_done

theorem without_removeWorkspace {source : String} :
    Without P id git i (removeWorkspace source) := by
  refine Lock.Outside.bind (without_aloof rfl) fun present => ?_
  split
  · exact Lock.Outside.bind (without_aloof rfl) fun refused => Lock.outside_done
  · exact Lock.outside_done

theorem without_load : Without P id git i (load P id) := by
  refine Lock.Outside.bind (Lock.Outside.bind (without_aloof rfl) fun data => ?_) fun data =>
    Lock.outside_done
  exact Lock.Outside.bind without_raise fun _ => Lock.outside_done

theorem without_call (c : Call F) : Without P id git i (c.program P id) := by
  have hclose : ∀ source, Without P id git i (do removeWorkspace source; load P id) :=
    fun source => Lock.Outside.bind without_removeWorkspace fun _ => without_load
  cases c with
  | prepare trajectory wf => exact without_locked fun manifest => within_prepareLocked wf
  | commit =>
      exact Lock.Outside.bind (without_locked fun manifest => within_commitLocked) hclose
  | abort =>
      exact Lock.Outside.bind (without_locked fun manifest => within_abortLocked) hclose

theorem without_session (calls : List (Call F)) : Without P id git i (session P id calls) := by
  induction calls with
  | nil => exact Lock.outside_done
  | cons c rest ih => exact Lock.Outside.bind (Lock.Outside.attempt (without_call c)) fun _ => ih

end Within

/-- However the processes take turns, what they leave comes about by moves. -/
theorem interleaving_moves {w : TxWorld} {calls : Nat → List (Call F)} {pool pool' : TxPool}
    (h : Interleaving P git (start P id w calls) pool) (h' : Interleaving P git pool pool') :
    Relation.ReflTransGen (Move P id git) (durable pool.world) (durable pool'.world) := by
  have hstart : ∀ i, Lock.Disciplined txLock (Move P id git) (Effect P git)
      (start P id w calls) i :=
    fun i => Lock.Outside.disciplined (without_session (calls i))
  exact Lock.turns_moves h' (Lock.turns_disciplined h hstart)

end Protocol

/-! ## The smallest transaction, prepared -/

namespace Small

open Protocol
open Prog (Run Turns Pool)

/-- The lock is free where it is asked for. -/
def Unheld (w : TxWorld) (o : TxOp) : Prop := o = .lock → w.holder = none

/-- The runs of one process that finds the lock free. -/
def Alone (pid : Nat) (w : TxWorld) (e : TxEvent) (w' : TxWorld) : Prop :=
  TxMayFail hexDigests git pid w e w' ∧ Unheld w e.op

theorem alone_okAnswers {pid : Nat} : OkAnswers hexDigests git pid (Alone pid) := by
  intro o a w w'
  constructor
  · exact fun h => mayFail_okAnswers.1 h.1
  · intro h
    refine ⟨mayFail_okAnswers.2 h, fun hlock => ?_⟩
    obtain rfl : o = .lock := hlock
    exact (TxWorld.acquire_eq (become_ok.1 h)).1

/-- A session of one call goes the way of the call, whatever that ends with. -/
theorem session_run {pid : Nat} {c : Call Unit} {r : Except PyExc (Manifest Unit)}
    {w w' : TxWorld} (h : Run (Alone pid) (c.program platform id) w r w') :
    Run (Alone pid) (session platform id [c]) w (.ok ()) w' := by
  unfold session
  refine Prog.run_bind.2 (Or.inr ⟨r, w', ?_, Prog.run_done.2 ⟨rfl, rfl⟩⟩)
  unfold Prog.rescue
  rw [Prog.run_catchWith]
  cases r with
  | ok manifest =>
      exact Or.inl ⟨_, Prog.run_bind.2 (Or.inr ⟨manifest, w', h, Prog.run_done.2 ⟨rfl, rfl⟩⟩),
        rfl⟩
  | error exc =>
      refine Or.inr ⟨exc, w', Prog.run_bind.2 (Or.inl ⟨exc, h, rfl⟩), ?_⟩
      exact Prog.run_done.2 ⟨rfl, rfl⟩

/-- What a process does alone it may do among others. -/
theorem effect_run {α : Type} {pid : Nat} {p : TxProg α} {r : Except PyExc α} {w w' : TxWorld}
    (h : Run (Alone pid) p w r w') :
    Run (fun w e w' => Effect platform git pid w e w' ∧ Unheld w e.op) p w r w' :=
  h.mono fun w _ _ hS => ⟨⟨w.workspace, hS.1⟩, hS.2⟩

/-- A process that makes one call does what the call does. -/
theorem interleaving_call {pool : TxPool} {pid : Nat} {c : Call Unit}
    {r : Except PyExc (Manifest Unit)} {w' : TxWorld}
    (hi : pool.rest pid = session platform id [c])
    (h : Run (Alone pid) (c.program platform id) pool.world r w') :
    Interleaving platform git pool ⟨w', Function.update pool.rest pid (.done (.ok ()))⟩ :=
  Prog.turns_run (fun _ _ h => h) hi (effect_run (session_run h))

theorem trajectory_wf : trajectory.WF := by simp [trajectory, Dict.keys]

/-- The first process prepares, the second commits, the third aborts. -/
def calls : Nat → List (Call Unit)
  | 0 => [.prepare trajectory trajectory_wf]
  | 1 => [.commit]
  | 2 => [.abort]
  | _ => []

/-- The machine once the transaction is prepared. -/
def preparedWorld : TxWorld :=
  (((written 0).tick.keyed.setFile .receipt (some (jsonBytes receipt))).tick.setFile .manifest
    (some (jsonBytes (.obj ((steps 0).final platform))))).release

theorem prepare_run :
    Run (Alone 0) (prepare platform id trajectory) world (.ok ((steps 0).final platform))
      preparedWorld :=
  (prepares alone_okAnswers).run alone_okAnswers

def preparedPool : TxPool :=
  ⟨preparedWorld, Function.update (start platform id world calls).rest 0 (.done (.ok ()))⟩

theorem interleaving_prepared :
    Interleaving platform git (start platform id world calls) preparedPool :=
  interleaving_call rfl prepare_run

theorem interleaving_moves_prepared :
    Relation.ReflTransGen (Move platform id git) (durable world) (durable preparedWorld) :=
  have hstart : Interleaving platform git (start platform id world calls)
      (start platform id world calls) := .refl
  interleaving_moves platform id git hstart interleaving_prepared

end Small

end MiniCodeAgent
