import MiniCodeAgent.TransactionWorld

/-!
# What an operation that returned has done

One lemma for each function of the store: if it returned, what it read, what it
answered and what world it left. The functions that matter later are the ones
that write, so most lemmas end in the world they started from. A meaning in
which an effect answers what `answer` says whenever it does not raise is all
that they assume of the machine, and they run both ways, so that they take a
run apart and put one together.
-/

namespace MiniCodeAgent

open Prog

variable {F : Type} [Json.PyFloat F] {P : Platform F} {id : String}
variable {digests : Digests} {git : Git} {pid : Nat}
variable {S : TxWorld → TxEvent → TxWorld → Prop}

/-- An effect that does not raise answers what the world answers. -/
def OkAnswers (digests : Digests) (git : Git) (pid : Nat)
    (S : TxWorld → TxEvent → TxWorld → Prop) : Prop :=
  ∀ {o : TxOp} {a : o.Res} {w w' : TxWorld},
    S w ⟨o, .ok a⟩ w' ↔ answer digests git pid o w = (.ok a, w')

theorem mayFail_okAnswers : OkAnswers digests git pid (TxMayFail digests git pid) := by
  intro o a w w'
  constructor
  · rintro (h | ⟨⟨exc, h⟩, -⟩)
    · exact h.symm
    · cases h
  · exact fun h => Or.inl h.symm

theorem answers_okAnswers : OkAnswers digests git pid (Answers (answer digests git pid)) :=
  ⟨fun h => h.symm, fun h => h.symm⟩

variable (hS : OkAnswers digests git pid S)

include hS in
theorem run_tx {o : TxOp} {a : o.Res} {w w' : TxWorld} :
    Run S (tx o) w (.ok a) w' ↔ answer digests git pid o w = (.ok a, w') := by
  unfold tx
  rw [run_call]
  exact hS

/-! ## The effects -/

section Effects

theorem eq_ok_pure {α : Type} {a b : α} {v w' : TxWorld} :
    ((.ok a : Except PyExc α), v) = (.ok b, w') ↔ b = a ∧ w' = v := by
  simp [eq_comm]

include hS

theorem run_acquireLock {u : Unit} {w w' : TxWorld} :
    Run S acquireLock w (.ok u) w' ↔ w.acquire pid = some w' :=
  (run_tx hS).trans become_ok

theorem run_releaseLock {u : Unit} {w w' : TxWorld} :
    Run S releaseLock w (.ok u) w' ↔ w' = w.release :=
  (run_tx hS).trans (eq_ok_pure.trans ⟨And.right, fun h => ⟨rfl, h⟩⟩)

theorem run_readFile {file : TxFile} {data : ByteArray} {w w' : TxWorld} :
    Run S (readFile file) w (.ok data) w' ↔ w.files file = some data ∧ w' = w :=
  (run_tx hS).trans ask_ok

theorem run_writeFile {file : TxFile} {data : ByteArray} {u : Unit} {w w' : TxWorld} :
    Run S (writeFile file data) w (.ok u) w' ↔ w' = w.setFile file (some data) :=
  (run_tx hS).trans (eq_ok_pure.trans ⟨And.right, fun h => ⟨rfl, h⟩⟩)

theorem run_timeNs {now : Int} {w w' : TxWorld} :
    Run S timeNs w (.ok now) w' ↔ now = w.now ∧ w' = w.tick :=
  (run_tx hS).trans eq_ok_pure

theorem run_loadExistingKey {key : ByteArray} {w w' : TxWorld} :
    Run S loadExistingKey w (.ok key) w' ↔ decodeKey w.key = .ok key ∧ w' = w :=
  (run_tx hS).trans (by
    show (decodeKey w.key, w) = ((.ok key : Except PyExc ByteArray), w') ↔ _
    rw [Prod.mk.injEq, eq_comm (a := w)])

theorem run_loadOrCreateKey {key : ByteArray} {w w' : TxWorld} :
    Run S loadOrCreateKey w (.ok key) w' ↔ decodeKey (some w.theKey) = .ok key ∧ w' = w.keyed :=
  (run_tx hS).trans (by
    show (decodeKey (some w.theKey), w.keyed) = ((.ok key : Except PyExc ByteArray), w') ↔ _
    rw [Prod.mk.injEq, eq_comm (a := w.keyed)])

theorem run_workspacePath {u : Unit} {w w' : TxWorld} :
    Run S workspacePath w (.ok u) w' ↔ w.workspace.isSome = true ∧ w' = w :=
  (run_tx hS).trans (ask_ok.trans (by
    cases w.workspace with
    | none => exact ⟨fun h => absurd h.1 (by rintro ⟨⟩), fun h => absurd h.1 (by rintro ⟨⟩)⟩
    | some _ => exact ⟨fun h => ⟨rfl, h.2⟩, fun h => ⟨rfl, h.2⟩⟩))

theorem run_workspaceExists {present : Bool} {w w' : TxWorld} :
    Run S workspaceExists w (.ok present) w' ↔ present = w.workspace.isSome ∧ w' = w :=
  (run_tx hS).trans eq_ok_pure

theorem run_captureRoot {root : Root} {files : Dict String} {w w' : TxWorld} :
    Run S (captureRoot root) w (.ok files) w' ↔
      (w.repo root).map (capture digests) = some files ∧ w' = w :=
  (run_tx hS).trans ask_ok

theorem run_contentSnapshotRoot {root : Root} {files : Dict String} {w w' : TxWorld} :
    Run S (contentSnapshotRoot root) w (.ok files) w' ↔
      (w.repo root).map (contentSnapshot digests) = some files ∧ w' = w :=
  (run_tx hS).trans ask_ok

theorem run_gitRevParseHead {source head : String} {w w' : TxWorld} :
    Run S (gitRevParseHead source) w (.ok head) w' ↔
      (w.repos source).map Repo.head = some head ∧ w' = w :=
  (run_tx hS).trans ask_ok

theorem run_gitUntracked {paths : List String} {w w' : TxWorld} :
    Run S gitUntracked w (.ok paths) w' ↔ w.workspace.map git.untracked = some paths ∧ w' = w :=
  (run_tx hS).trans ask_ok

theorem run_gitAddIntents {paths : List String} {u : Unit} {w w' : TxWorld} :
    Run S (gitAddIntents paths) w (.ok u) w' ↔ w.intend paths = some w' :=
  (run_tx hS).trans become_ok

theorem run_gitDiffNames {paths : List String} {w w' : TxWorld} :
    Run S gitDiffNames w (.ok paths) w' ↔ w.workspace.map git.diffNames = some paths ∧ w' = w :=
  (run_tx hS).trans ask_ok

theorem run_gitDiff {patch : ByteArray} {w w' : TxWorld} :
    Run S gitDiff w (.ok patch) w' ↔ w.workspace.map git.diff = some patch ∧ w' = w :=
  (run_tx hS).trans ask_ok

theorem run_gitApplyCheck {source : String} {patch : ByteArray} {refused : Option String}
    {w w' : TxWorld} :
    Run S (gitApplyCheck source patch) w (.ok refused) w' ↔
      w.refusal git source patch = some refused ∧ w' = w :=
  (run_tx hS).trans ask_ok

theorem run_gitApply {source : String} {patch : ByteArray} {u : Unit} {w w' : TxWorld} :
    Run S (gitApply source patch) w (.ok u) w' ↔ w.land git source patch = some w' :=
  (run_tx hS).trans become_ok

end Effects

/-! ## Checks -/

omit [Json.PyFloat F] in
theorem run_raise {cond : Prop} [Decidable cond] {exc : PyExc} {u : Unit} {w w' : TxWorld} :
    Run S (raise cond exc) w (.ok u) w' ↔ ¬ cond ∧ w' = w := by
  unfold raise
  rw [run_done, eq_comm, raiseIf_ok]

omit [Json.PyFloat F] in
theorem run_item {manifest : Manifest F} {key : String} {v : Json F} {w w' : TxWorld} :
    Run S (item manifest key) w (.ok v) w' ↔ Dict.get? manifest key = some v ∧ w' = w := by
  unfold item pyItem
  rw [run_done, Json.get?_obj]
  cases Dict.get? manifest key <;> simp [eq_comm]

/-! ## Files -/

include hS in
theorem run_readBytes {file : TxFile} {tooLarge : PyExc} {data : ByteArray} {w w' : TxWorld} :
    Run S (readBytes file tooLarge) w (.ok data) w' ↔
      w.files file = some data ∧ data.size ≤ maxStateFileBytes ∧ w' = w := by
  unfold readBytes
  simp only [bind_eq, run_bind_ok, run_readFile hS, run_raise, pure_eq, run_done]
  constructor
  · rintro ⟨a, w₁, ⟨hfile, rfl⟩, _, _, ⟨hsize, rfl⟩, hdata, rfl⟩
    cases hdata
    exact ⟨hfile, Nat.le_of_not_lt hsize, rfl⟩
  · rintro ⟨hfile, hsize, rfl⟩
    exact ⟨data, w', ⟨hfile, rfl⟩, (), w', ⟨Nat.not_lt_of_le hsize, rfl⟩, rfl, rfl⟩

include hS in
theorem run_writeText {file : TxFile} {text : String} {u : Unit} {w w' : TxWorld} :
    Run S (writeText file text) w (.ok u) w' ↔
      text.toUTF8.size ≤ maxStateFileBytes ∧ w' = w.setFile file (some text.toUTF8) := by
  unfold writeText
  simp only [bind_eq, run_bind_ok, run_raise, run_writeFile hS]
  constructor
  · rintro ⟨-, w₁, ⟨hsize, rfl⟩, rfl⟩
    exact ⟨Nat.le_of_not_lt hsize, rfl⟩
  · rintro ⟨hsize, rfl⟩
    exact ⟨(), w, ⟨Nat.not_lt_of_le hsize, rfl⟩, rfl⟩

/-- The bytes `write_json` writes. -/
def jsonBytes (value : Json F) : ByteArray := (Json.dumps .indent2 value).toUTF8

include hS in
theorem run_writeJson {file : TxFile} {value : Json F} {u : Unit} {w w' : TxWorld} :
    Run S (writeJson file value) w (.ok u) w' ↔
      (jsonBytes value).size ≤ maxStateFileBytes ∧
        w' = w.setFile file (some (jsonBytes value)) :=
  run_writeText hS

include hS in
theorem run_load {manifest : Manifest F} {w w' : TxWorld} :
    Run S (load P id) w (.ok manifest) w' ↔
      ∃ data, w.files .manifest = some data ∧ data.size ≤ maxStateFileBytes ∧
        decodeManifest P id data = .ok manifest ∧ w' = w := by
  unfold load
  simp only [bind_eq, run_bind_ok, run_readBytes hS, run_done]
  constructor
  · rintro ⟨data, w₁, ⟨hfile, hsize, rfl⟩, hdecode, rfl⟩
    exact ⟨data, hfile, hsize, hdecode.symm, rfl⟩
  · rintro ⟨data, hfile, hsize, hdecode, rfl⟩
    exact ⟨data, w', ⟨hfile, hsize, rfl⟩, hdecode.symm, rfl⟩

/-- The manifest `save` writes at a time. -/
def stamped (manifest : Manifest F) (now : Int) : Manifest F :=
  Dict.set manifest "updated_at_ns" (.int now)

include hS in
theorem run_save {manifest manifest' : Manifest F} {w w' : TxWorld} :
    Run S (save manifest) w (.ok manifest') w' ↔
      manifest' = stamped manifest w.now ∧
        (jsonBytes (.obj manifest' : Json F)).size ≤ maxStateFileBytes ∧
        w' = w.tick.setFile .manifest (some (jsonBytes (.obj manifest'))) := by
  unfold save
  simp only [bind_eq, run_bind_ok, run_timeNs hS, run_writeJson hS, pure_eq, run_done]
  constructor
  · rintro ⟨now, w₁, ⟨rfl, rfl⟩, -, w₂, ⟨hsize, rfl⟩, h, rfl⟩
    cases h
    exact ⟨rfl, hsize, rfl⟩
  · rintro ⟨rfl, hsize, rfl⟩
    exact ⟨w.now, w.tick, ⟨rfl, rfl⟩, (), _, ⟨hsize, rfl⟩, rfl, rfl⟩

/-! ## The lock -/

include hS in
theorem run_locked {α : Type} {body : Manifest F → TxProg α} {a : α} {w w' : TxWorld} :
    Run S (locked P id body) w (.ok a) w' ↔
      ∃ w₁ data manifest w₂, w.acquire pid = some w₁ ∧ w.files .manifest = some data ∧
        data.size ≤ maxStateFileBytes ∧ decodeManifest P id data = .ok manifest ∧
        Run S (body manifest) w₁ (.ok a) w₂ ∧ w' = w₂.release := by
  unfold locked
  simp only [bind_eq, run_bind_ok, run_andFinally_ok, run_load hS, run_acquireLock hS,
    run_releaseLock hS]
  constructor
  · rintro ⟨-, w₁, hlock, w₂, ⟨manifest, w₃, ⟨data, hfile, hsize, hdecode, rfl⟩, hbody⟩, rfl⟩
    refine ⟨w₃, data, manifest, w₂, hlock, ?_, hsize, hdecode, hbody, rfl⟩
    rwa [TxWorld.acquire_files hlock] at hfile
  · rintro ⟨w₁, data, manifest, w₂, hlock, hfile, hsize, hdecode, hbody, rfl⟩
    refine ⟨(), w₁, hlock, w₂, ⟨manifest, w₁, ⟨data, ?_, hsize, hdecode, rfl⟩, hbody⟩, rfl⟩
    rwa [TxWorld.acquire_files hlock]

/-! ## Receipts -/

include hS in
theorem run_issueReceipt {manifest : Manifest F} {trajectory envelope : Json F}
    {w w' : TxWorld} :
    Run S (issueReceipt P manifest trajectory) w (.ok envelope) w' ↔
      ∃ checks payload key, verificationChecks trajectory = .ok checks ∧
        receiptPayload P.digests P.resolve manifest trajectory checks w.now = .ok payload ∧
        decodeKey (some w.theKey) = .ok key ∧
        envelope = receiptEnvelope P.digests key payload ∧
        (jsonBytes envelope).size ≤ maxStateFileBytes ∧
        w' = w.tick.keyed.setFile .receipt (some (jsonBytes envelope)) := by
  unfold issueReceipt
  simp only [bind_eq, run_bind_ok, run_done, run_timeNs hS, run_loadOrCreateKey hS,
    run_writeJson hS, pure_eq]
  constructor
  · rintro ⟨checks, _, ⟨hchecks, rfl⟩, _, _, ⟨rfl, rfl⟩, payload, _, ⟨hpayload, rfl⟩, key, _,
      ⟨hkey, rfl⟩, _, _, ⟨hsize, rfl⟩, h, rfl⟩
    cases h
    exact ⟨checks, payload, key, hchecks.symm, hpayload.symm, hkey, rfl, hsize, rfl⟩
  · rintro ⟨checks, payload, key, hchecks, hpayload, hkey, rfl, hsize, rfl⟩
    exact ⟨checks, w, ⟨hchecks.symm, rfl⟩, _, _, ⟨rfl, rfl⟩, payload, _, ⟨hpayload.symm, rfl⟩,
      key, _, ⟨hkey, rfl⟩, (), _, ⟨hsize, rfl⟩, rfl, rfl⟩

include hS in
theorem run_loadReceipt {envelope : Json F} {w w' : TxWorld} :
    Run S (loadReceipt P id) w (.ok envelope) w' ↔
      ∃ data payload key, w.files .receipt = some data ∧ data.size ≤ maxStateFileBytes ∧
        decodeJson data = .ok envelope ∧
        checkReceiptDigest P.digests P.repr id envelope = .ok payload ∧
        decodeKey w.key = .ok key ∧
        checkReceiptMac P.digests P.repr key envelope payload = .ok () ∧ w' = w := by
  unfold loadReceipt
  simp only [bind_eq, run_bind_ok, run_readBytes hS, run_done, run_loadExistingKey hS, pure_eq]
  constructor
  · rintro ⟨data, _, ⟨hfile, hsize, rfl⟩, envelope', _, ⟨hdecode, rfl⟩, payload, _,
      ⟨hdigest, rfl⟩, key, _, ⟨hkey, rfl⟩, _, _, ⟨hmac, rfl⟩, h, rfl⟩
    cases h
    exact ⟨data, payload, key, hfile, hsize, hdecode.symm, hdigest.symm, hkey, hmac.symm, rfl⟩
  · rintro ⟨data, payload, key, hfile, hsize, hdecode, hdigest, hkey, hmac, rfl⟩
    exact ⟨data, w', ⟨hfile, hsize, rfl⟩, envelope, w', ⟨hdecode.symm, rfl⟩, payload, w',
      ⟨hdigest.symm, rfl⟩, key, w', ⟨hkey, rfl⟩, (), w', ⟨hmac.symm, rfl⟩, rfl, rfl⟩

include hS in
theorem run_loadTrajectory {trajectory : Json F} {w w' : TxWorld} :
    Run S (loadTrajectory (F := F)) w (.ok trajectory) w' ↔
      ∃ data, w.files .trajectory = some data ∧ data.size ≤ maxStateFileBytes ∧
        decodeJson data = .ok trajectory ∧ w' = w := by
  unfold loadTrajectory
  simp only [bind_eq, run_bind_ok, run_readBytes hS, run_done]
  constructor
  · rintro ⟨data, _, ⟨hfile, hsize, rfl⟩, hdecode, rfl⟩
    exact ⟨data, hfile, hsize, hdecode.symm, rfl⟩
  · rintro ⟨data, hfile, hsize, hdecode, rfl⟩
    exact ⟨data, w', ⟨hfile, hsize, rfl⟩, hdecode.symm, rfl⟩

include hS in
theorem run_loadBaseline {baseline : Baseline} {w w' : TxWorld} :
    Run S (loadBaseline (F := F)) w (.ok baseline) w' ↔
      ∃ data, w.files .baseline = some data ∧ data.size ≤ maxStateFileBytes ∧
        decodeBaseline (F := F) data = .ok baseline ∧ w' = w := by
  unfold loadBaseline
  simp only [bind_eq, run_bind_ok, run_readBytes hS, run_done]
  constructor
  · rintro ⟨data, _, ⟨hfile, hsize, rfl⟩, hdecode, rfl⟩
    exact ⟨data, hfile, hsize, hdecode.symm, rfl⟩
  · rintro ⟨data, hfile, hsize, hdecode, rfl⟩
    exact ⟨data, w', ⟨hfile, hsize, rfl⟩, hdecode.symm, rfl⟩

end MiniCodeAgent
