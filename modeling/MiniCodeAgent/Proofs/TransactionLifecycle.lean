import MiniCodeAgent.Proofs.TransactionEvidence

/-!
# The life of a transaction

A transaction carries one change to one tree. It is drafted, proposed, landed and
committed, in this order, or it is aborted on the way; and then nothing happens
to it any more. This is what the store is for, and the moves of the protocol keep
to it (`Move.shows`): from a transaction newly made, however processes prepare,
commit and abort it, its patch lands at most once, it lands before the
transaction is called committed, and it never lands in one that is aborted.

An abort can come between landing and committing, if the commit failed there. The
change has landed then, and the transaction is aborted all the same; a phase of
its own says so.
-/

namespace MiniCodeAgent

namespace Protocol

open Prog (Turns)

/-! ## The life in its own terms -/

/-- A patch, and the tree it is for. -/
structure Change where
  source : String
  patch : ByteArray

inductive Phase where
  | drafted
  | proposed (c : Change)
  | landed (c : Change)
  | committed (c : Change)
  /-- With the change that had landed, if it had. -/
  | aborted (left : Option Change)

namespace Phase

inductive Step : Phase → Phase → Prop
  | propose (c : Change) : Step .drafted (.proposed c)
  | land (c : Change) : Step (.proposed c) (.landed c)
  | commit (c : Change) : Step (.landed c) (.committed c)
  /-- There is nothing to land. -/
  | commitEmpty (c : Change) (h : c.patch.size = 0) : Step (.proposed c) (.committed c)
  | giveUp : Step .drafted (.aborted none)
  | withdraw (c : Change) : Step (.proposed c) (.aborted none)
  | abandon (c : Change) : Step (.landed c) (.aborted (some c))

abbrev Reaches : Phase → Phase → Prop := Relation.ReflTransGen Step

end Phase

/-! ## Where a transaction stands -/

variable {F : Type} [Json.PyFloat F] {P : Platform F} {id : String} {git : Git}

/-- The phase of what is on the machine, where the trees were once like this. -/
inductive Shows (P : Platform F) (id : String) (repos : String → Option Repo) (d : Durable) :
    Phase → Prop
  | drafted {manifest : Manifest F} (h : Stored P id d manifest)
      (hstatus : HasStatus manifest "open") (hrepos : d.repos = repos) (happlied : d.applied = []) :
      Shows P id repos d .drafted
  | proposed {manifest : Manifest F} {c : Change} (h : Stored P id d manifest)
      (hstatus : HasStatus manifest "prepared") (hpatched : Patched P d manifest c.source c.patch)
      (hrepos : d.repos = repos) (happlied : d.applied = []) : Shows P id repos d (.proposed c)
  | landed {manifest : Manifest F} {c : Change} {repo : Repo} (h : Stored P id d manifest)
      (hstatus : HasStatus manifest "prepared") (hpatched : Patched P d manifest c.source c.patch)
      (hne : c.patch.size ≠ 0) (hrepo : d.repos c.source = some repo)
      (hchanged : Dict.get? manifest "baseline_fingerprint" ≠
        some (.str (fingerprint F P.digests (capture P.digests repo))))
      (happlied : d.applied = [(c.source, c.patch)]) : Shows P id repos d (.landed c)
  | committed {manifest : Manifest F} {c : Change} (h : Stored P id d manifest)
      (hstatus : HasStatus manifest "committed") (hpatched : Patched P d manifest c.source c.patch)
      (happlied : d.applied = if c.patch.size = 0 then [] else [(c.source, c.patch)]) :
      Shows P id repos d (.committed c)
  | aborted {manifest : Manifest F} {left : Option Change} (h : Stored P id d manifest)
      (hstatus : HasStatus manifest "aborted")
      (happlied : d.applied = left.toList.map fun c => (c.source, c.patch)) :
      Shows P id repos d (.aborted left)

/-- A patch that does anything changes the fingerprint of the tree it is applied to. -/
def Alters (P : Platform F) (git : Git) (repos : String → Option Repo) : Prop :=
  ∀ source repo patch tree, repos source = some repo → patch.size ≠ 0 →
    git.apply patch repo.tree = some tree →
    fingerprint F P.digests (capture P.digests { repo with tree := tree }) ≠
      fingerprint F P.digests (capture P.digests repo)

/-! ## Closed is closed -/

def Closed (P : Platform F) (id : String) (d : Durable) : Prop :=
  ∃ manifest, Stored P id d manifest ∧
    (HasStatus manifest "committed" ∨ HasStatus manifest "aborted")

/-- What a move starts from. -/
theorem Move.opened {d d' : Durable} (h : Move P id git d d') :
    ∃ manifest, Stored P id d manifest ∧ ¬ HasStatus manifest "committed" ∧
      ¬ HasStatus manifest "aborted" := by
  have hnot : ∀ {manifest : Manifest F} {text : String}, HasStatus manifest text →
      text ≠ "committed" → text ≠ "aborted" →
      ¬ HasStatus manifest "committed" ∧ ¬ HasStatus manifest "aborted" :=
    fun hstatus hc ha => ⟨fun h => hc (hstatus.unique h), fun h => ha (hstatus.unique h)⟩
  cases h with
  | draft h hopen | createKey h hopen | giveUp h hopen | prepare h hopen =>
      exact ⟨_, h, hnot hopen (by decide) (by decide)⟩
  | land h hprepared | commit h hprepared =>
      exact ⟨_, h, hnot hprepared (by decide) (by decide)⟩
  | abort h hcommitted haborted => exact ⟨_, h, hcommitted, haborted⟩

theorem Closed.final {d d' : Durable} (hclosed : Closed P id d) : ¬ Move P id git d d' := by
  intro h
  obtain ⟨manifest, hstored, hstatus⟩ := hclosed
  obtain ⟨manifest', hstored', hcommitted, haborted⟩ := h.opened
  obtain rfl := hstored.unique hstored'
  exact hstatus.elim hcommitted haborted

/-- Of a transaction that is committed or aborted, nothing changes any more. -/
theorem interleaving_closed {w : TxWorld} {calls : Nat → List (Call F)} {pool pool' : TxPool}
    (h : Interleaving P git (start P id w calls) pool)
    (hclosed : Closed P id (durable pool.world)) (h' : Interleaving P git pool pool') :
    durable pool'.world = durable pool.world := by
  rcases Relation.ReflTransGen.cases_head (interleaving_moves P id git h h') with
    hsame | ⟨next, hmove, -⟩
  · exact hsame.symm
  · exact absurd hmove hclosed.final

/-! ## Every move keeps to the life -/

section Life

variable {repos : String → Option Repo}

/-- From an open transaction. -/
theorem Move.shows_drafted {d d' : Durable} {manifest : Manifest F} (h : Stored P id d manifest)
    (hstatus : HasStatus manifest "open") (hrepos : d.repos = repos) (happlied : d.applied = [])
    (hmove : Move P id git d d') :
    ∃ next, Shows P id repos d' next ∧ (Phase.Step .drafted next ∨ next = .drafted) := by
  cases hmove with
  | draft h' hopen file hfile data =>
      exact ⟨_, .drafted (h'.setFile hfile data) hopen hrepos happlied, Or.inr rfl⟩
  | createKey h' hopen key => exact ⟨_, .drafted h' hopen hrepos happlied, Or.inr rfl⟩
  | giveUp h' hopen failure now hfits =>
      have hloaded : Loaded P id (failedManifest _ failure) :=
        h'.loaded.set (.str failure) (by decide)
      exact ⟨_, .drafted (stored_save hloaded hfits)
        (hasStatus_stamped.2 (failedManifest_status hopen)) hrepos happlied, Or.inr rfl⟩
  | prepare h' hopen x hissued now hfits =>
      obtain ⟨source, hsource⟩ := h'.source
      exact ⟨.proposed ⟨source, x.prepared.patch⟩,
        .proposed (stored_save (x.saved_loaded h'.loaded) hfits)
        (hasStatus_stamped.2 Proposal.saved_status)
        (Proposal.saved_patched hsource hissued.patch.1) hrepos happlied, Or.inl (.propose _)⟩
  | land h' hprepared | commit h' hprepared =>
      obtain rfl := h.unique h'
      exact absurd (hstatus.unique hprepared) (by decide)
  | abort h' hcommitted haborted abortedAt now hfits =>
      exact ⟨.aborted none, .aborted (stored_save (abortedManifest_loaded h'.loaded _) hfits)
        (hasStatus_stamped.2 abortedManifest_status) happlied, Or.inl .giveUp⟩

/-- From a prepared one whose patch has not landed. -/
theorem Move.shows_proposed {d d' : Durable} {manifest : Manifest F} {c : Change}
    (halters : Alters P git repos) (h : Stored P id d manifest)
    (hstatus : HasStatus manifest "prepared") (hpatched : Patched P d manifest c.source c.patch)
    (hrepos : d.repos = repos) (happlied : d.applied = []) (hmove : Move P id git d d') :
    ∃ next, Shows P id repos d' next ∧ (Phase.Step (.proposed c) next ∨ next = .proposed c) := by
  cases hmove with
  | draft h' hopen | createKey h' hopen | giveUp h' hopen | prepare h' hopen =>
      obtain rfl := h.unique h'
      exact absurd (hstatus.unique hopen) (by decide)
  | @land manifest' h' hprepared source patch hpatched' hne repo hrepo hbaseline tree htree =>
      obtain rfl := h.unique h'
      obtain ⟨rfl, rfl⟩ := hpatched.unique hpatched'
      have hchanged := halters c.source repo c.patch tree (hrepos ▸ hrepo) hne htree
      refine ⟨.landed c, .landed h hstatus
        ⟨hpatched.resolved, hpatched.onDisk, hpatched.digest⟩ hne (if_pos rfl) ?_ ?_,
        Or.inl (.land c)⟩
      · rw [hbaseline]
        intro heq
        injection heq with heq
        injection heq with heq
        exact hchanged heq.symm
      · show (c.source, c.patch) :: d.applied = _
        rw [happlied]
  | @commit manifest' h' hprepared source patch hpatched' hlanded repo hrepo hcontent
      committedAt now hfits =>
      obtain rfl := h.unique h'
      obtain ⟨rfl, rfl⟩ := hpatched.unique hpatched'
      have hempty : c.patch.size = 0 := by
        refine hlanded.resolve_right fun hmem => ?_
        rw [happlied] at hmem
        cases hmem
      refine ⟨.committed c, .committed (stored_save (committedManifest_loaded h.loaded _) hfits)
        (hasStatus_stamped.2 committedManifest_status)
        (committedManifest_patched hpatched committedAt now) ?_, Or.inl (.commitEmpty c hempty)⟩
      rw [if_pos hempty]
      exact happlied
  | abort h' hcommitted haborted abortedAt now hfits =>
      exact ⟨.aborted none, .aborted (stored_save (abortedManifest_loaded h'.loaded _) hfits)
        (hasStatus_stamped.2 abortedManifest_status) happlied, Or.inl (.withdraw c)⟩

/-- From one whose patch has landed. -/
theorem Move.shows_landed {d d' : Durable} {manifest : Manifest F} {c : Change} {repo : Repo}
    (h : Stored P id d manifest) (hstatus : HasStatus manifest "prepared")
    (hpatched : Patched P d manifest c.source c.patch) (hne : c.patch.size ≠ 0)
    (hrepo : d.repos c.source = some repo)
    (hchanged : Dict.get? manifest "baseline_fingerprint" ≠
      some (.str (fingerprint F P.digests (capture P.digests repo))))
    (happlied : d.applied = [(c.source, c.patch)]) (hmove : Move P id git d d') :
    ∃ next, Shows P id repos d' next ∧ (Phase.Step (.landed c) next ∨ next = .landed c) := by
  cases hmove with
  | draft h' hopen | createKey h' hopen | giveUp h' hopen | prepare h' hopen =>
      obtain rfl := h.unique h'
      exact absurd (hstatus.unique hopen) (by decide)
  | @land manifest' h' hprepared source patch hpatched' _ repo' hrepo' hbaseline =>
      -- the tree is not the one the transaction began with any more
      obtain rfl := h.unique h'
      obtain ⟨rfl, -⟩ := hpatched.unique hpatched'
      obtain rfl : repo = repo' := Option.some.inj (hrepo.symm.trans hrepo')
      exact absurd hbaseline hchanged
  | @commit manifest' h' hprepared source patch hpatched' hlanded repo' hrepo' hcontent
      committedAt now hfits =>
      obtain rfl := h.unique h'
      obtain ⟨rfl, rfl⟩ := hpatched.unique hpatched'
      refine ⟨.committed c, .committed (stored_save (committedManifest_loaded h.loaded _) hfits)
        (hasStatus_stamped.2 committedManifest_status)
        (committedManifest_patched hpatched committedAt now) ?_, Or.inl (.commit c)⟩
      rw [if_neg hne]
      exact happlied
  | abort h' hcommitted haborted abortedAt now hfits =>
      exact ⟨.aborted (some c), .aborted
        (stored_save (abortedManifest_loaded h'.loaded _) hfits)
        (hasStatus_stamped.2 abortedManifest_status) happlied, Or.inl (.abandon c)⟩

/-- A move is a step of the life, or no step at all. -/
theorem Move.shows (halters : Alters P git repos) {d d' : Durable} {phase : Phase}
    (h : Shows P id repos d phase) (hmove : Move P id git d d') :
    ∃ next, Shows P id repos d' next ∧ (Phase.Step phase next ∨ next = phase) := by
  cases h with
  | drafted h hstatus hrepos happlied => exact hmove.shows_drafted h hstatus hrepos happlied
  | proposed h hstatus hpatched hrepos happlied =>
      exact hmove.shows_proposed halters h hstatus hpatched hrepos happlied
  | landed h hstatus hpatched hne hrepo hchanged happlied =>
      exact hmove.shows_landed h hstatus hpatched hne hrepo hchanged happlied
  | committed h hstatus => exact absurd hmove (Closed.final ⟨_, h, Or.inl hstatus⟩)
  | aborted h hstatus => exact absurd hmove (Closed.final ⟨_, h, Or.inr hstatus⟩)

theorem moves_show (halters : Alters P git repos) {d d' : Durable} {phase : Phase}
    (h : Shows P id repos d phase) (hmoves : Relation.ReflTransGen (Move P id git) d d') :
    ∃ next, Shows P id repos d' next ∧ Phase.Reaches phase next := by
  induction hmoves with
  | refl => exact ⟨phase, h, .refl⟩
  | tail _ hmove ih =>
      obtain ⟨mid, hmid, hreaches⟩ := ih
      obtain ⟨next, hnext, hstep | rfl⟩ := Move.shows halters hmid hmove
      · exact ⟨next, hnext, hreaches.tail hstep⟩
      · exact ⟨next, hnext, hreaches⟩

end Life

/-- From a transaction newly made, any processes in any order take it through its life:
what is on the machine at one time shows a phase, and later one that this phase reaches. -/
theorem interleaving_life {w : TxWorld} {calls : Nat → List (Call F)} {pool pool' : TxPool}
    (halters : Alters P git w.repos) (hnew : Shows P id w.repos (durable w) .drafted)
    (h : Interleaving P git (start P id w calls) pool) (h' : Interleaving P git pool pool') :
    ∃ phase next, Shows P id w.repos (durable pool.world) phase ∧
      Shows P id w.repos (durable pool'.world) next ∧ Phase.Reaches .drafted phase ∧
      Phase.Reaches phase next := by
  have hstart : Relation.ReflTransGen (Move P id git) (durable w) (durable pool.world) :=
    interleaving_moves P id git .refl h
  obtain ⟨phase, hphase, hreaches⟩ := moves_show halters hnew hstart
  obtain ⟨next, hnext, hreaches'⟩ := moves_show halters hphase (interleaving_moves P id git h h')
  exact ⟨phase, next, hphase, hnext, hreaches, hreaches'⟩

end Protocol

/-! ## The smallest transaction, committed -/

namespace Small

open Protocol
open Prog (Run)

def final : Manifest Unit := (steps 0).final platform

theorem final_manifestOf : final =
    manifestOf (hexText "/src".toUTF8) (print before) (print after) (hexText patch) receiptId
      "prepared" 4 := final_eq 0

/-- The world in which the commit has landed the patch. -/
def landedWorld : TxWorld :=
  { (preparedWorld.held 1).setRepo "/src" (repo after) with applied := [("/src", patch)] }

def committed : Manifest Unit :=
  stamped (committedManifest final landedWorld.now) landedWorld.tick.now

/-- The machine once the commit has let the lock go. -/
def recordedWorld : TxWorld :=
  (landedWorld.tick.tick.setFile .manifest (some (jsonBytes (.obj committed)))).release

theorem dumpInt_five : Json.dumpInt 5 = ['5'] := by decide

theorem dumpInt_six : Json.dumpInt 6 = ['6'] := by decide

theorem committed_eq : committed =
    manifestOf (hexText "/src".toUTF8) (print before) (print after) (hexText patch) receiptId
      "committed" 6 ++ [("committed_at_ns", .int 5)] := by
  have hnow : landedWorld.now = 5 := rfl
  have hnext : landedWorld.tick.now = 6 := rfl
  unfold committed
  rw [final_manifestOf, hnow, hnext]
  rfl

theorem room_append (kvs : Dict (Json Unit)) (key : String) (value : Json Unit) :
    Json.room (.obj (kvs ++ [(key, value)])) 0 =
      Json.room (.obj kvs) 0 + (Json.room value 1 + (6 * key.length + 4) + 4) := by
  simp only [Json.room, Json.roomMembers_eq_sum, List.map_append, List.sum_append, List.map_cons,
    List.map_nil, List.sum_cons, List.sum_nil, Nat.zero_add]
  omega

theorem committed_fits : (jsonBytes (.obj committed : Json Unit)).size ≤ maxStateFileBytes := by
  have hmanifest : Json.room (.obj (manifestOf (hexText "/src".toUTF8) (print before)
      (print after) (hexText patch) receiptId "committed" 6)) 0 ≤ 2000000 :=
    manifestOf_room identity_length (print_length snapshot_before rfl)
      (print_length snapshot_after rfl) patchDigest_length receiptId_length (by decide)
      (by rw [dumpInt_six]; decide)
  refine fits ?_
  rw [committed_eq, room_append]
  exact le_trans (Nat.add_le_add_right hmanifest _) (by decide)

theorem final_backed : ∃ x, Protocol.Backed platform (durable (preparedWorld.held 1)) final x ∧
    x.prepared.patch = patch := by
  have hmoves := interleaving_moves_prepared
  have hnone : Evidenced platform id (durable world) := by
    intro other hother hproposed
    obtain rfl := stored_open.unique hother
    have hopen : HasStatus manifest "open" := rfl
    exact absurd hproposed (not_proposed hopen (by decide) (by decide))
  obtain ⟨x, hx⟩ := moves_evidenced hmoves hnone final stored_prepared
    (Or.inl (PrepareSteps.final_status _))
  exact ⟨x, hx, (Option.some.inj hx.patch.1).symm⟩

theorem source_before : (preparedWorld.held 1).repos "/src" = some (repo before) := rfl

theorem apply_before : git.apply patch (repo before).tree = some after :=
  show (if patch = patch ∧ before = before then some after else none) = some after from
    if_pos ⟨rfl, rfl⟩

theorem land_patch : (preparedWorld.held 1).land git "/src" patch = some landedWorld := by
  unfold TxWorld.land
  simp only [source_before, Option.bind_eq_bind, Option.bind_some, apply_before]
  rfl

theorem refusal_patch : (preparedWorld.held 1).refusal git "/src" patch = some none := by
  unfold TxWorld.refusal
  simp only [source_before, Option.map_some, apply_before]
  rfl

/-- Everything a commit checks is as it should be. -/
theorem commitLocked_run {S : TxWorld → TxEvent → TxWorld → Prop}
    (hS : OkAnswers platform.digests git 1 S) :
    Run S (commitLocked platform id final) (preparedWorld.held 1) (.ok "/src")
      (landedWorld.tick.tick.setFile .manifest (some (jsonBytes (.obj committed)))) := by
  have hget := final_manifestOf
  obtain ⟨x, hbacked, hpatch⟩ := final_backed
  have htrees : Run S (checkTrees platform final "/src") (preparedWorld.held 1) (.ok ())
      (preparedWorld.held 1) :=
    (run_checkTrees hS).2 ⟨_, _, _, rfl, by rw [hget]; rfl, rfl, by rw [hget]; rfl, rfl,
      by rw [hget]; rfl, rfl⟩
  have hsource : sourcePath platform final = .ok "/src" := by
    unfold sourcePath
    rw [hget]
    rfl
  have hvalid := hbacked.validated hS stored_prepared.loaded (PrepareSteps.final_status _)
    hsource htrees
  rw [hpatch] at hvalid
  have hcontent : (landedWorld.repos "/src").map (contentSnapshot platform.digests) =
      some (snapshot after) := congrArg some (content_eq after (Or.inr rfl))
  have hrecord : Run S (recordCommitted platform final "/src") landedWorld (.ok committed)
      (landedWorld.tick.tick.setFile .manifest (some (jsonBytes (.obj committed)))) :=
    (run_recordCommitted hS).2 ⟨snapshot after, hcontent, by rw [hget]; rfl,
      (run_save hS).2 ⟨rfl, committed_fits, rfl⟩⟩
  exact (run_commitLocked hS).2 ⟨patch, landedWorld, committed, hvalid,
    (run_applyPrepared hS).2 (Or.inr ⟨by decide, refusal_patch, land_patch⟩), hrecord⟩

def committedWorld : TxWorld := { recordedWorld with workspace := none }

theorem committed_loaded : Loaded platform id committed :=
  stamped_loaded (committedManifest_loaded stored_prepared.loaded _) _

theorem commit_run : Run (Alone 1) (commit platform id) preparedWorld (.ok committed)
    committedWorld := by
  have hS : OkAnswers platform.digests git 1 (Alone 1) := alone_okAnswers
  obtain ⟨data, hdata, hsize, hdecode⟩ := stored_prepared
  have hlocked : Run (Alone 1) (locked platform id (commitLocked platform id)) preparedWorld
      (.ok "/src") recordedWorld :=
    (run_locked hS).2 ⟨preparedWorld.held 1, data, final, _, if_pos rfl, hdata, hsize, hdecode,
      commitLocked_run hS, rfl⟩
  have hremove : Run (Alone 1) (removeWorkspace "/src") recordedWorld (.ok ()) committedWorld := by
    refine Prog.run_bind_ok.2 ⟨true, recordedWorld, (run_workspaceExists hS).2 ⟨rfl, rfl⟩, ?_⟩
    rw [if_pos rfl]
    exact Prog.run_bind_ok.2 ⟨none, committedWorld, (run_tx hS).2 rfl,
      run_raiseRefused.2 ⟨rfl, rfl⟩⟩
  exact (run_commit hS).2 ⟨"/src", recordedWorld, hlocked, hremove,
    (run_load hS).2 ⟨_, rfl, committed_fits, committed_loaded.decode, rfl⟩⟩

theorem stored_committed : Protocol.Stored platform id (durable committedWorld) committed :=
  ⟨_, rfl, committed_fits, committed_loaded.decode⟩

theorem committed_status : HasStatus committed "committed" :=
  hasStatus_stamped.2 committedManifest_status

theorem release_held {w : TxWorld} (h : w.holder = none) (pid : Nat) : (w.held pid).release = w := by
  cases w
  cases h
  rfl

/-- An abort that comes too late. -/
theorem abort_run : Run (Alone 2) (abort platform id) committedWorld
    (.error (txError "a committed transaction cannot be aborted")) committedWorld := by
  have hS : OkAnswers platform.digests git 2 (Alone 2) := alone_okAnswers
  refine Prog.run_bind.2 (Or.inl ⟨_, ?_, rfl⟩)
  refine Prog.run_bind.2 (Or.inr ⟨(), committedWorld.held 2, (run_acquireLock hS).2 (if_pos rfl),
    Prog.run_andFinally.2 ⟨_, committedWorld.held 2, ?_, Or.inl
      ⟨(run_releaseLock hS).2 (release_held rfl 2).symm, rfl⟩⟩⟩)
  refine Prog.run_bind.2 (Or.inr ⟨committed, committedWorld.held 2,
    (run_load hS).2 ⟨_, rfl, committed_fits, committed_loaded.decode, rfl⟩, ?_⟩)
  refine Prog.run_bind.2 (Or.inr ⟨.str "committed", committedWorld.held 2,
    run_item.2 ⟨committed_status, rfl⟩, Prog.run_bind.2 (Or.inl ⟨_, ?_, rfl⟩)⟩)
  unfold raise raiseIf
  rw [if_pos ((Json.pyEq_str_right _ _).2 rfl)]
  exact Prog.run_done.2 ⟨rfl, rfl⟩

def committedPool : TxPool :=
  ⟨committedWorld, Function.update preparedPool.rest 1 (.done (.ok ()))⟩

theorem interleaving_committed : Interleaving platform git preparedPool committedPool :=
  interleaving_call rfl commit_run

def lastPool : TxPool :=
  ⟨committedWorld, Function.update committedPool.rest 2 (.done (.ok ()))⟩

theorem interleaving_last : Interleaving platform git committedPool lastPool :=
  interleaving_call rfl abort_run

theorem interleaving_closed_small : durable lastPool.world = durable committedPool.world :=
  interleaving_closed (Prog.Turns.trans interleaving_prepared interleaving_committed)
    ⟨committed, stored_committed, Or.inl committed_status⟩ interleaving_last

theorem print_ne : print after ≠ print before := by
  intro hprint
  have hcanonical : Json.canonical (filesJson Unit (snapshot after)) =
      Json.canonical (filesJson Unit (snapshot before)) :=
    String.toByteArray_inj.1 (hexText_injective hprint)
  rw [snapshot_before, snapshot_after] at hcanonical
  have hwf : ∀ text, (filesJson Unit [("a.txt", text)]).WF := by simp [filesJson, Dict.keys]
  have hsorted := Json.sortKeys_eq_of_canonical (hwf _) (hwf _) hcanonical
  have hfile := congrArg (fun j => j.get? "a.txt") hsorted
  simp only [Json.get?_sortKeys (hwf _)] at hfile
  exact absurd (Json.str.inj (Option.some.inj hfile)) (by decide)

theorem alters : Alters platform git world.repos := by
  intro source repo' patch' tree hrepo hne htree hsame
  have hsource : repo' = repo before := by
    by_cases heq : source = "/src"
    · exact (Option.some.inj ((if_pos heq).symm.trans hrepo)).symm
    · cases (if_neg heq).symm.trans hrepo
  subst hsource
  have happly : patch' = patch ∧ tree = after := by
    by_cases heq : patch' = patch ∧ (repo before).tree = before
    · exact ⟨heq.1, (Option.some.inj ((if_pos heq).symm.trans htree)).symm⟩
    · cases (if_neg heq).symm.trans htree
  obtain ⟨-, rfl⟩ := happly
  exact print_ne hsame

theorem shows_open : Protocol.Shows platform id world.repos (durable world) .drafted :=
  .drafted stored_open rfl rfl rfl

theorem interleaving_life_small : ∃ phase next,
    Protocol.Shows platform id world.repos (durable preparedPool.world) phase ∧
      Protocol.Shows platform id world.repos (durable committedPool.world) next ∧
      Phase.Reaches .drafted phase ∧ Phase.Reaches phase next :=
  interleaving_life alters shows_open interleaving_prepared interleaving_committed

end Small

end MiniCodeAgent
