import MiniCodeAgent.Proofs.MutationConformance

/-!
# Snapshots and concurrent writers

Two readings of one fact. The log a ledger stands on names the revisions 0, 1, 2, …
in order, so at most one writer wins each of them and a mutation that was committed
names a revision that is gone. And a ledger rebuilt from a snapshot differs from
the one that was compacted in the ids it remembers, and in nothing else `append`
reads.

Neither survives without its condition. A restart from an older snapshot goes back
behind mutations that were committed since. And an id that is used again for
another mutation is recognised by the ledger that remembers it only.
-/

namespace MemoryCore

open MiniCodeAgent MutationLedger

variable {F : Type} [Json.PyFloat F]
variable {env : MutationEnv} {streamId : String} {schemas : List MemoryFieldSchema}

/-! ## Concurrent writers -/

theorem contiguous_log {meets : MutationLedger F → MemoryMutation F → Prop} {r : LedgerRun F}
    (h : LedgerRuns env meets streamId schemas r) :
    RunInv streamId schemas (Revisions.Contiguous fun m : MemoryMutation F => m.baseRevision) r :=
  run_rule .nil (fun hs hcontiguous _ hc => hcontiguous.snoc (hc.base.trans hs.revision)) h

/-- A call that does not commit leaves the run where it was. -/
theorem append_refused {r : LedgerRun F} {m : MemoryMutation F} (h : Refuses env r.ledger m) :
    r.append env m = r := by
  rw [LedgerRun.append, h.same, committedBy_refuses h, List.append_nil, List.append_nil]

theorem refuses_of_not_committed {ledger : MutationLedger F} {m : MemoryMutation F}
    (h : ∀ report, (ledger.append env m).1 = .ok report → report.outcome ≠ .committed) :
    Refuses env ledger m := by
  rcases append_cases env ledger m with ⟨schema, hc⟩ | hr
  · exact absurd rfl (h (ledger.commit schema m).1 (by rw [hc.append]))
  · exact hr

variable (env) in
/-- A mutation of the log names a revision that is gone. -/
theorem refuses_of_mem {r : LedgerRun F}
    (hinv : RunInv streamId schemas
      (Revisions.Contiguous fun m : MemoryMutation F => m.baseRevision) r)
    {m : MemoryMutation F} (hm : m ∈ r.log) : Refuses env r.ledger m := by
  rcases append_cases env r.ledger m with ⟨schema, hc⟩ | hr
  · have hlt : m.baseRevision < r.log.length := hinv.holds.base_lt hm
    have hbase := hc.base
    have hrevision := hinv.stands.revision
    omega
  · exact hr

/-- What holds at every point of a run. -/
structure Serial (env : MutationEnv) (schemas : List MemoryFieldSchema) (r : LedgerRun F) :
    Prop where
  one_per_base : (r.log.map fun m => m.baseRevision).Nodup
  contiguous : r.log.map (fun m => m.revision) =
    (List.range r.log.length).map fun n : Nat => (n : Int) + 1
  revision : r.ledger.revision = r.log.length
  state : r.ledger.state = stateOf schemas r.log
  /-- A report other than `committed`, or a raised error, changes nothing. -/
  refused : ∀ m, (∀ report, (r.ledger.append env m).1 = .ok report → report.outcome ≠ .committed) →
    r.append env m = r
  repeated : ∀ m ∈ r.log, r.append env m = r ∧
    ∀ report, (r.ledger.append env m).1 = .ok report → report.outcome ≠ .committed
  compacted : (r.compact env).ledger.state = r.ledger.state ∧
    (r.compact env).ledger.revision = r.ledger.revision ∧ (r.compact env).log = r.log

/-- The committed mutations a ledger stands on are one to a revision, whatever is
submitted, compacted and restarted. -/
theorem ledger_run_serial {r : LedgerRun F}
    (h : LedgerRuns env (fun _ _ => True) streamId schemas r) : Serial env schemas r := by
  have hinv := contiguous_log h
  have hkeyed : r.ledger.state.Keyed := by
    rw [hinv.stands.state]
    exact keyed_stateOf schemas r.log
  refine ⟨hinv.holds.nodup, ?_, hinv.stands.revision, hinv.stands.state,
    fun m hm => append_refused (refuses_of_not_committed hm), fun m hm => ?_, ?_⟩
  · have hrevision : (fun m : MemoryMutation F => m.revision) =
        (fun b => b + 1) ∘ fun m => m.baseRevision := funext fun m => m.revision_eq
    rw [hrevision, ← List.map_map, hinv.holds.map_eq, List.map_map]
    rfl
  · have hr := refuses_of_mem env hinv hm
    exact ⟨append_refused hr, fun report hreport => (hr.answer report hreport).1⟩
  · obtain ⟨snapshot, -, -, -, hout⟩ := compact_ok env hkeyed
    rw [LedgerRun.compact, hout]
    exact ⟨rfl, rfl, rfl⟩

/-! ## A ledger from a snapshot -/

/-- The ledger the snapshot was taken from could be made, so this one can. -/
theorem init_resumes {start : MutationLedger F} (h : init streamId schemas none = .ok start)
    {snapshot : CanonicalMemorySnapshot} (hstream : snapshot.streamId = streamId)
    {state : MemoryState} (hstate : snapshot.materialize F = .ok state) :
    (init streamId schemas (some snapshot) : Except PyExc (MutationLedger F)) =
      .ok ⟨streamId, schemas, some snapshot, state, snapshot.throughRevision, [], ∅⟩ := by
  obtain ⟨_, htext, h⟩ := except_bind_ok.1 h
  obtain ⟨_, hunique, _⟩ := except_bind_ok.1 h
  have hsame : raiseIf (snapshot.streamId ≠ streamId)
      (valueError "snapshot belongs to another stream") = .ok () :=
    raiseIf_ok.2 (not_not.2 hstream)
  rw [init, htext, except_ok_bind, hunique, except_ok_bind, hsame, except_ok_bind, hstate,
    except_ok_bind]
  rfl

theorem run_starts {meets : MutationLedger F → MemoryMutation F → Prop} {r : LedgerRun F}
    (h : LedgerRuns env meets streamId schemas r) :
    ∃ start : MutationLedger F, init streamId schemas none = .ok start := by
  induction h with
  | start h => exact ⟨_, h⟩
  | append _ _ _ ih => exact ih
  | compact _ ih => exact ih
  | restart _ _ _ ih => exact ih

variable (env) in
/-- A sequence of calls: what each returns or raises, and the ledger at the end. -/
def appendAll (ledger : MutationLedger F) :
    List (MemoryMutation F) → List (Except PyExc MemoryCommitReport) × MutationLedger F
  | [] => ([], ledger)
  | m :: ms =>
    ((ledger.append env m).1 :: (appendAll (ledger.append env m).2 ms).1,
      (appendAll (ledger.append env m).2 ms).2)

/-- The second ledger has forgotten some committed mutations and is else the same. -/
structure Forgets (old : List (MemoryMutation F)) (ledger resumed : MutationLedger F) : Prop where
  stream : resumed.streamId = ledger.streamId
  known : resumed.schemas = ledger.schemas
  state : resumed.state = ledger.state
  revision : resumed.revision = ledger.revision
  ids : ∀ id, id ∈ ledger.mutationIds ↔
    id ∈ resumed.mutationIds ∨ ∃ m ∈ old, m.mutationId = id
  gone : ∀ m ∈ old, m.baseRevision < ledger.revision

section Forgets

variable {old : List (MemoryMutation F)} {ledger resumed : MutationLedger F} {m : MemoryMutation F}

/-- Where the id is remembered by both or by neither, the answers are the same. -/
theorem Forgets.answer (h : Forgets old ledger resumed)
    (hid : m.mutationId ∈ ledger.mutationIds ↔ m.mutationId ∈ resumed.mutationIds) :
    (ledger.append env m).1 = (resumed.append env m).1 := by
  obtain ⟨stream, known, snapshot, state, revision, mutations, ids⟩ := ledger
  obtain ⟨stream', known', snapshot', state', revision', mutations', ids'⟩ := resumed
  obtain rfl : stream' = stream := h.stream
  obtain rfl : known' = known := h.known
  obtain rfl : state' = state := h.state
  obtain rfl : revision' = revision := h.revision
  unfold append
  by_cases hmem : m.mutationId ∈ ids'
  · rw [if_pos (hid.2 hmem), if_pos hmem]
    rfl
  · rw [if_neg fun hm => hmem (hid.1 hm), if_neg hmem]
    dsimp only
    split
    · rfl
    · split
      · rfl
      · unfold appendHere
        dsimp only
        cases schemaFor known' m.toMutationFields with
        | none => rfl
        | some schema =>
            dsimp only
            split
            · rfl
            · cases checkValue env schema m with
              | ok u => rfl
              | error exc =>
                  dsimp only
                  split <;> rfl

theorem Forgets.commit (h : Forgets old ledger resumed) {schema : MemoryFieldSchema}
    (hrevision : ledger.revision ≤ m.revision) :
    Forgets old (ledger.commit schema m).2 (resumed.commit schema m).2 where
  stream := h.stream
  known := h.known
  state := by
    show resumed.state.insert _ _ = ledger.state.insert _ _
    rw [h.state]
  revision := rfl
  ids id := by
    show id ∈ insert _ _ ↔ id ∈ insert _ _ ∨ _
    rw [Finset.mem_insert, Finset.mem_insert, h.ids, or_assoc]
  gone c hc := (h.gone c hc).trans_le hrevision

variable (env) in
/-- One more call leaves the two apart in what they remember, and no more. -/
theorem Forgets.append (h : Forgets old ledger resumed)
    (hsame : ∀ c ∈ old, m.mutationId = c.mutationId → m = c) :
    Forgets old (ledger.append env m).2 (resumed.append env m).2 := by
  by_cases hold : ∃ c ∈ old, c.mutationId = m.mutationId
  · obtain ⟨c, hc, hid⟩ := hold
    obtain rfl := hsame c hc hid.symm
    have hgone := h.gone m hc
    have hleft : Refuses env ledger m := by
      rcases append_cases env ledger m with ⟨schema, hcommits⟩ | hr
      · exact absurd ((h.ids _).2 (Or.inr ⟨m, hc, rfl⟩)) hcommits.fresh
      · exact hr
    have hright : Refuses env resumed m := by
      rcases append_cases env resumed m with ⟨schema, hcommits⟩ | hr
      · have hbase := hcommits.base
        have hrevision := h.revision
        omega
      · exact hr
    rw [hleft.same, hright.same]
    exact h
  · have hid : m.mutationId ∈ ledger.mutationIds ↔ m.mutationId ∈ resumed.mutationIds := by
      rw [h.ids, or_iff_left hold]
    rcases append_cases env ledger m with ⟨schema, hcommits⟩ | hr
    · have hother : Commits env resumed schema m :=
        ⟨fun hm => hcommits.fresh (hid.2 hm), hcommits.stream.trans h.stream.symm,
          hcommits.base.trans h.revision.symm, by rw [h.known]; exact hcommits.resolved,
          hcommits.allowed, hcommits.valid⟩
      rw [hcommits.append, hother.append]
      have hrevision := m.revision_eq
      have hbase := hcommits.base
      exact h.commit (by omega)
    · have hother : Refuses env resumed m := by
        refine refuses_of_not_committed fun report hreport => ?_
        rw [← h.answer hid] at hreport
        exact (hr.answer report hreport).1
      rw [hr.same, hother.same]
      exact h

variable (env) in
/-- After any calls the state and the revision are the same, and so is every
answer to a mutation the resumed ledger has not forgotten. -/
theorem Forgets.appendAll (h : Forgets old ledger resumed) {ms : List (MemoryMutation F)}
    (hsame : ∀ m ∈ ms, ∀ c ∈ old, m.mutationId = c.mutationId → m = c) :
    Forgets old (appendAll env ledger ms).2 (appendAll env resumed ms).2 ∧
      ∀ (i : Nat) (m : MemoryMutation F), ms[i]? = some m →
        (∀ c ∈ old, c.mutationId ≠ m.mutationId) →
        (appendAll env ledger ms).1[i]? = (appendAll env resumed ms).1[i]? := by
  induction ms generalizing ledger resumed with
  | nil => exact ⟨h, fun i m hm => by simp at hm⟩
  | cons first ms ih =>
      have hnext := h.append env (hsame first List.mem_cons_self)
      obtain ⟨hend, hanswers⟩ := ih hnext fun m hm => hsame m (List.mem_cons_of_mem _ hm)
      refine ⟨hend, fun i m hm hfresh => ?_⟩
      cases i with
      | succ i => exact hanswers i m (by simpa using hm) hfresh
      | zero =>
          obtain rfl : first = m := by simpa using hm
          have hnew : ¬ ∃ c ∈ old, c.mutationId = first.mutationId := by
            intro hc
            obtain ⟨c, hc, hid⟩ := hc
            exact hfresh c hc hid
          have hid : first.mutationId ∈ ledger.mutationIds ↔
              first.mutationId ∈ resumed.mutationIds := by
            rw [h.ids, or_iff_left hnew]
          show some (ledger.append env first).1 = some (resumed.append env first).1
          rw [h.answer hid]

end Forgets

/-- Compaction always succeeds, its snapshot is the state, and a ledger made from
it answers like the one it was taken from, as long as an id stays with its
mutation. -/
theorem snapshot_simulates {r : LedgerRun F}
    (h : LedgerRuns env (fun _ _ => True) streamId schemas r) :
    ∃ snapshot compacted resumed, r.ledger.compact env = (.ok snapshot, compacted) ∧
      snapshot.materialize F = .ok r.ledger.state ∧
      init r.ledger.streamId r.ledger.schemas (some snapshot) = .ok resumed ∧
      ∀ ms : List (MemoryMutation F),
        (∀ m ∈ ms, ∀ c ∈ r.ledger.mutations, m.mutationId = c.mutationId → m = c) →
        (appendAll env r.ledger ms).2.state = (appendAll env resumed ms).2.state ∧
        (appendAll env r.ledger ms).2.revision = (appendAll env resumed ms).2.revision ∧
        ∀ (i : Nat) (m : MemoryMutation F), ms[i]? = some m →
          (∀ c ∈ r.ledger.mutations, c.mutationId ≠ m.mutationId) →
          (appendAll env r.ledger ms).1[i]? = (appendAll env resumed ms).1[i]? := by
  have hinv := contiguous_log h
  have hs := hinv.stands
  have hkeyed : r.ledger.state.Keyed := by
    rw [hs.state]
    exact keyed_stateOf schemas r.log
  obtain ⟨snapshot, hstream, hrevision, hread, hout⟩ := compact_ok env hkeyed
  obtain ⟨start, hstart⟩ := run_starts h
  rw [← hs.stream, ← hs.known] at hstart
  have hresumed := init_resumes hstart hstream hread
  refine ⟨snapshot, _, _, hout, hread, hresumed, fun ms hsame => ?_⟩
  have hforgets : Forgets r.ledger.mutations r.ledger
      (⟨r.ledger.streamId, r.ledger.schemas, some snapshot, r.ledger.state,
        snapshot.throughRevision, [], ∅⟩ : MutationLedger F) := by
    refine ⟨rfl, rfl, rfl, hrevision, fun id => ?_, fun m hm => ?_⟩
    · rw [hs.ids]
      simp
    · rw [hs.revision]
      exact hinv.holds.base_lt (hs.recent m hm)
  obtain ⟨hend, hanswers⟩ := hforgets.appendAll env hsame
  exact ⟨hend.state.symm, hend.revision.symm, hanswers⟩

/-! ## The samples -/

theorem sampleRun_runs :
    LedgerRuns plainEnv (fun _ _ => True) "chat" [sampleSchema] sampleRun :=
  ((LedgerRuns.start init_emptyLedger).append numberAssertion trivial).append bareDispute trivial

theorem ledger_run_serial_sample : Serial plainEnv [sampleSchema] sampleRun :=
  ledger_run_serial sampleRun_runs

theorem snapshot_simulates_sample :
    ∃ snapshot compacted, sampleRun.ledger.compact plainEnv = (.ok snapshot, compacted) ∧
      snapshot.materialize Unit = .ok sampleRun.ledger.state := by
  obtain ⟨snapshot, compacted, _, hcompact, hread, -⟩ := snapshot_simulates sampleRun_runs
  exact ⟨snapshot, compacted, hcompact, hread⟩

/-- The run after one assertion. -/
def assertedRun : LedgerRun Unit :=
  LedgerRun.append plainEnv ⟨emptyLedger, [], [], []⟩ numberAssertion

theorem assertedRun_runs :
    LedgerRuns plainEnv (fun _ _ => True) "chat" [sampleSchema] assertedRun :=
  (LedgerRuns.start init_emptyLedger).append numberAssertion trivial

theorem assertedRun_ledger :
    assertedRun.ledger = (emptyLedger.commit sampleSchema numberAssertion).2 := by
  rw [assertedRun, LedgerRun.append, commits_numberAssertion.append]

/-- Another value under the id that is already taken. -/
def reusedId : MemoryMutation Unit := ⟨sampleMutation "a" 1 .assert (some "42"), rfl⟩

theorem reused_id_diverges :
    ¬ ∀ r : LedgerRun Unit, LedgerRuns plainEnv (fun _ _ => True) "chat" [sampleSchema] r →
      ∀ snapshot compacted (resumed : MutationLedger Unit),
        r.ledger.compact plainEnv = (.ok snapshot, compacted) →
        init "chat" [sampleSchema] (some snapshot) = .ok resumed →
        ∀ ms, (appendAll plainEnv r.ledger ms).2.revision =
          (appendAll plainEnv resumed ms).2.revision := by
  intro h
  have hkeyed : assertedRun.ledger.state.Keyed := by
    rw [(contiguous_log assertedRun_runs).stands.state]
    exact keyed_stateOf _ _
  obtain ⟨snapshot, hstream, hrevision, hread, hout⟩ := compact_ok plainEnv hkeyed
  rw [assertedRun_ledger] at hstream hrevision
  have hinit := init_resumes init_emptyLedger hstream hread
  have hsame := h assertedRun assertedRun_runs snapshot _ _ hout hinit [reusedId]
  have hremembers : Refuses plainEnv assertedRun.ledger reusedId := by
    rw [assertedRun_ledger]
    have hmem : reusedId.mutationId ∈
        (emptyLedger.commit sampleSchema numberAssertion).2.mutationIds :=
      Finset.mem_insert_self _ _
    exact refuses_of_report (by rw [append, if_pos hmem]) (by decide)
  have hforgot : Commits plainEnv (⟨"chat", [sampleSchema], some snapshot,
      assertedRun.ledger.state, snapshot.throughRevision, [], ∅⟩ : MutationLedger Unit)
      sampleSchema reusedId :=
    ⟨Finset.notMem_empty _, rfl, hrevision.symm, rfl, by decide, rfl⟩
  rw [appendAll, appendAll, appendAll, appendAll, hremembers.same, hforgot.append,
    assertedRun_ledger] at hsame
  have hrevisions : (1 : Int) = 2 := hsame
  exact absurd hrevisions (by decide)

/-- A restart from the empty snapshot lets the same mutation commit again. -/
theorem restart_loses_commit :
    ¬ ∀ r : LedgerRun Unit, LedgerRuns plainEnv (fun _ _ => True) "chat" [sampleSchema] r →
      (r.everCommitted.map fun m => m.baseRevision).Nodup := by
  intro h
  have hkeyed : emptyLedger.state.Keyed := keyed_empty
  obtain ⟨snapshot, hstream, hrevision, hread, hout⟩ := compact_ok plainEnv hkeyed
  have hinit := init_resumes init_emptyLedger hstream hread
  have hcompacted : LedgerRuns plainEnv (fun _ _ => True) "chat" [sampleSchema]
      (LedgerRun.compact plainEnv ⟨emptyLedger, [], [], []⟩) :=
    (LedgerRuns.start init_emptyLedger).compact
  rw [LedgerRun.compact, hout] at hcompacted
  have hfirst := hcompacted.append numberAssertion trivial
  have hrestarted := hfirst.restart List.mem_cons_self hinit
  have hsecond := hrestarted.append numberAssertion trivial
  have hcompactCommits : Commits plainEnv
      ({ emptyLedger with snapshot := some snapshot, mutations := [], mutationIds := ∅ } :
        MutationLedger Unit) sampleSchema numberAssertion :=
    ⟨Finset.notMem_empty _, rfl, rfl, rfl, by decide, rfl⟩
  have hresumedCommits : Commits plainEnv (⟨"chat", [sampleSchema], some snapshot,
      emptyLedger.state, snapshot.throughRevision, [], ∅⟩ : MutationLedger Unit)
      sampleSchema numberAssertion :=
    ⟨Finset.notMem_empty _, rfl, hrevision.symm, rfl, by decide, rfl⟩
  have hnodup := h _ hsecond
  simp only [LedgerRun.append, LedgerRun.restart, committedBy_commits hcompactCommits,
    committedBy_commits hresumedCommits] at hnodup
  exact absurd hnodup (by decide)

end MemoryCore
