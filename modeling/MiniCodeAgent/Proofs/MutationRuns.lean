import MiniCodeAgent.Proofs.SnapshotRoundTrip
import MiniCodeAgent.Log.Revisions

/-!
# Runs of a mutation ledger

`append` has eight exits and one of them changes the ledger. `Commits` is what a
mutation meets on its way there, and `append_cases` says that every other way
leaves the ledger as it was; nothing below opens `append` again.

A run submits any mutations in any order, compacts, and restarts from any snapshot
a compaction has returned. Beside the ledger it keeps the mutations the ledger
stands on, in the order they were committed. A restart goes back to those the
snapshot stands on, so the log is kept with each snapshot too. `run_rule` is the
one induction: a property of logs that every commit keeps holds of the log, and of
the log of every snapshot.
-/

namespace MemoryCore

open MiniCodeAgent

variable {F : Type} [Json.PyFloat F]

/-! ## What the checks of a mutation say -/

namespace MemoryMutation

theorem checks (m : MemoryMutation F) :
    m.revision = m.baseRevision + 1 ∧ (m.operation = .assert → m.valueJson ≠ none) ∧
      ∀ text, m.valueJson = some text → ∃ value : Json F, Json.loads text = some value := by
  have h := m.checked
  unfold MutationFields.postInit at h
  obtain ⟨_, -, h⟩ := except_bind_ok.1 h
  obtain ⟨_, -, h⟩ := except_bind_ok.1 h
  obtain ⟨_, -, h⟩ := except_bind_ok.1 h
  obtain ⟨_, -, h⟩ := except_bind_ok.1 h
  obtain ⟨_, -, h⟩ := except_bind_ok.1 h
  obtain ⟨_, hrevision, h⟩ := except_bind_ok.1 h
  obtain ⟨_, -, h⟩ := except_bind_ok.1 h
  obtain ⟨_, -, h⟩ := except_bind_ok.1 h
  obtain ⟨_, -, h⟩ := except_bind_ok.1 h
  obtain ⟨_, hassert, h⟩ := except_bind_ok.1 h
  have hrevision := raiseIf_ok.1 hrevision
  have hassert := raiseIf_ok.1 hassert
  have hjson := raiseIf_ok.1 h
  refine ⟨by omega, fun hop hnone => hassert ⟨hop, hnone⟩, fun text htext => ?_⟩
  cases hload : (Json.loads text : Option (Json F)) with
  | some value => exact ⟨value, rfl⟩
  | none => exact absurd ⟨text, htext, by simp [hload]⟩ hjson

theorem revision_eq (m : MemoryMutation F) : m.revision = m.baseRevision + 1 := m.checks.1

end MemoryMutation

namespace MutationLedger

variable (env : MutationEnv)

/-! ## The way to a commit -/

/-- What `append` finds before it commits. -/
structure Commits (ledger : MutationLedger F) (schema : MemoryFieldSchema)
    (m : MemoryMutation F) : Prop where
  fresh : m.mutationId ∉ ledger.mutationIds
  stream : m.streamId = ledger.streamId
  base : m.baseRevision = ledger.revision
  resolved : schemaFor ledger.schemas m.toMutationFields = some schema
  allowed : m.authority.rank ≤ schema.maxAuthority.rank
  valid : checkValue env schema m = .ok ()

/-- What a call that does not commit leaves and reports. -/
structure Refuses (ledger : MutationLedger F) (m : MemoryMutation F) : Prop where
  same : (ledger.append env m).2 = ledger
  answer : ∀ report, (ledger.append env m).1 = .ok report →
    report.outcome ≠ .committed ∧ report.revision = ledger.revision

variable {env}

theorem Commits.append {ledger : MutationLedger F} {schema : MemoryFieldSchema}
    {m : MemoryMutation F} (h : Commits env ledger schema m) :
    ledger.append env m = (.ok (ledger.commit schema m).1, (ledger.commit schema m).2) := by
  rw [MutationLedger.append, if_neg h.fresh, if_neg (not_not.2 h.stream),
    if_neg (not_not.2 h.base), appendHere, h.resolved]
  dsimp only
  rw [if_neg (not_lt.2 h.allowed), h.valid]

theorem refuses_of_eq {ledger : MutationLedger F} {m : MemoryMutation F} {exc : PyExc}
    (h : ledger.append env m = (.error exc, ledger)) : Refuses env ledger m := by
  refine ⟨by rw [h], fun report hreport => ?_⟩
  rw [h] at hreport
  cases hreport

theorem refuses_of_report {ledger : MutationLedger F} {m : MemoryMutation F}
    {outcome : CommitOutcome} {checks : List PostCondition}
    (h : ledger.append env m = (.ok (ledger.report m outcome checks), ledger))
    (houtcome : outcome ≠ .committed) : Refuses env ledger m := by
  refine ⟨by rw [h], fun report hreport => ?_⟩
  rw [h] at hreport
  cases hreport
  exact ⟨houtcome, rfl⟩

variable (env) in
theorem append_cases (ledger : MutationLedger F) (m : MemoryMutation F) :
    (∃ schema, Commits env ledger schema m) ∨ Refuses env ledger m := by
  by_cases hfresh : m.mutationId ∈ ledger.mutationIds
  · exact Or.inr (refuses_of_report (by rw [append, if_pos hfresh]) (by decide))
  by_cases hstream : m.streamId = ledger.streamId
  case neg =>
    exact Or.inr (refuses_of_eq (by rw [append, if_neg hfresh, if_pos hstream]))
  by_cases hbase : m.baseRevision = ledger.revision
  case neg =>
    exact Or.inr (refuses_of_report (by
      rw [append, if_neg hfresh, if_neg (not_not.2 hstream), if_pos hbase]) (by decide))
  have hpast : ledger.append env m = ledger.appendHere env m := by
    rw [append, if_neg hfresh, if_neg (not_not.2 hstream), if_neg (not_not.2 hbase)]
  unfold appendHere at hpast
  cases hschema : schemaFor ledger.schemas m.toMutationFields with
  | none =>
      rw [hschema] at hpast
      exact Or.inr (refuses_of_report hpast (by decide))
  | some schema =>
      rw [hschema] at hpast
      dsimp only at hpast
      by_cases hauthority : schema.maxAuthority.rank < m.authority.rank
      · rw [if_pos hauthority] at hpast
        exact Or.inr (refuses_of_report hpast (by decide))
      rw [if_neg hauthority] at hpast
      cases hvalue : checkValue env schema m with
      | ok u => exact Or.inl ⟨schema, hfresh, hstream, hbase, hschema, not_lt.1 hauthority, hvalue⟩
      | error exc =>
          rw [hvalue] at hpast
          dsimp only at hpast
          by_cases htype : exc.type = "TypeError"
          · rw [if_pos htype] at hpast
            exact Or.inr (refuses_of_report hpast (by decide))
          · rw [if_neg htype] at hpast
            exact Or.inr (refuses_of_eq hpast)

/-! ## Compaction and restart -/

variable (env) in
theorem compact_ok {ledger : MutationLedger F} (h : ledger.state.Keyed) :
    ∃ snapshot, snapshot.streamId = ledger.streamId ∧
      snapshot.throughRevision = ledger.revision ∧ snapshot.materialize F = .ok ledger.state ∧
      ledger.compact env = (.ok snapshot,
        { ledger with snapshot := some snapshot, mutations := [], mutationIds := ∅ }) := by
  have hread := materialize_create (F := F) env ledger.streamId ledger.revision h
    (ledger.mutations.map (·.mutationId)) (ledger.snapshot.map (·.snapshotId))
  refine ⟨_, rfl, rfl, hread, ?_⟩
  rw [compact, hread]
  dsimp only
  rw [if_neg (not_not.2 rfl)]

theorem init_some {streamId : String} {schemas : List MemoryFieldSchema}
    {snapshot : CanonicalMemorySnapshot} {ledger : MutationLedger F}
    (h : init streamId schemas (some snapshot) = .ok ledger) :
    ∃ state, snapshot.materialize F = .ok state ∧
      ledger = ⟨streamId, schemas, some snapshot, state, snapshot.throughRevision, [], ∅⟩ := by
  obtain ⟨_, -, h⟩ := except_bind_ok.1 h
  obtain ⟨_, -, h⟩ := except_bind_ok.1 h
  obtain ⟨_, -, h⟩ := except_bind_ok.1 h
  obtain ⟨state, hstate, h⟩ := except_bind_ok.1 h
  cases h
  exact ⟨state, hstate, rfl⟩

theorem init_none {streamId : String} {schemas : List MemoryFieldSchema}
    {ledger : MutationLedger F} (h : init streamId schemas none = .ok ledger) :
    ledger = ⟨streamId, schemas, none, ∅, 0, [], ∅⟩ := by
  obtain ⟨_, -, h⟩ := except_bind_ok.1 h
  obtain ⟨_, -, h⟩ := except_bind_ok.1 h
  cases h
  rfl

end MutationLedger

/-! ## The state of a log -/

open MutationLedger

/-- What a committed mutation does to the state. -/
def applyMutation (schemas : List MemoryFieldSchema) (state : MemoryState)
    (m : MemoryMutation F) : MemoryState :=
  match schemaFor schemas m.toMutationFields with
  | some schema => state.insert m.key (entryOf state schema m.toMutationFields)
  | none => state

/-- The committed mutations, folded in order. -/
def stateOf (schemas : List MemoryFieldSchema) (log : List (MemoryMutation F)) : MemoryState :=
  log.foldl (applyMutation schemas) ∅

theorem stateOf_snoc (schemas : List MemoryFieldSchema) (log : List (MemoryMutation F))
    (m : MemoryMutation F) :
    stateOf schemas (log ++ [m]) = applyMutation schemas (stateOf schemas log) m := by
  rw [stateOf, List.foldl_append]
  rfl

theorem applyMutation_some {schemas : List MemoryFieldSchema} {schema : MemoryFieldSchema}
    {m : MemoryMutation F} (h : schemaFor schemas m.toMutationFields = some schema)
    (state : MemoryState) :
    applyMutation schemas state m = state.insert m.key (entryOf state schema m.toMutationFields) := by
  rw [applyMutation, h]

theorem keyed_stateOf (schemas : List MemoryFieldSchema) (log : List (MemoryMutation F)) :
    (stateOf schemas log).Keyed := by
  induction log using List.reverseRecOn with
  | nil => exact keyed_empty
  | append_singleton log m ih =>
      rw [stateOf_snoc, applyMutation]
      split
      · exact ih.insert (entryOf (stateOf schemas log) _ m.toMutationFields)
      · exact ih

/-! ## Runs -/

/-- A ledger with its past: the mutations it stands on, all that were ever
committed, and each snapshot with the mutations that one stands on. -/
structure LedgerRun (F : Type) [Json.PyFloat F] where
  ledger : MutationLedger F
  log : List (MemoryMutation F)
  everCommitted : List (MemoryMutation F)
  saved : List (CanonicalMemorySnapshot × List (MemoryMutation F))

namespace LedgerRun

variable (env : MutationEnv)

/-- `[mutation]` if the call reports it as committed. -/
def committedBy (ledger : MutationLedger F) (m : MemoryMutation F) : List (MemoryMutation F) :=
  match (ledger.append env m).1 with
  | .ok report => if report.outcome = .committed then [m] else []
  | .error _ => []

def append (r : LedgerRun F) (m : MemoryMutation F) : LedgerRun F where
  ledger := (r.ledger.append env m).2
  log := r.log ++ committedBy env r.ledger m
  everCommitted := r.everCommitted ++ committedBy env r.ledger m
  saved := r.saved

def compact (r : LedgerRun F) : LedgerRun F :=
  { r with
    ledger := (r.ledger.compact env).2
    saved := match (r.ledger.compact env).1 with
      | .ok snapshot => r.saved ++ [(snapshot, r.log)]
      | .error _ => r.saved }

def restart (r : LedgerRun F) (ledger : MutationLedger F) (log : List (MemoryMutation F)) :
    LedgerRun F :=
  { r with ledger := ledger, log := log }

end LedgerRun

/-- The runs of a ledger whose submissions all meet a condition. -/
inductive LedgerRuns (env : MutationEnv) (meets : MutationLedger F → MemoryMutation F → Prop)
    (streamId : String) (schemas : List MemoryFieldSchema) : LedgerRun F → Prop
  | start {ledger : MutationLedger F} (h : init streamId schemas none = .ok ledger) :
      LedgerRuns env meets streamId schemas ⟨ledger, [], [], []⟩
  | append {r : LedgerRun F} (h : LedgerRuns env meets streamId schemas r) (m : MemoryMutation F)
      (hm : meets r.ledger m) : LedgerRuns env meets streamId schemas (r.append env m)
  | compact {r : LedgerRun F} (h : LedgerRuns env meets streamId schemas r) :
      LedgerRuns env meets streamId schemas (r.compact env)
  | restart {r : LedgerRun F} (h : LedgerRuns env meets streamId schemas r)
      {snapshot : CanonicalMemorySnapshot} {log : List (MemoryMutation F)}
      {ledger : MutationLedger F} (hsaved : (snapshot, log) ∈ r.saved)
      (hinit : init streamId schemas (some snapshot) = .ok ledger) :
      LedgerRuns env meets streamId schemas (r.restart ledger log)

/-- The ledger is what its log makes of it. -/
structure Stands (streamId : String) (schemas : List MemoryFieldSchema)
    (ledger : MutationLedger F) (log : List (MemoryMutation F)) : Prop where
  stream : ledger.streamId = streamId
  known : ledger.schemas = schemas
  revision : ledger.revision = log.length
  state : ledger.state = stateOf schemas log
  recent : ∀ m ∈ ledger.mutations, m ∈ log
  ids : ∀ id, id ∈ ledger.mutationIds ↔ ∃ m ∈ ledger.mutations, m.mutationId = id

/-- The snapshot is what its log makes of it. -/
structure SnapshotOf (streamId : String) (schemas : List MemoryFieldSchema)
    (snapshot : CanonicalMemorySnapshot) (log : List (MemoryMutation F)) : Prop where
  stream : snapshot.streamId = streamId
  revision : snapshot.throughRevision = log.length
  state : snapshot.materialize F = .ok (stateOf schemas log)

/-- The run so far, with a property of every log in it. -/
structure RunInv (streamId : String) (schemas : List MemoryFieldSchema)
    (P : List (MemoryMutation F) → Prop) (r : LedgerRun F) : Prop where
  stands : Stands streamId schemas r.ledger r.log
  holds : P r.log
  saved : ∀ snapshot log, (snapshot, log) ∈ r.saved →
    SnapshotOf streamId schemas snapshot log ∧ P log

variable {env : MutationEnv} {streamId : String} {schemas : List MemoryFieldSchema}

theorem Stands.start {ledger : MutationLedger F} (h : init streamId schemas none = .ok ledger) :
    Stands streamId schemas ledger [] := by
  rw [init_none h]
  refine ⟨rfl, rfl, rfl, rfl, fun m hm => absurd hm List.not_mem_nil, fun id => ?_⟩
  simp

theorem Stands.commit {ledger : MutationLedger F} {log : List (MemoryMutation F)}
    (h : Stands streamId schemas ledger log) {schema : MemoryFieldSchema} {m : MemoryMutation F}
    (hm : Commits env ledger schema m) :
    Stands streamId schemas (ledger.commit schema m).2 (log ++ [m]) where
  stream := h.stream
  known := h.known
  revision := by
    have hlen : ((log ++ [m]).length : Int) = log.length + 1 := by simp
    rw [hlen, ← h.revision, ← hm.base]
    exact m.revision_eq
  state := by
    have hresolved := hm.resolved
    rw [h.known] at hresolved
    rw [stateOf_snoc, applyMutation_some hresolved, ← h.state]
    rfl
  recent m' hm' := by
    rcases List.mem_append.1 hm' with hm' | hm'
    · exact List.mem_append_left _ (h.recent m' hm')
    · exact List.mem_append_right _ hm'
  ids id := by
    simp only [MutationLedger.commit, Finset.mem_insert, h.ids, List.mem_append,
      List.mem_singleton]
    constructor
    · rintro (rfl | ⟨m', hm', rfl⟩)
      · exact ⟨m, Or.inr rfl, rfl⟩
      · exact ⟨m', Or.inl hm', rfl⟩
    · rintro ⟨m', hm' | rfl, rfl⟩
      · exact Or.inr ⟨m', hm', rfl⟩
      · exact Or.inl rfl

theorem Stands.restart {snapshot : CanonicalMemorySnapshot} {log : List (MemoryMutation F)}
    {ledger : MutationLedger F} (h : SnapshotOf streamId schemas snapshot log)
    (hinit : init streamId schemas (some snapshot) = .ok ledger) :
    Stands streamId schemas ledger log := by
  obtain ⟨state, hstate, rfl⟩ := init_some hinit
  rw [h.state] at hstate
  cases hstate
  refine ⟨rfl, rfl, h.revision, rfl, fun m hm => absurd hm List.not_mem_nil, fun id => ?_⟩
  simp

theorem committedBy_commits {ledger : MutationLedger F} {schema : MemoryFieldSchema}
    {m : MemoryMutation F} (h : Commits env ledger schema m) :
    LedgerRun.committedBy env ledger m = [m] := by
  rw [LedgerRun.committedBy, h.append]
  rfl

theorem committedBy_refuses {ledger : MutationLedger F} {m : MemoryMutation F}
    (h : Refuses env ledger m) : LedgerRun.committedBy env ledger m = [] := by
  unfold LedgerRun.committedBy
  split
  · next report hreport => rw [if_neg (h.answer report hreport).1]
  · rfl

/-- A property of logs that every commit keeps holds throughout a run. -/
theorem run_rule {meets : MutationLedger F → MemoryMutation F → Prop}
    {P : List (MemoryMutation F) → Prop} (hnil : P [])
    (hcommit : ∀ {ledger log schema m}, Stands streamId schemas ledger log → P log →
      meets ledger m → Commits env ledger schema m → P (log ++ [m]))
    {r : LedgerRun F} (h : LedgerRuns env meets streamId schemas r) :
    RunInv streamId schemas P r := by
  induction h with
  | start h => exact ⟨.start h, hnil, fun _ _ hs => absurd hs List.not_mem_nil⟩
  | @append r _ m hm ih =>
      rcases append_cases env r.ledger m with ⟨schema, hc⟩ | hr
      · have hledger : (r.append env m).ledger = (r.ledger.commit schema m).2 := by
          rw [LedgerRun.append, hc.append]
        have hlog : (r.append env m).log = r.log ++ [m] := by
          rw [LedgerRun.append, committedBy_commits hc]
        refine ⟨?_, ?_, ih.saved⟩
        · rw [hledger, hlog]
          exact ih.stands.commit hc
        · rw [hlog]
          exact hcommit ih.stands ih.holds hm hc
      · have hledger : (r.append env m).ledger = r.ledger := by rw [LedgerRun.append, hr.same]
        have hlog : (r.append env m).log = r.log := by
          rw [LedgerRun.append, committedBy_refuses hr, List.append_nil]
        exact ⟨by rw [hledger, hlog]; exact ih.stands, by rw [hlog]; exact ih.holds, ih.saved⟩
  | @compact r _ ih =>
      have hkeyed : r.ledger.state.Keyed := by
        rw [ih.stands.state]
        exact keyed_stateOf schemas r.log
      obtain ⟨snapshot, hstream, hrevision, hread, hout⟩ := compact_ok env hkeyed
      have hs := ih.stands
      have hledger : (r.compact env).ledger =
          { r.ledger with snapshot := some snapshot, mutations := [], mutationIds := ∅ } := by
        rw [LedgerRun.compact, hout]
      have hsaved : (r.compact env).saved = r.saved ++ [(snapshot, r.log)] := by
        rw [LedgerRun.compact, hout]
      refine ⟨?_, ih.holds, fun found log hfound => ?_⟩
      · rw [hledger]
        exact ⟨hs.stream, hs.known, hs.revision, hs.state,
          fun m hm => absurd hm List.not_mem_nil, fun id => by simp⟩
      · rw [hsaved] at hfound
        rcases List.mem_append.1 hfound with hfound | hfound
        · exact ih.saved found log hfound
        · cases List.mem_singleton.1 hfound
          exact ⟨⟨hstream.trans hs.stream, hrevision.trans hs.revision, hs.state ▸ hread⟩,
            ih.holds⟩
  | restart _ hsaved hinit ih =>
      obtain ⟨hsnapshot, hholds⟩ := ih.saved _ _ hsaved
      exact ⟨.restart hsnapshot hinit, hholds, ih.saved⟩

end MemoryCore
