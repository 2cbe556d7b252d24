import MiniCodeAgent.Proofs.MutationRuns

/-!
# When the state conforms to its schemas

An asserted value is checked against the schema its mutation names. A disputed or
withdrawn entry keeps a value too, its own or the one that was there, and that one
is never checked. So the entries conform as long as every dispute and withdrawal
that is committed leaves a value its schema would have taken; the first one that
does not is an entry that does not conform, as `entry_conforms_iff` says. The
authority is checked on every way to a commit.
-/

namespace MemoryCore

open MiniCodeAgent MutationLedger

variable {F : Type} [Json.PyFloat F]

variable (F) in
/-- A value that is absent, null, or of the type the schema declares. -/
def ValueFits (schema : MemoryFieldSchema) (valueJson : Option String) : Prop :=
  ∀ text, valueJson = some text → ∃ value : Json F, Json.loads text = some value ∧
    (value = .null ∨ schema.valueType.accepts value = true)

/-- The latest mutation of an entry. -/
def latest (log : List (MemoryMutation F)) (key : StateKey) : Option (MemoryMutation F) :=
  (log.filter fun m => m.key = key).getLast?

/-- What an entry is measured by: the schema its latest mutation named. -/
def EntryConforms (schemas : List MemoryFieldSchema) (log : List (MemoryMutation F))
    (key : StateKey) (item : MaterializedMemory) : Prop :=
  ∃ m schema, latest log key = some m ∧ item.mutationId = m.mutationId ∧
    schemaFor schemas m.toMutationFields = some schema ∧ ValueFits F schema item.valueJson ∧
      item.authority.rank ≤ schema.maxAuthority.rank

def Conforms (schemas : List MemoryFieldSchema) (log : List (MemoryMutation F)) : Prop :=
  ∀ key item, (stateOf schemas log).lookup key = some item → EntryConforms schemas log key item

theorem latest_snoc (log : List (MemoryMutation F)) (m : MemoryMutation F) (key : StateKey) :
    latest (log ++ [m]) key = if m.key = key then some m else latest log key := by
  rw [latest, List.filter_append]
  by_cases hkey : m.key = key
  · simp [hkey]
  · simp [hkey, latest]

variable {env : MutationEnv} {streamId : String} {schemas : List MemoryFieldSchema}

/-- An asserted value is one its schema takes. -/
theorem checkValue_fits {schema : MemoryFieldSchema} {m : MemoryMutation F}
    (hassert : m.operation = .assert) (h : checkValue env schema m = .ok ()) :
    ValueFits F schema m.valueJson := by
  intro text htext
  rw [checkValue, if_pos hassert, htext, Option.getD_some] at h
  split at h
  · next value hvalue =>
      have haccepts := raiseIf_ok.1 h
      exact ⟨value, hvalue, Or.inr (by simpa using haccepts)⟩
  · cases h

section Commit

variable {ledger : MutationLedger F} {log : List (MemoryMutation F)} {schema : MemoryFieldSchema}
  {m : MemoryMutation F}

theorem storedValue_assert (hassert : m.operation = .assert) (state : MemoryState) :
    storedValue state m.toMutationFields = m.valueJson := by
  cases hvalue : m.valueJson with
  | some text => rw [storedValue, hvalue]
  | none => exact absurd hvalue (m.checks.2.1 hassert)

/-- The new entry conforms exactly when the stored value fits. -/
theorem entry_conforms_iff (hs : Stands streamId schemas ledger log)
    (hc : Commits env ledger schema m) :
    EntryConforms schemas (log ++ [m]) m.key (entryOf ledger.state schema m.toMutationFields) ↔
      ValueFits F schema (storedValue ledger.state m.toMutationFields) := by
  have hresolved := hc.resolved
  rw [hs.known] at hresolved
  constructor
  · intro h
    obtain ⟨m', schema', hlatest, -, hschema, hfits, -⟩ := h
    rw [latest_snoc, if_pos rfl] at hlatest
    cases hlatest
    rw [hresolved] at hschema
    cases hschema
    exact hfits
  · intro h
    refine ⟨m, schema, ?_, rfl, hresolved, h, hc.allowed⟩
    rw [latest_snoc, if_pos rfl]

theorem conforms_commit (hs : Stands streamId schemas ledger log) (hold : Conforms schemas log)
    (hc : Commits env ledger schema m)
    (hfits : ValueFits F schema (storedValue ledger.state m.toMutationFields)) :
    Conforms schemas (log ++ [m]) := by
  have hresolved := hc.resolved
  rw [hs.known] at hresolved
  intro key item hitem
  rw [stateOf_snoc, applyMutation_some hresolved, ← hs.state] at hitem
  by_cases hkey : key = m.key
  · subst hkey
    rw [Finmap.lookup_insert] at hitem
    cases hitem
    exact (entry_conforms_iff hs hc).2 hfits
  · rw [Finmap.lookup_insert_of_ne _ hkey, hs.state] at hitem
    obtain ⟨m', schema', hlatest, hrest⟩ := hold key item hitem
    refine ⟨m', schema', ?_, hrest⟩
    rw [latest_snoc, if_neg (Ne.symm hkey)]
    exact hlatest

end Commit

/-- A dispute or a withdrawal on its way to a commit leaves a value that fits. -/
def StoresFitting (env : MutationEnv) (ledger : MutationLedger F) (m : MemoryMutation F) : Prop :=
  ∀ schema, Commits env ledger schema m → m.operation ≠ .assert →
    ValueFits F schema (storedValue ledger.state m.toMutationFields)

theorem commit_fits {ledger : MutationLedger F} {schema : MemoryFieldSchema} {m : MemoryMutation F}
    (hm : StoresFitting env ledger m) (hc : Commits env ledger schema m) :
    ValueFits F schema (storedValue ledger.state m.toMutationFields) := by
  by_cases hassert : m.operation = .assert
  · rw [storedValue_assert hassert]
    exact checkValue_fits hassert hc.valid
  · exact hm schema hc hassert

theorem conforms_nil : Conforms schemas ([] : List (MemoryMutation F)) := by
  intro key item hitem
  rw [stateOf, List.foldl_nil, Finmap.lookup_empty] at hitem
  cases hitem

/-- Every entry conforms in a run whose disputes and withdrawals leave fitting
values. -/
theorem state_conforms {r : LedgerRun F}
    (h : LedgerRuns env (StoresFitting env) streamId schemas r) :
    ∀ key item, r.ledger.state.lookup key = some item → EntryConforms schemas r.log key item := by
  have hinv := run_rule (P := Conforms schemas) conforms_nil
    (fun hs hold hm hc => conforms_commit hs hold hc (commit_fits hm hc)) h
  intro key item hitem
  rw [hinv.stands.state] at hitem
  exact hinv.holds key item hitem

/-! ## An entry that does not conform -/

def plainEnv : MutationEnv := ⟨hexDigests, id⟩

def sampleSchema : MemoryFieldSchema :=
  ⟨{ schemaId := "s", version := 1, predicate := "age", valueType := .number, description := "",
     maxAuthority := .inform, retentionClass := .durable }, rfl⟩

/-- A mutation of the one entry of the samples. -/
def sampleMutation (mutationId : String) (baseRevision : Int) (operation : MutationOperation)
    (valueJson : Option String) : MutationFields where
  mutationId := mutationId
  streamId := "chat"
  revision := baseRevision + 1
  baseRevision := baseRevision
  operation := operation
  entityId := "user"
  predicate := "age"
  valueJson := valueJson
  schemaId := "s"
  schemaVersion := 1
  sourceEventRevisions := [("e", "aaaaaaaaaaaaaaaaaaaaaaaaaaaaaaaaaaaaaaaaaaaaaaaaaaaaaaaaaaaaaaaa")]
  authority := .none
  recordedAt := ""

/-- A dispute that brings a text where the schema wants a number. -/
def textDispute : MemoryMutation Unit :=
  ⟨sampleMutation "d" 0 .dispute (some "\"old\""), rfl⟩

def numberAssertion : MemoryMutation Unit :=
  ⟨sampleMutation "a" 0 .assert (some "41"), rfl⟩

/-- A dispute without a value. -/
def bareDispute : MemoryMutation Unit := ⟨sampleMutation "b" 1 .dispute none, rfl⟩

def emptyLedger : MutationLedger Unit := ⟨"chat", [sampleSchema], none, ∅, 0, [], ∅⟩

theorem init_emptyLedger : init "chat" [sampleSchema] none = .ok emptyLedger := rfl

theorem commits_textDispute : Commits plainEnv emptyLedger sampleSchema textDispute :=
  ⟨Finset.notMem_empty _, rfl, rfl, rfl, by decide, rfl⟩

theorem text_unfit : ¬ ValueFits Unit sampleSchema (some "\"old\"") := by
  intro h
  obtain ⟨value, hvalue, hfits⟩ := h _ rfl
  have hload : (Json.loads "\"old\"" : Option (Json Unit)) = some (.str "old") := rfl
  rw [hload] at hvalue
  cases hvalue
  rcases hfits with hnull | haccepts
  · cases hnull
  · cases haccepts

theorem disputed_value_unchecked :
    ¬ ∀ r : LedgerRun Unit,
      LedgerRuns plainEnv (fun _ _ => True) "chat" [sampleSchema] r →
      ∀ key item, r.ledger.state.lookup key = some item →
        EntryConforms [sampleSchema] r.log key item := by
  intro h
  have hrun : LedgerRuns plainEnv (fun _ _ => True) "chat" [sampleSchema]
      (LedgerRun.append plainEnv ⟨emptyLedger, [], [], []⟩ textDispute) :=
    (LedgerRuns.start init_emptyLedger).append textDispute trivial
  have hentry := h _ hrun textDispute.key
    (entryOf emptyLedger.state sampleSchema textDispute.toMutationFields) (by
      rw [LedgerRun.append, commits_textDispute.append]
      exact Finmap.lookup_insert _)
  have hlog : (LedgerRun.append plainEnv ⟨emptyLedger, [], [], []⟩ textDispute).log =
      [] ++ [textDispute] := by
    rw [LedgerRun.append, committedBy_commits commits_textDispute]
  rw [hlog] at hentry
  exact text_unfit ((entry_conforms_iff (.start init_emptyLedger) commits_textDispute).1 hentry)

def sampleRun : LedgerRun Unit :=
  (LedgerRun.append plainEnv ⟨emptyLedger, [], [], []⟩ numberAssertion).append plainEnv bareDispute

theorem commits_numberAssertion : Commits plainEnv emptyLedger sampleSchema numberAssertion :=
  ⟨Finset.notMem_empty _, rfl, rfl, rfl, by decide, rfl⟩

theorem ledger_numberAssertion : (LedgerRun.append plainEnv ⟨emptyLedger, [], [], []⟩
    numberAssertion).ledger = (emptyLedger.commit sampleSchema numberAssertion).2 := by
  rw [LedgerRun.append, commits_numberAssertion.append]

theorem commits_bareDispute :
    Commits plainEnv (emptyLedger.commit sampleSchema numberAssertion).2 sampleSchema bareDispute :=
  ⟨by decide, rfl, rfl, rfl, by decide, rfl⟩

/-- The dispute keeps the number it finds. -/
theorem state_conforms_sample :
    ∃ item, sampleRun.ledger.state.lookup bareDispute.key = some item ∧
      EntryConforms [sampleSchema] sampleRun.log bareDispute.key item := by
  have hkept : StoresFitting plainEnv (emptyLedger.append plainEnv numberAssertion).2
      bareDispute := by
    intro schema hc _ text htext
    rw [commits_numberAssertion.append] at hc htext
    have hschema : some sampleSchema = some schema := hc.resolved
    cases hschema
    have hfound : (emptyLedger.commit sampleSchema numberAssertion).2.state.lookup
        bareDispute.key = some (entryOf ∅ sampleSchema numberAssertion.toMutationFields) :=
      Finmap.lookup_insert _
    have hstored : storedValue (emptyLedger.commit sampleSchema numberAssertion).2.state
        bareDispute.toMutationFields = some "41" := by
      show ((emptyLedger.commit sampleSchema numberAssertion).2.state.lookup
        bareDispute.key).bind (·.valueJson) = some "41"
      rw [hfound]
      rfl
    rw [hstored] at htext
    cases htext
    exact ⟨.int 41, rfl, Or.inr rfl⟩
  have hrun : LedgerRuns plainEnv (StoresFitting plainEnv) "chat" [sampleSchema] sampleRun :=
    ((LedgerRuns.start init_emptyLedger).append numberAssertion
      fun _ _ hop => absurd rfl hop).append bareDispute hkept
  have hlookup : ∃ item, sampleRun.ledger.state.lookup bareDispute.key = some item := by
    rw [sampleRun, LedgerRun.append, ledger_numberAssertion, commits_bareDispute.append]
    exact ⟨_, Finmap.lookup_insert _⟩
  obtain ⟨item, hitem⟩ := hlookup
  exact ⟨item, hitem, state_conforms hrun _ _ hitem⟩

end MemoryCore
