import MiniCodeAgent.ConversationMemory
import MiniCodeAgent.Proofs.LedgerTamper
import MiniCodeAgent.Proofs.MemoryProgress

/-!
# Opening a log that somebody else has written

`migrate_legacy` takes a file for a legacy log if its first row does not name the
schema, and signs whatever rows the validator passes. It does not ask whether the
log was ever signed before. So the chain protects a replaced file only as long as
the file names the schema: `reopen_tampered` says for which files the next opening
signs what nobody appended, and they are all the others that pass.
-/

namespace MiniCodeAgent.ConversationLedger

variable {F : Type} [Json.PyFloat F] {env : LedgerEnv} {path logName : String}

/-- A log is opened and read. -/
def reopen (env : LedgerEnv) (path logName : String)
    (validator : Dict (Json F) → Except PyExc Unit) : LogTx (List (Dict (Json F))) := do
  let _ ← migrateLegacy env path logName validator
  Txn.reads (read env path logName)

/-! ## The rewritten log -/

theorem logText_append (rows : List (Dict (Json F))) (row : Dict (Json F)) :
    logText (rows ++ [row]) = logText rows ++ rowLine row := by
  refine String.toList_injective ?_
  rw [String.toList_append, logText, logText, rowLine, String.toList_append, String.toList_ofList,
    String.toList_ofList, List.flatMap_append, List.flatMap_singleton]
  rfl

theorem ended_logText (rows : List (Dict (Json F))) :
    Text.Ended '\r' '\n' (logText rows).toList := by
  induction rows using List.reverseRecOn with
  | nil => exact show Text.Ended '\r' '\n' [] by decide
  | append_singleton rows row _ =>
      intro c hc
      rw [logText_append, rowLine, String.toList_append, String.toList_append,
        ← List.append_assoc] at hc
      have hlast : some '\n' = some c := (List.getLast?_concat).symm.trans hc
      exact Or.inr (Option.some.inj hlast).symm

theorem textLines_logText (rows : List (Dict (Json F))) :
    textLines (logText rows) = rows.map fun row => canonicalJson (.obj row) := by
  induction rows using List.reverseRecOn with
  | nil => rfl
  | append_singleton rows row ih =>
      obtain ⟨cs, hcs⟩ := canonicalJson_head row
      have hne : (canonicalJson (.obj row)).toList ≠ [] := by
        rw [hcs]
        exact List.cons_ne_nil _ _
      rw [logText_append, rowLine, textLines_append_ended (ended_logText rows)
        (notMem_canonicalJson (by decide) _) (notMem_canonicalJson (by decide) _) hne, ih,
        List.map_append]
      rfl

theorem mapM_loadRow {rows : List (Dict (Json F))} (hrows : ∀ row ∈ rows, (Json.obj row).WF) :
    (rows.map fun row => canonicalJson (.obj row)).mapM loadRow = .ok (rows.map sorted) := by
  induction rows with
  | nil => rfl
  | cons row rows ih =>
      rw [List.map_cons, List.mapM_cons, loadRow_canonical (hrows row List.mem_cons_self),
        except_ok_bind, ih fun row h => hrows row (List.mem_cons_of_mem _ h), except_ok_bind]
      rfl

theorem readRawRows_logText {rows : List (Dict (Json F))}
    (hrows : ∀ row ∈ rows, (Json.obj row).WF)
    (hsize : (logText rows).toUTF8.size ≤ maxStateFileBytes) :
    readRawRows (some (logText rows).toUTF8) = .ok (rows.map sorted) := by
  refine readRawRows_some.2 ⟨hsize, logText rows, rfl, ?_⟩
  rw [textLines_logText]
  exact mapM_loadRow hrows

theorem envelopes_wf {payloads : List (Dict (Json F))}
    (hwf : ∀ payload ∈ payloads, (Json.obj payload).WF) (sequence : Int) (previousHmac : String) :
    ∀ row ∈ envelopes env logName sequence previousHmac payloads, (Json.obj row).WF := by
  induction payloads generalizing sequence previousHmac with
  | nil => exact fun row hrow => absurd hrow List.not_mem_nil
  | cons payload payloads ih =>
      intro row hrow
      rcases List.mem_cons.1 hrow with rfl | hrow
      · exact envelope_wf (hwf payload List.mem_cons_self) _ _ _
      · exact ih (fun payload h => hwf payload (List.mem_cons_of_mem _ h)) _ _ row hrow

/-- The rewritten rows are a chain, whatever they carry. -/
theorem chain_envelopes {payloads : List (Dict (Json F))}
    (hwf : ∀ payload ∈ payloads, (Json.obj payload).WF) {sequence : Int} (hsequence : 0 ≤ sequence)
    (previousHmac : String) :
    Chain env logName sequence previousHmac
      ((envelopes env logName sequence previousHmac payloads).map sorted)
      (payloads.map sorted) := by
  induction payloads generalizing sequence previousHmac with
  | nil => exact .nil _ _
  | cons payload payloads ih =>
      have hpayload := hwf payload List.mem_cons_self
      have hverified := @verified_envelope _ _ env logName _ hpayload _ hsequence previousHmac
      have htag := hverified.hmac
      rw [sequence_envelope hpayload, hmacOf_sorted] at htag
      refine .cons hverified htag ?_
      exact ih (fun payload h => hwf payload (List.mem_cons_of_mem _ h))
        (show 0 ≤ sequence + 1 by omega) _

/-! ## Migration -/

/-- The file is migrated when it is opened, and its rows are these. -/
structure Migrates (env : LedgerEnv) (logName : String)
    (validator : Dict (Json F) → Except PyExc Unit) (file : LogFile)
    (rows : List (Dict (Json F))) : Prop where
  read : readRawRows file = .ok rows
  legacy : ∃ first, rows.head? = some first ∧
    (Json.getD (.obj first) "schema_version" .null).pyEq (.int logSchemaVersion) = false
  valid : rows.forM validator = .ok ()
  room : (logText (envelopes env logName 0 "" rows)).toUTF8.size ≤ maxStateFileBytes

theorem atomicWriteText_ok {text : String} {file file' : LogFile} {u : Unit} :
    atomicWriteText text file = (.ok u, file') ↔
      text.toUTF8.size ≤ maxStateFileBytes ∧ file' = some text.toUTF8 := by
  rw [atomicWriteText, Txn.bind_ok]
  constructor
  · intro h
    obtain ⟨_, file₁, hlift, hwrite⟩ := h
    obtain ⟨hsize, rfl⟩ := Txn.lift_ok.1 hlift
    exact ⟨not_lt.1 (raiseIf_ok.1 hsize), Txn.modify_ok.1 hwrite⟩
  · intro h
    exact ⟨(), file, Txn.lift_ok.2 ⟨raiseIf_ok.2 (not_lt.2 h.1), rfl⟩, Txn.modify_ok.2 h.2⟩

theorem migrateLegacy_migrates {validator : Dict (Json F) → Except PyExc Unit} {file : LogFile}
    {rows : List (Dict (Json F))} (h : Migrates env logName validator file rows) :
    migrateLegacy env path logName validator file =
      (.ok true, some (logText (envelopes env logName 0 "" rows)).toUTF8) := by
  obtain ⟨first, hfirst, hversion⟩ := h.legacy
  obtain ⟨rest, rfl⟩ := List.head?_eq_some_iff.1 hfirst
  rw [migrateLegacy, Txn.bind_ok]
  refine ⟨first :: rest, file, Txn.reads_ok.2 ⟨h.read, rfl⟩, ?_⟩
  dsimp only
  rw [hversion, if_neg Bool.false_ne_true]
  refine Txn.bind_ok.2 ⟨(), file, Txn.lift_ok.2 ⟨h.valid, rfl⟩, ?_⟩
  exact Txn.bind_ok.2 ⟨(), _, atomicWriteText_ok.2 ⟨h.room, rfl⟩, Txn.pure_ok.2 ⟨rfl, rfl⟩⟩

/-- What opening a log has done, if it returned. -/
theorem migrateLegacy_ok {validator : Dict (Json F) → Except PyExc Unit} {file file' : LogFile}
    {migrated : Bool} (h : migrateLegacy env path logName validator file = (.ok migrated, file')) :
    (migrated = true ∧ ∃ rows, Migrates env logName validator file rows) ∨
      (migrated = false ∧ file' = file) := by
  rw [migrateLegacy, Txn.bind_ok] at h
  obtain ⟨rows, file₁, hreads, h⟩ := h
  obtain ⟨hrows, rfl⟩ := Txn.reads_ok.1 hreads
  cases rows with
  | nil => exact Or.inr (Txn.pure_ok.1 h)
  | cons first rest =>
      dsimp only at h
      cases hversion :
          (Json.getD (.obj first) "schema_version" .null).pyEq (.int logSchemaVersion) with
      | true =>
          rw [hversion, if_pos rfl] at h
          obtain ⟨_, file₂, hread, hdone⟩ := Txn.bind_ok.1 h
          obtain ⟨-, rfl⟩ := Txn.reads_ok.1 hread
          exact Or.inr (Txn.pure_ok.1 hdone)
      | false =>
          rw [hversion, if_neg Bool.false_ne_true] at h
          obtain ⟨_, file₂, hlift, hrest⟩ := Txn.bind_ok.1 h
          obtain ⟨hvalid, rfl⟩ := Txn.lift_ok.1 hlift
          obtain ⟨_, file₃, hwrite, hdone⟩ := Txn.bind_ok.1 hrest
          exact Or.inl ⟨(Txn.pure_ok.1 hdone).1, first :: rest, hrows, ⟨first, rfl, hversion⟩,
            hvalid, (atomicWriteText_ok.1 hwrite).1⟩

/-- A migrated log reads as the rows it was. -/
theorem read_migrated {validator : Dict (Json F) → Except PyExc Unit} {file : LogFile}
    {rows : List (Dict (Json F))} (h : Migrates env logName validator file rows) :
    read env path logName (some (logText (envelopes env logName 0 "" rows)).toUTF8) =
      .ok (rows.map sorted) := by
  have hwf := rows_wf h.read
  exact read_ok.2 ⟨_, readRawRows_logText (envelopes_wf hwf 0 "") h.room,
    chain_envelopes hwf (le_refl 0) ""⟩

/-- What opening and reading a log came to. -/
theorem reopen_ok {validator : Dict (Json F) → Except PyExc Unit} {file file' : LogFile}
    {payloads : List (Dict (Json F))}
    (h : reopen env path logName validator file = (.ok payloads, file')) :
    (∃ rows, Migrates env logName validator file rows ∧ payloads = rows.map sorted) ∨
      read env path logName file = .ok payloads := by
  obtain ⟨migrated, file₁, hmigrate, hreads⟩ := Txn.bind_ok.1 h
  obtain ⟨hread, -⟩ := Txn.reads_ok.1 hreads
  rcases migrateLegacy_ok hmigrate with ⟨-, rows, hrows⟩ | ⟨-, rfl⟩
  · have hfile : file₁ = some (logText (envelopes env logName 0 "" rows)).toUTF8 :=
      congrArg Prod.snd (hmigrate.symm.trans (migrateLegacy_migrates hrows))
    rw [hfile, read_migrated hrows] at hread
    exact Or.inl ⟨rows, hrows, (Except.ok.inj hread).symm⟩
  · exact Or.inr hread

theorem reopen_migrated (path : String) {validator : Dict (Json F) → Except PyExc Unit} {file : LogFile}
    {rows : List (Dict (Json F))} (h : Migrates env logName validator file rows) :
    ∃ file', reopen env path logName validator file = (.ok (rows.map sorted), file') :=
  ⟨_, Txn.bind_ok.2 ⟨true, _, migrateLegacy_migrates h,
    Txn.reads_ok.2 ⟨read_migrated h, rfl⟩⟩⟩

/-! ## A replaced log -/

/-- Opening the file and reading it gives the beginning of what was appended, if
anything, and nothing is signed that is not in it. -/
structure KeepsHistory (env : LedgerEnv) (path logName : String)
    (validator : Dict (Json F) → Except PyExc Unit) (appended : List (Dict (Json F)))
    (file : LogFile) : Prop where
  reads : ∀ payloads file', reopen env path logName validator file = (.ok payloads, file') →
    payloads.map sorted <+: appended.map sorted
  signs : ∀ rows file', readRawRows file = .ok rows →
    migrateLegacy env path logName validator file = (.ok true, file') →
    ∀ row ∈ rows, sorted row ∈ appended.map sorted

omit [Json.PyFloat F] in
theorem sorted_sorted (row : Dict (Json F)) : sorted (sorted row) = sorted row :=
  Json.obj.inj (Json.sortKeys_sortKeys (.obj row))

/-- For every history of appends and every replacement of a log's bytes in which
nothing verifies that was not signed: opening keeps the history exactly if the
file is not migrated, or says itself no more than was appended. -/
theorem reopen_tampered (env : LedgerEnv) (l : Ledger F) (hl : Kept env l) (path logName : String)
    (validator : Dict (Json F) → Except PyExc Unit) (file : LogFile)
    (hforge : Unforged (F := F) env l.signed logName file) :
    KeepsHistory env path logName validator (l.payloads logName) file ↔
      ∀ rows, Migrates env logName validator file rows →
        rows.map sorted <+: (l.payloads logName).map sorted := by
  constructor
  · intro h rows hrows
    obtain ⟨file', hreopen⟩ := reopen_migrated path hrows
    have hpref := h.reads _ file' hreopen
    rw [List.map_map, show sorted ∘ sorted = (sorted : Dict (Json F) → _) from
      funext sorted_sorted] at hpref
    exact hpref
  · intro h
    refine ⟨fun payloads file' hreopen => ?_, fun rows file' hrows hmigrate row hrow => ?_⟩
    · rcases reopen_ok hreopen with ⟨rows, hrows, rfl⟩ | hread
      · rw [List.map_map, show sorted ∘ sorted = (sorted : Dict (Json F) → _) from
          funext sorted_sorted]
        exact h rows hrows
      · obtain ⟨rows, hrows, hchain⟩ := read_ok.1 hread
        exact chain_appended (whole_of_kept hl)
          (fun row hrow => ⟨rows_wf hrows row hrow, hforge rows hrows row hrow⟩) hchain
    · rcases migrateLegacy_ok hmigrate with ⟨-, rows', hrows'⟩ | ⟨hfalse, -⟩
      · obtain rfl : rows = rows' := Except.ok.inj (hrows.symm.trans hrows'.read)
        exact (h rows hrows').subset (List.mem_map_of_mem hrow)
      · cases hfalse

/-! ## A decision nobody took -/

/-- A chat on the plain ledger. -/
def plainChat (clock : Nat → Int) : ConversationMemory.ChatEnv Unit where
  store := { MemoryStore.machine clock with digests := plainLedger.digests }
  ledger := plainLedger
  utcNow _ := "2025-01-03T10:40:00+00:00"
  plusOne := id
  containsSecret _ := false
  lexicalTokens _ := []
  casefold := id

def validateCandidate : Dict (Json Unit) → Except PyExc Unit :=
  ConversationMemory.validateCandidatePayload (plainChat MemoryStore.ticking)

/-- What the legacy format asks of a decision is that it names a candidate. -/
def forgedDecision : Dict (Json Unit) :=
  [("candidate_id", .str "x"), ("record_type", .str "decision")]

def forgedFile : LogFile := some (logText [forgedDecision]).toUTF8

theorem logText_singleton (row : Dict (Json F)) : logText [row] = rowLine row :=
  (logText_append [] row).trans (String.empty_append)

theorem sorted_forgedDecision : sorted forgedDecision = forgedDecision := rfl

theorem forgedFile_migrates :
    Migrates plainLedger "candidates" validateCandidate forgedFile [forgedDecision] := by
  have hwf : (Json.obj forgedDecision).WF := by
    refine Json.wf_obj.2 ⟨by decide, fun kv hkv => ?_⟩
    simp only [forgedDecision, List.mem_cons, List.not_mem_nil, or_false] at hkv
    rcases hkv with rfl | rfl
    · simp
    · simp
  have hroom : Json.room (.obj forgedDecision) 0 + Json.room (.obj forgedDecision) 1 ≤ 1000 := by
    decide
  have hrow : (rowLine forgedDecision).toUTF8.size =
      (Json.canonical (.obj forgedDecision)).toUTF8.size + 1 :=
    (congrArg ByteArray.size String.toByteArray_append).trans ByteArray.size_append
  refine ⟨?_, ⟨_, rfl, rfl⟩, rfl, ?_⟩
  · have hrows : ∀ row ∈ [forgedDecision], (Json.obj row).WF := List.forall_mem_singleton.2 hwf
    refine readRawRows_logText hrows ?_
    · have hsize := Json.size_canonical_le (.obj forgedDecision)
      rw [logText_singleton, hrow, maxStateFileBytes]
      omega
  · have hsize := size_rowLine_le plainLedger "candidates" "" 0 forgedDecision
    have hname : "candidates".length = 10 := by decide
    have hempty : "".length = 0 := by decide
    have hplace : (Json.dumpInt 0).length = 1 := by decide
    rw [envelopes, envelopes, logText_singleton, maxStateFileBytes]
    omega

theorem forgedFile_unforged (signed : List String) :
    Unforged (F := Unit) plainLedger signed "candidates" forgedFile := by
  intro rows hrows row hrow sequence previousHmac payload hv
  rw [forgedFile_migrates.read] at hrows
  cases hrows
  rw [List.mem_singleton.1 hrow] at hv
  cases hv.version

/-- A genuine log of two rows, and a file of one legacy row in its place. -/
theorem reopen_tampered_sample :
    ∃ l : Ledger Unit, Kept plainLedger l ∧ l.payloads "candidates" = [[], []] ∧
      (KeepsHistory plainLedger "candidates.jsonl" "candidates" validateCandidate
          (l.payloads "candidates") forgedFile ↔
        ∀ rows, Migrates plainLedger "candidates" validateCandidate forgedFile rows →
          rows.map sorted <+: (l.payloads "candidates").map sorted) := by
  obtain ⟨l₁, l, -, hkept, -, -, hpayloads⟩ := two_appends
  exact ⟨l, hkept, hpayloads, reopen_tampered plainLedger l hkept "candidates.jsonl" "candidates"
    validateCandidate forgedFile (forgedFile_unforged l.signed)⟩

/-- The row is signed when the log is opened, and read as if it had been appended. -/
theorem forged_decision_signed :
    ¬ ∀ (l : Ledger Unit) (file : LogFile), Kept plainLedger l →
      l.payloads "candidates" ≠ [] → Unforged (F := Unit) plainLedger l.signed "candidates" file →
      KeepsHistory plainLedger "candidates.jsonl" "candidates" validateCandidate
        (l.payloads "candidates") file := by
  intro hall
  obtain ⟨l₁, l, -, hkept, -, -, hpayloads⟩ := two_appends
  have hkeeps := hall l forgedFile hkept (by rw [hpayloads]; exact List.cons_ne_nil _ _)
    (forgedFile_unforged l.signed)
  have hmem := hkeeps.signs _ _ forgedFile_migrates.read
    (migrateLegacy_migrates forgedFile_migrates) forgedDecision (List.mem_singleton_self _)
  rw [hpayloads, sorted_forgedDecision] at hmem
  simp [sorted, forgedDecision, Json.sortMembers] at hmem

end MiniCodeAgent.ConversationLedger
