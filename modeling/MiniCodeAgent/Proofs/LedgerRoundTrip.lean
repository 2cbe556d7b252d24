import MiniCodeAgent.Proofs.LedgerChain
import MiniCodeAgent.Json.Size

/-!
# Appending to a log and reading it again

The chain only ever grows by the row that `append` writes (`append_extends`). What
`read` makes of the file afterwards is decided by the byte the file ended with
(`read_append`): `read` takes a last line without its line end, and `append`
goes on in it.
-/

namespace MiniCodeAgent.ConversationLedger

variable {F : Type} [Json.PyFloat F] {env : LedgerEnv} {path logName : String}

/-- The chain of a file that was read, and what `append` did to it. -/
theorem append_ok {file file' : LogFile} {rows payloads : List (Dict (Json F))}
    (hrows : readRawRows file = .ok rows) (hchain : Chain env logName 0 "" rows payloads)
    {payload : Dict (Json F)} {u : Unit} :
    appendUnlocked env logName payload file = (.ok u, file') ↔
      env.key.size ≠ 0 ∧
      (file.getD ByteArray.empty).size + (rowLine
        (envelope env logName rows.length (lastHmac "" rows) payload)).toUTF8.size ≤
          maxStateFileBytes ∧
      file' = some (file.getD ByteArray.empty ++ (rowLine
        (envelope env logName rows.length (lastHmac "" rows) payload)).toUTF8) := by
  rw [appendUnlocked, Txn.bind_ok]
  constructor
  · rintro ⟨row, _, hnext, hwrite⟩
    obtain ⟨hnext, rfl⟩ := Txn.reads_ok.1 hnext
    obtain ⟨hkey, rfl⟩ := (nextEnvelope_of_chain hrows hchain payload).1 hnext
    exact ⟨hkey, appendRawRow_ok.1 hwrite⟩
  · rintro ⟨hkey, hwrite⟩
    exact ⟨_, file, Txn.reads_ok.2 ⟨(nextEnvelope_of_chain hrows hchain payload).2 ⟨hkey, rfl⟩, rfl⟩,
      appendRawRow_ok.2 hwrite⟩

/-- Behind a line end, the chain has one row more and it carries the payload. -/
theorem append_extends {file file' : LogFile} {rows payloads : List (Dict (Json F))}
    (hrows : readRawRows file = .ok rows) (hchain : Chain env logName 0 "" rows payloads)
    (hend : Terminated file) {payload : Dict (Json F)} (hpayload : (Json.obj payload).WF) {u : Unit}
    (h : appendUnlocked env logName payload file = (.ok u, file')) :
    let row := sorted (envelope env logName rows.length (lastHmac "" rows) payload)
    readRawRows file' = .ok (rows ++ [row]) ∧ Terminated file' ∧
      Verified env logName row rows.length (lastHmac "" rows) (sorted payload) ∧
      Chain env logName 0 "" (rows ++ [row]) (payloads ++ [sorted payload]) := by
  obtain ⟨-, hsize, rfl⟩ := (append_ok hrows hchain).1 h
  have hverified := @verified_envelope _ _ env logName _ hpayload _
    (Int.natCast_nonneg rows.length) (lastHmac "" rows)
  refine ⟨readRawRows_append hrows hend (envelope_wf hpayload _ _ _) hsize, ?_, hverified,
    hchain.snoc ?_⟩
  · exact terminated_append _ _
  · rw [zero_add]
    exact hverified

/-- Behind anything else, the file is not readable any more. -/
theorem append_ruins {file file' : LogFile} {rows payloads : List (Dict (Json F))}
    (hrows : readRawRows file = .ok rows) (hchain : Chain env logName 0 "" rows payloads)
    (hend : ¬ Terminated file) {payload : Dict (Json F)} {u : Unit}
    (h : appendUnlocked env logName payload file = (.ok u, file'))
    (payloads' : List (Dict (Json F))) : read env path logName file' ≠ .ok payloads' := by
  obtain ⟨-, -, rfl⟩ := (append_ok hrows hchain).1 h
  intro hread
  obtain ⟨rows', hrows', -⟩ := read_ok.1 hread
  exact readRawRows_append_unended hrows hend _ rows' hrows'

/-- For every file that reads and every payload whose append returns, the file
reads back with the payload behind what it had exactly if nothing stood behind its last
line end. A dictionary that is read back has its keys in order. -/
theorem read_append (env : LedgerEnv) (path logName : String) (file file' : LogFile)
    (payloads : List (Dict (Json F))) (payload : Payload F)
    (hread : read env path logName file = .ok payloads)
    (happend : appendUnlocked env logName payload.items file = (.ok (), file')) :
    read env path logName file' = .ok (payloads ++ [sorted payload.items]) ↔ Terminated file := by
  obtain ⟨rows, hrows, hchain⟩ := read_ok.1 hread
  constructor
  · intro hread'
    by_contra hend
    exact append_ruins hrows hchain hend happend _ hread'
  · intro hend
    obtain ⟨hrows', -, -, hchain'⟩ := append_extends hrows hchain hend payload.wf happend
    exact read_ok.2 ⟨_, hrows', hchain'⟩

/-! ## A ledger to run -/

/-- The length of a digest, whatever the text. -/
def padded (text : String) : String :=
  String.ofList ((text.toList ++ List.replicate 64 '0').take 64)

theorem padded_length (text : String) : (padded text).length = 64 := by
  rw [padded, String.length_ofList, List.length_take, List.length_append, List.length_replicate]
  omega

theorem isHex_padded {text : String} (h : isHex text = true) : isHex (padded text) = true := by
  rw [isHex, List.all_eq_true] at h
  rw [isHex, padded, String.toList_ofList, List.all_eq_true]
  intro c hc
  rcases List.mem_append.1 (List.mem_of_mem_take hc) with hc | hc
  · exact h c hc
  · rw [List.eq_of_mem_replicate hc]
    decide

/-- A ledger whose signatures are the first bytes of what is signed. -/
def plainLedger : LedgerEnv where
  digests :=
    { sha256 := fun data => padded (hexText data)
      hmacSha256 := fun key data => padded (hexText (key ++ data))
      sha256_hex := fun data => isHex_padded (isHex_hexText data)
      hmacSha256_hex := fun key data => isHex_padded (isHex_hexText (key ++ data)) }
  key := ⟨#[1]⟩
  hmac_length _ := padded_length _

variable (env) in
/-- A row takes its payload's room and some more. -/
theorem size_rowLine_le (logName previousHmac : String) (sequence : Int)
    (payload : Dict (Json F)) :
    (rowLine (envelope env logName sequence previousHmac payload)).toUTF8.size ≤
      6 * logName.length + 6 * previousHmac.length + 4 * (Json.dumpInt sequence).length +
        Json.room (.obj payload) 1 + 1000 := by
  obtain ⟨tag, htag, hlength⟩ : ∃ tag, hmacOf env
      (authenticated logName (.int sequence) previousHmac payload) = tag ∧ tag.length = 64 :=
    ⟨_, rfl, env.hmac_length _⟩
  have hroom := Json.size_canonical_le (.obj (envelope env logName sequence previousHmac payload))
  have hline : (rowLine (envelope env logName sequence previousHmac payload)).toUTF8.size =
      (Json.canonical (.obj (envelope env logName sequence previousHmac payload))).toUTF8.size +
        1 := by
    rw [rowLine, canonicalJson]
    exact (congrArg ByteArray.size String.toByteArray_append).trans ByteArray.size_append
  have hversion : (Json.dumpInt 2).length = 1 := by decide
  have hkeys : "schema_version".length = 14 ∧ "log_name".length = 8 ∧ "sequence".length = 8 ∧
      "previous_hmac".length = 13 ∧ "payload".length = 7 ∧ "hmac_sha256".length = 11 := by decide
  obtain ⟨h₁, h₂, h₃, h₄, h₅, h₆⟩ := hkeys
  rw [hline]
  generalize (Json.canonical (.obj (envelope env logName sequence previousHmac
    payload))).toUTF8.size = size at hroom ⊢
  rw [envelope] at hroom
  simp only [htag] at hroom
  simp only [authenticated, List.cons_append, List.nil_append, Json.room,
    Json.roomMembers, Json.roomMember, logSchemaVersion, hlength, hversion, h₁, h₂, h₃, h₄, h₅,
    h₆, Nat.reduceAdd] at hroom ⊢
  omega

theorem size_emptyRow_le (previousHmac : String) (hprevious : previousHmac.length ≤ 64)
    {sequence : Int} (hsequence : (Json.dumpInt sequence).length = 1) :
    (rowLine (envelope plainLedger "candidates" sequence previousHmac
      ([] : Dict (Json Unit)))).toUTF8.size ≤ 2000 := by
  have hsize := size_rowLine_le plainLedger "candidates" previousHmac sequence
    ([] : Dict (Json Unit))
  have hname : "candidates".length = 10 := by decide
  have hroom : Json.room (.obj [] : Json Unit) 1 = 5 := by decide
  omega

/-- A small file takes a row more. -/
theorem plainLedger_appends {file : LogFile} {rows payloads : List (Dict (Json Unit))}
    (hrows : readRawRows file = .ok rows)
    (hchain : Chain plainLedger "candidates" 0 "" rows payloads)
    (hlast : (lastHmac "" rows).length ≤ 64) (hplace : (Json.dumpInt rows.length).length = 1)
    (hsize : (file.getD ByteArray.empty).size ≤ 2000) :
    ∃ file', appendUnlocked plainLedger "candidates" ([] : Dict (Json Unit)) file =
      (.ok (), file') := by
  have hrow := size_emptyRow_le (lastHmac "" rows) hlast hplace
  refine ⟨_, (append_ok hrows hchain).2 ⟨by decide, ?_, rfl⟩⟩
  rw [maxStateFileBytes]
  omega

/-- A first row. -/
theorem read_append_sample :
    ∃ file, appendUnlocked plainLedger "candidates" ([] : Dict (Json Unit)) none = (.ok (), file) ∧
      read plainLedger "candidates.jsonl" "candidates" file = .ok [([] : Dict (Json Unit))] := by
  obtain ⟨file, happend⟩ := @plainLedger_appends none [] [] rfl (.nil 0 "") (by decide)
    (by decide) (by decide)
  exact ⟨file, happend, (read_append plainLedger "candidates.jsonl" "candidates" none file []
    ⟨[], by simp⟩ rfl happend).2 fun _ h => by cases h⟩

/-- A log whose only row lost its line end. -/
theorem unterminated_append_lost :
    ¬ ∀ (file file' : LogFile) (payloads : List (Dict (Json Unit))) (payload : Payload Unit),
      read plainLedger "candidates.jsonl" "candidates" file = .ok payloads →
      appendUnlocked plainLedger "candidates" payload.items file = (.ok (), file') →
      read plainLedger "candidates.jsonl" "candidates" file' =
        .ok (payloads ++ [sorted payload.items]) := by
  intro hall
  have hwf : (Json.obj ([] : Dict (Json Unit))).WF := by simp
  -- the row by name only, so that its text is not computed
  obtain ⟨row, hrow⟩ : ∃ row, row = envelope plainLedger "candidates" 0 ""
    ([] : Dict (Json Unit)) := ⟨_, rfl⟩
  have hrowWf : (Json.obj row).WF := hrow ▸ envelope_wf hwf _ _ _
  have hverified : Verified plainLedger "candidates" (sorted row) 0 "" (sorted []) :=
    hrow ▸ @verified_envelope _ _ plainLedger "candidates" _ hwf _ (le_refl 0) ""
  obtain ⟨text, htext⟩ : ∃ text, text = canonicalJson (.obj row) := ⟨_, rfl⟩
  have hcr : '\r' ∉ text.toList := htext ▸ notMem_canonicalJson (by decide) _
  have hlf : '\n' ∉ text.toList := htext ▸ notMem_canonicalJson (by decide) _
  have hne : text.toList ≠ [] := by
    obtain ⟨cs, hcs⟩ := canonicalJson_head row
    rw [htext, hcs]
    exact List.cons_ne_nil _ _
  have hsmall : text.toUTF8.size ≤ 2000 := by
    have hsize := size_emptyRow_le "" (by decide) (show (Json.dumpInt 0).length = 1 by decide)
    rw [← hrow, rowLine, ← htext] at hsize
    have hline : (text ++ "\n").toUTF8.size = text.toUTF8.size + 1 :=
      (congrArg ByteArray.size String.toByteArray_append).trans ByteArray.size_append
    omega
  -- one line, which nothing ends
  have hlines : textLines text = [text] := by
    rw [textLines, Text.lines, Text.universal_of_notMem hcr, Text.cut_open hlf hne]
    exact congrArg (fun s => [s]) String.ofList_toList
  have hrows : readRawRows (some text.toUTF8) = .ok [sorted row] := by
    refine readRawRows_some.2 ⟨?_, text, rfl, ?_⟩
    · rw [maxStateFileBytes]
      omega
    · rw [hlines, htext]
      exact except_mapM_singleton_ok.2 ⟨_, loadRow_canonical hrowWf, rfl⟩
  have hchain : Chain plainLedger "candidates" 0 "" [sorted row] [sorted []] :=
    .cons hverified hverified.hmac (.nil _ _)
  have hend : ¬ Terminated (some text.toUTF8) := by
    intro hended
    have hended := (ended_toUTF8 text).1 (hended _ rfl)
    obtain ⟨c, hc⟩ := Option.ne_none_iff_exists'.1 (mt List.getLast?_eq_none_iff.1 hne)
    rcases hended c hc with rfl | rfl
    · exact hcr (List.mem_of_getLast? hc)
    · exact hlf (List.mem_of_getLast? hc)
  have hlast : (lastHmac "" [sorted row]).length ≤ 64 := by
    rw [lastHmac_of_getLast hverified.hmac "" rfl]
    exact le_of_eq (plainLedger.hmac_length _)
  have hplace : (Json.dumpInt 1).length = 1 := by decide
  obtain ⟨file', happend⟩ := plainLedger_appends hrows hchain hlast hplace hsmall
  exact append_ruins hrows hchain hend happend _
    (hall _ _ _ ⟨[], hwf⟩ (read_ok.2 ⟨_, hrows, hchain⟩) happend)

end MiniCodeAgent.ConversationLedger
