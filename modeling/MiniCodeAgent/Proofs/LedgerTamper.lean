import MiniCodeAgent.Proofs.LedgerRoundTrip

/-!
# A log that somebody else has written

The key holder only ever appends, and each append signs one text: the log's name,
the place, the signature before it and the payload. Nobody else can sign, so a
row that verifies carries a text the key holder signed, wherever the row was
found (`Unforged`). The name and the place in the text leave only one append it
can come from: what reads back of a replaced file is what was appended, from the
first row on, and perhaps not all of it (`read_tampered`).
-/

namespace MiniCodeAgent.ConversationLedger

variable {F : Type} [Json.PyFloat F] (env : LedgerEnv)

/-! ## What the key holder has done -/

/-- The logs of a directory, what was appended to them and what was signed for it. -/
structure Ledger (F : Type) where
  files : String → LogFile
  appended : List (String × Dict (Json F))
  signed : List String

def Ledger.start (F : Type) : Ledger F := ⟨fun _ => none, [], []⟩

def Ledger.payloads (l : Ledger F) (logName : String) : List (Dict (Json F)) :=
  (l.appended.filter fun entry => entry.1 = logName).map Prod.snd

/-- The text a row's signature is of. -/
def signedText (row : Dict (Json F)) : String :=
  canonicalJson (.obj (Dict.pop row "hmac_sha256"))

/-- The logs after any sequence of appends, the refused ones included. Every log
has a name of its own. -/
inductive Kept : Ledger F → Prop where
  | start : Kept (.start F)
  | append {l : Ledger F} (before : Kept l) (logName : String) (payload : Payload F)
      {row : Dict (Json F)} {file : LogFile}
      (signs : nextEnvelope env logName payload.items (l.files logName) = .ok row)
      (run : appendUnlocked env logName payload.items (l.files logName) = (.ok (), file)) :
      Kept
        { files := Function.update l.files logName file
          appended := l.appended ++ [(logName, payload.items)]
          signed := l.signed ++ [signedText row] }
  | refused {l : Ledger F} (before : Kept l) (logName : String) (payload : Payload F)
      {e : PyExc} {file : LogFile}
      (run : appendUnlocked env logName payload.items (l.files logName) = (.error e, file)) :
      Kept { l with files := Function.update l.files logName file }

/-- No row of the file verifies that was not signed. -/
def Unforged (signed : List String) (logName : String) (file : LogFile) : Prop :=
  ∀ rows : List (Dict (Json F)), readRawRows file = .ok rows → ∀ row ∈ rows,
    ∀ sequence previousHmac payload, Verified env logName row sequence previousHmac payload →
      canonicalJson (.obj (authenticated logName ((Json.obj row).getD "sequence" .null)
        previousHmac payload)) ∈ signed

/-- The log holds what was appended to it, and every signature is of an append. -/
structure Whole (l : Ledger F) : Prop where
  log : ∀ logName, Terminated (l.files logName) ∧ ∃ rows, readRawRows (l.files logName) = .ok rows ∧
    Chain env logName 0 "" rows ((l.payloads logName).map sorted)
  signed : ∀ text ∈ l.signed, ∃ logName previousHmac, ∃ place : Nat, ∃ payload : Dict (Json F),
    text = canonicalJson (.obj (authenticated logName (.int place) previousHmac payload)) ∧
      (Json.obj payload).WF ∧ (l.payloads logName)[place]? = some payload
  unforged : ∀ logName, Unforged (F := F) env l.signed logName (l.files logName)

omit [Json.PyFloat F] in
theorem payloads_append (l : Ledger F) (files : String → LogFile) (signed : List String)
    (logName other : String) (payload : Dict (Json F)) :
    (Ledger.mk files (l.appended ++ [(logName, payload)]) signed).payloads other =
      l.payloads other ++ if logName = other then [payload] else [] := by
  rw [Ledger.payloads, List.filter_append, List.map_append]
  refine congrArg _ ?_
  by_cases h : logName = other
  · rw [if_pos h, List.filter_cons_of_pos (by simpa using h)]
    rfl
  · rw [if_neg h, List.filter_cons_of_neg (by simpa using h)]
    rfl

theorem signedText_envelope (logName : String) (sequence : Int) (previousHmac : String)
    (payload : Dict (Json F)) :
    signedText (envelope env logName sequence previousHmac payload) =
      canonicalJson (.obj (authenticated logName (.int sequence) previousHmac payload)) := rfl

variable {env}

theorem appendUnlocked_error {logName : String} {payload : Dict (Json F)} {file file' : LogFile}
    {e : PyExc} (h : appendUnlocked env logName payload file = (.error e, file')) :
    file' = file ∨ file' = some (file.getD ByteArray.empty) := by
  rcases Txn.bind_error.1 h with h | ⟨row, file₁, hnext, hwrite⟩
  · exact Or.inl (congrArg Prod.snd h).symm
  · obtain ⟨-, rfl⟩ := Txn.reads_ok.1 hnext
    exact Or.inr (appendRawRow_error hwrite)

theorem Whole.append {l : Ledger F} (h : Whole env l) {logName : String} {payload : Payload F}
    {row : Dict (Json F)} {file : LogFile}
    (signs : nextEnvelope env logName payload.items (l.files logName) = .ok row)
    (run : appendUnlocked env logName payload.items (l.files logName) = (.ok (), file)) :
    Whole env
      { files := Function.update l.files logName file
        appended := l.appended ++ [(logName, payload.items)]
        signed := l.signed ++ [signedText row] } := by
  obtain ⟨hend, rows, hrows, hchain⟩ := h.log logName
  obtain ⟨-, rfl⟩ := (nextEnvelope_of_chain hrows hchain payload.items).1 signs
  obtain ⟨hrows', hend', hverified, hchain'⟩ := append_extends hrows hchain hend payload.wf run
  have hplace : rows.length = (l.payloads logName).length := by
    rw [hchain.length_eq, List.length_map]
  refine ⟨fun other => ?_, fun text htext => ?_, fun other => ?_⟩
  · rw [payloads_append]
    dsimp only
    by_cases hother : logName = other
    · rw [← hother, if_pos rfl, Function.update_self, List.map_append]
      exact ⟨hend', _, hrows', hchain'⟩
    · rw [if_neg hother, List.append_nil, Function.update_of_ne (Ne.symm hother)]
      exact h.log other
  · rcases List.mem_append.1 htext with htext | htext
    · obtain ⟨other, previousHmac, place, signed, heq, hwf, hget⟩ := h.signed text htext
      refine ⟨other, previousHmac, place, signed, heq, hwf, ?_⟩
      rw [payloads_append, List.getElem?_append_left (List.getElem?_eq_some_iff.1 hget).1]
      exact hget
    · rw [List.mem_singleton.1 htext, signedText_envelope]
      refine ⟨logName, _, rows.length, payload.items, rfl, payload.wf, ?_⟩
      rw [payloads_append, if_pos rfl, hplace, List.getElem?_concat_length]
  · dsimp only
    by_cases hother : logName = other
    · rw [← hother, Function.update_self]
      intro rows₁ hrows₁ row₁ hrow₁ sequence previousHmac payload₁ hv
      rw [hrows'] at hrows₁
      cases hrows₁
      rcases List.mem_append.1 hrow₁ with hrow₁ | hrow₁
      · exact List.mem_append_left _ (h.unforged logName rows hrows row₁ hrow₁ _ _ _ hv)
      · rw [List.mem_singleton.1 hrow₁] at hv ⊢
        obtain ⟨-, rfl, rfl⟩ := hverified.unique hv
        rw [sequence_envelope payload.wf, canonicalJson_sorted]
        exact List.mem_append_right _ (List.mem_singleton_self _)
    · rw [Function.update_of_ne (Ne.symm hother)]
      intro rows₁ hrows₁ row₁ hrow₁ sequence previousHmac payload₁ hv
      exact List.mem_append_left _ (h.unforged other rows₁ hrows₁ row₁ hrow₁ _ _ _ hv)

theorem Whole.refused {l : Ledger F} (h : Whole env l) {logName : String} {file : LogFile}
    (hfile : file = l.files logName ∨ file = some ((l.files logName).getD ByteArray.empty)) :
    Whole env { l with files := Function.update l.files logName file } := by
  obtain ⟨hend, rows, hrows, hchain⟩ := h.log logName
  have hread : Terminated file ∧ readRawRows file = .ok rows := by
    rcases hfile with rfl | rfl
    · exact ⟨hend, hrows⟩
    · exact ⟨terminated_open hend, readRawRows_open hrows⟩
  refine ⟨fun other => ?_, h.signed, fun other => ?_⟩
  · dsimp only
    by_cases hother : logName = other
    · rw [← hother, Function.update_self]
      exact ⟨hread.1, rows, hread.2, hchain⟩
    · rw [Function.update_of_ne (Ne.symm hother)]
      exact h.log other
  · dsimp only
    by_cases hother : logName = other
    · rw [← hother, Function.update_self]
      intro rows₁ hrows₁
      rw [hread.2] at hrows₁
      cases hrows₁
      exact h.unforged logName rows hrows
    · rw [Function.update_of_ne (Ne.symm hother)]
      exact h.unforged other

theorem whole_of_kept {l : Ledger F} (h : Kept env l) : Whole env l := by
  induction h with
  | start =>
      refine ⟨fun logName => ⟨fun data hdata => (nomatch hdata), [], rfl, .nil 0 ""⟩,
        fun text htext => absurd htext List.not_mem_nil, fun logName rows hrows row hrow => ?_⟩
      cases hrows
      cases hrow
  | append _ logName payload signs run ih => exact ih.append signs run
  | refused _ logName payload run ih => exact ih.refused (appendUnlocked_error run)

theorem Kept.exists_append {l : Ledger F} (h : Kept env l) (logName : String) (payload : Payload F)
    {file : LogFile}
    (run : appendUnlocked env logName payload.items (l.files logName) = (.ok (), file)) :
    ∃ l' : Ledger F, Kept env l' ∧ l'.files = Function.update l.files logName file ∧
      l'.appended = l.appended ++ [(logName, payload.items)] ∧
      ∀ text ∈ l.signed, text ∈ l'.signed := by
  obtain ⟨row, _, hnext, -⟩ := Txn.bind_ok.1 run
  exact ⟨_, .append h logName payload (Txn.reads_ok.1 hnext).1 run, rfl, rfl,
    fun text htext => List.mem_append_left _ htext⟩

/-! ## What a replaced file reads as -/

/-- A row of the replaced file comes from one append to this log, at its place. -/
theorem verified_appended {l : Ledger F} (h : Whole env l) {logName : String}
    {row payload : Dict (Json F)} {place : Int} {previousHmac : String}
    (hwf : (Json.obj row).WF) (hv : Verified env logName row place previousHmac payload)
    (hsigned : canonicalJson (.obj (authenticated logName ((Json.obj row).getD "sequence" .null)
      previousHmac payload)) ∈ l.signed) :
    ∃ n : Nat, place = n ∧ ∃ appended, (l.payloads logName)[n]? = some appended ∧
      sorted payload = sorted appended := by
  obtain ⟨other, previousHmac', n, appended, htext, happendedWf, hget⟩ := h.signed _ hsigned
  have hpayloadWf : (Json.obj payload).WF := by
    have hbody := hv.body
    unfold rowBody at hbody
    split at hbody
    · next heq =>
        cases hbody
        exact hwf.get? heq
    · cases hbody
  have hsequenceWf : ((Json.obj row).getD "sequence" .null).WF := by
    rw [Json.getD]
    cases hseq : (Json.obj row).get? "sequence" with
    | none => simp
    | some value => exact hwf.get? hseq
  have hint : (Json.int n : Json F).WF := by simp
  -- the two texts are the same, so the same stands under every key
  have hsort := Json.sortKeys_eq_of_canonical
    (authenticated_wf hpayloadWf hsequenceWf logName previousHmac)
    (authenticated_wf happendedWf hint other previousHmac') htext
  have hkey := fun key => (Json.get?_sortKeys
    (authenticated_wf hpayloadWf hsequenceWf logName previousHmac) key).symm.trans
      ((congrArg (fun j => Json.get? j key) hsort).trans
        (Json.get?_sortKeys (authenticated_wf happendedWf hint other previousHmac') key))
  have hname : some (Json.str logName : Json F) = some (.str other) := hkey "log_name"
  have hplace : some ((Json.obj row).getD "sequence" .null).sortKeys = some (Json.int n : Json F) :=
    hkey "sequence"
  have hitems : some (Json.obj (sorted payload)) = some (Json.obj (sorted appended)) :=
    hkey "payload"
  cases hname
  refine ⟨n, ?_, appended, hget, Json.obj.inj (Option.some.inj hitems)⟩
  have hsequence := hv.sequence
  rw [Json.getD] at hplace
  unfold rowSequence at hsequence
  rw [Json.get?_obj] at hplace
  cases hseq : Dict.get? row "sequence" with
  | none =>
      rw [hseq] at hplace
      cases hplace
  | some value =>
      rw [hseq] at hplace hsequence
      cases value with
      | int i =>
          cases Option.some.inj hplace
          have hok : (if (n : Int) < 0 then _ else Except.ok (n : Int)) = Except.ok place := hsequence
          rw [if_neg (by omega)] at hok
          exact (Except.ok.inj hok).symm
      | null => cases hplace
      | bool b => cases hplace
      | float f => cases hplace
      | str s => cases hplace
      | arr xs => cases hplace
      | obj kvs => cases hplace

theorem rows_wf {file : LogFile} {rows : List (Dict (Json F))} (h : readRawRows file = .ok rows)
    (row : Dict (Json F)) (hrow : row ∈ rows) : (Json.obj row).WF := by
  cases file with
  | none =>
      cases h
      cases hrow
  | some data =>
      obtain ⟨-, text, -, hlines⟩ := readRawRows_some.1 h
      obtain ⟨line, -, hline⟩ := except_mapM_mem_result hlines hrow
      exact Json.loads_wf (loadRow_ok.1 hline)

/-- A chain of rows that were all signed is a beginning of what was appended. -/
theorem chain_appended {l : Ledger F} (h : Whole env l) {logName : String}
    {rows payloads : List (Dict (Json F))}
    (hrows : ∀ row ∈ rows, (Json.obj row).WF ∧ ∀ sequence previousHmac payload,
      Verified env logName row sequence previousHmac payload →
        canonicalJson (.obj (authenticated logName ((Json.obj row).getD "sequence" .null)
          previousHmac payload)) ∈ l.signed)
    (hchain : Chain env logName 0 "" rows payloads) :
    payloads.map sorted <+: (l.payloads logName).map sorted := by
  have hfrom : ∀ {place : Int} {previousHmac : String} {rows payloads : List (Dict (Json F))},
      Chain env logName place previousHmac rows payloads → ∀ n : Nat, place = n →
      (∀ row ∈ rows, (Json.obj row).WF ∧ ∀ sequence previousHmac payload,
        Verified env logName row sequence previousHmac payload →
          canonicalJson (.obj (authenticated logName ((Json.obj row).getD "sequence" .null)
            previousHmac payload)) ∈ l.signed) →
      payloads.map sorted <+: ((l.payloads logName).drop n).map sorted := by
    intro place previousHmac rows payloads hchain
    induction hchain with
    | nil => exact fun n _ _ => List.nil_prefix
    | @cons place previousHmac tag row payload rows payloads hv _ _ ih =>
        intro n hn hrows
        obtain ⟨hwf, hsigned⟩ := hrows row List.mem_cons_self
        obtain ⟨n', hn', appended, hget, hsame⟩ :=
          verified_appended h hwf hv (hsigned _ _ _ hv)
        obtain rfl : n' = n := by omega
        obtain ⟨hlt, hget⟩ := List.getElem?_eq_some_iff.1 hget
        rw [List.drop_eq_getElem_cons hlt, List.map_cons, List.map_cons, hget, hsame]
        exact List.cons_prefix_cons.2 ⟨rfl, ih (n' + 1) (by push_cast; omega)
          fun row hrow => hrows row (List.mem_cons_of_mem _ hrow)⟩
  exact hfrom hchain 0 rfl hrows

/-- For every history of appends and every replacement of a log's bytes in which
nothing verifies that was not signed: what reads back, if anything does, is a
beginning of what was appended to this log. Dictionaries are the same if they
are with their keys in order. -/
theorem read_tampered (env : LedgerEnv) (l : Ledger F) (hl : Kept env l) (path logName : String)
    (file : LogFile) (hforge : Unforged (F := F) env l.signed logName file)
    (payloads : List (Dict (Json F))) (hread : read env path logName file = .ok payloads) :
    payloads.map sorted <+: (l.payloads logName).map sorted := by
  obtain ⟨rows, hrows, hchain⟩ := read_ok.1 hread
  exact chain_appended (whole_of_kept hl) (fun row hrow => ⟨rows_wf hrows row hrow,
    hforge rows hrows row hrow⟩) hchain

/-! ## A log cut short -/

/-- Two appends to one log, and what it held between them. -/
theorem two_appends :
    ∃ l₁ l₂ : Ledger Unit, Kept plainLedger l₁ ∧ Kept plainLedger l₂ ∧
      (∀ text ∈ l₁.signed, text ∈ l₂.signed) ∧
      read plainLedger "candidates.jsonl" "candidates" (l₁.files "candidates") =
        .ok [([] : Dict (Json Unit))] ∧
      l₂.payloads "candidates" = [[], []] := by
  have hwf : (Json.obj ([] : Dict (Json Unit))).WF := by simp
  have hnone : readRawRows none = .ok ([] : List (Dict (Json Unit))) := rfl
  have hnil : Chain plainLedger "candidates" 0 "" ([] : List (Dict (Json Unit))) [] := .nil 0 ""
  obtain ⟨file₁, hrun₁⟩ := @plainLedger_appends none [] [] hnone hnil (by decide) (by decide)
    (by decide)
  obtain ⟨-, hsize₁, hfile₁⟩ := (append_ok hnone hnil).1 hrun₁
  obtain ⟨hrows₁, -, hverified₁, hchain₁⟩ :=
    append_extends hnone hnil (fun _ h => nomatch h) hwf hrun₁
  have hlast : (lastHmac "" [sorted (envelope plainLedger "candidates" 0 ""
      ([] : Dict (Json Unit)))]).length ≤ 64 := by
    rw [lastHmac_of_getLast hverified₁.hmac "" rfl]
    exact le_of_eq (plainLedger.hmac_length _)
  have hsmall : (file₁.getD ByteArray.empty).size ≤ 2000 := by
    rw [hfile₁]
    show (ByteArray.empty ++ _ : ByteArray).size ≤ 2000
    rw [ByteArray.empty_append]
    exact size_emptyRow_le "" (by decide) (by decide)
  obtain ⟨file₂, hrun₂⟩ := plainLedger_appends hrows₁ hchain₁ hlast (by decide) hsmall
  have hstart : Kept plainLedger (.start Unit) := .start
  obtain ⟨l₁, hkept₁, hfiles₁, happended₁, -⟩ := hstart.exists_append "candidates" ⟨[], hwf⟩ hrun₁
  have hrun₂' : appendUnlocked plainLedger "candidates" ([] : Dict (Json Unit)) (l₁.files "candidates") =
      (.ok (), file₂) := by
    rw [hfiles₁, Function.update_self]
    exact hrun₂
  obtain ⟨l₂, hkept₂, -, happended₂, hsigned⟩ := hkept₁.exists_append "candidates" ⟨[], hwf⟩ hrun₂'
  refine ⟨l₁, l₂, hkept₁, hkept₂, hsigned, ?_, ?_⟩
  · rw [hfiles₁, Function.update_self]
    exact read_ok.2 ⟨_, hrows₁, hchain₁⟩
  · rw [Ledger.payloads, happended₂, happended₁]
    rfl

/-- The second row is cut off. -/
theorem read_tampered_sample :
    ∃ (l : Ledger Unit) (file : LogFile), Kept plainLedger l ∧
      l.payloads "candidates" = [[], []] ∧ Unforged (F := Unit) plainLedger l.signed "candidates" file ∧
      read plainLedger "candidates.jsonl" "candidates" file = .ok [([] : Dict (Json Unit))] ∧
      [([] : Dict (Json Unit))].map sorted <+: (l.payloads "candidates").map sorted := by
  obtain ⟨l₁, l₂, hkept₁, hkept₂, hsigned, hread, hpayloads⟩ := two_appends
  have hforge : Unforged (F := Unit) plainLedger l₂.signed "candidates" (l₁.files "candidates") :=
    fun rows hrows row hrow sequence previousHmac payload hv =>
      hsigned _ ((whole_of_kept hkept₁).unforged "candidates" rows hrows row hrow _ _ _ hv)
  exact ⟨l₂, _, hkept₂, hpayloads, hforge, hread,
    read_tampered plainLedger l₂ hkept₂ "candidates.jsonl" "candidates" _ hforge _ hread⟩

end MiniCodeAgent.ConversationLedger
