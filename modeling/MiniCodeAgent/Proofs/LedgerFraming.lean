import MiniCodeAgent.ConversationLedger
import MiniCodeAgent.Json.Extend

/-!
# The lines of a log

A log is read in two ways: as a text from the front, and as bytes from the back,
where the first chunk that shows a line end in front of something is enough to
find the last line. Both find the same last row wherever the first finds any
(`readLastRawRow_of_rows`). A row is written as one line, and whether it is read as one
depends on how the file ended before: behind a line end there is a row more, and
behind anything else there is no row at all any more.
-/

namespace MiniCodeAgent.ConversationLedger

variable {F : Type} [Json.PyFloat F]

/-! ## Characters and bytes -/

theorem encode_ascii {c : Char} (h : c.toNat < 128) :
    String.utf8EncodeChar c = [UInt8.ofNat c.toNat] := by
  rw [String.utf8EncodeChar, if_pos]
  · rfl
  · show c.toNat ≤ 127
    omega

theorem le_encode {c : Char} (h : 128 ≤ c.toNat) : ∀ b ∈ String.utf8EncodeChar c, 128 ≤ b.toNat := by
  have hofNat : ∀ n, 128 ≤ n → n < 256 → 128 ≤ (UInt8.ofNat n).toNat := by
    intro n h1 h2
    rw [UInt8.toNat_ofNat']
    omega
  have hc : c.val.toNat = c.toNat := rfl
  intro b hb
  rw [String.utf8EncodeChar] at hb
  simp only [hc] at hb
  split at hb
  · omega
  · split at hb
    · simp only [List.mem_cons, List.not_mem_nil, or_false] at hb
      rcases hb with rfl | rfl
      · exact hofNat _ (by omega) (by omega)
      · exact hofNat _ (by omega) (by omega)
    · split at hb
      · simp only [List.mem_cons, List.not_mem_nil, or_false] at hb
        rcases hb with rfl | rfl | rfl
        · exact hofNat _ (by omega) (by omega)
        · exact hofNat _ (by omega) (by omega)
        · exact hofNat _ (by omega) (by omega)
      · simp only [List.mem_cons, List.not_mem_nil, or_false] at hb
        rcases hb with rfl | rfl | rfl | rfl
        · exact hofNat _ (by omega) (by omega)
        · exact hofNat _ (by omega) (by omega)
        · exact hofNat _ (by omega) (by omega)
        · exact hofNat _ (by omega) (by omega)

theorem utf8_keepsBreaks :
    Text.KeepsBreaks '\r' '\n' (13 : UInt8) 10 String.utf8EncodeChar where
  onCr := by decide
  onLf := by decide
  distinct := by decide
  other c hcr hlf := by
    refine ⟨String.utf8EncodeChar_ne_nil, ?_⟩
    by_cases h : c.toNat < 128
    · rw [encode_ascii h, List.mem_singleton, List.mem_singleton]
      have hne : ∀ d : Char, d.toNat < 128 → c ≠ d → UInt8.ofNat d.toNat ≠ UInt8.ofNat c.toNat := by
        intro d hd hcd heq
        have := congrArg UInt8.toNat heq
        rw [UInt8.toNat_ofNat', UInt8.toNat_ofNat', Nat.mod_eq_of_lt (by omega),
          Nat.mod_eq_of_lt (by omega)] at this
        exact hcd (Char.toNat_inj.1 this.symm)
      exact ⟨hne '\r' (by decide) hcr, hne '\n' (by decide) hlf⟩
    · have hle := le_encode (show 128 ≤ c.toNat by omega)
      exact ⟨fun hmem => absurd (hle _ hmem) (by decide),
        fun hmem => absurd (hle _ hmem) (by decide)⟩

theorem toUTF8_toList (text : String) :
    text.toUTF8.data.toList = text.toList.flatMap String.utf8EncodeChar := by
  have hencode : ∀ cs : List Char, cs.utf8Encode.data.toList = cs.flatMap String.utf8EncodeChar := by
    intro cs
    induction cs with
    | nil => rfl
    | cons c cs ih =>
        rw [List.utf8Encode_cons, ByteArray.data_append, Array.toList_append, ih,
          List.utf8Encode_singleton, List.data_toByteArray, List.flatMap_cons]
  rw [← hencode]
  exact congrArg (fun data : ByteArray => data.data.toList) String.utf8Encode_toList.symm

/-- The lines in bytes are the lines of the text, encoded. -/
theorem byteLines_toUTF8 (text : String) :
    byteLines text.toUTF8.data.toList = (textLines text).map String.toUTF8 := by
  rw [byteLines, toUTF8_toList, Text.lines_flatMap utf8_keepsBreaks, textLines, List.map_map,
    List.map_map]
  refine List.map_congr_left fun line _ => ?_
  show (⟨(line.flatMap String.utf8EncodeChar).toArray⟩ : ByteArray) = (String.ofList line).toUTF8
  refine ByteArray.ext (Array.toList_inj.1 ?_)
  rw [toUTF8_toList, String.toList_ofList]

/-! ## The last line, found from the back -/

theorem exists_lf_of_mem_rdropWhile {tail : List UInt8}
    (h : 10 ∈ tail.rdropWhile (fun b => decide (b = 10))) :
    ∃ before behind, tail = before ++ 10 :: behind ∧ behind ≠ [] := by
  obtain ⟨before, behind, hsplit⟩ := List.append_of_mem h
  have hne : tail.rdropWhile (fun b => decide (b = 10)) ≠ [] := List.ne_nil_of_mem h
  have hlast := List.rdropWhile_last_not (fun b => decide (b = 10)) tail hne
  obtain ⟨rest, hrest⟩ := List.rdropWhile_prefix (fun b => decide (b = 10)) (l := tail)
  refine ⟨before, behind ++ rest, ?_, fun hnil => ?_⟩
  · rw [← hrest, hsplit, List.append_assoc, List.cons_append]
  · obtain ⟨hbehind, -⟩ := List.append_eq_nil_iff.1 hnil
    rw [hbehind] at hsplit
    simp [hsplit] at hlast

/-- The loop stops at the front, or at a tail with a line end in front of something. -/
theorem readTail_spec (data : List UInt8) (position : Nat) (h : position ≤ data.length) :
    ∃ p, readTail data position (data.drop position) = data.drop p ∧
      (p = 0 ∨ 10 ∈ (data.drop p).rdropWhile (fun b => decide (b = 10))) := by
  induction position using Nat.strong_induction_on with
  | _ position ih =>
      rw [readTail]
      by_cases hloop : 0 < position ∧ 10 ∉ (data.drop position).rdropWhile (fun b => decide (b = 10))
      · rw [if_pos hloop]
        have hpos := hloop.1
        have hchunk : (data.drop (position - min 8192 position)).take (min 8192 position) ++
            data.drop position = data.drop (position - min 8192 position) := by
          have hdrop : data.drop position =
              (data.drop (position - min 8192 position)).drop (min 8192 position) := by
            rw [List.drop_drop]
            congr 1
            omega
          rw [hdrop, List.take_append_drop]
        simp only [hchunk]
        exact ih (position - min 8192 position) (by omega) (by omega)
      · rw [if_neg hloop]
        refine ⟨position, rfl, ?_⟩
        by_cases hzero : position = 0
        · exact Or.inl hzero
        · by_contra hno
          exact hloop ⟨by omega, fun hmem => hno (Or.inr hmem)⟩

theorem getLast?_lines_readTail (data : List UInt8) :
    (Text.lines 13 10 (readTail data data.length [])).getLast? =
      (Text.lines 13 10 data).getLast? := by
  have hend : data.drop data.length = [] := List.drop_eq_nil_of_le (le_refl _)
  obtain ⟨p, htail, hstop⟩ := readTail_spec data data.length (le_refl _)
  rw [hend] at htail
  rw [htail]
  rcases hstop with rfl | hmem
  · rfl
  · obtain ⟨before, behind, hsplit, hne⟩ := exists_lf_of_mem_rdropWhile hmem
    have hdata : data = (data.take p ++ before) ++ 10 :: behind := by
      rw [List.append_assoc, ← hsplit, List.take_append_drop]
    rw [hsplit, Text.getLast?_lines_append_lf (by decide) before hne]
    rw [hdata, Text.getLast?_lines_append_lf (by decide) _ hne]

/-! ## Rows -/

theorem loadRow_ok {line : String} {row : Dict (Json F)} :
    loadRow line = .ok row ↔ Json.loads line = some (.obj row) := by
  unfold loadRow
  split
  · next heq =>
      rw [heq, Except.ok.injEq, Option.some.injEq, Json.obj.injEq]
  · next hobj heq =>
      rw [heq]
      constructor
      · exact fun h => nomatch h
      · exact fun h => absurd (Option.some.inj h) (hobj row)
  · next heq =>
      rw [heq]
      constructor
      · exact fun h => nomatch h
      · exact fun h => nomatch h

theorem readRawRows_some {data : ByteArray} {rows : List (Dict (Json F))} :
    readRawRows (some data) = .ok rows ↔ data.size ≤ maxStateFileBytes ∧
      ∃ text : String, text.toUTF8 = data ∧ (textLines text).mapM loadRow = .ok rows := by
  rw [readRawRows, except_bind_ok]
  constructor
  · rintro ⟨_, hsize, h⟩
    obtain ⟨text, htext, h⟩ := except_bind_ok.1 h
    exact ⟨not_lt.1 (raiseIf_ok.1 hsize), text, toUTF8_of_decodeUtf8 htext, h⟩
  · rintro ⟨hsize, text, rfl, h⟩
    refine ⟨(), raiseIf_ok.2 (not_lt.2 hsize), ?_⟩
    rw [decodeUtf8_toUTF8, except_ok_bind, h]

/-- Whatever the reader from the front finds, the reader from the back finds its
last row. -/
theorem readLastRawRow_of_rows {file : LogFile} {rows : List (Dict (Json F))}
    (h : readRawRows file = .ok rows) : readLastRawRow file = .ok rows.getLast? := by
  cases file with
  | none =>
      cases h
      rfl
  | some data =>
      obtain ⟨hsize, text, rfl, hrows⟩ := readRawRows_some.1 h
      have hlines : (byteLines (readTail text.toUTF8.data.toList text.toUTF8.size [])).getLast? =
          (textLines text).getLast?.map String.toUTF8 := by
        rw [← List.getLast?_map, ← byteLines_toUTF8, byteLines, byteLines, List.getLast?_map,
          List.getLast?_map]
        exact congrArg (Option.map _) (getLast?_lines_readTail text.toUTF8.data.toList)
      rw [readLastRawRow, (raiseIf_ok (u := ())).2 (not_lt.2 hsize), except_ok_bind, hlines]
      rcases List.eq_nil_or_concat (textLines text) with hnil | ⟨before, line, hconcat⟩
      · rw [hnil] at hrows ⊢
        cases hrows
        split
        · rfl
        · rfl
      · rw [hconcat, List.concat_eq_append] at hrows ⊢
        obtain ⟨rows', last, -, hline, rfl⟩ := except_mapM_append_ok.1 hrows
        obtain ⟨row, hrow, rfl⟩ := except_mapM_singleton_ok.1 hline
        have hne : text.toUTF8.size ≠ 0 := by
          intro hzero
          have hempty : text.toUTF8.data.toList = [] := List.length_eq_zero_iff.1 hzero
          have := byteLines_toUTF8 text
          rw [hempty, hconcat, List.concat_eq_append, List.map_append] at this
          exact absurd this.symm (List.append_ne_nil_of_right_ne_nil _ (List.cons_ne_nil _ _))
        rw [if_neg hne, List.getLast?_concat, List.getLast?_concat]
        show (loadLastRow line.toUTF8 >>= _) = _
        rw [loadLastRow, decodeUtf8_toUTF8]
        show (loadRow line >>= _) = _
        rw [hrow]
        rfl

/-! ## Writing a row -/

/-- The dictionary as it is read back from its canonical text. -/
def sorted (row : Dict (Json F)) : Dict (Json F) := (Json.sortMembers row).insertionSort Json.keyLE

omit [Json.PyFloat F] in
@[simp] theorem sortKeys_obj (row : Dict (Json F)) : (Json.obj row).sortKeys = .obj (sorted row) :=
  rfl

/-- The line a row is written as. -/
def rowLine (row : Dict (Json F)) : String := canonicalJson (.obj row) ++ "\n"

theorem loadRow_canonical {row : Dict (Json F)} (hrow : (Json.obj row).WF) :
    loadRow (canonicalJson (.obj row)) = .ok (sorted row) :=
  loadRow_ok.2 (Json.loads_canonical hrow)

theorem canonicalJson_head (row : Dict (Json F)) :
    ∃ cs, (canonicalJson (.obj row)).toList = '{' :: cs := by
  rw [canonicalJson, Json.canonical, Json.dumps, String.toList_ofList, sortKeys_obj, Json.dump]
  split
  · exact ⟨_, rfl⟩
  · exact ⟨_, rfl⟩

theorem notMem_canonicalJson {c : Char} (hc : c.toNat < 32) (value : Json F) :
    c ∉ (canonicalJson value).toList := fun hmem =>
  absurd (Json.printable_canonical value c hmem) (by omega)

theorem appendRawRow_ok {row : Dict (Json F)} {file file' : LogFile} {u : Unit} :
    appendRawRow row file = (.ok u, file') ↔
      (file.getD ByteArray.empty).size + (rowLine row).toUTF8.size ≤ maxStateFileBytes ∧
        file' = some (file.getD ByteArray.empty ++ (rowLine row).toUTF8) := by
  rw [appendRawRow, Txn.bind_ok]
  constructor
  · rintro ⟨_, file₁, hopen, h⟩
    rw [Txn.modify_ok] at hopen
    obtain ⟨size, file₂, hsize, h⟩ := Txn.bind_ok.1 h
    obtain ⟨rfl, rfl⟩ := Txn.query_ok.1 hsize
    obtain ⟨_, file₃, hcheck, hwrite⟩ := Txn.bind_ok.1 h
    obtain ⟨hcheck, rfl⟩ := Txn.lift_ok.1 hcheck
    have hwrite := Txn.modify_ok.1 hwrite
    rw [hopen] at hwrite hcheck
    exact ⟨not_lt.1 (raiseIf_ok.1 hcheck), hwrite⟩
  · rintro ⟨hsize, rfl⟩
    refine ⟨(), _, Txn.modify_ok.2 rfl, Txn.bind_ok.2 ⟨_, _, Txn.query_ok.2 ⟨rfl, rfl⟩, ?_⟩⟩
    exact Txn.bind_ok.2 ⟨(), _, Txn.lift_ok.2 ⟨raiseIf_ok.2 (not_lt.2 hsize), rfl⟩,
      Txn.modify_ok.2 rfl⟩

theorem appendRawRow_error {row : Dict (Json F)} {file file' : LogFile} {e : PyExc}
    (h : appendRawRow row file = (.error e, file')) : file' = some (file.getD ByteArray.empty) := by
  rw [appendRawRow] at h
  rcases Txn.bind_error.1 h with h | ⟨_, file₁, hopen, h⟩
  · cases h
  · have hopen := Txn.modify_ok.1 hopen
    rcases Txn.bind_error.1 h with h | ⟨size, file₂, hsize, hrest⟩
    · cases h
    · obtain ⟨-, rfl⟩ := Txn.query_ok.1 hsize
      rcases Txn.bind_error.1 hrest with hlift | ⟨_, file₃, -, hwrite⟩
      · rw [← hopen]
        exact (congrArg Prod.snd hlift).symm
      · cases hwrite

/-- Nothing stands behind the last line end of the file. -/
def Terminated (file : LogFile) : Prop :=
  ∀ data, file = some data → Text.Ended (13 : UInt8) 10 data.data.toList

theorem ended_toUTF8 (text : String) :
    Text.Ended (13 : UInt8) 10 text.toUTF8.data.toList ↔ Text.Ended '\r' '\n' text.toList := by
  rw [toUTF8_toList]
  exact Text.ended_flatMap utf8_keepsBreaks text.toList

theorem textLines_append_ended {text line : String} (htext : Text.Ended '\r' '\n' text.toList)
    (hcr : '\r' ∉ line.toList) (hlf : '\n' ∉ line.toList) (hne : line.toList ≠ []) :
    textLines (text ++ (line ++ "\n")) = textLines text ++ [line] := by
  have hhead : (line.toList ++ ['\n']).head? ≠ some '\n' := by
    cases hline : line.toList with
    | nil => exact absurd hline hne
    | cons c cs =>
        intro h
        refine hlf ?_
        rw [hline, ← Option.some.inj h]
        exact List.mem_cons_self
  have hlist : (text ++ (line ++ "\n")).toList = text.toList ++ (line.toList ++ ['\n']) := by
    rw [String.toList_append, String.toList_append]
    rfl
  rw [textLines, textLines, hlist, Text.lines_append_ended htext fun _ => hhead,
    Text.lines_line hcr hlf (by decide), List.map_append]
  exact congrArg _ (congrArg (fun s => [s]) (String.ofList_toList))

theorem textLines_append_unended {text line : String} (htext : ¬ Text.Ended '\r' '\n' text.toList)
    (hcr : '\r' ∉ line.toList) (hlf : '\n' ∉ line.toList) :
    ∃ before last, textLines text = before ++ [String.ofList last] ∧
      textLines (text ++ (line ++ "\n")) = before ++ [String.ofList (last ++ line.toList)] := by
  obtain ⟨before, last, hlines, hlastCr, hlastLf, -, happend⟩ :=
    Text.lines_append_unended (by decide) htext
  have hlist : (text ++ (line ++ "\n")).toList = text.toList ++ (line.toList ++ ['\n']) := by
    rw [String.toList_append, String.toList_append]
    rfl
  refine ⟨before.map String.ofList, last, ?_, ?_⟩
  · rw [textLines, hlines, List.map_append]
    rfl
  · rw [textLines, hlist, happend, ← List.append_assoc, Text.lines_line, List.map_append]
    · rfl
    · exact fun h => (List.mem_append.1 h).elim hlastCr hcr
    · exact fun h => (List.mem_append.1 h).elim hlastLf hlf
    · decide

/-- A file ends its last line once a row is written. -/
theorem terminated_append (data : ByteArray) (row : Dict (Json F)) :
    Terminated (some (data ++ (rowLine row).toUTF8)) := by
  intro data' hdata b hb
  cases hdata
  have hlast : (rowLine row).toUTF8.data.toList =
      (canonicalJson (.obj row)).toList.flatMap String.utf8EncodeChar ++ [10] := by
    rw [toUTF8_toList, rowLine, String.toList_append, List.flatMap_append]
    rfl
  rw [ByteArray.data_append, Array.toList_append, hlast, ← List.append_assoc,
    List.getLast?_concat] at hb
  exact Or.inr (Option.some.inj hb).symm

/-- Opening a file that is not there makes an empty one, which reads the same. -/
theorem readRawRows_open {file : LogFile} {rows : List (Dict (Json F))}
    (h : readRawRows file = .ok rows) :
    readRawRows (some (file.getD ByteArray.empty)) = .ok rows := by
  cases file with
  | none =>
      cases h
      exact readRawRows_some.2 ⟨Nat.zero_le _, "", rfl, rfl⟩
  | some data => exact h

theorem terminated_open {file : LogFile} (h : Terminated file) :
    Terminated (some (file.getD ByteArray.empty)) := by
  cases file with
  | none =>
      intro data hdata b hb
      cases hdata
      cases hb
  | some data => exact h

/-- A row written behind a line end is a row more. -/
theorem readRawRows_append {file : LogFile} {rows : List (Dict (Json F))}
    (h : readRawRows file = .ok rows) (hend : Terminated file) {row : Dict (Json F)}
    (hrow : (Json.obj row).WF)
    (hsize : (file.getD ByteArray.empty).size + (rowLine row).toUTF8.size ≤ maxStateFileBytes) :
    readRawRows (some (file.getD ByteArray.empty ++ (rowLine row).toUTF8)) =
      .ok (rows ++ [sorted row]) := by
  obtain ⟨cs, hcs⟩ := canonicalJson_head row
  have hne : (canonicalJson (.obj row)).toList ≠ [] := by
    rw [hcs]
    exact List.cons_ne_nil _ _
  have hlines : ∀ text : String, Text.Ended '\r' '\n' text.toList →
      textLines (text ++ rowLine row) = textLines text ++ [canonicalJson (.obj row)] :=
    fun text htext => textLines_append_ended htext (notMem_canonicalJson (by decide) _)
      (notMem_canonicalJson (by decide) _) hne
  have hload : [canonicalJson (.obj row)].mapM loadRow = .ok [sorted row] :=
    except_mapM_singleton_ok.2 ⟨_, loadRow_canonical hrow, rfl⟩
  refine readRawRows_some.2 ⟨by rw [ByteArray.size_append]; exact hsize, ?_⟩
  cases file with
  | none =>
      cases h
      refine ⟨"" ++ rowLine row, String.toByteArray_append, ?_⟩
      rw [hlines "" (by decide)]
      exact except_mapM_append_ok.2 ⟨_, _, rfl, hload, rfl⟩
  | some data =>
      obtain ⟨-, text, rfl, hrows⟩ := readRawRows_some.1 h
      refine ⟨text ++ rowLine row, String.toByteArray_append, ?_⟩
      rw [hlines text ((ended_toUTF8 text).1 (hend _ rfl))]
      exact except_mapM_append_ok.2 ⟨_, _, hrows, hload, rfl⟩

/-- Behind anything else it is no row, and nothing can be read any more. -/
theorem readRawRows_append_unended {file : LogFile} {rows : List (Dict (Json F))}
    (h : readRawRows file = .ok rows) (hend : ¬ Terminated file) (row : Dict (Json F))
    (rows' : List (Dict (Json F))) :
    readRawRows (some (file.getD ByteArray.empty ++ (rowLine row).toUTF8)) ≠ .ok rows' := by
  obtain ⟨data, hdata⟩ := not_forall.1 hend
  obtain ⟨rfl, hended⟩ := Classical.not_imp.1 hdata
  obtain ⟨-, text, rfl, hrows⟩ := readRawRows_some.1 h
  intro hread
  obtain ⟨-, text', htext', hrows'⟩ := readRawRows_some.1 hread
  have htext : text' = text ++ rowLine row := by
    refine String.toByteArray_inj.1 (htext'.trans ?_)
    exact String.toByteArray_append.symm
  obtain ⟨before, last, hlines, hlines'⟩ := textLines_append_unended
    (mt (ended_toUTF8 text).2 hended) (notMem_canonicalJson (by decide) (.obj row))
    (notMem_canonicalJson (by decide) (.obj row))
  rw [hlines] at hrows
  obtain ⟨_, _, -, hlast, -⟩ := except_mapM_append_ok.1 hrows
  obtain ⟨kvs, hkvs, -⟩ := except_mapM_singleton_ok.1 hlast
  obtain ⟨cs, hcs⟩ := canonicalJson_head row
  rw [htext] at hrows'
  rw [show textLines (text ++ rowLine row) = _ from hlines', hcs] at hrows'
  obtain ⟨_, _, -, hlast', -⟩ := except_mapM_append_ok.1 hrows'
  obtain ⟨kvs', hkvs', -⟩ := except_mapM_singleton_ok.1 hlast'
  have hnone := Json.loads_append (loadRow_ok.1 hkvs) (show Json.isWs '{' = false by decide) cs
  have hsome := loadRow_ok.1 hkvs'
  rw [hnone] at hsome
  cases hsome

end MiniCodeAgent.ConversationLedger
