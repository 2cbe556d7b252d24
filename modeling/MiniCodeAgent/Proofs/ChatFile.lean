import MiniCodeAgent.SillyTavern
import MiniCodeAgent.Json.Characters
import MiniCodeAgent.Text.Splitlines

/-!
# A chat file reads back

The file has one record a line, in the encoding that leaves everything beyond ASCII
as it is. The adapter cuts the text with `str.splitlines`, and three of the characters
that end a line there may stand in a string: U+0085, U+2028 and U+2029. A record
without them comes back; one with them is cut in two, and more pieces than records
are there to be read.
-/

namespace MemoryCore

open MiniCodeAgent Json

variable {F : Type} [PyFloat F]

/-! ## Blank texts -/

/-- Nothing is stripped off a text that starts and ends with something. -/
theorem pyStrip_between {text : String} {first last : Char} {mid : List Char}
    (htext : text.toList = first :: (mid ++ [last])) (hfirst : pyIsSpace first = false)
    (hlast : pyIsSpace last = false) : pyStrip text = text := by
  have hback : (first :: (mid ++ [last])).reverse = last :: (first :: mid).reverse := by simp
  have hkept : (first :: (mid ++ [last])).reverse.dropWhile pyIsSpace =
      (first :: (mid ++ [last])).reverse := by
    rw [hback, List.dropWhile_cons_of_neg (by rw [hlast]; exact Bool.false_ne_true)]
  rw [pyStrip, htext, List.dropWhile_cons_of_neg (by rw [hfirst]; exact Bool.false_ne_true), hkept,
    List.reverse_reverse, ← htext, String.ofList_toList]

/-! ## The file -/

/-- A record on its line. -/
def recordLine (record : Dict (Json F)) : List Char := dump .compact (.obj record) 0

/-- The encodings, joined by line feeds. -/
def chatFile (records : List (Dict (Json F))) : String :=
  "\n".intercalate (records.map fun record => dumps .compact (.obj record))

theorem chatFile_singleton (record : Dict (Json F)) :
    (chatFile [record]).toList = recordLine record := by
  rw [chatFile, List.map_singleton, String.intercalate_singleton, dumps, String.toList_ofList,
    recordLine]

theorem chatFile_cons (record next : Dict (Json F)) (records : List (Dict (Json F))) :
    (chatFile (record :: next :: records)).toList =
      recordLine record ++ '\n' :: (chatFile (next :: records)).toList := by
  rw [chatFile, List.map_cons, List.map_cons, String.intercalate_cons_cons, String.toList_append,
    String.toList_append, dumps, String.toList_ofList, List.append_assoc, chatFile, List.map_cons]
  rfl

/-- A record's line stands in braces. -/
theorem recordLine_braces (record : Dict (Json F)) :
    ∃ mid, recordLine record = '\x7b' :: (mid ++ ['\x7d']) := by
  rw [recordLine, dump]
  split
  · exact ⟨[], rfl⟩
  · exact ⟨_, congrArg ('\x7b' :: ·) (List.append_assoc _ _ _).symm⟩

theorem recordLine_printable (record : Dict (Json F)) : Printable (recordLine record) :=
  printable_dump _ 0

/-- What ends a line for `str.splitlines` and is not escaped. -/
def HiddenEnd (c : Char) : Prop := c.toNat = 0x85 ∨ c.toNat = 0x2028 ∨ c.toNat = 0x2029

instance : DecidablePred HiddenEnd := fun _ => inferInstanceAs (Decidable (_ ∨ _ ∨ _))

theorem isLineEnd_printable {c : Char} (hc : 32 ≤ c.toNat) : isLineEnd c = true ↔ HiddenEnd c := by
  simp only [isLineEnd, HiddenEnd, Bool.or_eq_true, Bool.and_eq_true, decide_eq_true_eq]
  omega

/-- Where a line end stands in a record's line. -/
theorem recordLine_end (record : Dict (Json F)) :
    (∃ c ∈ recordLine record, isLineEnd c = true) ↔
      ∃ s, HasText (.obj record) s ∧ ∃ c ∈ s.toList, HiddenEnd c := by
  have hmem : ∀ c, HiddenEnd c → (c ∈ recordLine record ↔
      ∃ s, HasText (.obj record) s ∧ c ∈ s.toList) := by
    intro c hc
    refine mem_dump ?_ _ _
    rcases hc with hc | hc | hc
    · rw [hc]
      decide
    · rw [hc]
      decide
    · rw [hc]
      decide
  constructor
  · intro h
    obtain ⟨c, hc, hend⟩ := h
    have hhidden := (isLineEnd_printable (recordLine_printable record c hc)).1 hend
    obtain ⟨s, hs, hcs⟩ := (hmem c hhidden).1 hc
    exact ⟨s, hs, c, hcs, hhidden⟩
  · intro h
    obtain ⟨s, hs, c, hcs, hhidden⟩ := h
    have hc := (hmem c hhidden).2 ⟨s, hs, hcs⟩
    exact ⟨c, hc, (isLineEnd_printable (recordLine_printable record c hc)).2 hhidden⟩

/-! ## The lines -/

/-- `splitlines`, on characters. -/
def cutLines (cs : List Char) : List (List Char) :=
  (Text.splitEnds isLineEnd '\r' '\n' cs).map (Text.dropEnd isLineEnd)

theorem cutLines_append (cs ds : List Char) :
    cutLines (cs ++ '\n' :: ds) = cutLines (cs ++ ['\n']) ++ cutLines ds := by
  rw [cutLines, Text.splitEnds_append (by decide) (by decide), List.map_append]
  rfl

/-- The lines that hold something. -/
def countFilled (lines : List (List Char)) : Nat :=
  lines.countP fun line => pyStrip (String.ofList line) ≠ ""

theorem filled_of_mem {line : List Char} {c : Char} (hc : c ∈ line) (hspace : pyIsSpace c = false) :
    pyStrip (String.ofList line) ≠ "" :=
  pyStrip_ne_empty (by rwa [String.toList_ofList]) hspace

theorem countFilled_pos {cs : List Char} {c : Char} (hc : c ∈ cs) (hend : isLineEnd c = false)
    (hspace : pyIsSpace c = false) : 0 < countFilled (cutLines cs) := by
  have hcr : isLineEnd '\r' = true := by decide
  have hlf : isLineEnd '\n' = true := by decide
  obtain ⟨line, hline, hmem⟩ := Text.exists_line_of_mem hcr hlf hc hend
  rw [countFilled, List.countP_pos_iff]
  exact ⟨_, List.mem_map_of_mem hline, decide_eq_true (filled_of_mem hmem hspace)⟩

/-- A record's line, whatever it ends in, is one line or more, and more than one if a line end
stands in it. -/
theorem countFilled_record (record : Dict (Json F)) (tail : List Char) :
    1 ≤ countFilled (cutLines (recordLine record ++ tail)) ∧
      ((∃ c ∈ recordLine record, isLineEnd c = true) →
        2 ≤ countFilled (cutLines (recordLine record ++ tail))) := by
  obtain ⟨mid, hbraces⟩ := recordLine_braces record
  refine ⟨countFilled_pos (c := '\x7b') (by rw [hbraces]; simp) (by decide) (by decide), ?_⟩
  intro hsome
  -- cut at the first of them
  generalize hpre : (recordLine record).takeWhile (fun c => !isLineEnd c) = pre
  have hplain : ∀ c ∈ pre, isLineEnd c = false := by
    intro c hc
    rw [← hpre] at hc
    simpa using List.all_eq_true.1 List.all_takeWhile c hc
  obtain ⟨c, post, hc, hsplit⟩ : ∃ c post, isLineEnd c = true ∧
      recordLine record = pre ++ c :: post := by
    have htake := List.takeWhile_append_dropWhile (p := fun c => !isLineEnd c)
      (l := recordLine record)
    rw [hpre] at htake
    cases hdrop : (recordLine record).dropWhile (fun c => !isLineEnd c) with
    | nil =>
        obtain ⟨c, hc, hend⟩ := hsome
        have hno := List.dropWhile_eq_nil_iff.1 hdrop c hc
        rw [hend] at hno
        cases hno
    | cons c post =>
        rw [hdrop] at htake
        have hhead := List.head_dropWhile_not (fun c => !isLineEnd c) (l := recordLine record)
          (by rw [hdrop]; simp)
        simp only [hdrop, List.head_cons, Bool.not_eq_false'] at hhead
        exact ⟨c, post, hhead, htake.symm⟩
  have hcr : c ≠ '\r' := by
    intro h
    have hprintable := recordLine_printable record c (by rw [hsplit]; simp)
    rw [h] at hprintable
    exact absurd hprintable (by decide)
  have hopen : '\x7b' ∈ pre := by
    cases pre with
    | nil =>
        rw [hbraces, List.nil_append] at hsplit
        rw [← (List.cons.inj hsplit).1] at hc
        exact absurd hc (by decide)
    | cons d pre =>
        rw [hbraces, List.cons_append] at hsplit
        rw [(List.cons.inj hsplit).1]
        exact List.mem_cons_self
  have hclose : '\x7d' ∈ post := by
    have hlast : (pre ++ c :: post).getLast? = some '\x7d' := by
      rw [← hsplit, hbraces, ← List.cons_append, List.getLast?_concat]
    rw [List.getLast?_append_of_ne_nil _ (List.cons_ne_nil _ _)] at hlast
    rcases List.mem_cons.1 (List.mem_of_getLast? hlast) with h | h
    · rw [← h] at hc
      exact absurd hc (by decide)
    · exact h
  have hlines : cutLines (recordLine record ++ tail) = pre :: cutLines (post ++ tail) := by
    rw [hsplit, List.append_assoc, List.cons_append, cutLines,
      Text.splitEnds_first (by decide) hplain hc hcr, List.map_cons, Text.dropEnd_line hc hplain]
    rfl
  have hrest : 0 < countFilled (cutLines (post ++ tail)) :=
    countFilled_pos (c := '\x7d') (List.mem_append_left _ hclose) (by decide) (by decide)
  have hboth : countFilled (pre :: cutLines (post ++ tail)) =
      countFilled (cutLines (post ++ tail)) + 1 :=
    List.countP_cons_of_pos (decide_eq_true (filled_of_mem hopen (by decide)))
  rw [hlines]
  omega

/-- There are as many filled lines as records at least, and more where one has a line end. -/
theorem countFilled_file {records : List (Dict (Json F))} (hne : records ≠ []) :
    records.length ≤ countFilled (cutLines (chatFile records).toList) ∧
      ((∃ record ∈ records, ∃ c ∈ recordLine record, isLineEnd c = true) →
        records.length < countFilled (cutLines (chatFile records).toList)) := by
  induction records with
  | nil => exact absurd rfl hne
  | cons record records ih =>
      cases records with
      | nil =>
          have hcount := countFilled_record record []
          rw [List.append_nil] at hcount
          rw [chatFile_singleton, List.length_singleton]
          refine ⟨hcount.1, fun hsome => ?_⟩
          obtain ⟨other, hother, hend⟩ := hsome
          rw [List.mem_singleton.1 hother] at hend
          exact hcount.2 hend
      | cons next records =>
          have hcount := countFilled_record record ['\n']
          obtain ⟨hrest, hmore⟩ := ih (List.cons_ne_nil _ _)
          have hsum : countFilled (cutLines (chatFile (record :: next :: records)).toList) =
              countFilled (cutLines (recordLine record ++ ['\n'])) +
                countFilled (cutLines (chatFile (next :: records)).toList) := by
            rw [chatFile_cons, cutLines_append, countFilled, List.countP_append]
            rfl
          rw [hsum, List.length_cons]
          refine ⟨by omega, fun hsome => ?_⟩
          obtain ⟨other, hother, hend⟩ := hsome
          rcases List.mem_cons.1 hother with h | hother
          · rw [h] at hend
            have := hcount.2 hend
            omega
          · have := hmore ⟨other, hother, hend⟩
            omega

/-- Without line ends in the records, the lines are theirs. -/
theorem cutLines_file {records : List (Dict (Json F))} (hne : records ≠ [])
    (hplain : ∀ record ∈ records, ∀ c ∈ recordLine record, isLineEnd c = false) :
    cutLines (chatFile records).toList = records.map recordLine := by
  induction records with
  | nil => exact absurd rfl hne
  | cons record records ih =>
      have hline := hplain record List.mem_cons_self
      cases records with
      | nil =>
          obtain ⟨mid, hbraces⟩ := recordLine_braces record
          rw [chatFile_singleton, cutLines, Text.splitEnds_open (by decide)
            (by rw [hbraces]; exact List.cons_ne_nil _ _) hline, List.map_singleton,
            Text.dropEnd_open hline, List.map_singleton]
      | cons next records =>
          rw [chatFile_cons, cutLines_append,
            ih (List.cons_ne_nil _ _) fun other hother =>
              hplain other (List.mem_cons_of_mem _ hother), cutLines,
            Text.splitEnds_line (by decide) hline, List.map_singleton,
            Text.dropEnd_line (by decide) hline]
          rfl

/-! ## The records -/

theorem parseLine_record {record : Dict (Json F)} (hwf : (Json.obj record).WF) (index : Nat) :
    parseLine (String.ofList (recordLine record), index) = .ok [record] := by
  obtain ⟨mid, hbraces⟩ := recordLine_braces record
  have hfilled : pyStrip (String.ofList (recordLine record)) ≠ "" :=
    filled_of_mem (by rw [hbraces]; exact List.mem_cons_self) (by decide)
  have hloads : Json.loads (String.ofList (recordLine record)) = some (.obj record) :=
    Json.loads_dumps Json.Style.compact_ok hwf
  unfold parseLine
  rw [if_neg hfilled]
  simp only [hloads]

theorem parseLine_ok {line : String} {index : Nat} {found : List (Dict (Json F))}
    (h : parseLine (line, index) = .ok found) :
    found.length = if pyStrip line ≠ "" then 1 else 0 := by
  unfold parseLine at h
  by_cases hblank : pyStrip line = ""
  · rw [if_pos hblank] at h
    cases h
    rw [if_neg (not_not.2 hblank)]
    rfl
  · rw [if_neg hblank] at h
    dsimp only at h
    rw [if_pos hblank]
    split at h
    · cases h
    · cases h
      rfl
    · cases h

theorem parseLines_records {records : List (Dict (Json F))}
    (hwf : ∀ record ∈ records, (Json.obj record).WF) (index : Nat) :
    (((records.map recordLine).map String.ofList).zipIdx index).mapM parseLine =
      .ok (records.map fun record => [record]) := by
  induction records generalizing index with
  | nil => rfl
  | cons record records ih =>
      rw [List.map_cons, List.map_cons, List.zipIdx_cons, List.mapM_cons,
        parseLine_record (hwf record List.mem_cons_self), except_ok_bind,
        ih (fun other hother => hwf other (List.mem_cons_of_mem _ hother)), except_ok_bind]
      rfl

/-- As many records are read as lines hold something. -/
theorem parseLines_ok {lines : List (List Char)} {index : Nat}
    {found : List (List (Dict (Json F)))}
    (h : ((lines.map String.ofList).zipIdx index).mapM parseLine = .ok found) :
    found.flatten.length = countFilled lines := by
  induction lines generalizing index found with
  | nil =>
      cases h
      rfl
  | cons line lines ih =>
      rw [List.map_cons, List.zipIdx_cons, List.mapM_cons] at h
      obtain ⟨first, hfirst, h⟩ := except_bind_ok.1 h
      obtain ⟨rest, hrest, h⟩ := except_bind_ok.1 h
      cases h
      rw [List.flatten_cons, List.length_append, parseLine_ok hfirst, ih hrest, countFilled,
        countFilled, List.countP_cons]
      simp only [decide_eq_true_eq]
      omega

/-- The file as a whole is no document. -/
theorem loads_chatFile {record next : Dict (Json F)} (records : List (Dict (Json F)))
    (hwf : (Json.obj record).WF) :
    (Json.loads (chatFile (record :: next :: records)) : Option (Json F)) = none := by
  obtain ⟨rest, hrest⟩ : ∃ rest, (chatFile (next :: records)).toList = '\x7b' :: rest := by
    obtain ⟨mid, hbraces⟩ := recordLine_braces next
    cases records with
    | nil => exact ⟨_, (chatFile_singleton next).trans hbraces⟩
    | cons other records =>
        rw [chatFile_cons, hbraces]
        exact ⟨_, rfl⟩
  have hread := parseValue_dump Style.compact_ok hwf 0
    (2 * (chatFile (record :: next :: records)).toList.length + 2)
    ('\n' :: (chatFile (next :: records)).toList) (.cons (by decide)) (by
      have hcost := cost_le Style.compact_ok (Json.obj record) 0
      have hlength := congrArg List.length (chatFile_cons record next records)
      rw [List.length_append, recordLine] at hlength
      omega)
  unfold Json.loads
  dsimp only
  rw [chatFile_cons] at hread ⊢
  have hstart : skipWs (recordLine record ++ '\n' :: (chatFile (next :: records)).toList) =
      recordLine record ++ '\n' :: (chatFile (next :: records)).toList :=
    ((dump_opens .compact (Json.obj record) 0).append _).skipWs
  rw [hstart]
  rw [recordLine] at hread ⊢
  rw [hread]
  dsimp only
  rw [if_neg]
  rw [hrest, skipWs, List.dropWhile_cons_of_pos (by decide), List.dropWhile_cons_of_neg (by decide)]
  exact List.cons_ne_nil _ _

theorem chatFile_braces {records : List (Dict (Json F))} (hne : records ≠ []) :
    ∃ mid, (chatFile records).toList = '\x7b' :: (mid ++ ['\x7d']) := by
  induction records with
  | nil => exact absurd rfl hne
  | cons record records ih =>
      obtain ⟨mid, hbraces⟩ := recordLine_braces record
      cases records with
      | nil => exact ⟨mid, (chatFile_singleton record).trans hbraces⟩
      | cons next records =>
          obtain ⟨rest, hrest⟩ := ih (List.cons_ne_nil _ _)
          rw [chatFile_cons, hbraces, hrest]
          exact ⟨mid ++ ['\x7d'] ++ '\n' :: '\x7b' :: rest, by simp⟩

/-- Two records or more come back from their file exactly where no key and no string of theirs
has a character that ends a line for `str.splitlines` and is not escaped. -/
theorem parseRecords_chatFile_iff {records : List (Dict (Json F))} (htwo : 2 ≤ records.length)
    (hwf : ∀ record ∈ records, (Json.obj record).WF) {maxInputBytes : Int}
    (hsize : ((chatFile records).utf8ByteSize : Int) ≤ maxInputBytes) :
    (∃ sourceFormat, parseRecords (.text (chatFile records)) maxInputBytes =
        .ok (records, sourceFormat)) ↔
      ∀ record ∈ records, ∀ s, HasText (.obj record) s → ∀ c ∈ s.toList, ¬ HiddenEnd c := by
  have hne : records ≠ [] := by
    intro h
    simp [h] at htwo
  obtain ⟨mid, hbraces⟩ := chatFile_braces hne
  have hstrip : pyStrip (chatFile records) = chatFile records :=
    pyStrip_between hbraces (by decide) (by decide)
  have hfilled : chatFile records ≠ "" := by
    intro h
    rw [h] at hbraces
    cases hbraces
  have hwhole : (Json.loads (chatFile records) : Option (Json F)) = none := by
    obtain ⟨record, rest, rfl⟩ := List.exists_cons_of_ne_nil hne
    cases rest with
    | nil => simp at htwo
    | cons next records => exact loads_chatFile records (hwf record List.mem_cons_self)
  have hparse : parseRecords (.text (chatFile records)) maxInputBytes = (do
      let parsed ← (((cutLines (chatFile records).toList).map String.ofList).zipIdx).mapM parseLine
      return (parsed.flatten, "jsonl") : Except PyExc (List (Dict (Json F)) × String)) := by
    unfold parseRecords
    dsimp only
    rw [if_neg (by omega), hstrip, if_neg hfilled, hwhole]
    rfl
  have hends : (∃ record ∈ records, ∃ c ∈ recordLine record, isLineEnd c = true) ↔
      ∃ record ∈ records, ∃ s, HasText (.obj record) s ∧ ∃ c ∈ s.toList, HiddenEnd c :=
    exists_congr fun record => and_congr_right fun _ => recordLine_end record
  rw [hparse]
  constructor
  · intro h record hrecord s hs c hc hhidden
    obtain ⟨sourceFormat, h⟩ := h
    obtain ⟨found, hfound, h⟩ := except_bind_ok.1 h
    have hflat : found.flatten = records := congrArg Prod.fst (Except.ok.inj h)
    have hcount := parseLines_ok hfound
    have hmore := (countFilled_file hne).2 (hends.2 ⟨record, hrecord, s, hs, c, hc, hhidden⟩)
    rw [hflat] at hcount
    omega
  · intro h
    have hplain : ∀ record ∈ records, ∀ c ∈ recordLine record, isLineEnd c = false := by
      intro record hrecord c hc
      by_contra hend
      obtain ⟨s, hs, c, hc, hhidden⟩ :=
        (recordLine_end record).1 ⟨c, hc, Bool.eq_true_of_not_eq_false hend⟩
      exact h record hrecord s hs c hc hhidden
    refine ⟨"jsonl", ?_⟩
    rw [cutLines_file hne hplain, parseLines_records hwf 0, except_ok_bind]
    show Except.ok _ = Except.ok _
    rw [← List.flatMap_def, List.flatMap_singleton']

/-! ## Two chats -/

/-- A chat of two messages. -/
def twoMessages (first second : String) : List (Dict (Json Unit)) :=
  [[("mes", .str first)], [("mes", .str second)]]

theorem twoMessages_wf (first second : String) :
    ∀ record ∈ twoMessages first second, (Json.obj record).WF := by
  intro record hrecord
  simp only [twoMessages, List.mem_cons, List.not_mem_nil, or_false] at hrecord
  rcases hrecord with rfl | rfl
  · simp [wf_obj, Dict.keys]
  · simp [wf_obj, Dict.keys]

theorem twoMessages_text {first second : String} {record : Dict (Json Unit)}
    (hrecord : record ∈ twoMessages first second) {s : String} (hs : HasText (.obj record) s) :
    s = "mes" ∨ s = first ∨ s = second := by
  simp only [twoMessages, List.mem_cons, List.not_mem_nil, or_false] at hrecord
  rcases hrecord with rfl | rfl
  · cases hs with
    | key hmem => exact Or.inl (by rw [List.mem_singleton.1 hmem])
    | member hmem hs =>
        rw [List.mem_singleton.1 hmem] at hs
        cases hs
        exact Or.inr (Or.inl rfl)
  · cases hs with
    | key hmem => exact Or.inl (by rw [List.mem_singleton.1 hmem])
    | member hmem hs =>
        rw [List.mem_singleton.1 hmem] at hs
        cases hs
        exact Or.inr (Or.inr rfl)

theorem plain_literal {text : String} {chars : List Char} (h : text = String.ofList chars)
    (hall : (chars.all fun c => decide (¬ HiddenEnd c)) = true) :
    ∀ c ∈ text.toList, ¬ HiddenEnd c := fun c hc =>
  of_decide_eq_true (List.all_eq_true.1 (all_literal h hall) c hc)

theorem parseRecords_chatFile_iff_sample : ∃ sourceFormat,
    parseRecords (.text (chatFile (twoMessages "Hi!" "Hello"))) 1000 =
      .ok (twoMessages "Hi!" "Hello", sourceFormat) := by
  refine (parseRecords_chatFile_iff (by decide) (twoMessages_wf _ _) (by decide +kernel)).2 ?_
  intro record hrecord s hs
  rcases twoMessages_text hrecord hs with rfl | rfl | rfl
  · exact plain_literal rfl rfl
  · exact plain_literal rfl rfl
  · exact plain_literal rfl rfl

/-- A line separator in a message. -/
theorem chatFile_lost :
    (∀ record ∈ twoMessages "Hi!" "a\u2028b", (Json.obj record).WF) ∧
    (chatFile (twoMessages "Hi!" "a\u2028b")).utf8ByteSize ≤ 1000 ∧
    ¬ ∃ sourceFormat, parseRecords (.text (chatFile (twoMessages "Hi!" "a\u2028b"))) 1000 =
      .ok (twoMessages "Hi!" "a\u2028b", sourceFormat) := by
  refine ⟨twoMessages_wf _ _, by decide +kernel, fun h => ?_⟩
  obtain ⟨sourceFormat, h⟩ := h
  have hfailed : (parseRecords (.text (chatFile (twoMessages "Hi!" "a\u2028b"))) 1000 :
      Except PyExc (List (Dict (Json Unit)) × String)).toOption.isNone = true := by decide +kernel
  rw [h] at hfailed
  cases hfailed

end MemoryCore
