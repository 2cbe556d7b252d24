import MiniCodeAgent.AddedContent

/-!
# What the scanner makes of a diff

Git ends every line of a diff with a line feed, and `str.splitlines` cuts there whatever
stands on either side. So the scanner's loop falls into one part for each line that was
printed, and a line is read right or wrong by itself (`ReadRight`), given the path the
lines before it have left.

A line that is added is read as what it is unless a line end stands in it or it starts
with `++`, which makes it a third `+`. What is behind a line end in any other line is
read as if it were printed, and so must not start like an added line or a header.
-/

namespace MiniCodeAgent.CheckAddedContent

/-! ## One piece of a text -/

/-- What a line can be to the scanner. -/
inductive Reading where
  | header (path : String)
  | content (text : String)
  deriving DecidableEq

def readPiece (path line : String) : Option Reading :=
  if startsWith line "+++ b/" = true then some (.header (textFrom 6 line))
  else if path = "" ∨ startsWith line "+" = false ∨ startsWith line "+++" = true then none
  else some (.content (textFrom 1 line))

def Reading.apply (state : ScanState) : Reading → ScanState
  | .header path => { state with path := path }
  | .content text => { state with findings := state.findings + found state.path text }

theorem scanLine_eq (state : ScanState) (line : String) :
    scanLine state line = (readPiece state.path line).elim state (Reading.apply state) := by
  unfold scanLine readPiece
  split_ifs <;> rfl

/-- The path behind a reading. -/
def Reading.pathAfter (path : String) : Reading → String
  | .header next => next
  | .content _ => path

def readPieces (path : String) : List String → List Reading
  | [] => []
  | line :: lines =>
    match readPiece path line with
    | none => readPieces path lines
    | some reading => reading :: readPieces (reading.pathAfter path) lines

theorem foldl_scanLine (state : ScanState) (lines : List String) :
    lines.foldl scanLine state = (readPieces state.path lines).foldl Reading.apply state := by
  induction lines generalizing state with
  | nil => rfl
  | cons line lines ih =>
      rw [List.foldl_cons, scanLine_eq, ih, readPieces]
      cases hread : readPiece state.path line with
      | none => rfl
      | some reading => cases reading <;> rfl

theorem startsWith_iff {text start : String} :
    startsWith text start = true ↔ start.toList <+: text.toList := by
  rw [startsWith, List.isPrefixOf_iff_prefix]

theorem readPiece_eq_none {path line : String} :
    readPiece path line = none ↔ startsWith line "+++ b/" = false ∧
      (path ≠ "" → startsWith line "+" = true → startsWith line "+++" = true) := by
  unfold readPiece
  by_cases hheader : startsWith line "+++ b/" = true
  · rw [if_pos hheader]
    simp [hheader]
  · rw [if_neg hheader]
    simp only [hheader, true_and]
    split_ifs with hskip
    · refine ⟨fun _ hpath hplus => ?_, fun _ => rfl⟩
      rcases hskip with h | h | h
      · exact absurd h hpath
      · rw [hplus] at h
        cases h
      · exact h
    · simp only [not_or] at hskip
      obtain ⟨hpath, hplus, hthree⟩ := hskip
      refine ⟨fun h => (by cases h), fun h => absurd (h hpath ?_) hthree⟩
      simpa using hplus

theorem readPieces_eq_nil {path : String} {lines : List String} :
    readPieces path lines = [] ↔ ∀ line ∈ lines, readPiece path line = none := by
  induction lines with
  | nil => simp [readPieces]
  | cons line lines ih =>
      rw [readPieces, List.forall_mem_cons]
      cases hread : readPiece path line with
      | none => simp [ih]
      | some reading => simp

/-- A text is gone through because of a line with one `+` more than it, not with three. -/
theorem content_mem {path text : String} {lines : List String}
    (h : .content text ∈ readPieces path lines) :
    ∃ line ∈ lines, line.toList = '+' :: text.toList ∧ startsWith line "+++" = false := by
  induction lines generalizing path with
  | nil => cases h
  | cons line lines ih =>
      have hlater : ∀ {path : String}, .content text ∈ readPieces path lines →
          ∃ other ∈ line :: lines, other.toList = '+' :: text.toList ∧
            startsWith other "+++" = false := by
        intro path hmem
        obtain ⟨other, hother, hfacts⟩ := ih hmem
        exact ⟨other, List.mem_cons_of_mem _ hother, hfacts⟩
      rw [readPieces] at h
      cases hread : readPiece path line with
      | none =>
          rw [hread] at h
          exact hlater h
      | some reading =>
          rw [hread] at h
          rcases List.mem_cons.1 h with heq | hmem
          · subst heq
            unfold readPiece at hread
            by_cases hheader : startsWith line "+++ b/" = true
            · rw [if_pos hheader] at hread
              cases hread
            · rw [if_neg hheader] at hread
              by_cases hskip : path = "" ∨ startsWith line "+" = false ∨ startsWith line "+++" = true
              · rw [if_pos hskip] at hread
                cases hread
              · rw [if_neg hskip] at hread
                simp only [not_or] at hskip
                obtain ⟨-, hplus, hthree⟩ := hskip
                obtain ⟨rest, hrest⟩ := startsWith_iff.1 (Bool.of_not_eq_false hplus)
                injection hread with hread
                injection hread with htext
                refine ⟨line, List.mem_cons_self, ?_, Bool.of_not_eq_true hthree⟩
                rw [← htext, textFrom, String.toList_ofList, ← hrest]
                rfl
          · exact hlater hmem

/-! ## One line that was printed -/

/-- The lines `str.splitlines` makes of a line and its line feed. -/
def pieces (text : String) : List String := splitlines (text ++ "\n")

/-- A line of a file without its end, where the line feed may follow a carriage return. -/
def lineContent (text : String) : String :=
  if text.toList.getLast? = some '\r' then String.ofList text.toList.dropLast else text

theorem splitlines_printLines (lines : List DiffLine) :
    splitlines (printLines lines) = lines.flatMap fun line => pieces line.text := by
  have hlf : '\n' ≠ '\r' := by decide
  have hend : isLineEnd '\n' = true := by decide
  have hcut : ∀ lines : List DiffLine, Text.splitEnds isLineEnd '\r' '\n'
      (lines.flatMap fun line => line.text.toList ++ ['\n']) =
      lines.flatMap fun line => Text.splitEnds isLineEnd '\r' '\n' (line.text.toList ++ ['\n']) := by
    intro lines
    induction lines with
    | nil => rfl
    | cons line lines ih =>
        rw [List.flatMap_cons, List.flatMap_cons, List.append_assoc, List.singleton_append,
          Text.splitEnds_append hlf hend, ih]
  unfold splitlines printLines pieces
  rw [String.toList_ofList, hcut, List.map_flatMap, List.map_flatMap]
  refine List.flatMap_congr fun line _ => ?_
  rw [splitlines, String.toList_append]
  rfl

theorem pieces_plain {text : String} (h : ∀ c ∈ text.toList, isLineEnd c = false) :
    pieces text = [text] := by
  have hcr : isLineEnd '\r' = true := by decide
  have hlf : isLineEnd '\n' = true := by decide
  have hfeed : "\n".toList = ['\n'] := rfl
  rw [pieces, splitlines, String.toList_append, hfeed, Text.splitEnds_line hcr h, List.map_singleton,
    Text.dropEnd_line hlf h, List.map_singleton, String.ofList_toList]

/-- No line end is left in a piece. -/
theorem piece_plain {text piece : String} (h : piece ∈ pieces text) :
    ∀ c ∈ piece.toList, isLineEnd c = false := by
  rw [pieces, splitlines] at h
  obtain ⟨cs, hcs, rfl⟩ := List.mem_map.1 h
  obtain ⟨line, -, rfl⟩ := List.mem_map.1 hcs
  intro c hc
  rw [String.toList_ofList] at hc
  exact Text.dropEnd_no_end hc

/-- In a text that is added there is no line end but its own, and no third `+` with the one in
front of it. -/
structure Clean (text : String) : Prop where
  plain : ∀ c ∈ (lineContent text).toList, isLineEnd c = false
  plus : startsWith (lineContent text) "++" = false

theorem pieces_added {text : String}
    (h : ∀ c ∈ (lineContent text).toList, isLineEnd c = false) :
    pieces ("+" ++ text) = ["+" ++ lineContent text] := by
  have hplus : ∀ c ∈ ("+" ++ lineContent text).toList, isLineEnd c = false := by
    intro c hc
    rw [String.toList_append] at hc
    rcases List.mem_append.1 hc with hsign | hc
    · rw [List.mem_singleton.1 hsign]
      decide
    · exact h c hc
  by_cases hcr : text.toList.getLast? = some '\r'
  · have hcontent : lineContent text = String.ofList text.toList.dropLast := if_pos hcr
    have htext : ("+" ++ text ++ "\n").toList = ("+" ++ lineContent text).toList ++ ['\r', '\n'] := by
      have hlast := List.dropLast_append_getLast? '\r' hcr
      rw [String.toList_append, String.toList_append, ← hlast, hcontent, String.toList_append,
        String.toList_ofList]
      simp
    have hend : isLineEnd '\r' = true := by decide
    rw [pieces, splitlines, htext, Text.splitEnds_pair hend hplus, List.map_singleton,
      Text.dropEnd_append hplus hend, List.map_singleton, String.ofList_toList]
  · have hsame : lineContent text = text := if_neg hcr
    rw [hsame] at hplus ⊢
    exact pieces_plain hplus

theorem textFrom_one (text : String) : textFrom 1 ("+" ++ text) = text := by
  have hplus : "+".toList = ['+'] := rfl
  rw [textFrom, String.toList_append, hplus, List.drop_append_of_le_length (by simp)]
  simp

theorem startsWith_append (start text more : String) :
    startsWith (start ++ text) (start ++ more) = startsWith text more := by
  rw [Bool.eq_iff_iff, startsWith_iff, startsWith_iff, String.toList_append, String.toList_append,
    List.prefix_append_right_inj]

/-- An added line is gone through as it is exactly where it is clean. -/
theorem readPieces_added {path text : String} (hpath : path ≠ "") :
    readPieces path (pieces ("+" ++ text)) = [.content (lineContent text)] ↔ Clean text := by
  have hthree : startsWith ("+" ++ lineContent text) "+++" = startsWith (lineContent text) "++" :=
    startsWith_append "+" (lineContent text) "++"
  constructor
  · intro h
    obtain ⟨piece, hpiece, hline, hplus⟩ :=
      content_mem (show Reading.content (lineContent text) ∈ readPieces path _ from
        h ▸ List.mem_singleton_self _)
    have hsame : piece = "+" ++ lineContent text := by
      rw [← String.toList_inj, hline, String.toList_append]
      rfl
    rw [hsame, hthree] at hplus
    refine ⟨fun c hc => piece_plain hpiece c ?_, hplus⟩
    rw [hline]
    exact List.mem_cons_of_mem _ hc
  · intro h
    have hheader : startsWith ("+" ++ lineContent text) "+++ b/" = false := by
      refine Bool.of_not_eq_true fun hstart => ?_
      have hlonger := startsWith_append "+" (lineContent text) "++ b/"
      rw [show "+" ++ "++ b/" = "+++ b/" from rfl, hstart] at hlonger
      have hshort : startsWith (lineContent text) "++" = true :=
        startsWith_iff.2 ((show "++".toList <+: "++ b/".toList from ⟨" b/".toList, rfl⟩).trans
          (startsWith_iff.1 hlonger.symm))
      rw [h.plus] at hshort
      cases hshort
    have hone : startsWith ("+" ++ lineContent text) "+" = true :=
      startsWith_iff.2 (by rw [String.toList_append]; exact List.prefix_append _ _)
    have hread : readPiece path ("+" ++ lineContent text) = some (.content (lineContent text)) := by
      rw [readPiece, hheader, hone, hthree, h.plus, textFrom_one]
      simp [hpath]
    rw [pieces_added h.plain, readPieces, hread]
    rfl

/-- The header names the path behind `b/`, if there is one. -/
theorem readPieces_file (path : String) {label : String}
    (hplain : ∀ c ∈ label.toList, isLineEnd c = false) :
    readPieces path (pieces ("+++ " ++ label)) =
      if startsWith label "b/" = true then [.header (textFrom 2 label)] else [] := by
  have hall : ∀ c ∈ ("+++ " ++ label).toList, isLineEnd c = false := by
    intro c hc
    rw [String.toList_append] at hc
    rcases List.mem_append.1 hc with hsign | hc
    · have hsigns : ("+++ ".toList.all fun d => !isLineEnd d) = true := rfl
      simpa using List.all_eq_true.1 hsigns c hsign
    · exact hplain c hc
  have hheader : startsWith ("+++ " ++ label) "+++ b/" = startsWith label "b/" :=
    startsWith_append "+++ " label "b/"
  have hplus : startsWith ("+++ " ++ label) "+++" = true :=
    startsWith_iff.2 (by
      rw [String.toList_append]
      exact (show "+++".toList <+: "+++ ".toList from ⟨[' '], rfl⟩).trans (List.prefix_append _ _))
  have hfrom : textFrom 6 ("+++ " ++ label) = textFrom 2 label := by
    have hsigns : "+++ ".toList.length = 4 := rfl
    rw [textFrom, String.toList_append, textFrom, show 6 = 4 + 2 from rfl, ← hsigns,
      List.drop_length_add_append]
  rw [pieces_plain hall, readPieces, readPiece, hheader]
  by_cases hlabel : startsWith label "b/" = true
  · rw [if_pos hlabel, if_pos hlabel, hfrom]
    rfl
  · rw [if_neg hlabel, if_neg hlabel, if_pos (Or.inr (Or.inr hplus))]
    rfl

/-! ## The diff -/

/-- What is to be made of a line: an added one is gone through, the header of a file to which
lines are added is taken for it, and any other line is neither. -/
def DiffLine.Expects : DiffLine → List Reading → Prop
  | .file path _ adds, readings => adds = true → readings = [.header path]
  | .added text, readings => readings = [.content (lineContent text)]
  | .other _, readings => readings = []

/-- The scanner reads every line as what it is, from one path on. -/
def ReadRight : String → List DiffLine → Prop
  | _, [] => True
  | path, line :: lines =>
    line.Expects (readPieces path (pieces line.text)) ∧
      ReadRight ((readPieces path (pieces line.text)).foldl Reading.pathAfter path) lines

/-- No piece of the line starts like a header, or like an added line if a file has been named
before. -/
def Quiet (named : Bool) (text : String) : Prop :=
  ∀ piece ∈ pieces text, startsWith piece "+++ b/" = false ∧
    (named = true → startsWith piece "+" = true → startsWith piece "+++" = true)

/-- If a file is named behind this header, given whether one was before. -/
def namedBehind (named : Bool) (label : String) : Bool :=
  if startsWith label "b/" = true then decide (label ≠ "b/") else named

/-- What a diff must be to be read right. -/
def Readable : Bool → List DiffLine → Prop
  | _, [] => True
  | named, .file path label adds :: lines =>
    (adds = true → label = "b/" ++ path) ∧ Readable (namedBehind named label) lines
  | named, .added text :: lines => Clean text ∧ Readable named lines
  | named, .other text :: lines => Quiet named text ∧ Readable named lines

/-- Lines are added only behind the header of a file that says so. -/
def Opened : Bool → List DiffLine → Prop
  | _, [] => True
  | _, .file path label adds :: lines =>
    path ≠ "" ∧ (∀ c ∈ label.toList, isLineEnd c = false) ∧ Opened adds lines
  | adds, .added _ :: lines => adds = true ∧ Opened adds lines
  | adds, .other _ :: lines => Opened adds lines

theorem textFrom_two_eq_empty {label : String} (h : startsWith label "b/" = true) :
    textFrom 2 label = "" ↔ label = "b/" := by
  obtain ⟨rest, hrest⟩ := startsWith_iff.1 h
  have hfrom : textFrom 2 label = String.ofList rest := by
    rw [textFrom, ← hrest]
    rfl
  rw [hfrom, ← String.toList_inj, ← String.toList_inj, String.toList_ofList, ← hrest]
  simp

theorem label_eq_iff {label path : String} :
    label = "b/" ++ path ↔ startsWith label "b/" = true ∧ textFrom 2 label = path := by
  constructor
  · rintro rfl
    refine ⟨startsWith_iff.2 (by rw [String.toList_append]; exact List.prefix_append _ _), ?_⟩
    have hsigns : "b/".toList = ['b', '/'] := rfl
    rw [textFrom, String.toList_append, hsigns]
    simp
  · intro h
    obtain ⟨rest, hrest⟩ := startsWith_iff.1 h.1
    rw [← h.2, ← String.toList_inj, String.toList_append, textFrom, String.toList_ofList, ← hrest]
    simp

/-- From a path that is empty as long as no file is named, and that is not behind the header of
a file to which lines are added. -/
theorem readRight_iff {adds named : Bool} {path : String} {lines : List DiffLine}
    (hopened : Opened adds lines) (hnamed : named = true ↔ path ≠ "")
    (hadds : adds = true → path ≠ "") : ReadRight path lines ↔ Readable named lines := by
  induction lines generalizing adds named path with
  | nil => exact Iff.rfl
  | cons line lines ih =>
      cases line with
      | file filePath label fileAdds =>
          obtain ⟨hfilled, hplain, hopened⟩ := hopened
          rw [ReadRight, Readable, DiffLine.text, readPieces_file path hplain]
          by_cases hlabel : startsWith label "b/" = true
          · rw [if_pos hlabel]
            have hexpects : DiffLine.Expects (.file filePath label fileAdds)
                [.header (textFrom 2 label)] ↔ (fileAdds = true → label = "b/" ++ filePath) := by
              refine forall_congr' fun _ => ?_
              rw [label_eq_iff, and_iff_right hlabel, List.cons.injEq, and_iff_left rfl,
                Reading.header.injEq]
            rw [hexpects]
            refine and_congr_right fun hfile => ih hopened ?_ fun hyes => ?_
            · rw [namedBehind, if_pos hlabel, decide_eq_true_eq]
              exact not_congr (textFrom_two_eq_empty hlabel).symm
            · have hpath := (label_eq_iff.1 (hfile hyes)).2
              show textFrom 2 label ≠ ""
              rwa [hpath]
          · rw [if_neg hlabel]
            have hno : ¬ label = "b/" ++ filePath := fun h => hlabel (label_eq_iff.1 h).1
            have hexpects : DiffLine.Expects (.file filePath label fileAdds) [] ↔
                (fileAdds = true → label = "b/" ++ filePath) := by
              refine forall_congr' fun _ => ?_
              exact ⟨fun h => (by cases h), fun h => absurd h hno⟩
            rw [hexpects]
            refine and_congr_right fun hfile => ih hopened ?_ fun hyes => absurd (hfile hyes) hno
            rw [namedBehind, if_neg hlabel]
            exact hnamed
      | added text =>
          obtain ⟨hyes, hopened⟩ := hopened
          rw [ReadRight, Readable, DiffLine.text, DiffLine.Expects, readPieces_added (hadds hyes)]
          refine and_congr_right fun hclean => ?_
          rw [(readPieces_added (hadds hyes)).2 hclean]
          exact ih hopened hnamed hadds
      | other text =>
          have hquiet : readPieces path (pieces text) = [] ↔ Quiet named text := by
            rw [readPieces_eq_nil]
            refine forall₂_congr fun piece _ => ?_
            rw [readPiece_eq_none, hnamed]
          rw [ReadRight, Readable, DiffLine.text, DiffLine.Expects, hquiet]
          refine and_congr_right fun hq => ?_
          rw [hquiet.2 hq]
          exact ih hopened hnamed hadds

/-! ## The findings -/

/-- What is in the lines that are added, given the file they are added to. -/
def findingsFrom (path : String) : List DiffLine → List Finding
  | [] => []
  | .file next _ _ :: lines => findingsFrom next lines
  | .added text :: lines => found path (lineContent text) ++ findingsFrom path lines
  | .other _ :: lines => findingsFrom path lines

/-- The candidates in the lines the diff adds, each under the path of its file. -/
def findingsOf (files : List FileDiff) : List Finding :=
  files.flatMap fun file => file.added.flatMap fun line => found file.path (lineContent line.text)

/-- Where every line is read right, the findings are those of the added lines. -/
theorem foldl_readRight {adds : Bool} {path file : String} {lines : List DiffLine}
    (hopened : Opened adds lines) (hpath : adds = true → path = file)
    (hread : ReadRight path lines) (findings : Multiset Finding) :
    ((lines.flatMap fun line => pieces line.text).foldl scanLine ⟨path, findings⟩).findings =
      findings + findingsFrom file lines := by
  induction lines generalizing adds path file findings with
  | nil => simp [findingsFrom]
  | cons line lines ih =>
      obtain ⟨hexpects, hread⟩ := hread
      rw [List.flatMap_cons, List.foldl_append, foldl_scanLine ⟨path, findings⟩ (pieces line.text)]
      cases line with
      | file filePath label fileAdds =>
          obtain ⟨hfilled, hplain, hopened⟩ := hopened
          rw [DiffLine.text, readPieces_file path hplain] at hexpects hread
          rw [DiffLine.text, readPieces_file path hplain, findingsFrom]
          by_cases hlabel : startsWith label "b/" = true
          · rw [if_pos hlabel] at hexpects hread ⊢
            refine ih hopened (fun hyes => ?_) hread findings
            have hheader := hexpects hyes
            rw [List.cons.injEq, Reading.header.injEq] at hheader
            exact hheader.1
          · rw [if_neg hlabel] at hexpects hread ⊢
            exact ih hopened (fun hyes => absurd (hexpects hyes) (by simp)) hread findings
      | added text =>
          obtain ⟨hyes, hopened⟩ := hopened
          rw [DiffLine.Expects] at hexpects
          rw [hexpects] at hread ⊢
          show ((lines.flatMap fun line => pieces line.text).foldl scanLine
            ⟨path, findings + found path (lineContent text)⟩).findings = _
          rw [ih hopened hpath hread, findingsFrom, hpath hyes, Multiset.add_assoc, Multiset.coe_add]
      | other text =>
          rw [DiffLine.Expects] at hexpects
          rw [hexpects] at hread ⊢
          exact ih hopened hpath hread findings

theorem opened_others {adds : Bool} {others rest : List DiffLine}
    (hothers : ∀ line ∈ others, ∃ text, line = .other text) (hrest : Opened adds rest) :
    Opened adds (others ++ rest) := by
  induction others with
  | nil => exact hrest
  | cons line others ih =>
      obtain ⟨text, rfl⟩ := hothers _ List.mem_cons_self
      exact ih fun other hother => hothers other (List.mem_cons_of_mem _ hother)

theorem findingsFrom_others (path : String) {others : List DiffLine}
    (hothers : ∀ line ∈ others, ∃ text, line = .other text) (rest : List DiffLine) :
    findingsFrom path (others ++ rest) = findingsFrom path rest := by
  induction others with
  | nil => rfl
  | cons line others ih =>
      obtain ⟨text, rfl⟩ := hothers _ List.mem_cons_self
      exact ih fun other hother => hothers other (List.mem_cons_of_mem _ hother)

theorem openMark_other {isOpen : Bool} {line : DiffLine} (h : line ∈ openMark isOpen) :
    ∃ text, line = .other text := by
  unfold openMark at h
  split at h
  · exact ⟨_, List.mem_singleton.1 h⟩
  · cases h

theorem opened_added {adds : Bool} {texts : List Line} (hadds : texts ≠ [] → adds = true)
    {rest : List DiffLine} (hrest : Opened adds rest) :
    Opened adds ((texts.map fun line => .added line.text) ++ rest) := by
  induction texts with
  | nil => exact hrest
  | cons line texts ih =>
      have hyes := hadds (List.cons_ne_nil _ _)
      exact ⟨hyes, ih fun _ => hyes⟩

theorem findingsFrom_added (path : String) (texts : List Line) (rest : List DiffLine) :
    findingsFrom path ((texts.map fun line => .added line.text) ++ rest) =
      texts.flatMap (fun line => found path (lineContent line.text)) ++ findingsFrom path rest := by
  induction texts with
  | nil => rfl
  | cons line texts ih =>
      rw [List.map_cons, List.cons_append, findingsFrom, ih, List.flatMap_cons, List.append_assoc]

/-- The lines of an edit in front of those it adds. -/
def editHead (oldBefore newBefore : Nat) (edit : Edit) : List DiffLine :=
  .other (hunkHeader (oldBefore + edit.kept.length) edit.removed.length
      (newBefore + edit.kept.length) edit.added.length edit.heading) ::
    (edit.removed.map fun line => .other ("-" ++ line.text)) ++ openMark edit.removedOpen

theorem editHead_other {oldBefore newBefore : Nat} {edit : Edit} {line : DiffLine}
    (h : line ∈ editHead oldBefore newBefore edit) : ∃ text, line = .other text := by
  rcases List.mem_append.1 h with h | h
  · rcases List.mem_cons.1 h with h | h
    · exact ⟨_, h⟩
    · obtain ⟨removed, -, rfl⟩ := List.mem_map.1 h
      exact ⟨_, rfl⟩
  · exact openMark_other h

theorem hunks_cons (oldBefore newBefore : Nat) (edit : Edit) (edits : List Edit)
    (rest : List DiffLine) : ∃ oldNext newNext, hunks oldBefore newBefore (edit :: edits) ++ rest =
      editHead oldBefore newBefore edit ++ ((edit.added.map fun line => .added line.text) ++
        (openMark edit.addedOpen ++ (hunks oldNext newNext edits ++ rest))) :=
  ⟨oldBefore + edit.kept.length + edit.removed.length,
    newBefore + edit.kept.length + edit.added.length, by
      simp only [hunks, editHead, List.append_assoc, List.cons_append]⟩

theorem opened_hunks {adds : Bool} {edits : List Edit}
    (hadds : ∀ edit ∈ edits, edit.added ≠ [] → adds = true) {rest : List DiffLine}
    (hrest : Opened adds rest) (oldBefore newBefore : Nat) :
    Opened adds (hunks oldBefore newBefore edits ++ rest) := by
  induction edits generalizing oldBefore newBefore with
  | nil => exact hrest
  | cons edit edits ih =>
      obtain ⟨oldNext, newNext, hsplit⟩ := hunks_cons oldBefore newBefore edit edits rest
      have hlater := ih (fun other hother => hadds other (List.mem_cons_of_mem _ hother)) oldNext
        newNext
      rw [hsplit]
      exact opened_others (fun _ => editHead_other) (opened_added (hadds edit List.mem_cons_self)
        (opened_others (fun _ => openMark_other) hlater))

theorem findingsFrom_hunks (path : String) (edits : List Edit) (rest : List DiffLine)
    (oldBefore newBefore : Nat) :
    findingsFrom path (hunks oldBefore newBefore edits ++ rest) =
      (edits.flatMap (·.added)).flatMap (fun line => found path (lineContent line.text)) ++
        findingsFrom path rest := by
  induction edits generalizing oldBefore newBefore with
  | nil => rfl
  | cons edit edits ih =>
      obtain ⟨oldNext, newNext, hsplit⟩ := hunks_cons oldBefore newBefore edit edits rest
      rw [hsplit, findingsFrom_others path fun _ => editHead_other, findingsFrom_added,
        findingsFrom_others path fun _ => openMark_other, ih, List.flatMap_cons,
        List.flatMap_append, List.append_assoc]

theorem opening_other {file : FileDiff} {line : DiffLine}
    (h : line ∈ file.opening.map fun line => DiffLine.other line.text) :
    ∃ text, line = .other text := by
  obtain ⟨opening, -, rfl⟩ := List.mem_map.1 h
  exact ⟨_, rfl⟩

theorem opened_diffLines (files : List FileDiff) (adds : Bool) :
    Opened adds (diffLines files) := by
  induction files generalizing adds with
  | nil => trivial
  | cons file files ih =>
      rw [diffLines, List.flatMap_cons, FileDiff.lines, List.append_assoc]
      refine opened_others (fun _ => opening_other) ?_
      split
      · exact ih adds
      · refine ⟨file.path_filled, file.label_plain, opened_hunks ?_ (ih _) 0 0⟩
        intro edit hedit hadded
        have hfile : file.added ≠ [] := by
          intro hnone
          exact hadded (List.flatMap_eq_nil_iff.1 hnone edit hedit)
        simpa using hfile

theorem findingsFrom_diffLines (path : String) (files : List FileDiff) :
    findingsFrom path (diffLines files) = findingsOf files := by
  induction files generalizing path with
  | nil => rfl
  | cons file files ih =>
      rw [diffLines, List.flatMap_cons, FileDiff.lines, List.append_assoc,
        findingsFrom_others path fun _ => opening_other, findingsOf, List.flatMap_cons]
      split
      · next hnone =>
          have hadded : file.added = [] := by
            rw [FileDiff.added, List.isEmpty_iff.1 hnone]
            rfl
          rw [hadded]
          exact ih path
      · show findingsFrom file.path (hunks 0 0 file.edits ++ diffLines files) = _
        rw [findingsFrom_hunks, ih]
        rfl

theorem scanAddedDiff_readRight {files : List FileDiff} (h : ReadRight "" (diffLines files)) :
    scanAddedDiff (gitDiff files) = findingsOf files := by
  have hfold := @foldl_readRight false "" "" _ (opened_diffLines files false) (by simp) h 0
  rw [scanAddedDiff, gitDiff, splitlines_printLines, hfold, findingsFrom_diffLines,
    Multiset.zero_add]

theorem readRight_diffLines (files : List FileDiff) :
    ReadRight "" (diffLines files) ↔ Readable false (diffLines files) :=
  readRight_iff (opened_diffLines files false) (by simp) (by simp)

/-- A readable diff passes exactly where what is in the added lines has been approved. -/
theorem validateAddedDiff_readable {files : List FileDiff} (h : Readable false (diffLines files))
    (repr : String → String) :
    (∃ findings, validateAddedDiff repr (gitDiff files) = .ok findings) ↔
      (findingsOf files : Multiset Finding) ≤ approvedLocations := by
  have hscan := scanAddedDiff_readRight ((readRight_diffLines files).2 h)
  unfold validateAddedDiff
  dsimp only
  rw [hscan]
  have hle : (findingsOf files : Multiset Finding) - approvedLocations = 0 ↔
      (findingsOf files : Multiset Finding) ≤ approvedLocations := by
    rw [← Multiset.le_zero, Multiset.sub_le_iff_le_add, Multiset.zero_add]
  by_cases hall : (findingsOf files : Multiset Finding) - approvedLocations = 0
  · rw [if_pos hall]
    exact iff_of_true ⟨_, rfl⟩ (hle.1 hall)
  · rw [if_neg hall]
    refine iff_of_false (fun hok => ?_) fun h => hall (hle.2 h)
    obtain ⟨_, hok⟩ := hok
    cases hok

/-- The scanner reads a diff right, line by line, and finds what is in the lines that are added,
exactly where the diff is readable. -/
theorem scanAddedDiff_iff (files : List FileDiff) :
    ReadRight "" (diffLines files) ∧ scanAddedDiff (gitDiff files) = findingsOf files ↔
      Readable false (diffLines files) := by
  rw [← readRight_diffLines]
  exact and_iff_left_of_imp scanAddedDiff_readRight

/-! ## A line that starts with an operator -/

def line (text : String) (h : (text.toList.all fun c => c ≠ '\n') = true) : Line where
  text := text
  oneLine hmem := by simpa using List.all_eq_true.1 h '\n' hmem

/-- A new file of one line. -/
def incremented : FileDiff where
  path := "n.c"
  path_filled := by decide
  opening := [line "diff --git a/n.c b/n.c" rfl, line "new file mode 100644" rfl]
  opening_lower := by
    intro opening hopening
    simp only [List.mem_cons, List.not_mem_nil, or_false] at hopening
    rcases hopening with rfl | rfl
    · exact ⟨'d', "iff --git a/n.c b/n.c".toList, rfl, rfl⟩
    · exact ⟨'n', "ew file mode 100644".toList, rfl, rfl⟩
  oldLabel := line "/dev/null" rfl
  label := line "b/n.c" rfl
  label_plain := fun c hc => by
    have hall : ("b/n.c".toList.all fun c => !isLineEnd c) = true := rfl
    simpa using List.all_eq_true.1 hall c hc
  edits := [{
    kept := []
    removed := []
    added := [line "++n; // sk-abcdefghijkl" rfl]
    heading := line "" rfl
    removedOpen := false
    addedOpen := false }]

/-- With the sign in front of it the line starts with three of them, and is not looked at. -/
theorem incremented_missed : scanAddedDiff (gitDiff [incremented]) = 0 ∧
    findingsOf [incremented] = [("sk-abcdefghijkl", "n.c", "++n; // sk-abcdefghijkl")] := by
  decide +kernel

end MiniCodeAgent.CheckAddedContent
