import MiniCodeAgent.Rendering

/-!
# Rendered memory stays in its place

What a value may hold is up to whoever wrote it. However it is excerpted, it
comes to stand in lines of its own, each of them indented, and a value without
line ends left in it cannot close a line early. So what is left of a rendering
when the indented lines are dropped is the metadata and nothing else
(`visible_rendered`), whichever way a reader cuts a text into lines. The budget
is checked with the closing lines counted in, so the last cut removes nothing.
-/

namespace MiniCodeAgent

open Text (Cuts)

/-! ## The loop -/

section Loop

variable (casefold : String → String) (policy : ContextBudget) (query : String)

/-- The block of an entry. -/
def printedBlock (entry : ContextEntry) : String :=
  entryBlock entry (excerpt casefold entry.value query policy.maxItemChars).1

/-- The text of these entries. -/
def contextText (printed : List ContextEntry) : String :=
  "\n".intercalate (header :: printed.map (printedBlock casefold policy query) ++
    [closingNote, closingLine])

theorem intercalate_closing (lines : List String) (h : lines ≠ []) :
    "\n".intercalate (lines ++ [closingNote, closingLine]) =
      "\n".intercalate lines ++ ("\n" ++ closingNote ++ "\n" ++ closingLine) := by
  rw [String.intercalate_append_of_ne_nil h (List.cons_ne_nil _ _),
    String.intercalate_cons_cons, String.intercalate_singleton]
  simp only [String.append_assoc]

theorem appendBlocks_cons (entry : ContextEntry) (rest : List ContextEntry)
    (lines selected : List String) (truncated : Bool) :
    appendBlocks casefold policy query (entry :: rest) lines selected truncated =
      if ("\n".intercalate (lines ++ [printedBlock casefold policy query entry]) ++
          ("\n" ++ closingNote ++ "\n" ++ closingLine)).length > policy.maxChars then
        (lines, selected, true)
      else appendBlocks casefold policy query rest
        (lines ++ [printedBlock casefold policy query entry]) (selected ++ [entry.contentSha256])
        (truncated || (excerpt casefold entry.value query policy.maxItemChars).2) := rfl

/-- The loop prints the blocks of the first entries and reports their digests;
with its closing lines, what it has printed fits. -/
theorem appendBlocks_eq (entries : List ContextEntry) (lines selected : List String)
    (truncated : Bool) (hlines : lines ≠ []) :
    ∃ printed truncated', printed <+: entries ∧
      appendBlocks casefold policy query entries lines selected truncated =
        (lines ++ printed.map (printedBlock casefold policy query),
          selected ++ printed.map ContextEntry.contentSha256, truncated') ∧
      (printed ≠ [] → ("\n".intercalate (lines ++
        printed.map (printedBlock casefold policy query) ++
          [closingNote, closingLine])).length ≤ policy.maxChars) := by
  induction entries generalizing lines selected truncated with
  | nil =>
      refine ⟨[], truncated, List.nil_prefix, ?_, fun h => absurd rfl h⟩
      simp [appendBlocks]
  | cons entry rest ih =>
      rw [appendBlocks_cons]
      by_cases hlong : ("\n".intercalate (lines ++ [printedBlock casefold policy query entry]) ++
          ("\n" ++ closingNote ++ "\n" ++ closingLine)).length > policy.maxChars
      · refine ⟨[], true, List.nil_prefix, ?_, fun h => absurd rfl h⟩
        rw [if_pos hlong]
        simp
      · have hne : lines ++ [printedBlock casefold policy query entry] ≠ [] :=
          List.append_ne_nil_of_right_ne_nil _ (List.cons_ne_nil _ _)
        obtain ⟨printed, truncated', hpref, heq, hfits⟩ :=
          ih (lines ++ [printedBlock casefold policy query entry])
            (selected ++ [entry.contentSha256])
            (truncated || (excerpt casefold entry.value query policy.maxItemChars).2) hne
        refine ⟨entry :: printed, truncated', (List.prefix_cons_inj entry).2 hpref, ?_,
          fun _ => ?_⟩
        · rw [if_neg hlong]
          simpa using heq
        · by_cases hnil : printed = []
          · rw [hnil, List.map_singleton, intercalate_closing _ hne]
            exact Nat.le_of_not_gt hlong
          · simpa using hfits hnil

theorem takeChars_of_le {text : String} {count : Nat} (h : text.length ≤ count) :
    takeChars text count = text := by
  rw [takeChars, List.take_of_length_le (by rwa [String.length_toList]), String.ofList_toList]

/-- A rendering is empty, or it is the text of the entries whose digests it reports. -/
theorem renderContext_eq (entries : List ContextEntry) (budget : Option ContextBudget)
    (hpolicy : budget.getD .default = policy) :
    ((renderContext casefold entries query budget).text = "" ∧
        (renderContext casefold entries query budget).selectedContentSha256 = []) ∨
      ∃ printed, printed <+: entries ∧ printed ≠ [] ∧
        (renderContext casefold entries query budget).selectedContentSha256 =
          printed.map ContextEntry.contentSha256 ∧
        (renderContext casefold entries query budget).text =
          contextText casefold policy query printed ∧
        (contextText casefold policy query printed).length ≤ policy.maxChars := by
  by_cases hnone : entries = []
  · left
    rw [renderContext, if_pos hnone]
    exact ⟨rfl, rfl⟩
  · obtain ⟨printed, truncated, hpref, heq, hfits⟩ :=
      appendBlocks_eq casefold policy query (entries.take policy.maxItems) [header] []
        (decide (entries.length > policy.maxItems)) (List.cons_ne_nil _ _)
    have hrender : renderContext casefold entries query budget =
        if printed.map ContextEntry.contentSha256 = [] then ⟨"", [], true⟩
        else ⟨takeChars (contextText casefold policy query printed) policy.maxChars,
          printed.map ContextEntry.contentSha256, truncated⟩ := by
      rw [renderContext, if_neg hnone, hpolicy, heq]
      rfl
    rw [hrender]
    by_cases hnil : printed = []
    · left
      rw [if_pos (by rw [hnil]; rfl)]
      exact ⟨rfl, rfl⟩
    · right
      have hlength : (contextText casefold policy query printed).length ≤ policy.maxChars :=
        hfits hnil
      rw [if_neg (by simpa using hnil)]
      exact ⟨printed, hpref.trans (List.take_prefix _ _), hnil, rfl, takeChars_of_le hlength,
        hlength⟩

end Loop

/-! ## What can be seen of it -/

/-- The lines that are no value's. -/
def visible (lines : List (List Char)) : List (List Char) :=
  lines.filter fun line => !indentation.toList.isPrefixOf line

/-- The lines as one text, the last of them ended as well. -/
def endedText (lines : List String) : List Char := ("\n".intercalate lines).toList ++ ['\n']

theorem visible_append (a b : List (List Char)) : visible (a ++ b) = visible a ++ visible b :=
  List.filter_append ..

section Visible

variable {cutter : List Char → List (List Char)}

theorem cut_intercalate (hcut : Cuts '\n' isLineEnd cutter) {a b : List String} (ha : a ≠ [])
    (hb : b ≠ []) : cutter ("\n".intercalate (a ++ b)).toList =
      cutter (endedText a) ++ cutter ("\n".intercalate b).toList := by
  have hnewline : "\n".toList = ['\n'] := rfl
  rw [String.intercalate_append_of_ne_nil ha hb, String.toList_append, String.toList_append,
    hnewline, List.append_assoc, List.singleton_append, hcut.append]
  rfl

theorem cut_ended (hcut : Cuts '\n' isLineEnd cutter) {a b : List String} (ha : a ≠ [])
    (hb : b ≠ []) : cutter (endedText (a ++ b)) = cutter (endedText a) ++ cutter (endedText b) := by
  have hnewline : "\n".toList = ['\n'] := rfl
  rw [endedText, String.intercalate_append_of_ne_nil ha hb, String.toList_append,
    String.toList_append, hnewline, List.append_assoc, List.append_assoc, List.singleton_append,
    hcut.append]
  rfl

theorem splitlines_no_end {text line : String} (h : line ∈ splitlines text) {c : Char}
    (hc : c ∈ line.toList) : isLineEnd c = false := by
  obtain ⟨chars, hchars, rfl⟩ := List.mem_map.1 h
  obtain ⟨whole, -, rfl⟩ := List.mem_map.1 hchars
  rw [String.toList_ofList] at hc
  exact Text.dropEnd_no_end hc

/-- Indented lines with no line end inside them are not seen. -/
theorem visible_content (hcut : Cuts '\n' isLineEnd cutter) {lines : List String}
    (hne : lines ≠ []) (hlines : ∀ line ∈ lines, ∀ c ∈ line.toList, isLineEnd c = false) :
    visible (cutter (endedText (lines.map (indentation ++ ·)))) = [] := by
  have hone : ∀ line : String, (∀ c ∈ line.toList, isLineEnd c = false) →
      visible (cutter (endedText [indentation ++ line])) = [] := by
    intro line hline
    have hspaces : indentation.toList = [' ', ' ', ' ', ' '] := rfl
    have hindent : ∀ c ∈ indentation.toList, isLineEnd c = false := by
      intro c hc
      have hspace : c = ' ' := by simpa [hspaces] using hc
      rw [hspace]
      decide
    rw [endedText, String.intercalate_singleton, hcut.line _ fun c hc => ?_]
    · rw [String.toList_append]
      simp [visible]
    · rw [String.toList_append] at hc
      exact (List.mem_append.1 hc).elim (hindent c) (hline c)
  induction lines with
  | nil => exact absurd rfl hne
  | cons line rest ih =>
      have hline := hone line (hlines line List.mem_cons_self)
      by_cases hnil : rest = []
      · rw [hnil]
        exact hline
      · have hrest := ih hnil fun other hother => hlines other (List.mem_cons_of_mem _ hother)
        rw [List.map_cons, ← List.singleton_append, cut_ended hcut (List.cons_ne_nil _ _)
          (by simpa using hnil), visible_append, hline, hrest]
        rfl

/-- Of an entry only the metadata is seen. -/
theorem visible_block (hcut : Cuts '\n' isLineEnd cutter) (entry : ContextEntry)
    (content : String) :
    visible (cutter (endedText [entryBlock entry content])) =
      visible (cutter (endedText (metadataLines entry))) := by
  have hblock : endedText [entryBlock entry content] =
      endedText (metadataLines entry ++ (splitlines content).map (indentation ++ ·)) := by
    rw [endedText, String.intercalate_singleton]
    rfl
  rw [hblock]
  by_cases hnil : splitlines content = []
  · rw [hnil, List.map_nil, List.append_nil]
  · have hmeta : metadataLines entry ≠ [] := List.cons_ne_nil _ _
    rw [cut_ended hcut hmeta (by simpa using hnil), visible_append,
      visible_content hcut hnil fun line hline c hc => splitlines_no_end hline hc, List.append_nil]

/-- Of a rendering only the header, the metadata and the closing lines are seen. -/
theorem visible_rendered (hcut : Cuts '\n' isLineEnd cutter) (casefold : String → String)
    (policy : ContextBudget) (query : String) (printed : List ContextEntry) :
    visible (cutter (contextText casefold policy query printed).toList) =
      visible (cutter (endedText [header])) ++
        printed.flatMap (fun entry => visible (cutter (endedText (metadataLines entry)))) ++
        visible (cutter ("\n".intercalate [closingNote, closingLine]).toList) := by
  have hblocks : ∀ (printed : List ContextEntry) (front : List String), front ≠ [] →
      visible (cutter (endedText (front ++ printed.map (printedBlock casefold policy query)))) =
        visible (cutter (endedText front)) ++
          printed.flatMap (fun entry => visible (cutter (endedText (metadataLines entry)))) := by
    intro printed
    induction printed with
    | nil =>
        intro front _
        rw [List.map_nil, List.append_nil, List.flatMap_nil, List.append_nil]
    | cons entry rest ih =>
        intro front hfront
        have hne : front ++ [printedBlock casefold policy query entry] ≠ [] :=
          List.append_ne_nil_of_left_ne_nil hfront _
        have hsplit : front ++ (entry :: rest).map (printedBlock casefold policy query) =
            front ++ [printedBlock casefold policy query entry] ++
              rest.map (printedBlock casefold policy query) := by simp
        rw [hsplit, ih _ hne, cut_ended hcut hfront (List.cons_ne_nil _ _), visible_append,
          printedBlock, visible_block hcut, List.flatMap_cons, List.append_assoc]
  rw [contextText, cut_intercalate hcut (List.cons_ne_nil _ _) (List.cons_ne_nil _ _),
    visible_append, ← List.singleton_append, hblocks _ _ (List.cons_ne_nil _ _)]

end Visible

/-! ## Confinement -/

/-- `text.split("\n")`, for a text that does not end with one. -/
def newlineLines (text : String) : List String := (Text.cut '\n' text.toList).map String.ofList

/-- The lines that do not begin with four spaces. -/
def unindented (lines : List String) : List String :=
  lines.filter fun line => !startsWith line indentation

/-- All of an entry but its value. -/
def ContextEntry.metadata (entry : ContextEntry) : ContextEntry := { entry with value := "" }

theorem unindented_ofList (lines : List (List Char)) :
    unindented (lines.map String.ofList) = (visible lines).map String.ofList := by
  rw [unindented, List.filter_map]
  congr 2
  funext line
  simp [startsWith]

/-- The two ways to cut a text into lines. -/
theorem cuts_newlineLines : Cuts '\n' isLineEnd (Text.cut '\n') :=
  Text.cuts_cut '\n' isLineEnd (by decide)

theorem cuts_splitlines :
    Cuts '\n' isLineEnd fun xs =>
      (Text.splitEnds isLineEnd '\r' '\n' xs).map (Text.dropEnd isLineEnd) :=
  Text.cuts_splitEnds (by decide) (by decide) (by decide)

/-- The last line of a rendering is the closing line. -/
theorem last_rendered {cutter : List Char → List (List Char)} (hcut : Cuts '\n' isLineEnd cutter)
    (hclosing : cutter closingLine.toList = [closingLine.toList]) (casefold : String → String)
    (policy : ContextBudget) (query : String) (printed : List ContextEntry) :
    (cutter (contextText casefold policy query printed).toList).getLast? =
      some closingLine.toList := by
  have hsplit : header :: printed.map (printedBlock casefold policy query) ++
      [closingNote, closingLine] =
      (header :: printed.map (printedBlock casefold policy query) ++ [closingNote]) ++
        [closingLine] := by simp
  have hne : header :: printed.map (printedBlock casefold policy query) ++ [closingNote] ≠ [] :=
    List.append_ne_nil_of_right_ne_nil _ (List.cons_ne_nil _ _)
  rw [contextText, hsplit, cut_intercalate hcut hne (List.cons_ne_nil _ _),
    String.intercalate_singleton, hclosing, List.getLast?_append]
  rfl

/-- Entries that differ in their values only, and of which as many are printed,
look the same but for the indented lines. -/
theorem visible_of_metadata {cutter : List Char → List (List Char)}
    (hcut : Cuts '\n' isLineEnd cutter) (casefold : String → String) (policy : ContextBudget)
    (query : String) {xs ys printed printed' : List ContextEntry} (hpref : printed <+: xs)
    (hpref' : printed' <+: ys)
    (hmetadata : xs.map ContextEntry.metadata = ys.map ContextEntry.metadata)
    (hlength : printed.length = printed'.length) :
    visible (cutter (contextText casefold policy query printed).toList) =
      visible (cutter (contextText casefold policy query printed').toList) := by
  have hsame : printed.map ContextEntry.metadata = printed'.map ContextEntry.metadata := by
    have hx := List.prefix_iff_eq_take.1 hpref
    have hy := List.prefix_iff_eq_take.1 hpref'
    rw [hx, hy, ← hlength, List.map_take, List.map_take, hmetadata]
  have hflat : ∀ entries : List ContextEntry,
      entries.flatMap (fun entry => visible (cutter (endedText (metadataLines entry)))) =
        (entries.map ContextEntry.metadata).flatMap fun entry =>
          visible (cutter (endedText (metadataLines entry))) := by
    intro entries
    rw [List.flatMap_map]
    rfl
  rw [visible_rendered hcut, visible_rendered hcut, hflat, hflat printed', hsame]

/-- A rendering is empty, or it fits its budget, ends with the closing line and
reports the digests of the blocks it is made of; and entries that differ in
their values only and of which the same are selected render to the same lines
but for the indented ones. -/
theorem renderContext_confined (casefold : String → String) (query : String)
    (budget : Option ContextBudget) :
    (∀ entries,
      ((renderContext casefold entries query budget).text = "" ∧
          (renderContext casefold entries query budget).selectedContentSha256 = []) ∨
        ((renderContext casefold entries query budget).text.length ≤
            (budget.getD .default).maxChars ∧
          (splitlines (renderContext casefold entries query budget).text).getLast? =
            some closingLine ∧
          (newlineLines (renderContext casefold entries query budget).text).getLast? =
            some closingLine ∧
          ∃ printed, printed <+: entries ∧ printed ≠ [] ∧
            (renderContext casefold entries query budget).text =
              contextText casefold (budget.getD .default) query printed ∧
            (renderContext casefold entries query budget).selectedContentSha256 =
              printed.map ContextEntry.contentSha256)) ∧
      ∀ xs ys : List ContextEntry, xs.map ContextEntry.metadata = ys.map ContextEntry.metadata →
        (renderContext casefold xs query budget).selectedContentSha256 =
          (renderContext casefold ys query budget).selectedContentSha256 →
        unindented (splitlines (renderContext casefold xs query budget).text) =
            unindented (splitlines (renderContext casefold ys query budget).text) ∧
          unindented (newlineLines (renderContext casefold xs query budget).text) =
            unindented (newlineLines (renderContext casefold ys query budget).text) := by
  have hrender := fun entries => renderContext_eq casefold (budget.getD .default) query entries
    budget rfl
  constructor
  · intro entries
    rcases hrender entries with hempty | ⟨printed, hpref, hne, hselected, htext, hlength⟩
    · exact Or.inl hempty
    · right
      rw [htext]
      refine ⟨hlength, ?_, ?_, printed, hpref, hne, rfl, hselected⟩
      · rw [splitlines, List.getLast?_map, last_rendered cuts_splitlines (by decide)]
        rfl
      · rw [newlineLines, List.getLast?_map, last_rendered cuts_newlineLines (by decide)]
        rfl
  · intro xs ys hmetadata hselected
    rcases hrender xs with ⟨htext, hnone⟩ | ⟨printed, hpref, hne, hselected', htext, -⟩
    · rcases hrender ys with ⟨htext', -⟩ | ⟨printed', -, hne', hselected', -, -⟩
      · rw [htext, htext']
        exact ⟨rfl, rfl⟩
      · rw [hnone, hselected'] at hselected
        exact absurd (List.map_eq_nil_iff.1 hselected.symm) hne'
    · rcases hrender ys with ⟨-, hnone'⟩ | ⟨printed', hpref', -, hselected'', htext', -⟩
      · rw [hnone', hselected'] at hselected
        exact absurd (List.map_eq_nil_iff.1 hselected) hne
      · have hlength : printed.length = printed'.length := by
          rw [hselected', hselected''] at hselected
          have := congrArg List.length hselected
          simpa using this
        rw [htext, htext', splitlines, splitlines, newlineLines, newlineLines, unindented_ofList,
          unindented_ofList, unindented_ofList, unindented_ofList]
        refine ⟨congrArg (List.map String.ofList) ?_, congrArg (List.map String.ofList) ?_⟩
        · exact visible_of_metadata cuts_splitlines casefold _ query hpref hpref' hmetadata
            hlength
        · exact visible_of_metadata cuts_newlineLines casefold _ query hpref hpref' hmetadata
            hlength

end MiniCodeAgent
