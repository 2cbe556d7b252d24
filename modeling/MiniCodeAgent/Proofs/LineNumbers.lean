import MiniCodeAgent.FileReading
import MiniCodeAgent.Proofs.UndoRoundTrip

/-!
# The lines that are shown and the lines that are replaced

`read_file` numbers the lines of a stream, and `replace_lines` counts what
`str.splitlines` makes of the whole text. The stream ends a line at a carriage return and
at a line feed only, and it takes a line in pieces, so that a `\r\n` whose two characters
fall into two pieces ends two lines. Apart from these two the numbers agree.
-/

namespace MiniCodeAgent

open CommandExecutor TransactionAdapter

/-! ## One line of the stream -/

theorem isNewline_iff {c : Char} : isNewline c = true ↔ c = '\n' ∨ c = '\r' := by
  simp [isNewline]

/-- A line of the stream, taken apart: what it says, what ends it, and what is left. -/
structure LineAt (content ending rest : List Char) : Prop where
  plain : ∀ c ∈ content, isNewline c = false
  ends : (ending = [] ∧ rest = []) ∨ ending = ['\n'] ∨
    (ending = ['\r'] ∧ rest.head? ≠ some '\n') ∨ ending = ['\r', '\n']

theorem exists_lineAt (cs : List Char) :
    ∃ content ending rest, cs = content ++ ending ++ rest ∧ LineAt content ending rest := by
  induction cs with
  | nil => exact ⟨[], [], [], rfl, by simp, Or.inl ⟨rfl, rfl⟩⟩
  | cons c cs ih =>
      by_cases hlf : c = '\n'
      · exact ⟨[], ['\n'], cs, by rw [hlf]; rfl, by simp, Or.inr (Or.inl rfl)⟩
      by_cases hcr : c = '\r'
      · by_cases hpair : cs.head? = some '\n'
        · obtain ⟨ds, rfl⟩ := List.head?_eq_some_iff.1 hpair
          exact ⟨[], ['\r', '\n'], ds, by rw [hcr]; rfl, by simp, by simp⟩
        · exact ⟨[], ['\r'], cs, by rw [hcr]; rfl, by simp, by simp [hpair]⟩
      · obtain ⟨content, ending, rest, rfl, hline⟩ := ih
        refine ⟨c :: content, ending, rest, rfl, fun d hd => ?_, hline.ends⟩
        rcases List.mem_cons.1 hd with rfl | hd
        · simp [isNewline, hlf, hcr]
        · exact hline.plain d hd

/-- A line of the reader ends in front of a line feed: the carriage return before it was the
last character of a piece. -/
def SplitsPair (maxChars : Nat) (content ending : List Char) : Prop :=
  ending = ['\r', '\n'] ∧ maxChars ≤ content.length ∧ 65536 ∣ content.length - maxChars

instance (maxChars : Nat) (content ending : List Char) :
    Decidable (SplitsPair maxChars content ending) := inferInstanceAs (Decidable (_ ∧ _ ∧ _))

namespace LineAt

variable {content ending rest : List Char} (h : LineAt content ending rest)

include h

theorem firstLine_of {isEnd : Char → Bool} (hlf : isEnd '\n' = true) (hcr : isEnd '\r' = true)
    (hplain : ∀ c ∈ content, isEnd c = false) :
    Text.firstLine isEnd '\r' '\n' (content ++ ending ++ rest) = content ++ ending := by
  rcases h.ends with ⟨rfl, rfl⟩ | rfl | ⟨rfl, hrest⟩ | rfl
  · rw [List.append_nil, List.append_nil, Text.firstLine_open hcr hplain]
  · rw [List.append_assoc, Text.firstLine_append hcr hplain (by simp)]
    exact congrArg (content ++ ·) (Text.firstLine_end hlf fun heq => by cases heq)
  · rw [List.append_assoc, Text.firstLine_append hcr hplain (by simp)]
    exact congrArg (content ++ ·) (Text.firstLine_end hcr fun _ => hrest)
  · rw [List.append_assoc, Text.firstLine_append hcr hplain (by simp)]
    exact congrArg (content ++ ·) Text.firstLine_pair

theorem first : Text.firstLine isNewline '\r' '\n' (content ++ ending ++ rest) =
    content ++ ending := h.firstLine_of rfl rfl h.plain

theorem drop (n : Nat) : LineAt (content.drop n) ending rest :=
  ⟨fun c hc => h.plain c (List.mem_of_mem_drop hc), h.ends⟩

theorem not_endsLine {piece : List Char} (hpiece : piece <+: content) : endsLine piece = false := by
  unfold endsLine
  cases hlast : piece.getLast? with
  | none => rfl
  | some c => exact h.plain c (hpiece.subset (List.mem_of_getLast? hlast))

theorem endsLine_iff : endsLine (content ++ ending) = true ↔ ending ≠ [] := by
  rcases h.ends with ⟨rfl, -⟩ | rfl | ⟨rfl, -⟩ | rfl
  · rw [List.append_nil, h.not_endsLine List.prefix_rfl]
    simp
  · simp [endsLine, isNewline]
  · simp [endsLine, isNewline]
  · simp [endsLine, isNewline]

theorem ending_length : ending.length ≤ 2 := by
  rcases h.ends with ⟨rfl, -⟩ | rfl | ⟨rfl, -⟩ | rfl <;> simp

/-- A piece of a line is the line, or what stands before its end, or all of it but the line
feed behind the carriage return. -/
theorem take_cases (limit : Nat) :
    ((content ++ ending).length ≤ limit ∧ (content ++ ending).take limit = content ++ ending) ∨
      (limit ≤ content.length ∧ limit < (content ++ ending).length ∧
        (content ++ ending).take limit = content.take limit) ∨
      (ending = ['\r', '\n'] ∧ limit = content.length + 1 ∧
        (content ++ ending).take limit = content ++ ['\r']) := by
  by_cases hshort : (content ++ ending).length ≤ limit
  · exact Or.inl ⟨hshort, List.take_of_length_le hshort⟩
  by_cases hinside : limit ≤ content.length
  · exact Or.inr (Or.inl ⟨hinside, by omega, List.take_append_of_le_length hinside⟩)
  · have hlength := h.ending_length
    rw [List.length_append] at hshort
    refine Or.inr (Or.inr ?_)
    rcases h.ends with ⟨rfl, -⟩ | rfl | ⟨rfl, -⟩ | rfl
    · rw [List.length_nil] at hshort
      omega
    · rw [List.length_singleton] at hshort
      omega
    · rw [List.length_singleton] at hshort
      omega
    · have hlimit : limit = content.length + 1 := by
        have htwo : ['\r', '\n'].length = 2 := rfl
        omega
      refine ⟨rfl, hlimit, ?_⟩
      rw [hlimit, List.take_append, List.take_of_length_le (by omega), Nat.add_sub_cancel_left]
      rfl

theorem piece {limit : Nat} :
    readline limit (content ++ ending ++ rest) = (content ++ ending).take limit := by
  rw [readline, h.first]

/-- What is left behind the line is its rest, unless a piece ends between the two characters
that end the line; a piece has 65536 characters. -/
theorem drained {n : Nat} (hn : content.length + ending.length < n) :
    drainLine n (content ++ ending ++ rest) =
      if ending = ['\r', '\n'] ∧ 65536 ∣ content.length + 1 then '\n' :: rest else rest := by
  induction n generalizing content with
  | zero => omega
  | succ n ih =>
      rw [drainLine, h.piece]
      rcases h.take_cases 65536 with
        ⟨hshort, htake⟩ | ⟨hinside, hlong, htake⟩ | ⟨hending, hlimit, htake⟩
      · have hdrop : (content ++ ending ++ rest).drop (content ++ ending).length = rest :=
          List.drop_left
        have hnot : ¬ (ending = ['\r', '\n'] ∧ 65536 ∣ content.length + 1) := by
          rintro ⟨rfl, k, hk⟩
          rw [List.length_append] at hshort
          have htwo : ['\r', '\n'].length = 2 := rfl
          omega
        rw [htake, hdrop, if_neg hnot]
        by_cases hnil : ending = []
        · -- the text ends here, and there is nothing left to read
          obtain ⟨-, rfl⟩ : ending = [] ∧ rest = [] := by
            rcases h.ends with hopen | rfl | ⟨rfl, -⟩ | rfl
            · exact hopen
            · cases hnil
            · cases hnil
            · cases hnil
          split
          · rfl
          · cases n with
            | zero => rfl
            | succ n => rfl
        · rw [if_pos (Or.inr (h.endsLine_iff.2 hnil))]
      · have hpiece : content.take 65536 ≠ [] := by
          intro hnil
          have hzero := congrArg List.length hnil
          rw [List.length_take, List.length_nil] at hzero
          omega
        have hopen : ¬ (content.take 65536 = [] ∨ endsLine (content.take 65536) = true) := by
          rw [h.not_endsLine (List.take_prefix _ _)]
          simp [hpiece]
        have hrest : (content ++ ending ++ rest).drop 65536 =
            content.drop 65536 ++ ending ++ rest := by
          rw [List.append_assoc, List.drop_append_of_le_length hinside, ← List.append_assoc]
        have hdvd : 65536 ∣ (content.drop 65536).length + 1 ↔ 65536 ∣ content.length + 1 := by
          rw [List.length_drop]
          omega
        have hleft : (content.drop 65536).length + ending.length < n := by
          rw [List.length_drop]
          omega
        rw [htake, List.length_take_of_le hinside, if_neg hopen, hrest,
          ih (h.drop 65536) hleft]
        simp only [hdvd]
      · rw [htake, if_pos (Or.inr (by simp [endsLine, isNewline])), if_pos ⟨hending, ⟨1, by omega⟩⟩]
        subst hending
        simp

/-- The piece that is read first may be shorter: it has one character more than the answer
may have. -/
theorem skipped {maxChars : Nat} :
    skipLine maxChars (content ++ ending ++ rest) =
      if SplitsPair maxChars content ending then '\n' :: rest else rest := by
  rw [skipLine, h.piece]
  rcases h.take_cases (maxChars + 1) with
    ⟨hshort, htake⟩ | ⟨hinside, hlong, htake⟩ | ⟨hending, hlimit, htake⟩
  · have hdrop : (content ++ ending ++ rest).drop (content ++ ending).length = rest :=
      List.drop_left
    have hnot : ¬ SplitsPair maxChars content ending := by
      rintro ⟨rfl, hle, -⟩
      rw [List.length_append] at hshort
      have htwo : ['\r', '\n'].length = 2 := rfl
      omega
    rw [htake, hdrop, if_neg hnot]
    by_cases hnil : ending = []
    · obtain ⟨-, rfl⟩ : ending = [] ∧ rest = [] := by
        rcases h.ends with hopen | rfl | ⟨rfl, -⟩ | rfl
        · exact hopen
        · cases hnil
        · cases hnil
        · cases hnil
      split <;> rfl
    · rw [if_pos (h.endsLine_iff.2 hnil)]
  · have hrest : (content ++ ending ++ rest).drop (maxChars + 1) =
        content.drop (maxChars + 1) ++ ending ++ rest := by
      rw [List.append_assoc, List.drop_append_of_le_length hinside, ← List.append_assoc]
    have hdvd : 65536 ∣ (content.drop (maxChars + 1)).length + 1 ↔
        maxChars ≤ content.length ∧ 65536 ∣ content.length - maxChars := by
      rw [List.length_drop, show content.length - (maxChars + 1) + 1 =
        content.length - maxChars by omega]
      exact ⟨fun h => ⟨by omega, h⟩, And.right⟩
    have hleft : (content.drop (maxChars + 1)).length + ending.length <
        (content.drop (maxChars + 1) ++ ending ++ rest).length + 1 := by
      rw [List.length_append, List.length_append]
      omega
    rw [htake, List.length_take_of_le hinside, hrest,
      if_neg (by rw [h.not_endsLine (List.take_prefix _ _)]; exact Bool.false_ne_true),
      (h.drop _).drained hleft]
    exact if_congr (and_congr_right fun _ => hdvd) rfl rfl
  · have hsplits : SplitsPair maxChars content ending := by
      refine ⟨hending, by omega, ?_⟩
      rw [show content.length - maxChars = 0 by omega]
      exact Nat.dvd_zero _
    rw [htake, if_pos (by simp [endsLine, isNewline]), if_pos hsplits]
    subst hending
    simp

end LineAt

/-! ## The lines that are shown -/

/-- The lines of a text as the reader numbers them. -/
def numberedLines (maxChars : Nat) : Nat → List Char → List (List Char)
  | 0, _ => []
  | n + 1, cs =>
    if cs = [] then []
    else
      let rest := skipLine maxChars cs
      cs.take (cs.length - rest.length) :: numberedLines maxChars n rest

theorem LineAt.numbered {content ending rest : List Char} (h : LineAt content ending rest)
    (hne : content ++ ending ++ rest ≠ []) (maxChars n : Nat) :
    numberedLines maxChars (n + 1) (content ++ ending ++ rest) =
      if SplitsPair maxChars content ending then
        (content ++ ['\r']) :: numberedLines maxChars n ('\n' :: rest)
      else (content ++ ending) :: numberedLines maxChars n rest := by
  rw [numberedLines, if_neg hne, h.skipped]
  split
  · next hsplits =>
      obtain ⟨rfl, -⟩ := hsplits
      have hcount : (content ++ ['\r', '\n'] ++ rest).length - ('\n' :: rest).length =
          (content ++ ['\r']).length := by
        simp only [List.length_append, List.length_cons, List.length_nil]
        omega
      dsimp only
      rw [hcount,
        show content ++ ['\r', '\n'] ++ rest = (content ++ ['\r']) ++ '\n' :: rest by simp,
        List.take_left]
  · dsimp only
    rw [List.length_append, Nat.add_sub_cancel, List.take_left]

theorem not_splitsPair_of_short {maxChars : Nat} {content ending : List Char}
    (h : (content ++ ending).length ≤ maxChars + 1) : ¬ SplitsPair maxChars content ending := by
  rintro ⟨rfl, hle, -⟩
  rw [List.length_append] at h
  have htwo : ['\r', '\n'].length = 2 := rfl
  omega

theorem LineAt.skipLine_length {content ending rest : List Char} (h : LineAt content ending rest)
    (hne : content ++ ending ++ rest ≠ []) (maxChars : Nat) :
    (skipLine maxChars (content ++ ending ++ rest)).length <
      (content ++ ending ++ rest).length := by
  rw [h.skipped]
  split
  · next hsplits =>
      obtain ⟨rfl, -⟩ := hsplits
      simp only [List.length_append, List.length_cons, List.length_nil]
      omega
  · have hline : 0 < (content ++ ending).length := by
      refine List.length_pos_iff.2 fun hnil => hne ?_
      rw [hnil]
      rcases h.ends with ⟨-, hrest⟩ | rfl | ⟨rfl, -⟩ | rfl
      · exact hrest
      · simp at hnil
      · simp at hnil
      · simp at hnil
    rw [@List.length_append _ (content ++ ending)]
    omega

/-- `raw_line.rstrip(...)` takes the line's end away. -/
theorem rdropWhile_line {content ending : List Char} (hplain : ∀ c ∈ content, isNewline c = false)
    (hending : ∀ c ∈ ending, isNewline c = true) :
    (content ++ ending).rdropWhile isNewline = content := by
  have hcontent : content.reverse.dropWhile isNewline = content.reverse := by
    cases hreverse : content.reverse with
    | nil => rfl
    | cons c cs =>
        refine List.dropWhile_cons_of_neg ?_
        rw [hplain c (List.mem_reverse.1 (by rw [hreverse]; exact List.mem_cons_self))]
        exact Bool.false_ne_true
  rw [List.rdropWhile, List.reverse_append,
    List.dropWhile_append_of_pos fun c hc => hending c (List.mem_reverse.1 hc), hcontent,
    List.reverse_reverse]

/-- The line that the reader takes, at the place where this is left of the text. -/
def takenLine (maxChars : Nat) (content ending : List Char) : List Char :=
  if SplitsPair maxChars content ending then content ++ ['\r'] else content ++ ending

theorem LineAt.ending_newlines {content ending rest : List Char}
    (h : LineAt content ending rest) : ∀ c ∈ ending, isNewline c = true := by
  rcases h.ends with ⟨rfl, -⟩ | rfl | ⟨rfl, -⟩ | rfl <;> simp [isNewline]

theorem renderLine_long {content ending : List Char} (hplain : ∀ c ∈ content, isNewline c = false)
    (hending : ∀ c ∈ ending, isNewline c = true) (number limit : Nat)
    (hlimit : limit ≤ content.length) :
    limit ≤ (renderLine number (content ++ ending)).length ∧
      (renderLine number (content ++ ending)).take limit =
        (renderLine number (content.take limit)).take limit := by
  have hpiece : (content.take limit).rdropWhile isNewline = content.take limit := by
    have hstrip := @rdropWhile_line (content.take limit) []
      (fun c hc => hplain c (List.mem_of_mem_take hc)) (by simp)
    rwa [List.append_nil] at hstrip
  have hshort : limit ≤ ((toString number).toList ++ ": ".toList ++ content.take limit).length := by
    rw [List.length_append, List.length_take]
    omega
  rw [renderLine, renderLine, rdropWhile_line hplain hending, hpiece]
  constructor
  · simp only [List.length_append]
    omega
  · rw [List.take_append_of_le_length hshort]
    conv_lhs => rw [← List.take_append_drop limit content]
    rw [← List.append_assoc, List.append_assoc _ (content.drop limit),
      List.take_append_of_le_length hshort]

/-- What is shown of a line is the same whether the line or its first piece is shown. -/
theorem LineAt.add {content ending rest : List Char} (h : LineAt content ending rest)
    (maxChars : Nat) (s : ReadState) :
    s.add maxChars (readline (maxChars + 1) (content ++ ending ++ rest)) =
      s.add maxChars (takenLine maxChars content ending) := by
  rw [h.piece, takenLine]
  rcases h.take_cases (maxChars + 1) with
    ⟨hshort, htake⟩ | ⟨hinside, hlong, htake⟩ | ⟨hending, hlimit, htake⟩
  · rw [htake, if_neg (not_splitsPair_of_short hshort)]
  · have hrendered : ∀ ending', (∀ c ∈ ending', isNewline c = true) →
        s.add maxChars (content.take (maxChars + 1)) = s.add maxChars (content ++ ending') := by
      intro ending' hending'
      obtain ⟨hlength, heq⟩ :=
        renderLine_long h.plain hending' s.number (maxChars + 1) hinside
      have hpiece : maxChars + 1 ≤ (renderLine s.number (content.take (maxChars + 1))).length := by
        have hsame := congrArg List.length heq
        rw [List.length_take_of_le hlength, List.length_take] at hsame
        omega
      have hfull : ∀ {xs : List Char}, maxChars + 1 ≤ xs.length →
          s.selected.length + xs.length > maxChars := by
        intro xs hxs
        omega
      have htaken := congrArg (List.take (maxChars - s.selected.length)) heq
      rw [List.take_take, List.take_take, Nat.min_eq_left (by omega)] at htaken
      rw [ReadState.add, ReadState.add, if_pos (hfull hpiece), if_pos (hfull hlength), htaken]
    rw [htake]
    split
    · exact hrendered ['\r'] (by simp [isNewline])
    · exact hrendered ending h.ending_newlines
  · have hsplits : SplitsPair maxChars content ending := by
      refine ⟨hending, by omega, ?_⟩
      rw [show content.length - maxChars = 0 by omega]
      exact Nat.dvd_zero _
    rw [htake, if_pos hsplits]

/-- The lines that are shown, out of all that are numbered. -/
def showLines (start : Nat) (endLine : Option Int) (maxChars : Nat) :
    List (List Char) → ReadState → ReadState
  | [], s => s
  | line :: lines, s =>
    let s := { s with number := s.number + 1 }
    if s.number < start then showLines start endLine maxChars lines s
    else if endLine.any fun last => (s.number : Int) > last then s
    else
      let s := s.add maxChars line
      if s.truncated then s else showLines start endLine maxChars lines s

theorem add_truncated {s : ReadState} {maxChars : Nat} {raw : List Char}
    (h : (s.add maxChars raw).truncated = false) : endsLine raw = true := by
  unfold ReadState.add at h
  dsimp only at h
  split at h
  · cases h
  · simpa using h

/-- The loop shows the lines by the numbers they have. -/
theorem readLoop_shows (start : Nat) (endLine : Option Int) (maxChars : Nat) {n : Nat}
    {cs : List Char} (hn : cs.length < n) (s : ReadState) :
    readLoop start endLine maxChars n cs s =
      showLines start endLine maxChars (numberedLines maxChars n cs) s := by
  induction n generalizing cs s with
  | zero => omega
  | succ n ih =>
      by_cases hne : cs = []
      · subst hne
        rw [readLoop, numberedLines, if_pos rfl]
        rfl
      obtain ⟨content, ending, rest, rfl, hline⟩ := exists_lineAt cs
      have hnumbered : numberedLines maxChars (n + 1) (content ++ ending ++ rest) =
          takenLine maxChars content ending ::
            numberedLines maxChars n (skipLine maxChars (content ++ ending ++ rest)) := by
        rw [hline.numbered hne, hline.skipped, takenLine]
        split <;> rfl
      have hrest := hline.skipLine_length hne maxChars
      have hraw : readline (maxChars + 1) (content ++ ending ++ rest) ≠ [] := by
        intro hnil
        rw [readline, List.take_eq_nil_iff] at hnil
        exact hnil.elim (by omega) (Text.firstLine_ne_nil hne)
      rw [readLoop, if_neg hraw, hnumbered, showLines]
      dsimp only
      split
      · exact ih (by omega) _
      split
      · rfl
      rw [hline.add]
      split
      · rfl
      · next hfits =>
          rw [Bool.not_eq_true, ← hline.add] at hfits
          have hends := add_truncated hfits
          have hskip : skipLine maxChars (content ++ ending ++ rest) =
              (content ++ ending ++ rest).drop
                (readline (maxChars + 1) (content ++ ending ++ rest)).length := by
            rw [skipLine, if_pos hends]
          rw [← hskip]
          exact ih (by omega) _

/-! ## When the numbers agree -/

/-- Nothing but a carriage return and a line feed ends a line of the text, its last character
apart, and no line that ends in both of them ends between two pieces. -/
structure SameLines (maxChars : Nat) (cs : List Char) : Prop where
  ends : ∀ c ∈ cs.dropLast, isLineEnd c = true → isNewline c = true
  pairs : ∀ content, content ++ ['\r', '\n'] ∈ Text.splitEnds isNewline '\r' '\n' cs →
    ¬ (maxChars ≤ content.length ∧ 65536 ∣ content.length - maxChars)

theorem isLineEnd_of_isNewline {c : Char} (h : isNewline c = true) : isLineEnd c = true := by
  rcases isNewline_iff.1 h with rfl | rfl <;> rfl

theorem LineAt.lines {content ending rest : List Char} (h : LineAt content ending rest)
    (hne : content ++ ending ++ rest ≠ []) {isEnd : Char → Bool} (hlf : isEnd '\n' = true)
    (hcr : isEnd '\r' = true) (hplain : ∀ c ∈ content, isEnd c = false) :
    Text.splitEnds isEnd '\r' '\n' (content ++ ending ++ rest) =
      (content ++ ending) :: Text.splitEnds isEnd '\r' '\n' rest := by
  rw [Text.splitEnds_eq_cons hne, h.firstLine_of hlf hcr hplain, List.drop_left]

/-- A line is one that the editor and the reader take alike if nothing in it ends a line for
the editor, and if it does not end between two pieces; then the others are looked at. -/
theorem LineAt.sameLines_iff {content ending rest : List Char} (h : LineAt content ending rest)
    (hne : content ++ ending ++ rest ≠ []) (hplain : ∀ c ∈ content, isLineEnd c = false)
    (maxChars : Nat) : SameLines maxChars (content ++ ending ++ rest) ↔
      ¬ SplitsPair maxChars content ending ∧ SameLines maxChars rest := by
  have hlines := @LineAt.lines content ending rest h hne isNewline rfl rfl h.plain
  have hline : ∀ c ∈ content ++ ending, isLineEnd c = true → isNewline c = true := by
    intro c hc hend
    rcases List.mem_append.1 hc with hc | hc
    · rw [hplain c hc] at hend
      cases hend
    · exact h.ending_newlines c hc
  constructor
  · intro hsame
    refine ⟨?_, ⟨fun c hc => hsame.ends c ?_, fun content' hmem => hsame.pairs content' ?_⟩⟩
    · rintro ⟨rfl, hlong⟩
      exact hsame.pairs content (by rw [hlines]; exact List.mem_cons_self) hlong
    · have hrest : rest ≠ [] := by
        rintro rfl
        cases hc
      rw [List.dropLast_append_of_ne_nil hrest]
      exact List.mem_append_right _ hc
    · rw [hlines]
      exact List.mem_cons_of_mem _ hmem
  · intro hsame
    obtain ⟨hpair, hsame⟩ := hsame
    refine ⟨fun c hc hend => ?_, fun content' hmem => ?_⟩
    · by_cases hrest : rest = []
      · rw [hrest, List.append_nil] at hc
        exact hline c (List.mem_of_mem_dropLast hc) hend
      · rw [List.dropLast_append_of_ne_nil hrest] at hc
        rcases List.mem_append.1 hc with hc | hc
        · exact hline c hc hend
        · exact hsame.ends c hc hend
    · rw [hlines] at hmem
      rcases List.mem_cons.1 hmem with hfirst | hmem
      · -- the content is what stands before the first line end, on both sides
        have hcontent : content' = content ∧ ending = ['\r', '\n'] := by
          have hcr : '\r' ∉ content := fun hmem => by simpa [isNewline] using h.plain _ hmem
          rcases h.ends with ⟨rfl, -⟩ | rfl | ⟨rfl, -⟩ | rfl
          · rw [List.append_nil] at hfirst
            exact absurd (by simp [← hfirst]) hcr
          · rw [show content' ++ ['\r', '\n'] = (content' ++ ['\r']) ++ ['\n'] by simp] at hfirst
            exact absurd (by simp [← List.append_cancel_right hfirst]) hcr
          · have hlast := congrArg List.getLast? hfirst
            simp at hlast
          · exact ⟨List.append_cancel_right hfirst, rfl⟩
        obtain ⟨rfl, hending⟩ := hcontent
        exact fun hlong => hpair ⟨hending, hlong⟩
      · exact hsame.pairs content' hmem

/-- Where something else ends a line for the editor, before the end of the text, it takes
another line than the reader. -/
theorem LineAt.edited {pre post ending rest : List Char} {c : Char}
    (h : LineAt (pre ++ c :: post) ending rest) (hpre : ∀ d ∈ pre, isLineEnd d = false)
    (hc : isLineEnd c = true) :
    Text.firstLine isLineEnd '\r' '\n' (pre ++ c :: post ++ ending ++ rest) = pre ++ [c] := by
  have hnewline : isNewline c = false := h.plain c (by simp)
  rw [List.append_assoc, List.append_assoc, Text.firstLine_append rfl hpre (by simp)]
  refine congrArg (pre ++ ·) (Text.firstLine_end hc fun hcr => ?_)
  rw [hcr] at hnewline
  cases hnewline

theorem LineAt.not_sameLines {pre post ending rest : List Char} {c : Char}
    (h : LineAt (pre ++ c :: post) ending rest) (hc : isLineEnd c = true)
    (hmore : post ++ ending ≠ []) (maxChars : Nat) :
    ¬ SameLines maxChars (pre ++ c :: post ++ ending ++ rest) := by
  intro hsame
  have hnewline : isNewline c = false := h.plain c (by simp)
  have hmem : c ∈ (pre ++ c :: post ++ ending ++ rest).dropLast := by
    rw [show pre ++ c :: post ++ ending ++ rest = (pre ++ [c]) ++ (post ++ ending ++ rest) by simp,
      List.dropLast_append_of_ne_nil]
    · simp
    · exact List.append_ne_nil_of_left_ne_nil hmore rest
  have hends := hsame.ends c hmem hc
  rw [hnewline] at hends
  cases hends

theorem LineAt.sameLines_last {pre : List Char} {c : Char} (h : LineAt (pre ++ [c]) [] [])
    (hpre : ∀ d ∈ pre, isLineEnd d = false) (maxChars : Nat) : SameLines maxChars (pre ++ [c]) := by
  have hone : Text.splitEnds isNewline '\r' '\n' (pre ++ [c]) = [pre ++ [c]] := by
    have hlines := @LineAt.lines _ _ _ h (by simp) isNewline rfl rfl h.plain
    rw [List.append_nil, List.append_nil] at hlines
    exact hlines
  refine ⟨fun d hd hend => ?_, fun content hmem => ?_⟩
  · rw [List.dropLast_concat] at hd
    rw [hpre d hd] at hend
    cases hend
  · rw [hone, List.mem_singleton] at hmem
    have hcr := h.plain '\r' (by rw [← hmem]; simp)
    cases hcr

/-- By induction on the text, one line after the other. -/
theorem splitEnds_eq_numbered_iff {maxChars n : Nat} {cs : List Char} (hn : cs.length < n) :
    Text.splitEnds isLineEnd '\r' '\n' cs = numberedLines maxChars n cs ↔
      SameLines maxChars cs := by
  induction n generalizing cs with
  | zero => omega
  | succ n ih =>
      by_cases hne : cs = []
      · subst hne
        simp only [numberedLines, Text.splitEnds, if_true, true_iff]
        exact ⟨by simp, by simp [Text.splitEnds]⟩
      obtain ⟨content, ending, rest, rfl, hline⟩ := exists_lineAt cs
      have hrest := hline.skipLine_length hne maxChars
      cases hfind : content.find? isLineEnd with
      | none =>
          have hplain : ∀ c ∈ content, isLineEnd c = false := by simpa using hfind
          rw [@LineAt.lines _ _ _ hline hne isLineEnd rfl rfl hplain, hline.numbered hne,
            hline.sameLines_iff hne hplain]
          split
          · next hsplits =>
              have hending := hsplits.1
              simp only [hsplits, not_true_eq_false, false_and, iff_false]
              intro heq
              have hlength := congrArg List.length (List.cons.inj heq).1
              rw [hending] at hlength
              simp at hlength
          · next hsplits =>
              rw [hline.skipped, if_neg hsplits] at hrest
              simp only [List.cons.injEq, true_and, hsplits, not_false_eq_true]
              exact ih (by omega)
      | some c =>
          obtain ⟨hc, pre, post, rfl, hpre⟩ := List.find?_eq_some_iff_append.1 hfind
          have hpre : ∀ d ∈ pre, isLineEnd d = false := by simpa using hpre
          rw [Text.splitEnds_eq_cons hne, hline.edited hpre hc, hline.numbered hne]
          by_cases hmore : post ++ ending = []
          · -- the line end is the last character, and nothing is left behind it
            obtain ⟨rfl, rfl⟩ := List.append_eq_nil_iff.1 hmore
            obtain rfl : rest = [] := by
              rcases hline.ends with ⟨-, hrest⟩ | hcases | ⟨hcases, -⟩ | hcases
              · exact hrest
              · cases hcases
              · cases hcases
              · cases hcases
            rw [if_neg (fun hsplits => by cases hsplits.1)]
            simp only [List.append_nil, List.drop_length, hline.sameLines_last hpre maxChars,
              iff_true]
            cases n <;> rfl
          · refine (iff_false_right (hline.not_sameLines hc hmore maxChars)).2 fun heq => ?_
            have hlong := List.length_pos_iff.2 hmore
            split at heq
            · have hlength := congrArg List.length (List.cons.inj heq).1
              simp at hlength
            · have hlength := congrArg List.length (List.cons.inj heq).1
              simp only [List.length_append, List.length_cons, List.length_nil] at hlength hlong
              omega

/-! ## The lines that are replaced -/

/-- What `replace_lines` puts where the lines were. -/
def lineReplacement (before newText : String) : String :=
  let newline := preferredNewline before
  let replacement := normalizeNewlines newText newline
  if replacement ≠ "" ∧ ¬ (replacement.toList.getLast? = some '\n' ∨
    replacement.toList.getLast? = some '\r') then replacement ++ newline else replacement

/-- A text in which the lines from one number to another are replaced. -/
def replacedLines (lines : List (List Char)) (startLine endLine : Int) (replacement : String) :
    String :=
  String.ofList ((lines.take (startLine - 1).toNat).flatten ++ replacement.toList ++
    (lines.drop endLine.toNat).flatten)

/-- The lines of a text as the editor counts them. -/
def editorLines (text : String) : List (List Char) :=
  Text.splitEnds isLineEnd '\r' '\n' text.toList

/-- The lines of a text as the reader counts them. -/
def readerLines (maxChars : Nat) (text : String) : List (List Char) :=
  numberedLines maxChars (text.toList.length + 1) text.toList

theorem join_ofList (lines : List (List Char)) :
    String.join (lines.map String.ofList) = String.ofList lines.flatten := by
  induction lines with
  | nil => rfl
  | cons line lines ih =>
      rw [List.map_cons, List.flatten_cons, String.ofList_append, ← ih, String.join_cons]

section Edit

variable {F : Type} {env : EditEnv} {t t' : FileTree} {path text newText : String}
variable {parts : List String} {mode : Nat} {startLine endLine : Int}

theorem readExistingText_of_file (hfile : t.file parts = some (mode, text.toUTF8))
    (hshort : text.length ≤ maxStructuredEditChars) :
    readExistingText env t path parts = .ok text := by
  have hall : text.toList.take (maxStructuredEditChars + 1) = text.toList :=
    List.take_of_length_le (by rw [String.length_toList]; omega)
  have hread : readEditableText env t parts = .ok text := by
    rw [readEditableText, FileTree.readText, FileTree.readBytes_of_file hfile, except_ok_bind,
      decodeUtf8_toUTF8, except_ok_bind, hall, String.ofList_toList]
    exact except_bind_ok.2 ⟨text, rfl, except_bind_ok.2 ⟨(), raiseIf_ok.2 (by omega), rfl⟩⟩
  rw [readExistingText, hread]

theorem readExistingText_short {before : String}
    (h : readExistingText env t path parts = .ok before) :
    before.length ≤ maxStructuredEditChars := by
  unfold readExistingText at h
  split at h
  · next read hread =>
      obtain rfl := Except.ok.inj h
      obtain ⟨text, -, hread⟩ := except_bind_ok.1 hread
      obtain ⟨_, hshort, hread⟩ := except_bind_ok.1 hread
      obtain rfl := Except.ok.inj hread
      exact Nat.le_of_not_lt (raiseIf_ok.1 hshort)
  · split at h <;> cases h

theorem replacedLines_editorLines (newText : String) :
    String.join ((splitlinesKeepends text).take (startLine - 1).toNat ++
      [lineReplacement text newText] ++ (splitlinesKeepends text).drop endLine.toNat) =
      replacedLines (editorLines text) startLine endLine (lineReplacement text newText) := by
  rw [splitlinesKeepends, ← List.map_take, ← List.map_drop, replacedLines,
    ← @List.flatten_singleton _ (lineReplacement text newText).toList, ← List.flatten_append,
    ← List.flatten_append, ← join_ofList, List.map_append, List.map_append, List.map_singleton,
    String.ofList_toList]
  rfl

/-- The edit that is made replaces the lines as the editor counts them. -/
theorem replaceLines_ok {approves : String → String → Except PyExc Bool} {result : ToolResult F}
    (h : replaceLines env approves t path startLine endLine newText = .ok (result, t'))
    (hzero : result.returncode = 0) (hparts : t.resolve env.cwd path = .ok parts)
    (hfile : t.file parts = some (mode, text.toUTF8)) :
    t'.file parts = some (mode, (replacedLines (editorLines text) startLine endLine
      (lineReplacement text newText)).toUTF8) ∧ text.length ≤ maxStructuredEditChars := by
  obtain ⟨parts', hparts', h⟩ := except_bind_ok.1 h
  obtain rfl := Except.ok.inj (hparts'.symm.trans hparts)
  obtain ⟨before, hread, h⟩ := except_bind_ok.1 h
  obtain ⟨_, -, h⟩ := except_bind_ok.1 h
  obtain ⟨mode', hbefore⟩ := readExistingText_ok hread
  have hrejection : ∀ tool output exceptionInfo args,
      (rejectedEdit tool output exceptionInfo args : ToolResult F).returncode ≠ 0 := by
    intro tool output exceptionInfo args
    show (-1 : Int) ≠ 0
    omega
  obtain ⟨-, hwrite⟩ := makeEdit_ok (hrejection _ _ _ _) h hzero
  have hsame : before = text :=
    String.toByteArray_inj.1 (Prod.mk.inj (Option.some.inj (hbefore.symm.trans hfile))).2
  subst hsame
  have hself := (FileTree.atomicWriteText_ok hwrite).1
  rw [hfile] at hself
  refine ⟨hself.trans ?_, readExistingText_short hread⟩
  exact congrArg (fun updated : String => some (mode, updated.toUTF8))
    (replacedLines_editorLines newText)

/-- A range of the editor's lines is replaced, if the user does not object. -/
theorem replaceLines_of_range (hparts : t.resolve env.cwd path = .ok parts)
    (hfile : t.file parts = some (mode, text.toUTF8))
    (hshort : text.length ≤ maxStructuredEditChars) (hstart : 1 ≤ startLine)
    (hend : startLine ≤ endLine) (hlines : endLine ≤ (editorLines text).length) :
    ∃ (result : ToolResult F) (t' : FileTree),
      replaceLines env (fun _ _ => .ok true) t path startLine endLine newText = .ok (result, t') ∧
        result.returncode = 0 := by
  obtain ⟨t', hwrite, -⟩ := @FileTree.atomicWriteText_of_file t env.cwd parts _ _ hfile
    (String.join ((splitlinesKeepends text).take (startLine - 1).toNat ++
      [lineReplacement text newText] ++ (splitlinesKeepends text).drop endLine.toNat))
  have hrange : ¬ (startLine < 1 ∨ endLine < startLine ∨
      endLine > (splitlinesKeepends text).length) := by
    rw [splitlinesKeepends, List.length_map]
    show ¬ (startLine < 1 ∨ endLine < startLine ∨ endLine > (editorLines text).length)
    omega
  refine ⟨_, t', except_bind_ok.2 ⟨parts, hparts, except_bind_ok.2 ⟨text,
    readExistingText_of_file hfile hshort, except_bind_ok.2 ⟨(), raiseIf_ok.2 hrange,
      except_bind_ok.2 ⟨true, rfl, except_bind_ok.2 ⟨t', hwrite, rfl⟩⟩⟩⟩⟩, rfl⟩

end Edit

/-! ## Agreement -/

theorem numberedLines_flatten {maxChars n : Nat} {cs : List Char} (hn : cs.length < n) :
    (numberedLines maxChars n cs).flatten = cs := by
  induction n generalizing cs with
  | zero => omega
  | succ n ih =>
      by_cases hne : cs = []
      · rw [numberedLines, if_pos hne, hne, List.flatten_nil]
      obtain ⟨content, ending, rest, rfl, hline⟩ := exists_lineAt cs
      have hrest := hline.skipLine_length hne maxChars
      rw [hline.skipped] at hrest
      rw [hline.numbered hne]
      split at hrest
      · next hsplits =>
          rw [if_pos hsplits, List.flatten_cons, ih (by omega), hsplits.1]
          simp
      · next hsplits => rw [if_neg hsplits, List.flatten_cons, ih (by omega)]

theorem ne_nil_of_mem_numberedLines {maxChars n : Nat} {cs line : List Char}
    (h : line ∈ numberedLines maxChars n cs) : line ≠ [] := by
  induction n generalizing cs with
  | zero => exact absurd h List.not_mem_nil
  | succ n ih =>
      rw [numberedLines] at h
      split at h
      · exact absurd h List.not_mem_nil
      next hne =>
        obtain ⟨content, ending, rest, rfl, hline⟩ := exists_lineAt cs
        have hrest := hline.skipLine_length hne maxChars
        rcases List.mem_cons.1 h with rfl | h
        · refine List.ne_nil_of_length_pos ?_
          rw [List.length_take]
          omega
        · exact ih h

theorem flatten_splitEnds {isEnd : Char → Bool} (cs : List Char) :
    (Text.splitEnds isEnd '\r' '\n' cs).flatten = cs := by
  induction cs using Text.splitEnds.induct isEnd '\r' '\n' with
  | case1 => rfl
  | case2 c => rfl
  | case3 c d cs hpair ih => rw [Text.splitEnds, if_pos hpair, List.flatten_cons, ih]; rfl
  | case4 c d cs hpair hend ih =>
      rw [Text.splitEnds, if_neg hpair, if_pos hend, List.flatten_cons, ih]
      rfl
  | case5 c d cs hpair hend hnone ih =>
      exact absurd hnone (Text.splitEnds_ne_nil (List.cons_ne_nil _ _))
  | case6 c d cs hpair hend line rest hsome ih =>
      rw [Text.splitEnds, if_neg hpair, if_neg hend, hsome]
      rw [hsome] at ih
      rw [← ih]
      rfl

theorem ne_nil_of_mem_splitEnds {isEnd : Char → Bool} {cs line : List Char}
    (h : line ∈ Text.splitEnds isEnd '\r' '\n' cs) : line ≠ [] := by
  induction hcs : cs.length using Nat.strongRecOn generalizing cs with
  | ind n ih =>
      by_cases hne : cs = []
      · subst hne
        exact absurd h List.not_mem_nil
      have hfirst : Text.firstLine isEnd '\r' '\n' cs ≠ [] := Text.firstLine_ne_nil hne
      rw [Text.splitEnds_eq_cons hne] at h
      rcases List.mem_cons.1 h with rfl | h
      · exact hfirst
      · refine ih _ ?_ h rfl
        have hpos := List.length_pos_iff.2 hfirst
        have hcs' := List.length_pos_iff.2 hne
        rw [List.length_drop]
        omega

/-- Two ways to cut a text are the same if whichever piece of the one is taken out of it, it
is the piece of the other. -/
theorem eq_of_without {α : Type} {xs ys : List (List α)} (hflat : xs.flatten = ys.flatten)
    (hxs : ∀ x ∈ xs, x ≠ []) (hys : ∀ y ∈ ys, y ≠ [])
    (h : ∀ i, i < xs.length → (xs.take i).flatten ++ (xs.drop (i + 1)).flatten =
      (ys.take i).flatten ++ (ys.drop (i + 1)).flatten) : xs = ys := by
  induction xs generalizing ys with
  | nil =>
      cases ys with
      | nil => rfl
      | cons y ys =>
          rw [List.flatten_nil, List.flatten_cons, eq_comm, List.append_eq_nil_iff] at hflat
          exact absurd hflat.1 (hys y List.mem_cons_self)
  | cons x xs ih =>
      cases ys with
      | nil =>
          rw [List.flatten_nil, List.flatten_cons, List.append_eq_nil_iff] at hflat
          exact absurd hflat.1 (hxs x List.mem_cons_self)
      | cons y ys =>
          have hrest : xs.flatten = ys.flatten := by simpa using h 0 (by simp)
          rw [List.flatten_cons, List.flatten_cons, hrest] at hflat
          obtain rfl := List.append_cancel_right hflat
          rw [ih hrest (fun z hz => hxs z (List.mem_cons_of_mem _ hz))
            (fun z hz => hys z (List.mem_cons_of_mem _ hz)) fun i hi => ?_]
          have hnext := h (i + 1) (by rw [List.length_cons]; omega)
          simpa using hnext

/-- The lines that a read shows are those that an edit replaces, whatever range is asked for,
exactly if the editor and the reader have the same ends of lines: where another character
ends a line for the editor, or where the reader takes a carriage return and its line feed in
two pieces, a line that is shown under a number is not the one that is replaced. -/
theorem lineNumbers_agree {F : Type} (env : ReadEnv) (t : FileTree) (path : String)
    (parts : List String) (mode : Nat) (text : String) (maxChars : Int)
    (hparts : t.resolve env.cwd path = .ok parts)
    (hfile : t.file parts = some (mode, text.toUTF8)) :
    (∀ startLine endLine, (∀ last ∈ endLine, max 1 startLine ≤ last) →
      CommandExecutor.readFile env t path startLine endLine maxChars = .ok (readResult env path
        startLine endLine (clampChars maxChars) (showLines (max 1 startLine).toNat endLine
          (clampChars maxChars) (readerLines (clampChars maxChars) text) .start) : ToolResult F)) ∧
    (readerLines (clampChars maxChars) text).flatten = text.toList ∧
    ((∀ approves startLine endLine newText (result : ToolResult F) t',
      replaceLines env.toEditEnv approves t path startLine endLine newText = .ok (result, t') →
      result.returncode = 0 →
      t'.file parts = some (mode, (replacedLines (readerLines (clampChars maxChars) text)
        startLine endLine (lineReplacement text newText)).toUTF8)) ↔
      (text.length ≤ maxStructuredEditChars → SameLines (clampChars maxChars) text.toList)) := by
  have hn : text.toList.length < text.toList.length + 1 := by omega
  refine ⟨fun startLine endLine hrange => ?_, numberedLines_flatten hn, ?_⟩
  · have hraise : ¬ ∃ last ∈ endLine, last < max 1 startLine := by
      rintro ⟨last, hlast, hlt⟩
      exact absurd (hrange last hlast) (by omega)
    have hopen : openText env t path parts = .ok text := by
      rw [openText, FileTree.readBytes_of_file hfile]
      exact congrArg Except.ok (env.decodeReplace_toUTF8 text)
    refine except_bind_ok.2 ⟨parts, hparts, except_bind_ok.2 ⟨(), raiseIf_ok.2 hraise,
      except_bind_ok.2 ⟨text, hopen, ?_⟩⟩⟩
    rw [readLoop_shows _ _ _ hn]
    rfl
  · rw [← splitEnds_eq_numbered_iff hn]
    show _ ↔ (_ → editorLines text = readerLines (clampChars maxChars) text)
    constructor
    · intro hagree hshort
      refine eq_of_without ((flatten_splitEnds _).trans (numberedLines_flatten hn).symm)
        (fun line hline => ne_nil_of_mem_splitEnds hline)
        (fun line hline => ne_nil_of_mem_numberedLines hline) fun i hi => ?_
      -- the line is taken out, which the answer is as the editor has it
      obtain ⟨result, t', hcall, hzero⟩ := @replaceLines_of_range F env.toEditEnv t path text ""
        parts mode (i + 1) (i + 1) hparts hfile hshort (by omega) (by omega)
        (by omega)
      have hedited := (replaceLines_ok hcall hzero hparts hfile).1
      rw [hagree _ _ _ _ _ _ hcall hzero] at hedited
      have htexts := String.toByteArray_inj.1 (Prod.mk.inj (Option.some.inj hedited)).2
      have hnothing : lineReplacement text "" = "" := by
        simp [lineReplacement, normalizeNewlines, pyReplace, replaceText]
      have hlists := congrArg String.toList htexts
      simp only [hnothing, replacedLines, String.toList_ofList, String.toList_empty,
        List.append_nil, show ((i : Int) + 1 - 1).toNat = i by omega,
        show ((i : Int) + 1).toNat = i + 1 by omega] at hlists
      exact hlists.symm
    · intro hsame approves startLine endLine newText result t' hcall hzero
      obtain ⟨hedited, hshort⟩ := replaceLines_ok hcall hzero hparts hfile
      rw [hedited, hsame hshort]

namespace FormFeed

def text : String := "a\x0cb\nc\n"

/-- A workspace whose one file has a form feed in its first line. -/
def tree : FileTree := OneEdit.tree.put ["a"] 0o644 text.toUTF8 OneEdit.writable

/-- Bytes that are no text do not occur here. -/
def decodeReplace (data : ByteArray) : String :=
  match decodeUtf8 data with
  | .ok text => text
  | .error _ => "\uFFFD"

theorem decodeReplace_toUTF8 (text : String) : decodeReplace text.toUTF8 = text := by
  rw [decodeReplace, decodeUtf8_toUTF8]

def env : ReadEnv := ⟨OneEdit.env, decodeReplace, decodeReplace_toUTF8⟩

theorem resolved : tree.resolve env.cwd "a" = .ok ["a"] := rfl

theorem found : tree.file ["a"] = some (0o644, text.toUTF8) := rfl

theorem writable : tree.Writable ["a"] := by decide

def edited : FileTree := tree.put ["a"] 0o644 "a\x0cX\nc\n".toUTF8 writable

def result : ToolResult Unit :=
  editResult OneEdit.env "replace_lines" "Replaced a:2-2"
    [("path", .str "a"), ("start_line", .int 2), ("end_line", .int 2)] ["a"] text
    "a\x0cX\nc\n" true

theorem executed : replaceLines env.toEditEnv (fun _ _ => .ok true) tree "a" 2 2 "X" =
    .ok (result, edited) := rfl

end FormFeed

/-- The second line that is shown says `c`, and the one that is replaced says `b`. -/
theorem lineNumbers_differ :
    ¬ ∀ (result : ToolResult Unit) (t' : FileTree),
      replaceLines FormFeed.env.toEditEnv (fun _ _ => .ok true) FormFeed.tree "a" 2 2 "X" =
        .ok (result, t') →
      result.returncode = 0 →
      t'.file ["a"] = some (0o644, (replacedLines (readerLines 12000 FormFeed.text) 2 2
        (lineReplacement FormFeed.text "X")).toUTF8) := by
  intro h
  exact absurd (h _ _ FormFeed.executed rfl) (by decide +kernel)

theorem lineNumbers_agree_sample :
    (∀ startLine endLine, (∀ last ∈ endLine, max 1 startLine ≤ last) →
      CommandExecutor.readFile FormFeed.env FormFeed.tree "a" startLine endLine 12000 =
        .ok (readResult FormFeed.env "a" startLine endLine 12000
          (showLines (max 1 startLine).toNat endLine 12000
            (readerLines 12000 FormFeed.text) .start) : ToolResult Unit)) ∧
    (readerLines 12000 FormFeed.text).flatten = FormFeed.text.toList ∧
    ((∀ approves startLine endLine newText (result : ToolResult Unit) t',
      replaceLines FormFeed.env.toEditEnv approves FormFeed.tree "a" startLine endLine newText =
        .ok (result, t') →
      result.returncode = 0 →
      t'.file ["a"] = some (0o644, (replacedLines (readerLines 12000 FormFeed.text) startLine
        endLine (lineReplacement FormFeed.text newText)).toUTF8)) ↔
      (FormFeed.text.length ≤ maxStructuredEditChars →
        SameLines 12000 FormFeed.text.toList)) :=
  lineNumbers_agree FormFeed.env FormFeed.tree "a" ["a"] 0o644 FormFeed.text 12000
    FormFeed.resolved FormFeed.found

end MiniCodeAgent
