import MiniCodeAgent.Text.Lines

/-!
# Lines under any set of line ends

Readers differ in what ends a line. `splitEnds` takes the set as a predicate and
keeps every end with its line; a carriage return and the line feed behind it are
one end. What the readers have in common is in `Cuts`: a text is cut at each line
feed independently of what stands on either side, and a line without any end in
it comes out as it went in. Statements about the lines of a text that is put
together from lines need no more, and then hold for all of them.
-/

namespace Text

variable {α : Type} [DecidableEq α]

/-- The text cut behind every end, which stays with its line. -/
def splitEnds (isEnd : α → Bool) (cr lf : α) : List α → List (List α)
  | [] => []
  | [c] => [[c]]
  | c :: d :: cs =>
    if c = cr ∧ d = lf then [c, d] :: splitEnds isEnd cr lf cs
    else if isEnd c then [c] :: splitEnds isEnd cr lf (d :: cs)
    else
      match splitEnds isEnd cr lf (d :: cs) with
      | [] => [[c]]
      | line :: rest => (c :: line) :: rest

/-- The text up to its first end, and the end with it. -/
def firstLine (isEnd : α → Bool) (cr lf : α) : List α → List α
  | [] => []
  | [c] => [c]
  | c :: d :: cs =>
    if c = cr ∧ d = lf then [c, d]
    else if isEnd c then [c]
    else c :: firstLine isEnd cr lf (d :: cs)

/-- The line without its end. -/
def dropEnd (isEnd : α → Bool) (line : List α) : List α := line.takeWhile fun c => !isEnd c

/-- A way to cut a text into lines. -/
structure Cuts (lf : α) (isEnd : α → Bool) (cutter : List α → List (List α)) : Prop where
  append : ∀ xs ys, cutter (xs ++ lf :: ys) = cutter (xs ++ [lf]) ++ cutter ys
  line : ∀ xs, (∀ c ∈ xs, isEnd c = false) → cutter (xs ++ [lf]) = [xs]

theorem cuts_cut (lf : α) (isEnd : α → Bool) (hlf : isEnd lf = true) : Cuts lf isEnd (cut lf) where
  append := cut_append_lf
  line xs hxs := cut_line fun hmem => by
    have hend := hxs lf hmem
    rw [hlf] at hend
    cases hend

section Ends

variable {isEnd : α → Bool} {cr lf : α}

theorem splitEnds_cons_lf (hne : lf ≠ cr) (hlf : isEnd lf = true) (ys : List α) :
    splitEnds isEnd cr lf (lf :: ys) = [lf] :: splitEnds isEnd cr lf ys := by
  cases ys with
  | nil => rfl
  | cons d ds => rw [splitEnds, if_neg (fun h => hne h.1), if_pos hlf]

theorem splitEnds_ne_nil {xs : List α} (h : xs ≠ []) : splitEnds isEnd cr lf xs ≠ [] := by
  cases xs using splitEnds.fun_cases isEnd cr lf with
  | case1 => exact absurd rfl h
  | case2 c => exact List.cons_ne_nil _ _
  | case3 c d cs hpair =>
      rw [splitEnds, if_pos hpair]
      exact List.cons_ne_nil _ _
  | case4 c d cs hpair hend =>
      rw [splitEnds, if_neg hpair, if_pos hend]
      exact List.cons_ne_nil _ _
  | case5 c d cs hpair hend hnone =>
      rw [splitEnds, if_neg hpair, if_neg hend, hnone]
      exact List.cons_ne_nil _ _
  | case6 c d cs hpair hend line rest hsome =>
      rw [splitEnds, if_neg hpair, if_neg hend, hsome]
      exact List.cons_ne_nil _ _

theorem splitEnds_append (hne : lf ≠ cr) (hlf : isEnd lf = true) (xs ys : List α) :
    splitEnds isEnd cr lf (xs ++ lf :: ys) =
      splitEnds isEnd cr lf (xs ++ [lf]) ++ splitEnds isEnd cr lf ys := by
  have hcons : ∀ zs, splitEnds isEnd cr lf (lf :: zs) = [lf] :: splitEnds isEnd cr lf zs :=
    splitEnds_cons_lf hne hlf
  -- a character that ends nothing joins the first line of what follows
  have hopen : ∀ c d (zs : List α), ¬ (c = cr ∧ d = lf) → ¬ isEnd c = true →
      splitEnds isEnd cr lf (d :: zs ++ lf :: ys) =
        splitEnds isEnd cr lf (d :: zs ++ [lf]) ++ splitEnds isEnd cr lf ys →
      splitEnds isEnd cr lf (c :: d :: zs ++ lf :: ys) =
        splitEnds isEnd cr lf (c :: d :: zs ++ [lf]) ++ splitEnds isEnd cr lf ys := by
    intro c d zs hpair hend ih
    rw [List.cons_append, List.cons_append, List.cons_append, List.cons_append, splitEnds,
      splitEnds, if_neg hpair, if_neg hpair, if_neg hend, if_neg hend]
    rw [List.cons_append, List.cons_append] at ih
    rw [ih]
    cases hfirst : splitEnds isEnd cr lf (d :: (zs ++ [lf])) with
    | nil => exact absurd hfirst (splitEnds_ne_nil (List.cons_ne_nil _ _))
    | cons line rest => rfl
  induction xs using splitEnds.induct isEnd cr lf with
  | case1 => rw [List.nil_append, List.nil_append, hcons, hcons]; rfl
  | case2 c =>
      show splitEnds isEnd cr lf (c :: lf :: ys) = splitEnds isEnd cr lf [c, lf] ++ _
      by_cases hc : c = cr
      · rw [splitEnds, if_pos ⟨hc, rfl⟩, splitEnds, if_pos ⟨hc, rfl⟩]
        rfl
      · have hpair : ¬ (c = cr ∧ lf = lf) := fun h => hc h.1
        by_cases hend : isEnd c = true
        · rw [splitEnds, if_neg hpair, if_pos hend, splitEnds, if_neg hpair, if_pos hend, hcons]
          rfl
        · rw [splitEnds, if_neg hpair, if_neg hend, splitEnds, if_neg hpair, if_neg hend, hcons]
          rfl
  | case3 c d cs hpair ih =>
      show splitEnds isEnd cr lf (c :: d :: (cs ++ lf :: ys)) =
        splitEnds isEnd cr lf (c :: d :: (cs ++ [lf])) ++ _
      rw [splitEnds, if_pos hpair, splitEnds, if_pos hpair, ih, List.cons_append]
  | case4 c d cs hpair hend ih =>
      show splitEnds isEnd cr lf (c :: d :: (cs ++ lf :: ys)) =
        splitEnds isEnd cr lf (c :: d :: (cs ++ [lf])) ++ _
      rw [splitEnds, if_neg hpair, if_pos hend, splitEnds, if_neg hpair, if_pos hend]
      rw [List.cons_append, List.cons_append] at ih
      rw [ih, List.cons_append]
  | case5 c d cs hpair hend _ ih => exact hopen c d cs hpair hend ih
  | case6 c d cs hpair hend line rest _ ih => exact hopen c d cs hpair hend ih

/-- A line without ends, and the line feed behind it. -/
theorem splitEnds_line (hcr : isEnd cr = true) {xs : List α}
    (hxs : ∀ c ∈ xs, isEnd c = false) :
    splitEnds isEnd cr lf (xs ++ [lf]) = [xs ++ [lf]] := by
  induction xs with
  | nil => rfl
  | cons c cs ih =>
      have hc := hxs c List.mem_cons_self
      have hne : c ≠ cr := by
        intro h
        rw [h, hcr] at hc
        cases hc
      have htail := ih fun d hd => hxs d (List.mem_cons_of_mem _ hd)
      have hopen : ∀ d ds, cs ++ [lf] = d :: ds →
          splitEnds isEnd cr lf (c :: d :: ds) = [c :: d :: ds] := by
        intro d ds heq
        rw [heq] at htail
        rw [splitEnds, if_neg (fun h => hne h.1), if_neg (by rw [hc]; simp), htail]
      cases hcs : cs ++ [lf] with
      | nil => exact absurd hcs (List.append_ne_nil_of_right_ne_nil _ (List.cons_ne_nil _ _))
      | cons d ds =>
          rw [List.cons_append, hcs]
          exact hopen d ds hcs

omit [DecidableEq α] in
theorem dropEnd_line (hlf : isEnd lf = true) {xs : List α} (hxs : ∀ c ∈ xs, isEnd c = false) :
    dropEnd isEnd (xs ++ [lf]) = xs := by
  rw [dropEnd, List.takeWhile_append_of_pos fun c hc => by rw [hxs c hc]; rfl]
  rw [List.takeWhile_cons_of_neg (by rw [hlf]; simp), List.append_nil]

omit [DecidableEq α] in
theorem dropEnd_no_end {line : List α} {c : α} (h : c ∈ dropEnd isEnd line) : isEnd c = false := by
  have hc := List.all_eq_true.1 List.all_takeWhile c h
  cases hend : isEnd c with
  | false => rfl
  | true =>
      rw [hend] at hc
      cases hc

theorem cuts_splitEnds (hne : lf ≠ cr) (hlf : isEnd lf = true) (hcr : isEnd cr = true) :
    Cuts lf isEnd fun xs => (splitEnds isEnd cr lf xs).map (dropEnd isEnd) where
  append xs ys := by
    show (splitEnds isEnd cr lf (xs ++ lf :: ys)).map _ = _
    rw [splitEnds_append hne hlf, List.map_append]
  line xs hxs := by
    show (splitEnds isEnd cr lf (xs ++ [lf])).map _ = _
    rw [splitEnds_line hcr hxs, List.map_singleton, dropEnd_line hlf hxs]

end Ends

/-! ## One line after the other -/

section FirstLine

variable {isEnd : α → Bool} {cr lf : α}

theorem firstLine_ne_nil {xs : List α} (h : xs ≠ []) : firstLine isEnd cr lf xs ≠ [] := by
  cases xs using firstLine.fun_cases isEnd cr lf with
  | case1 => exact absurd rfl h
  | case2 c => exact List.cons_ne_nil _ _
  | case3 c d cs hpair =>
      rw [firstLine, if_pos hpair]
      exact List.cons_ne_nil _ _
  | case4 c d cs hpair hend =>
      rw [firstLine, if_neg hpair, if_pos hend]
      exact List.cons_ne_nil _ _
  | case5 c d cs hpair hend =>
      rw [firstLine, if_neg hpair, if_neg hend]
      exact List.cons_ne_nil _ _

/-- The lines of a text are its first line and the lines of the rest. -/
theorem splitEnds_eq_cons {xs : List α} (h : xs ≠ []) :
    splitEnds isEnd cr lf xs = firstLine isEnd cr lf xs ::
      splitEnds isEnd cr lf (xs.drop (firstLine isEnd cr lf xs).length) := by
  induction xs using splitEnds.induct isEnd cr lf with
  | case1 => exact absurd rfl h
  | case2 c => rfl
  | case3 c d cs hpair _ =>
      rw [splitEnds, if_pos hpair, firstLine, if_pos hpair]
      rfl
  | case4 c d cs hpair hend _ =>
      rw [splitEnds, if_neg hpair, if_pos hend, firstLine, if_neg hpair, if_pos hend]
      rfl
  | case5 c d cs hpair hend hnone _ =>
      exact absurd hnone (splitEnds_ne_nil (List.cons_ne_nil _ _))
  | case6 c d cs hpair hend line rest hsome ih =>
      rw [splitEnds, if_neg hpair, if_neg hend, hsome, firstLine, if_neg hpair, if_neg hend]
      rw [ih (List.cons_ne_nil _ _)] at hsome
      obtain ⟨rfl, rfl⟩ := List.cons.inj hsome
      rfl

section Plain

variable (hcr : isEnd cr = true) {pre post : List α} (hpre : ∀ c ∈ pre, isEnd c = false)

include hcr hpre in
/-- What ends nothing stays in the line, whatever comes behind it. -/
theorem firstLine_append (hpost : post ≠ []) :
    firstLine isEnd cr lf (pre ++ post) = pre ++ firstLine isEnd cr lf post := by
  induction pre with
  | nil => rfl
  | cons c cs ih =>
      have hc := hpre c List.mem_cons_self
      have htail := ih fun d hd => hpre d (List.mem_cons_of_mem _ hd)
      have hne : c ≠ cr := by
        rintro rfl
        rw [hcr] at hc
        cases hc
      cases hrest : cs ++ post with
      | nil => exact absurd (List.append_eq_nil_iff.1 hrest).2 hpost
      | cons d ds =>
          rw [List.cons_append, hrest, firstLine, if_neg (fun h => hne h.1), if_neg (by simp [hc]),
            ← hrest, htail, List.cons_append]

include hcr hpre in
theorem firstLine_open : firstLine isEnd cr lf pre = pre := by
  induction pre with
  | nil => rfl
  | cons c cs ih =>
      have hc := hpre c List.mem_cons_self
      have htail := ih fun d hd => hpre d (List.mem_cons_of_mem _ hd)
      have hne : c ≠ cr := by
        rintro rfl
        rw [hcr] at hc
        cases hc
      cases cs with
      | nil => rfl
      | cons d ds => rw [firstLine, if_neg (fun h => hne h.1), if_neg (by simp [hc]), htail]

omit hcr hpre in
theorem firstLine_end {c : α} (hc : isEnd c = true) (h : c = cr → post.head? ≠ some lf) :
    firstLine isEnd cr lf (c :: post) = [c] := by
  cases post with
  | nil => rfl
  | cons d ds =>
      rw [firstLine, if_neg, if_pos hc]
      rintro ⟨rfl, rfl⟩
      exact h rfl rfl

omit hcr hpre in
theorem firstLine_pair : firstLine isEnd cr lf (cr :: lf :: post) = [cr, lf] := by
  rw [firstLine, if_pos ⟨rfl, rfl⟩]

end Plain

end FirstLine

section Pieces

variable {isEnd : α → Bool} {cr lf : α}

/-- A text without ends is one line. -/
theorem splitEnds_open (hcr : isEnd cr = true) {xs : List α} (hne : xs ≠ [])
    (hxs : ∀ c ∈ xs, isEnd c = false) : splitEnds isEnd cr lf xs = [xs] := by
  rw [splitEnds_eq_cons hne, firstLine_open hcr hxs, List.drop_length, splitEnds]

omit [DecidableEq α] in
theorem dropEnd_open {xs : List α} (hxs : ∀ c ∈ xs, isEnd c = false) : dropEnd isEnd xs = xs := by
  have hall : (xs ++ []).takeWhile (fun c => !isEnd c) =
      xs ++ [].takeWhile fun c => !isEnd c :=
    List.takeWhile_append_of_pos fun c hc => by rw [hxs c hc]; rfl
  rwa [List.takeWhile_nil, List.append_nil] at hall

/-- What ends nothing stands in a line. -/
theorem exists_line_of_mem (hcr : isEnd cr = true) (hlf : isEnd lf = true) {xs : List α} {d : α}
    (hd : d ∈ xs) (hend : isEnd d = false) :
    ∃ line ∈ splitEnds isEnd cr lf xs, d ∈ dropEnd isEnd line := by
  have hplain : ∀ {c : α}, isEnd c = true → d ≠ c := by
    intro c hc h
    rw [h, hc] at hend
    cases hend
  have hopen : ∀ (c : α) (line : List α), ¬ isEnd c = true →
      dropEnd isEnd (c :: line) = c :: dropEnd isEnd line := by
    intro c line hc
    rw [dropEnd, List.takeWhile_cons_of_pos (by simpa using hc)]
    rfl
  induction xs using splitEnds.induct isEnd cr lf with
  | case1 => cases hd
  | case2 c =>
      rw [List.mem_singleton] at hd
      subst hd
      refine ⟨[d], by simp [splitEnds], ?_⟩
      rw [dropEnd_open (by simpa using hend)]
      exact List.mem_singleton_self d
  | case3 c e cs hpair ih =>
      have hrest : d ∈ cs := by
        rcases List.mem_cons.1 hd with h | hd
        · exact absurd (h.trans hpair.1) (hplain hcr)
        · rcases List.mem_cons.1 hd with h | hd
          · exact absurd (h.trans hpair.2) (hplain hlf)
          · exact hd
      obtain ⟨line, hline, hmem⟩ := ih hrest
      rw [splitEnds, if_pos hpair]
      exact ⟨line, List.mem_cons_of_mem _ hline, hmem⟩
  | case4 c e cs hpair hc ih =>
      obtain ⟨line, hline, hmem⟩ := ih ((List.mem_cons.1 hd).resolve_left (hplain hc))
      rw [splitEnds, if_neg hpair, if_pos hc]
      exact ⟨line, List.mem_cons_of_mem _ hline, hmem⟩
  | case5 c e cs hpair hc hnone _ =>
      exact absurd hnone (splitEnds_ne_nil (List.cons_ne_nil _ _))
  | case6 c e cs hpair hc line rest hsome ih =>
      rw [splitEnds, if_neg hpair, if_neg hc, hsome]
      rcases List.mem_cons.1 hd with h | hd
      · refine ⟨c :: line, List.mem_cons_self, ?_⟩
        rw [hopen c line hc, h]
        exact List.mem_cons_self
      · obtain ⟨other, hother, hmem⟩ := ih hd
        rw [hsome] at hother
        rcases List.mem_cons.1 hother with h | hother
        · refine ⟨c :: line, List.mem_cons_self, ?_⟩
          rw [hopen c line hc, ← h]
          exact List.mem_cons_of_mem _ hmem
        · exact ⟨other, List.mem_cons_of_mem _ hother, hmem⟩

/-- The first end cuts the text in two. -/
theorem splitEnds_first (hcr : isEnd cr = true) {pre post : List α} {c : α}
    (hpre : ∀ d ∈ pre, isEnd d = false) (hc : isEnd c = true) (hne : c ≠ cr) :
    splitEnds isEnd cr lf (pre ++ c :: post) =
      (pre ++ [c]) :: splitEnds isEnd cr lf post := by
  have hfirst : firstLine isEnd cr lf (pre ++ c :: post) = pre ++ [c] := by
    rw [firstLine_append hcr hpre (List.cons_ne_nil _ _), firstLine_end hc fun h => absurd h hne]
  rw [splitEnds_eq_cons (by simp), hfirst]
  congr 2
  simp

/-- A carriage return and a line feed end a line together. -/
theorem splitEnds_pair (hcr : isEnd cr = true) {xs : List α} (hxs : ∀ c ∈ xs, isEnd c = false) :
    splitEnds isEnd cr lf (xs ++ [cr, lf]) = [xs ++ [cr, lf]] := by
  have hfirst : firstLine isEnd cr lf (xs ++ [cr, lf]) = xs ++ [cr, lf] := by
    rw [firstLine_append hcr hxs (List.cons_ne_nil _ _), firstLine_pair]
  rw [splitEnds_eq_cons (by simp), hfirst, List.drop_length, splitEnds]

omit [DecidableEq α] in
theorem dropEnd_append {xs : List α} (hxs : ∀ c ∈ xs, isEnd c = false) {d : α} (hd : isEnd d = true)
    (rest : List α) : dropEnd isEnd (xs ++ d :: rest) = xs := by
  rw [dropEnd, List.takeWhile_append_of_pos fun c hc => by rw [hxs c hc]; rfl]
  rw [List.takeWhile_cons_of_neg (by rw [hd]; simp), List.append_nil]

end Pieces

end Text
