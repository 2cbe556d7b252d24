import Mathlib.Data.List.Basic

/-!
# Lines

A text cut at its line ends, over any alphabet that has a carriage return and a
line feed. `\r\n`, `\r` and `\n` all end a line, and what stands behind the last
of them is a line of its own unless nothing does. The same text can be cut as
characters or as the bytes that encode them: an encoding that leaves the two
line ends alone makes no difference (`lines_flatMap`).

What a reader of a growing file needs to know is how the lines of `xs ++ ys` come
from those of `xs` and `ys`. Behind a line end they are the lines of both. Behind
anything else the last line of `xs` stays open, and goes on in `ys`.
-/

namespace Text

variable {α β : Type} [DecidableEq α] [DecidableEq β]

/-- `\r\n` and `\r` read as `\n`. -/
def universal (cr lf : α) : List α → List α
  | [] => []
  | [c] => [if c = cr then lf else c]
  | c :: d :: cs =>
    if c = cr ∧ d = lf then lf :: universal cr lf cs
    else (if c = cr then lf else c) :: universal cr lf (d :: cs)

/-- The text cut behind every `\n`, without it. -/
def cut (lf : α) : List α → List (List α)
  | [] => []
  | c :: cs =>
    if c = lf then [] :: cut lf cs
    else
      match cut lf cs with
      | [] => [[c]]
      | line :: rest => (c :: line) :: rest

/-- The lines of a text. -/
def lines (cr lf : α) (cs : List α) : List (List α) := cut lf (universal cr lf cs)

/-- Nothing is left open behind the last line end. -/
def Ended (cr lf : α) (cs : List α) : Prop := ∀ c, cs.getLast? = some c → c = cr ∨ c = lf

instance (cr lf : α) (cs : List α) : Decidable (Ended cr lf cs) :=
  match h : cs.getLast? with
  | none => isTrue fun c hc => by rw [h] at hc; cases hc
  | some c =>
    if hc : c = cr ∨ c = lf then isTrue fun d hd => by
      rw [h] at hd
      cases hd
      exact hc
    else isFalse fun hall => hc (hall c h)

variable {cr lf : α}

/-! ## Cutting at one line end -/

theorem cut_append_lf (xs ys : List α) :
    cut lf (xs ++ lf :: ys) = cut lf (xs ++ [lf]) ++ cut lf ys := by
  induction xs with
  | nil => rw [List.nil_append, List.nil_append, cut, if_pos rfl, cut, if_pos rfl]; rfl
  | cons x xs ih =>
      rw [List.cons_append, List.cons_append, cut, cut, ih]
      by_cases hx : x = lf
      · rw [if_pos hx, if_pos hx, List.cons_append]
      · rw [if_neg hx, if_neg hx]
        have hne : cut lf (xs ++ [lf]) ≠ [] := by
          cases xs with
          | nil => rw [List.nil_append, cut, if_pos rfl]; exact List.cons_ne_nil _ _
          | cons c cs =>
              rw [List.cons_append, cut]
              split
              · exact List.cons_ne_nil _ _
              · split <;> exact List.cons_ne_nil _ _
        cases h : cut lf (xs ++ [lf]) with
        | nil => exact absurd h hne
        | cons line rest => rfl

theorem cut_line {line : List α} (hline : lf ∉ line) : cut lf (line ++ [lf]) = [line] := by
  induction line with
  | nil => rw [List.nil_append, cut, if_pos rfl, cut]
  | cons c cs ih =>
      obtain ⟨hc, hcs⟩ := not_or.1 (mt List.mem_cons.2 hline)
      rw [List.cons_append, cut, if_neg (Ne.symm hc), ih hcs]

theorem cut_open {line : List α} (hline : lf ∉ line) (hne : line ≠ []) : cut lf line = [line] := by
  induction line with
  | nil => exact absurd rfl hne
  | cons c cs ih =>
      obtain ⟨hc, hcs⟩ := not_or.1 (mt List.mem_cons.2 hline)
      rw [cut, if_neg (Ne.symm hc)]
      by_cases hnil : cs = []
      · rw [hnil, cut]
      · rw [ih hcs hnil]

/-- The last line of a text that has not ended, and the lines before it. -/
theorem cut_unended {xs : List α} (hne : xs ≠ []) (hlast : xs.getLast? ≠ some lf) :
    ∃ before line, cut lf xs = before ++ [line] ∧ lf ∉ line ∧ line ≠ [] ∧
      ∀ ys, cut lf (xs ++ ys) = before ++ cut lf (line ++ ys) := by
  induction xs with
  | nil => exact absurd rfl hne
  | cons x xs ih =>
      by_cases hnil : xs = []
      · have hx : x ≠ lf := by
          rw [hnil] at hlast
          exact fun h => hlast (by rw [h]; rfl)
        refine ⟨[], [x], ?_, ?_, List.cons_ne_nil _ _, fun ys => by rw [hnil]; rfl⟩
        · rw [hnil]
          exact cut_open (by rw [List.mem_singleton]; exact Ne.symm hx) (List.cons_ne_nil _ _)
        · rw [List.mem_singleton]
          exact Ne.symm hx
      · obtain ⟨before, line, hcut, hline, hlineNe, happend⟩ := ih hnil (by
          rwa [List.getLast?_cons_of_ne_nil hnil] at hlast)
        by_cases hx : x = lf
        · refine ⟨[] :: before, line, ?_, hline, hlineNe, fun ys => ?_⟩
          · rw [cut, if_pos hx, hcut, List.cons_append]
          · rw [List.cons_append, cut, if_pos hx, happend ys, List.cons_append]
        · cases before with
          | nil =>
              have hmem : lf ∉ x :: line := fun h =>
                (List.mem_cons.1 h).elim (fun h => hx h.symm) hline
              refine ⟨[], x :: line, ?_, hmem, List.cons_ne_nil _ _, fun ys => ?_⟩
              · rw [cut, if_neg hx, hcut]
                rfl
              · rw [List.cons_append, cut, if_neg hx, happend ys, List.nil_append,
                  List.nil_append, List.cons_append, cut, if_neg hx]
          | cons first before =>
              refine ⟨(x :: first) :: before, line, ?_, hline, hlineNe, fun ys => ?_⟩
              · rw [cut, if_neg hx, hcut]
                rfl
              · rw [List.cons_append, cut, if_neg hx, happend ys]
                rfl

theorem mem_of_mem_cut {xs line : List α} (hline : line ∈ cut lf xs) {c : α} (hc : c ∈ line) :
    c ∈ xs := by
  induction xs generalizing line with
  | nil => cases hline
  | cons x xs ih =>
      rw [cut] at hline
      split at hline
      · rcases List.mem_cons.1 hline with h | h
        · rw [h] at hc
          cases hc
        · exact List.mem_cons_of_mem _ (ih h hc)
      · split at hline
        · rw [List.mem_singleton.1 hline] at hc
          rw [List.mem_singleton.1 hc]
          exact List.mem_cons_self
        · next first rest hcut =>
            rcases List.mem_cons.1 hline with h | h
            · rw [h] at hc
              rcases List.mem_cons.1 hc with rfl | hc
              · exact List.mem_cons_self
              · exact List.mem_cons_of_mem _ (ih (by rw [hcut]; exact List.mem_cons_self) hc)
            · exact List.mem_cons_of_mem _
                (ih (by rw [hcut]; exact List.mem_cons_of_mem _ h) hc)

theorem cut_ne_nil {xs : List α} (h : xs ≠ []) : cut lf xs ≠ [] := by
  cases xs with
  | nil => exact absurd rfl h
  | cons x xs =>
      rw [cut]
      split
      · exact List.cons_ne_nil _ _
      · split <;> exact List.cons_ne_nil _ _

/-! ## Reading every line end as one -/

theorem universal_append {xs ys : List α} (h : xs.getLast? = some cr → ys.head? ≠ some lf) :
    universal cr lf (xs ++ ys) = universal cr lf xs ++ universal cr lf ys := by
  induction xs using universal.induct cr lf with
  | case1 => rfl
  | case2 c =>
      cases ys with
      | nil => rfl
      | cons d ds =>
          have hno : ¬ (c = cr ∧ d = lf) := fun hcd =>
            h (by rw [hcd.1]; rfl) (by rw [hcd.2]; rfl)
          have hcons : universal cr lf (c :: d :: ds) =
              (if c = cr then lf else c) :: universal cr lf (d :: ds) := by
            rw [universal, if_neg hno]
          exact hcons
  | case3 c d cs hcd ih =>
      show universal cr lf (c :: d :: (cs ++ ys)) = _
      rw [universal, if_pos hcd, universal, if_pos hcd, ih, List.cons_append]
      intro hlast
      have hne : cs ≠ [] := by
        intro hnil
        rw [hnil] at hlast
        cases hlast
      exact h (by rwa [List.getLast?_cons_of_ne_nil (List.cons_ne_nil _ _),
        List.getLast?_cons_of_ne_nil hne])
  | case4 c d cs hcd ih =>
      show universal cr lf (c :: d :: (cs ++ ys)) = _
      rw [universal, if_neg hcd, universal, if_neg hcd]
      rw [List.cons_append] at ih
      rw [ih, List.cons_append]
      rwa [List.getLast?_cons_of_ne_nil (List.cons_ne_nil _ _)] at h

theorem universal_of_notMem {xs : List α} (h : cr ∉ xs) : universal cr lf xs = xs := by
  induction xs using universal.induct cr lf with
  | case1 => rfl
  | case2 c => rw [universal, if_neg fun hc => h (by rw [hc]; exact List.mem_cons_self)]
  | case3 c d cs hcd ih => exact absurd (by rw [hcd.1]; exact List.mem_cons_self) h
  | case4 c d cs hcd ih =>
      rw [universal, if_neg hcd, if_neg fun hc => h (by rw [hc]; exact List.mem_cons_self),
        ih fun hmem => h (List.mem_cons_of_mem _ hmem)]

theorem notMem_universal (hne : cr ≠ lf) (xs : List α) : cr ∉ universal cr lf xs := by
  have hone : ∀ c, (if c = cr then lf else c) ≠ cr := by
    intro c
    split
    · exact Ne.symm hne
    · next h => exact h
  induction xs using universal.induct cr lf with
  | case1 => exact List.not_mem_nil
  | case2 c =>
      rw [universal, List.mem_singleton]
      exact Ne.symm (hone c)
  | case3 c d cs hcd ih =>
      rw [universal, if_pos hcd, List.mem_cons]
      exact not_or.2 ⟨hne, ih⟩
  | case4 c d cs hcd ih =>
      rw [universal, if_neg hcd, List.mem_cons]
      exact not_or.2 ⟨Ne.symm (hone c), ih⟩

theorem universal_ne_nil {xs : List α} (h : xs ≠ []) : universal cr lf xs ≠ [] := by
  cases xs with
  | nil => exact absurd rfl h
  | cons c cs =>
      cases cs with
      | nil => exact List.cons_ne_nil _ _
      | cons d ds =>
          rw [universal]
          split <;> exact List.cons_ne_nil _ _

theorem getLast?_universal (xs : List α) :
    (universal cr lf xs).getLast? = xs.getLast?.map fun c => if c = cr then lf else c := by
  induction xs using universal.induct cr lf with
  | case1 => rfl
  | case2 c => rfl
  | case3 c d cs hcd ih =>
      rw [universal, if_pos hcd, List.getLast?_cons_of_ne_nil (List.cons_ne_nil d cs)]
      by_cases hcs : cs = []
      · rw [hcs, hcd.2]
        show some lf = some (if lf = cr then lf else lf)
        rw [ite_self]
      · rw [List.getLast?_cons_of_ne_nil hcs, List.getLast?_cons_of_ne_nil (universal_ne_nil hcs),
          ih]
  | case4 c d cs hcd ih =>
      rw [universal, if_neg hcd, List.getLast?_cons_of_ne_nil (List.cons_ne_nil d cs),
        List.getLast?_cons_of_ne_nil (universal_ne_nil (List.cons_ne_nil d cs)), ih]

/-! ## Lines of an append -/

theorem lines_nil : lines cr lf [] = [] := rfl

theorem lines_ne_nil {xs : List α} (h : xs ≠ []) : lines cr lf xs ≠ [] :=
  cut_ne_nil (universal_ne_nil h)

theorem lines_line {line : List α} (hcr : cr ∉ line) (hlf : lf ∉ line) (hne : cr ≠ lf) :
    lines cr lf (line ++ [lf]) = [line] := by
  rw [lines, universal_of_notMem, cut_line hlf]
  rw [List.mem_append, List.mem_singleton]
  exact not_or.2 ⟨hcr, hne⟩

/-- Behind a line end the lines are those of the two parts. -/
theorem lines_append_ended {xs ys : List α} (hxs : Ended cr lf xs)
    (hys : xs.getLast? = some cr → ys.head? ≠ some lf) :
    lines cr lf (xs ++ ys) = lines cr lf xs ++ lines cr lf ys := by
  rw [lines, lines, lines, universal_append hys]
  have hlast : ∀ c, (universal cr lf xs).getLast? = some c → c = lf := by
    intro c hc
    rw [getLast?_universal] at hc
    obtain ⟨d, hd, hdc⟩ := Option.map_eq_some_iff.1 hc
    rw [← hdc]
    split
    · rfl
    · next hcr => exact (hxs d hd).resolve_left hcr
  rcases List.eq_nil_or_concat (universal cr lf xs) with hnil | ⟨before, c, hconcat⟩
  · rw [hnil]
    rfl
  · have hc : c = lf := hlast c (by rw [hconcat, List.concat_eq_append, List.getLast?_concat])
    rw [hconcat, hc, List.concat_eq_append, List.append_assoc, List.singleton_append,
      cut_append_lf]

/-- The last line of a text that has not ended goes on in what is appended. -/
theorem lines_append_unended (hne : cr ≠ lf) {xs : List α} (hxs : ¬ Ended cr lf xs) :
    ∃ before line, lines cr lf xs = before ++ [line] ∧ cr ∉ line ∧ lf ∉ line ∧ line ≠ [] ∧
      ∀ ys, lines cr lf (xs ++ ys) = before ++ lines cr lf (line ++ ys) := by
  obtain ⟨c, hc⟩ := not_forall.1 hxs
  obtain ⟨hc, hopen⟩ := Classical.not_imp.1 hc
  obtain ⟨hcr, hlf⟩ := not_or.1 hopen
  have hnil : xs ≠ [] := by
    intro h
    rw [h] at hc
    cases hc
  have hlast : (universal cr lf xs).getLast? = some c := by
    rw [getLast?_universal, hc, Option.map_some, if_neg hcr]
  obtain ⟨before, line, hcut, hline, hlineNe, happend⟩ :=
    cut_unended (universal_ne_nil hnil) (show _ ≠ some lf by
      rw [hlast]
      exact fun h => hlf (Option.some.inj h))
  have hlineCr : cr ∉ line := fun hmem =>
    notMem_universal hne xs (mem_of_mem_cut (by
      rw [hcut]
      exact List.mem_append_right _ (List.mem_singleton_self _)) hmem)
  refine ⟨before, line, hcut, hlineCr, hline, hlineNe, fun ys => ?_⟩
  have hxs' : universal cr lf (xs ++ ys) = universal cr lf xs ++ universal cr lf ys :=
    universal_append fun h => by
      rw [hc] at h
      exact absurd (Option.some.inj h) hcr
  have hline' : universal cr lf (line ++ ys) = line ++ universal cr lf ys := by
    rw [universal_append fun h => absurd (List.mem_of_getLast? h) hlineCr,
      universal_of_notMem hlineCr]
  rw [lines, lines, hxs', happend, hline']

/-- A reader that starts anywhere before a line end that something stands behind
finds the last line. -/
theorem getLast?_lines_append_lf (hne : cr ≠ lf) (xs : List α) {ys : List α} (hys : ys ≠ []) :
    (lines cr lf (xs ++ lf :: ys)).getLast? = (lines cr lf ys).getLast? := by
  have hended : Ended cr lf (xs ++ [lf]) := by
    intro c hc
    rw [List.getLast?_concat] at hc
    exact Or.inr (Option.some.inj hc).symm
  have hlf : (xs ++ [lf]).getLast? = some cr → ys.head? ≠ some lf := by
    rw [List.getLast?_concat]
    exact fun h => absurd (Option.some.inj h).symm hne
  have hsome : (lines cr lf ys).getLast? ≠ none :=
    mt List.getLast?_eq_none_iff.1 (lines_ne_nil hys)
  obtain ⟨last, hlast⟩ := Option.ne_none_iff_exists'.1 hsome
  rw [← List.singleton_append, ← List.append_assoc, lines_append_ended hended hlf,
    List.getLast?_append, hlast, Option.some_or]

/-! ## The lines of an encoded text -/

/-- An encoding that keeps the two line ends, and uses them for nothing else. -/
structure KeepsBreaks (cr lf : α) (cr' lf' : β) (f : α → List β) : Prop where
  onCr : f cr = [cr']
  onLf : f lf = [lf']
  distinct : cr' ≠ lf'
  other : ∀ c, c ≠ cr → c ≠ lf → f c ≠ [] ∧ cr' ∉ f c ∧ lf' ∉ f c

section Encoding

variable {cr' lf' : β} {f : α → List β} (hf : KeepsBreaks cr lf cr' lf' f)

include hf

omit [DecidableEq β] in
theorem KeepsBreaks.ne_nil (c : α) : f c ≠ [] := by
  by_cases hcr : c = cr
  · rw [hcr, hf.onCr]
    exact List.cons_ne_nil _ _
  · by_cases hlf : c = lf
    · rw [hlf, hf.onLf]
      exact List.cons_ne_nil _ _
    · exact (hf.other c hcr hlf).1

omit [DecidableEq β] in
theorem KeepsBreaks.notMem_cr {c : α} (h : c ≠ cr) : cr' ∉ f c := by
  by_cases hlf : c = lf
  · rw [hlf, hf.onLf, List.mem_singleton]
    exact hf.distinct
  · exact (hf.other c h hlf).2.1

omit [DecidableEq β] in
theorem KeepsBreaks.notMem_lf {c : α} (h : c ≠ lf) : lf' ∉ f c := by
  by_cases hcr : c = cr
  · rw [hcr, hf.onCr, List.mem_singleton]
    exact Ne.symm hf.distinct
  · exact (hf.other c hcr h).2.2

omit [DecidableEq β] in
theorem KeepsBreaks.head?_ne {c : α} (h : c ≠ lf) (ys : List β) :
    (f c ++ ys).head? ≠ some lf' := by
  cases hfc : f c with
  | nil => exact absurd hfc (hf.ne_nil c)
  | cons b bs =>
      intro hb
      refine hf.notMem_lf h ?_
      rw [hfc, ← Option.some.inj hb]
      exact List.mem_cons_self

theorem universal_flatMap (xs : List α) :
    universal cr' lf' (xs.flatMap f) = (universal cr lf xs).flatMap f := by
  have hone : ∀ c, universal cr' lf' (f c) = f (if c = cr then lf else c) := by
    intro c
    by_cases hc : c = cr
    · rw [hc, hf.onCr, if_pos rfl, hf.onLf, universal, if_pos rfl]
    · rw [if_neg hc, universal_of_notMem (hf.notMem_cr hc)]
  induction xs using universal.induct cr lf with
  | case1 => rfl
  | case2 c =>
      rw [universal, List.flatMap_singleton, List.flatMap_singleton, hone]
  | case3 c d cs hcd ih =>
      rw [universal, if_pos hcd, List.flatMap_cons, List.flatMap_cons, List.flatMap_cons, ← ih,
        hcd.1, hcd.2, hf.onCr, hf.onLf]
      show universal cr' lf' (cr' :: lf' :: cs.flatMap f) = _
      rw [universal, if_pos ⟨rfl, rfl⟩]
      rfl
  | case4 c d cs hcd ih =>
      have hright : (universal cr lf (c :: d :: cs)).flatMap f =
          universal cr' lf' (f c) ++ universal cr' lf' ((d :: cs).flatMap f) := by
        rw [universal, if_neg hcd, List.flatMap_cons, ih, hone]
      rw [hright, List.flatMap_cons]
      refine universal_append fun hlast => ?_
      have hc : c = cr := by
        by_contra hc
        exact hf.notMem_cr hc (List.mem_of_getLast? hlast)
      rw [List.flatMap_cons]
      exact hf.head?_ne (fun hd => hcd ⟨hc, hd⟩) _

theorem cut_flatMap (xs : List α) :
    cut lf' (xs.flatMap f) = (cut lf xs).map fun line => line.flatMap f := by
  have hopen : ∀ (bs ys : List β), lf' ∉ bs → bs ≠ [] → cut lf' (bs ++ ys) =
      match cut lf' ys with
      | [] => [bs]
      | line :: rest => (bs ++ line) :: rest := by
    intro bs ys
    induction bs with
    | nil => exact fun _ h => absurd rfl h
    | cons b bs ih =>
        intro hbs _
        obtain ⟨hb, hbs⟩ := not_or.1 (mt List.mem_cons.2 hbs)
        rw [List.cons_append, cut, if_neg (Ne.symm hb)]
        by_cases hnil : bs = []
        · rw [hnil, List.nil_append]
          rfl
        · rw [ih hbs hnil]
          cases cut lf' ys <;> rfl
  induction xs with
  | nil => rfl
  | cons c cs ih =>
      rw [List.flatMap_cons, cut]
      by_cases hc : c = lf
      · rw [if_pos hc, hc, hf.onLf, List.singleton_append, cut, if_pos rfl, ih]
        rfl
      · rw [if_neg hc, hopen _ _ (hf.notMem_lf hc) (hf.ne_nil c), ih]
        cases cut lf cs with
        | nil => simp
        | cons line rest => simp

/-- The lines of the encoded text are the encoded lines. -/
theorem lines_flatMap (xs : List α) :
    lines cr' lf' (xs.flatMap f) = (lines cr lf xs).map fun line => line.flatMap f := by
  rw [lines, lines, universal_flatMap hf, cut_flatMap hf]

omit [DecidableEq β] in
theorem ended_flatMap (xs : List α) : Ended cr' lf' (xs.flatMap f) ↔ Ended cr lf xs := by
  rcases List.eq_nil_or_concat xs with hnil | ⟨before, c, hconcat⟩
  · rw [hnil]
    exact iff_of_true (fun d hd => by cases hd) (fun d hd => by cases hd)
  · have hlast : ((before ++ [c]).flatMap f).getLast? = (f c).getLast? := by
      rw [List.flatMap_append, List.flatMap_singleton]
      exact List.getLast?_append_of_ne_nil _ (hf.ne_nil c)
    rw [hconcat, List.concat_eq_append, Ended, Ended, hlast, List.getLast?_concat]
    constructor
    · intro h d hd
      cases hd
      by_contra hno
      obtain ⟨hcr, hlf⟩ := not_or.1 hno
      obtain ⟨b, hb⟩ := Option.ne_none_iff_exists'.1 (mt List.getLast?_eq_none_iff.1 (hf.ne_nil c))
      rcases h b hb with hb' | hb'
      · exact hf.notMem_cr hcr (by rw [← hb']; exact List.mem_of_getLast? hb)
      · exact hf.notMem_lf hlf (by rw [← hb']; exact List.mem_of_getLast? hb)
    · intro h d hd
      rcases h c rfl with hc | hc
      · rw [hc, hf.onCr] at hd
        exact Or.inl (Option.some.inj hd).symm
      · rw [hc, hf.onLf] at hd
        exact Or.inr (Option.some.inj hd).symm

end Encoding

end Text
