import Mathlib.Data.Int.ConditionallyCompleteOrder
import Mathlib.Data.List.Induction
import Mathlib.Data.List.Infix
import Mathlib.Data.List.Sort
import Mathlib.Order.Monotone.Defs

/-!
# Logs read by their time stamps

A log is a list to which entries are only ever appended. Each entry carries a
stamp, and the readers of the log do not go by its order: they take the entry
with the latest stamp, and among equals the one appended last. `newest` is that
entry, and `newestFirst` the whole log in that order, as `ORDER BY stamp DESC,
rowid DESC` returns it.

The two orders agree where stamps never step back, and `newest_eq_some` says
what the reader gets where they do.
-/

namespace Log

variable {α τ : Type} [LinearOrder τ] (stamp : α → τ)

/-- Of the best entry so far and the next one, the one a reader prefers. -/
def prefer (best : Option α) (e : α) : Option α :=
  match best with
  | some b => if stamp b ≤ stamp e then some e else some b
  | none => some e

/-- `ORDER BY stamp DESC, rowid DESC LIMIT 1`. -/
def newest (log : List α) : Option α := log.foldl (prefer stamp) none

/-- `ORDER BY stamp DESC, rowid DESC`. -/
def newestFirst (log : List α) : List α :=
  (log.insertionSort fun a b => stamp a ≤ stamp b).reverse

@[simp] theorem newest_nil : newest stamp ([] : List α) = none := rfl

theorem newest_append_singleton (log : List α) (e : α) :
    newest stamp (log ++ [e]) = prefer stamp (newest stamp log) e := by
  rw [newest, List.foldl_append]
  rfl

variable {stamp}

theorem prefer_isSome (best : Option α) (e : α) : (prefer stamp best e).isSome := by
  unfold prefer
  split
  · split <;> rfl
  · rfl

/-- Nothing appended before is stamped later, and everything appended after is
stamped earlier. -/
def IsNewest (stamp : α → τ) (log : List α) (e : α) : Prop :=
  ∃ before after, log = before ++ e :: after ∧ (∀ x ∈ before, stamp x ≤ stamp e) ∧
    ∀ x ∈ after, stamp x < stamp e

theorem IsNewest.mem {log : List α} {e : α} (h : IsNewest stamp log e) : e ∈ log := by
  obtain ⟨before, after, rfl, -, -⟩ := h
  exact List.mem_append_right _ List.mem_cons_self

theorem IsNewest.stamp_le {log : List α} {e : α} (h : IsNewest stamp log e) {x : α}
    (hx : x ∈ log) : stamp x ≤ stamp e := by
  obtain ⟨before, after, rfl, hbefore, hafter⟩ := h
  rcases List.mem_append.1 hx with hx | hx
  · exact hbefore x hx
  · rcases List.mem_cons.1 hx with rfl | hx
    · exact le_refl _
    · exact le_of_lt (hafter x hx)

theorem isNewest_singleton (e : α) : IsNewest stamp [e] e :=
  ⟨[], [], rfl, fun _ hx => absurd hx List.not_mem_nil, fun _ hx => absurd hx List.not_mem_nil⟩

theorem IsNewest.append_later {log : List α} {b e : α} (h : IsNewest stamp log b)
    (he : stamp b ≤ stamp e) : IsNewest stamp (log ++ [e]) e :=
  ⟨log, [], rfl, fun _ hx => le_trans (h.stamp_le hx) he, fun _ hx => absurd hx List.not_mem_nil⟩

theorem IsNewest.append_earlier {log : List α} {b e : α} (h : IsNewest stamp log b)
    (he : stamp e < stamp b) : IsNewest stamp (log ++ [e]) b := by
  obtain ⟨before, after, rfl, hbefore, hafter⟩ := h
  refine ⟨before, after ++ [e], by simp, hbefore, fun x hx => ?_⟩
  rcases List.mem_append.1 hx with hx | hx
  · exact hafter x hx
  · rw [List.mem_singleton.1 hx]
    exact he

variable (stamp) in
/-- The reader finds an entry unless there is none, and it is the newest. -/
theorem newest_spec (log : List α) :
    (log = [] ∧ newest stamp log = none) ∨ ∃ e, newest stamp log = some e ∧ IsNewest stamp log e := by
  induction log using List.reverseRecOn with
  | nil => exact Or.inl ⟨rfl, rfl⟩
  | append_singleton log e ih =>
      right
      rw [newest_append_singleton]
      rcases ih with ⟨rfl, hnone⟩ | ⟨b, hb, hnewest⟩
      · rw [hnone]
        exact ⟨e, rfl, isNewest_singleton e⟩
      · rw [hb]
        by_cases hle : stamp b ≤ stamp e
        · exact ⟨e, if_pos hle, hnewest.append_later hle⟩
        · exact ⟨b, if_neg hle, hnewest.append_earlier (not_le.1 hle)⟩

theorem IsNewest.unique {log : List α} {a b : α} (ha : IsNewest stamp log a)
    (hb : IsNewest stamp log b) : a = b := by
  obtain ⟨before, after, rfl, hbefore, hafter⟩ := ha
  obtain ⟨before', after', heq, hbefore', hafter'⟩ := hb
  rcases List.append_eq_append_iff.1 heq with ⟨mid, rfl, hmid⟩ | ⟨mid, rfl, hmid⟩
  · cases mid with
    | nil =>
        rw [List.nil_append] at hmid
        injection hmid
    | cons c mid =>
        rw [List.cons_append] at hmid
        injection hmid with hc hrest
        subst hc
        have h1 := hbefore' a (List.mem_append_right _ List.mem_cons_self)
        have h2 := hafter b (by rw [hrest]; exact List.mem_append_right _ List.mem_cons_self)
        exact absurd h1 (not_le.2 h2)
  · cases mid with
    | nil =>
        rw [List.nil_append] at hmid
        injection hmid with hc _
        exact hc.symm
    | cons c mid =>
        rw [List.cons_append] at hmid
        injection hmid with hc hrest
        subst hc
        have h1 := hbefore b (List.mem_append_right _ List.mem_cons_self)
        have h2 := hafter' a (by rw [hrest]; exact List.mem_append_right _ List.mem_cons_self)
        exact absurd h1 (not_le.2 h2)

theorem newest_eq_some {log : List α} {e : α} :
    newest stamp log = some e ↔ IsNewest stamp log e := by
  rcases newest_spec stamp log with ⟨rfl, hnone⟩ | ⟨b, hb, hnewest⟩
  · rw [hnone]
    constructor
    · intro h
      cases h
    · intro h
      cases h.mem
  · rw [hb]
    constructor
    · intro h
      cases h
      exact hnewest
    · intro h
      rw [hnewest.unique h]

theorem newest_eq_none {log : List α} : newest stamp log = none ↔ log = [] := by
  rcases newest_spec stamp log with ⟨rfl, hnone⟩ | ⟨b, hb, hnewest⟩
  · exact ⟨fun _ => rfl, fun _ => hnone⟩
  · rw [hb]
    constructor
    · intro h
      cases h
    · rintro rfl
      cases hnewest.mem

/-! ## Stamps that never step back -/

/-- No entry is stamped earlier than one appended before it. -/
def Ordered (stamp : α → τ) (log : List α) : Prop := log.Pairwise fun a b => stamp a ≤ stamp b

/-- Where stamps never step back the newest entry is the last one. -/
theorem newest_of_ordered {log : List α} (h : Ordered stamp log) :
    newest stamp log = log.getLast? := by
  induction log using List.reverseRecOn with
  | nil => rfl
  | append_singleton log e _ =>
      rw [List.getLast?_concat, newest_eq_some]
      have hle := (List.pairwise_append.1 h).2.2
      exact ⟨log, [], rfl, fun x hx => hle x hx e List.mem_cons_self,
        fun _ hx => absurd hx List.not_mem_nil⟩

theorem Ordered.filter {log : List α} (h : Ordered stamp log) (p : α → Bool) :
    Ordered stamp (log.filter p) := List.Pairwise.filter p h

theorem ordered_append {log more : List α} :
    Ordered stamp (log ++ more) ↔
      Ordered stamp log ∧ Ordered stamp more ∧ ∀ a ∈ log, ∀ b ∈ more, stamp a ≤ stamp b :=
  List.pairwise_append

/-! ## Stamps drawn from a clock -/

/-- The entries were stamped by successive readings of the clock, all of them
taken from the `lo`-th on and before the `hi`-th. -/
def Drawn (stamp : α → τ) (clock : Nat → τ) : Nat → List α → Nat → Prop
  | lo, [], hi => lo ≤ hi
  | lo, e :: log, hi => ∃ n, lo ≤ n ∧ stamp e = clock n ∧ Drawn stamp clock (n + 1) log hi

section Drawn

variable {clock : Nat → τ}

omit [LinearOrder τ] in
theorem Drawn.le {lo hi : Nat} {log : List α} (h : Drawn stamp clock lo log hi) : lo ≤ hi := by
  induction log generalizing lo with
  | nil => exact h
  | cons e log ih =>
      obtain ⟨n, hlo, -, hrest⟩ := h
      have := ih hrest
      omega

omit [LinearOrder τ] in
theorem Drawn.append {lo mid hi : Nat} {log more : List α} (h : Drawn stamp clock lo log mid)
    (h' : Drawn stamp clock mid more hi) : Drawn stamp clock lo (log ++ more) hi := by
  induction log generalizing lo with
  | nil =>
      cases more with
      | nil => exact le_trans h h'
      | cons e more =>
          obtain ⟨n, hn, he, hrest⟩ := h'
          exact ⟨n, le_trans h hn, he, hrest⟩
  | cons e log ih =>
      obtain ⟨n, hn, he, hrest⟩ := h
      exact ⟨n, hn, he, ih hrest⟩

omit [LinearOrder τ] in
theorem Drawn.singleton {n lo hi : Nat} {e : α} (he : stamp e = clock n) (hlo : lo ≤ n)
    (hhi : n < hi) : Drawn stamp clock lo [e] hi := ⟨n, hlo, he, hhi⟩

theorem Drawn.bounds (hclock : Monotone clock) {lo hi : Nat} {log : List α}
    (h : Drawn stamp clock lo log hi) {e : α} (he : e ∈ log) :
    clock lo ≤ stamp e ∧ stamp e ≤ clock hi := by
  induction log generalizing lo with
  | nil => cases he
  | cons e' log ih =>
      obtain ⟨n, hn, hstamp, hrest⟩ := h
      have hhi := hrest.le
      rcases List.mem_cons.1 he with rfl | he
      · rw [hstamp]
        exact ⟨hclock hn, hclock (by omega)⟩
      · obtain ⟨hl, hh⟩ := ih hrest he
        exact ⟨le_trans (hclock (by omega)) hl, hh⟩

/-- A clock that never steps back stamps in order. -/
theorem Drawn.ordered (hclock : Monotone clock) {lo hi : Nat} {log : List α}
    (h : Drawn stamp clock lo log hi) : Ordered stamp log := by
  induction log generalizing lo with
  | nil => exact List.Pairwise.nil
  | cons e log ih =>
      obtain ⟨n, -, hstamp, hrest⟩ := h
      refine List.Pairwise.cons (fun e' he' => ?_) (ih hrest)
      rw [hstamp]
      exact le_trans (hclock (Nat.le_succ n)) (hrest.bounds hclock he').1

end Drawn

/-! ## The whole log in the reader's order -/

theorem mem_newestFirst {log : List α} {e : α} : e ∈ newestFirst stamp log ↔ e ∈ log := by
  rw [newestFirst, List.mem_reverse]
  exact (List.perm_insertionSort _ log).mem_iff

theorem newestFirst_perm (log : List α) : (newestFirst stamp log).Perm log :=
  (List.reverse_perm _).trans (List.perm_insertionSort _ log)

/-! ## Sorting and selecting

A stable sort keeps the order of what compares equal, so selecting entries and
sorting them may be exchanged. -/

theorem filter_orderedInsert {r : α → α → Prop} [DecidableRel r] [IsTrans α r] (p : α → Bool)
    (a : α) {l : List α} (hl : l.Pairwise r) :
    (l.orderedInsert r a).filter p =
      if p a then (l.filter p).orderedInsert r a else l.filter p := by
  induction l with
  | nil =>
      rw [List.orderedInsert_nil, List.filter_cons, List.filter_nil, List.orderedInsert_nil]
  | cons b l ih =>
      obtain ⟨hb, hl⟩ := List.pairwise_cons.1 hl
      rw [List.orderedInsert_cons]
      by_cases hab : r a b
      · rw [if_pos hab, List.filter_cons]
        split
        · -- everything the sorted list still holds is behind `a`
          cases hrest : (b :: l).filter p with
          | nil => rfl
          | cons c rest =>
              have hc : c ∈ (b :: l).filter p := by
                rw [hrest]
                exact List.mem_cons_self
              have hc := (List.mem_filter.1 hc).1
              have hac : r a c := by
                rcases List.mem_cons.1 hc with rfl | hc
                · exact hab
                · exact IsTrans.trans a b c hab (hb c hc)
              rw [List.orderedInsert_cons, if_pos hac]
        · rfl
      · rw [if_neg hab, List.filter_cons, ih hl, List.filter_cons]
        split
        · split
          · rw [List.orderedInsert_cons, if_neg hab]
          · rfl
        · rfl

theorem filter_insertionSort {r : α → α → Prop} [DecidableRel r] [IsTrans α r]
    [Std.Total r] (p : α → Bool) (l : List α) :
    (l.insertionSort r).filter p = (l.filter p).insertionSort r := by
  induction l with
  | nil => rfl
  | cons a l ih =>
      rw [List.insertionSort_cons, filter_orderedInsert p a (List.pairwise_insertionSort r l), ih,
        List.filter_cons]
      split
      · rfl
      · rfl

instance stamp_isTrans : IsTrans α fun a b => stamp a ≤ stamp b := ⟨fun _ _ _ => le_trans⟩

instance stamp_total : Std.Total fun a b : α => stamp a ≤ stamp b :=
  ⟨fun a b => le_total (stamp a) (stamp b)⟩

theorem filter_newestFirst (p : α → Bool) (log : List α) :
    (newestFirst stamp log).filter p = newestFirst stamp (log.filter p) := by
  rw [newestFirst, List.filter_reverse, filter_insertionSort, newestFirst]

/-- Of two logs one after the other, the later one's entries are preferred. -/
theorem newest_cons (e : α) (log : List α) :
    newest stamp (e :: log) = (newest stamp log).elim (some e)
      fun b => if stamp e ≤ stamp b then some b else some e := by
  induction log using List.reverseRecOn with
  | nil => rfl
  | append_singleton log b ih =>
      rw [← List.cons_append, newest_append_singleton, newest_append_singleton, ih]
      cases newest stamp log with
      | none => rfl
      | some c =>
          show prefer stamp (if stamp e ≤ stamp c then some c else some e) b =
            (prefer stamp (some c) b).elim (some e) _
          by_cases hec : stamp e ≤ stamp c
          · rw [if_pos hec]
            by_cases hcb : stamp c ≤ stamp b
            · simp [prefer, hcb, le_trans hec hcb]
            · simp [prefer, hcb, hec]
          · rw [if_neg hec]
            by_cases heb : stamp e ≤ stamp b
            · have hcb : stamp c ≤ stamp b := le_of_lt (lt_of_lt_of_le (not_le.1 hec) heb)
              simp [prefer, heb, hcb]
            · by_cases hcb : stamp c ≤ stamp b
              · simp [prefer, heb, hcb]
              · simp [prefer, heb, hcb, hec]

theorem getLast?_orderedInsert (e : α) {l : List α} (hl : l.Pairwise fun a b => stamp a ≤ stamp b) :
    (l.orderedInsert (fun a b => stamp a ≤ stamp b) e).getLast? = l.getLast?.elim (some e)
      fun b => if stamp e ≤ stamp b then some b else some e := by
  induction l with
  | nil => rfl
  | cons b l ih =>
      obtain ⟨hb, hl⟩ := List.pairwise_cons.1 hl
      rw [List.orderedInsert_cons]
      cases hlast : l.getLast? with
      | none =>
          rw [List.getLast?_eq_none_iff.1 hlast]
          split
          · next hle => simp [hle]
          · next hle => simp [hle]
      | some c =>
          have hne : l ≠ [] := by
            intro hnil
            rw [hnil] at hlast
            cases hlast
          have hcons : (b :: l).getLast? = some c := by
            rw [List.getLast?_cons, hlast]
            rfl
          rw [hcons, Option.elim_some]
          split
          · next hle =>
              rw [List.getLast?_cons, hcons, if_pos (le_trans hle (hb c (List.mem_of_getLast? hlast)))]
              rfl
          · rw [List.getLast?_cons, ih hl, hlast, Option.elim_some]
            split
            · rfl
            · rfl

/-- Reading the first entry of the reader's order. -/
theorem head?_newestFirst (log : List α) : (newestFirst stamp log).head? = newest stamp log := by
  rw [newestFirst, List.head?_reverse]
  induction log with
  | nil => rfl
  | cons e log ih =>
      rw [List.insertionSort_cons, getLast?_orderedInsert e (List.pairwise_insertionSort _ log), ih,
        newest_cons]

end Log
