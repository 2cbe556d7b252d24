import MiniCodeAgent.Greedy
import MiniCodeAgent.Proofs.RetentionRefusal
import Mathlib.Algebra.BigOperators.Group.List.Basic

/-!
# What a new session is told

The selection is a greedy pass over the eligible records, and its budgets are such
that fewer records fit wherever more do: separators count, but order does not
(`withinBudget_hereditary`). Its account is exact, and it says so when a core record
is left out.

The order puts the pinned records first, of either class, and only then goes by
class. So a durable record that is pinned comes before a core record that is not,
and may take its room: the core records are served first just where what they take
alone and what the pinned durable records take behind the pinned core ones go in
together (`recallSound_iff`).
-/

namespace MemoryCore

open MiniCodeAgent

variable {F : Type} [Json.PyFloat F] {policy : ContinuityRecallPolicy}

/-! ## The budgets -/

/-- The length of the texts, joined by separators of one character. -/
def joinedChars (items : List (ContinuityMemory F)) : Int :=
  sumChars items + ((items.length - 1 : Nat) : Int)

variable (policy) in
def WithinBudget (items : List (ContinuityMemory F)) : Prop :=
  (items.length : Int) ≤ policy.maxItems ∧ joinedChars items ≤ policy.maxChars

instance (items : List (ContinuityMemory F)) : Decidable (WithinBudget policy items) :=
  inferInstanceAs (Decidable (_ ∧ _))

theorem length_intercalate (separator : Char) (items : List (ContinuityMemory F)) :
    ((String.intercalate (String.singleton separator) (items.map (·.text))).length : Int) =
      joinedChars items := by
  induction items with
  | nil => rfl
  | cons item items ih =>
      cases items with
      | nil => simp [joinedChars, ContinuityMemory.chars]
      | cons next items =>
          rw [List.map_cons] at ih
          rw [List.map_cons, List.map_cons, String.intercalate_cons_cons, String.length_append,
            String.length_append]
          rw [joinedChars] at ih ⊢
          rw [sumChars_cons, ContinuityMemory.chars]
          simp only [List.length_cons, String.length_singleton] at ih ⊢
          omega

theorem withinBudget_hereditary : Greedy.Hereditary (WithinBudget (F := F) policy) := by
  intro xs ys hsub h
  obtain ⟨zs, hperm, hsub⟩ := hsub
  have hlength := hsub.length_le
  have hchars := sumChars_sublist hsub
  have hsame : sumChars zs = sumChars xs := List.Perm.sum_eq (hperm.map _)
  rw [hperm.length_eq] at hlength
  obtain ⟨hitems, hjoined⟩ := h
  unfold joinedChars at hjoined
  refine ⟨by omega, ?_⟩
  unfold joinedChars
  omega

theorem withinBudget_nil : WithinBudget policy ([] : List (ContinuityMemory F)) := by
  have hchecked := raiseIf_ok.1 policy.checked
  refine ⟨?_, ?_⟩
  · simp only [List.length_nil, Int.ofNat_zero]
    omega
  · simp only [joinedChars, sumChars_nil, List.length_nil]
    omega

/-! ## The pass -/

theorem joinedChars_append (items : List (ContinuityMemory F)) (item : ContinuityMemory F) :
    joinedChars (items ++ [item]) =
      joinedChars items + ((if items.isEmpty then 0 else 1) + item.chars) := by
  cases items with
  | nil => simp [joinedChars]
  | cons first items =>
      simp only [joinedChars, sumChars_append, sumChars_singleton, List.length_append,
        List.length_cons, List.length_nil, List.isEmpty_cons, Bool.false_eq_true, if_false]
      omega

theorem offer_eq (used : List (ContinuityMemory F)) (item : ContinuityMemory F) :
    Selected.offer policy ⟨used, joinedChars used⟩ item =
      if WithinBudget policy (used ++ [item]) then ⟨used ++ [item], joinedChars (used ++ [item])⟩
      else ⟨used, joinedChars used⟩ := by
  have hjoined := joinedChars_append used item
  unfold Selected.offer
  dsimp only
  by_cases hitems : policy.maxItems ≤ (used.length : Int)
  · have hnot : ¬ WithinBudget policy (used ++ [item]) := by
      intro h
      have hlength := h.1
      rw [List.length_append] at hlength
      simp only [List.length_singleton] at hlength
      omega
    rw [if_pos hitems, if_neg hnot]
  · rw [if_neg hitems]
    by_cases hchars : policy.maxChars <
        joinedChars used + (if used.isEmpty then 0 else 1) + item.chars
    · have hnot : ¬ WithinBudget policy (used ++ [item]) := by
        intro h
        have hle := h.2
        omega
      rw [if_pos hchars, if_neg hnot]
    · have hfits : WithinBudget policy (used ++ [item]) := by
        refine ⟨?_, by omega⟩
        rw [List.length_append]
        simp only [List.length_singleton]
        omega
      rw [if_neg hchars, if_pos hfits, hjoined]

/-- The loop is a greedy pass, with an exact account of it. -/
theorem selectAll_eq (policy : ContinuityRecallPolicy) (items : List (ContinuityMemory F)) :
    selectAll policy items = ⟨Greedy.taken (WithinBudget policy) [] items,
      joinedChars (Greedy.taken (WithinBudget policy) [] items)⟩ := by
  have hloop : ∀ (used items : List (ContinuityMemory F)),
      items.foldl (Selected.offer policy) ⟨used, joinedChars used⟩ =
        ⟨used ++ Greedy.taken (WithinBudget policy) used items,
          joinedChars (used ++ Greedy.taken (WithinBudget policy) used items)⟩ := by
    intro used items
    induction items generalizing used with
    | nil => simp [Greedy.taken]
    | cons item items ih =>
        rw [List.foldl_cons, offer_eq, Greedy.taken]
        by_cases hfits : WithinBudget policy (used ++ [item])
        · rw [if_pos hfits, if_pos hfits, ih, ← List.append_cons]
        · rw [if_neg hfits, if_neg hfits, ih]
  exact hloop [] items

/-! ## The order -/

/-- A list in which what has a property stands first is cut by it. -/
theorem filter_append_filter {α : Type} {p : α → Bool} {xs : List α}
    (h : xs.Pairwise fun a b => p b = true → p a = true) :
    xs = xs.filter p ++ xs.filter fun x => !p x := by
  induction xs with
  | nil => rfl
  | cons x xs ih =>
      obtain ⟨hfirst, hrest⟩ := List.pairwise_cons.1 h
      cases hx : p x with
      | true =>
          rw [List.filter_cons_of_pos hx, List.filter_cons_of_neg (by simp [hx]), List.cons_append,
            ← ih hrest]
      | false =>
          have hnone : xs.filter p = [] := by
            refine List.filter_eq_nil_iff.2 fun y hy hpy => ?_
            rw [hfirst y hy hpy] at hx
            cases hx
          have hall : (xs.filter fun y => !p y) = xs := by
            have hsplit := ih hrest
            rwa [hnone, List.nil_append, eq_comm] at hsplit
          rw [List.filter_cons_of_neg (by simp [hx]), hnone, List.filter_cons_of_pos (by simp [hx]),
            hall, List.nil_append]

theorem pairwise_recallOrder (items : List (ContinuityMemory F)) :
    (recallOrder items).Pairwise fun a b => recallKey a ≤ recallKey b := by
  have htotal : Std.Total fun a b : ContinuityMemory F => recallKey a ≤ recallKey b :=
    ⟨fun a b => le_total (recallKey a) (recallKey b)⟩
  have htrans : IsTrans (ContinuityMemory F) fun a b => recallKey a ≤ recallKey b :=
    ⟨fun _ _ _ hab hbc => hab.trans hbc⟩
  exact List.pairwise_insertionSort _ items

theorem recallOrder_perm (items : List (ContinuityMemory F)) : (recallOrder items).Perm items :=
  List.perm_insertionSort _ items

theorem pinned_of_le {a b : ContinuityMemory F} (h : recallKey a ≤ recallKey b)
    (hb : b.pinned = true) : a.pinned = true := by
  rcases Prod.Lex.toLex_le_toLex.1 h with h | h
  · cases ha : a.pinned with
    | true => rfl
    | false => simp [ha, hb] at h
  · cases ha : a.pinned with
    | true => rfl
    | false =>
        have hfirst := h.1
        simp [ha, hb] at hfirst

theorem rank_le_of_le {a b : ContinuityMemory F} (h : recallKey a ≤ recallKey b)
    (hpinned : a.pinned = b.pinned) : b.retentionClass.rank ≤ a.retentionClass.rank := by
  rcases Prod.Lex.toLex_le_toLex.1 h with h | h
  · simp [hpinned] at h
  · rcases Prod.Lex.toLex_le_toLex.1 h.2 with h | h
    · have hlt : -(a.retentionClass.rank : ℤ) < -(b.retentionClass.rank : ℤ) := h
      omega
    · have heq : -(a.retentionClass.rank : ℤ) = -(b.retentionClass.rank : ℤ) := h.1
      omega

def isCore (item : ContinuityMemory F) : Bool := item.retentionClass = .core

theorem isCore_of_le {a b : ContinuityMemory F} (h : recallKey a ≤ recallKey b)
    (hpinned : a.pinned = b.pinned) (hb : isCore b = true) : isCore a = true := by
  have hrank := rank_le_of_le h hpinned
  have hcore : b.retentionClass = .core := of_decide_eq_true hb
  rw [hcore] at hrank
  cases ha : a.retentionClass with
  | core => exact decide_eq_true ha
  | durable =>
      rw [ha] at hrank
      exact absurd hrank (by decide)
  | episodic =>
      rw [ha] at hrank
      exact absurd hrank (by decide)
  | transient =>
      rw [ha] at hrank
      exact absurd hrank (by decide)

section

variable (policy : ContinuityRecallPolicy) (records : List (ContinuityMemory F))

/-- The eligible records in the order of the pass. -/
def inOrder : List (ContinuityMemory F) := recallOrder (records.filter (eligible policy))

def pinnedInOrder : List (ContinuityMemory F) := (inOrder policy records).filter (·.pinned)

def otherInOrder : List (ContinuityMemory F) := (inOrder policy records).filter (!·.pinned)

theorem filter_isCore_append {items : List (ContinuityMemory F)}
    (hsorted : items.Pairwise fun a b => recallKey a ≤ recallKey b)
    (hpinned : ∀ a ∈ items, ∀ b ∈ items, a.pinned = b.pinned) :
    items = items.filter isCore ++ items.filter fun item => !isCore item :=
  filter_append_filter (hsorted.imp_of_mem fun ha hb h => isCore_of_le h (hpinned _ ha _ hb))

theorem pinnedInOrder_eq : pinnedInOrder policy records =
    (pinnedInOrder policy records).filter isCore ++
      (pinnedInOrder policy records).filter fun item => !isCore item := by
  refine filter_isCore_append ((pairwise_recallOrder _).sublist List.filter_sublist) ?_
  intro a ha b hb
  rw [(List.mem_filter.1 ha).2, (List.mem_filter.1 hb).2]

theorem otherInOrder_eq : otherInOrder policy records =
    (otherInOrder policy records).filter isCore ++
      (otherInOrder policy records).filter fun item => !isCore item := by
  refine filter_isCore_append ((pairwise_recallOrder _).sublist List.filter_sublist) ?_
  intro a ha b hb
  have ha := (List.mem_filter.1 ha).2
  have hb := (List.mem_filter.1 hb).2
  rw [Bool.not_eq_true'] at ha hb
  rw [ha, hb]

/-- The pinned core records, the pinned others, the core records that are not pinned,
and what remains. -/
theorem inOrder_eq : inOrder policy records =
    (pinnedInOrder policy records).filter isCore ++
      (pinnedInOrder policy records).filter (fun item => !isCore item) ++
      (otherInOrder policy records).filter isCore ++
      (otherInOrder policy records).filter fun item => !isCore item := by
  have hsorted := pairwise_recallOrder (records.filter (eligible policy))
  have hcut : inOrder policy records =
      pinnedInOrder policy records ++ otherInOrder policy records :=
    filter_append_filter (hsorted.imp fun h => pinned_of_le h)
  rw [List.append_assoc, ← otherInOrder_eq, ← pinnedInOrder_eq]
  exact hcut

/-! ## Whether the core is served first -/

/-- The core records that are taken where no durable record is offered. -/
def coreAlone : List (ContinuityMemory F) :=
  (selectAll policy ((inOrder policy records).filter isCore)).items

/-- The durable records that are taken where only pinned records are offered. -/
def pinnedDurable : List (ContinuityMemory F) :=
  (selectAll policy (pinnedInOrder policy records)).items.filter fun item => !isCore item

/-- A selection keeps the budgets and accounts for what it takes, it says so where a
core record is missing, and none is missing that would have been taken with no durable
record there. -/
structure RecallSound : Prop where
  items_le : ((selectContinuityContext records policy).items.length : Int) ≤ policy.maxItems
  chars_le : (selectContinuityContext records policy).contextChars ≤ policy.maxChars
  exact : ∀ separator, (selectContinuityContext records policy).contextChars =
    ((String.intercalate (String.singleton separator)
      ((selectContinuityContext records policy).items.map (·.text))).length : Int)
  complete : (selectContinuityContext records policy).requiresCompaction = false →
    ∀ item ∈ records, eligible policy item = true → item.retentionClass = .core →
      item.recordId ∈ (selectContinuityContext records policy).selectedRecordIds
  core_first : ∀ item ∈ records, eligible policy item = true → item.retentionClass = .core →
    item.recordId ∉ (selectContinuityContext records policy).selectedRecordIds →
      item ∉ coreAlone policy records

variable {records}

theorem mem_inOrder {item : ContinuityMemory F} :
    item ∈ inOrder policy records ↔ item ∈ records ∧ eligible policy item = true := by
  rw [inOrder, (recallOrder_perm _).mem_iff, List.mem_filter]

theorem uniqueIds_inOrder (hids : UniqueIds records) : UniqueIds (inOrder policy records) :=
  ((recallOrder_perm _).map _).nodup_iff.2 (hids.filter _)

/-- What is taken in the end. -/
theorem selectedItems_eq : (selectAll policy (inOrder policy records)).items =
    Greedy.taken (WithinBudget policy) [] (inOrder policy records) := by
  rw [selectAll_eq]

theorem taken_within (items : List (ContinuityMemory F)) :
    WithinBudget policy (Greedy.taken (WithinBudget policy) [] items) := by
  have hnil : WithinBudget policy ([] : List (ContinuityMemory F)) := withinBudget_nil
  have h := Greedy.fits_taken hnil items
  rwa [List.nil_append] at h

theorem coreAlone_eq : coreAlone policy records = Greedy.taken (WithinBudget policy) []
    ((pinnedInOrder policy records).filter isCore ++
      (otherInOrder policy records).filter isCore) := by
  have hcore : (inOrder policy records).filter isCore =
      (pinnedInOrder policy records).filter isCore ++
        (otherInOrder policy records).filter isCore := by
    rw [inOrder_eq]
    simp only [List.filter_append, List.filter_filter, Bool.and_self, Bool.and_not_self,
      List.filter_false, List.append_nil]
  rw [coreAlone, hcore, selectAll_eq]

theorem pinnedDurable_eq : pinnedDurable policy records = Greedy.taken (WithinBudget policy)
    (Greedy.taken (WithinBudget policy) [] ((pinnedInOrder policy records).filter isCore))
    ((pinnedInOrder policy records).filter fun item => !isCore item) := by
  have hcore : ((Greedy.taken (WithinBudget policy) []
      ((pinnedInOrder policy records).filter isCore)).filter fun item => !isCore item) = [] := by
    refine List.filter_eq_nil_iff.2 fun item hitem => ?_
    have hmem := (Greedy.taken_sublist _ _ _).subset hitem
    simp [(List.mem_filter.1 hmem).2]
  have hrest : ∀ used : List (ContinuityMemory F),
      ((Greedy.taken (WithinBudget policy) used
        ((pinnedInOrder policy records).filter fun item => !isCore item)).filter
          fun item => !isCore item) = Greedy.taken (WithinBudget policy) used
        ((pinnedInOrder policy records).filter fun item => !isCore item) := by
    intro used
    refine List.filter_eq_self.2 fun item hitem => ?_
    exact (List.mem_filter.1 ((Greedy.taken_sublist _ _ _).subset hitem)).2
  rw [pinnedDurable, selectAll_eq]
  dsimp only
  rw [pinnedInOrder_eq, Greedy.taken_append, List.nil_append, List.filter_append,
    ← pinnedInOrder_eq, hcore, hrest, List.nil_append]

theorem mem_selected_iff (hids : UniqueIds records) {item : ContinuityMemory F}
    (hitem : item ∈ records) (heligible : eligible policy item = true) :
    item.recordId ∈ (selectContinuityContext records policy).selectedRecordIds ↔
      item ∈ Greedy.taken (WithinBudget policy) [] (inOrder policy records) := by
  rw [← selectedItems_eq]
  constructor
  · intro h
    obtain ⟨other, hother, heq⟩ := List.mem_map.1 h
    have hmem : other ∈ inOrder policy records := by
      have htaken : other ∈ (selectAll policy (inOrder policy records)).items := hother
      rw [selectedItems_eq] at htaken
      exact (Greedy.taken_sublist _ _ _).subset htaken
    have hsame := (uniqueIds_inOrder policy hids).eq hmem
      ((mem_inOrder policy).2 ⟨hitem, heligible⟩) heq
    rw [← hsame]
    exact hother
  · intro h
    exact List.mem_map_of_mem h

theorem selection_account (records : List (ContinuityMemory F)) :
    ((selectContinuityContext records policy).items.length : Int) ≤ policy.maxItems ∧
    (selectContinuityContext records policy).contextChars ≤ policy.maxChars ∧
    ∀ separator, (selectContinuityContext records policy).contextChars =
      ((String.intercalate (String.singleton separator)
        ((selectContinuityContext records policy).items.map (·.text))).length : Int) := by
  have hwithin := taken_within policy (inOrder policy records)
  have heq := selectAll_eq policy (inOrder policy records)
  have hitems : (selectContinuityContext records policy).items =
      (Greedy.taken (WithinBudget policy) [] (inOrder policy records)).map recallItem := by
    rw [← selectedItems_eq]
    rfl
  have hchars : (selectContinuityContext records policy).contextChars =
      joinedChars (Greedy.taken (WithinBudget policy) [] (inOrder policy records)) := by
    have hself : (selectAll policy (inOrder policy records)).contextChars = joinedChars
        (Greedy.taken (WithinBudget policy) [] (inOrder policy records)) := by rw [heq]
    exact hself
  rw [hitems, hchars]
  refine ⟨by rw [List.length_map]; exact hwithin.1, hwithin.2, fun separator => ?_⟩
  rw [← length_intercalate separator, List.map_map]
  rfl

theorem selection_complete (records : List (ContinuityMemory F))
    (h : (selectContinuityContext records policy).requiresCompaction = false)
    {item : ContinuityMemory F} (hitem : item ∈ records) (heligible : eligible policy item = true)
    (hcore : item.retentionClass = .core) :
    item.recordId ∈ (selectContinuityContext records policy).selectedRecordIds := by
  by_contra hmissing
  have hnone : ((inOrder policy records).filter fun item => item.retentionClass = .core &&
      item.recordId ∉ idsOf (selectAll policy (inOrder policy records)).items) = [] := by
    have hempty : (!(((inOrder policy records).filter fun item => item.retentionClass = .core &&
        item.recordId ∉ idsOf (selectAll policy (inOrder policy records)).items).map
          (·.recordId)).isEmpty) = false := h
    rwa [Bool.not_eq_false', List.isEmpty_iff, List.map_eq_nil_iff] at hempty
  refine List.filter_eq_nil_iff.1 hnone item ((mem_inOrder policy).2 ⟨hitem, heligible⟩) ?_
  have hnot : item.recordId ∉ idsOf (selectAll policy (inOrder policy records)).items := by
    intro hin
    obtain ⟨other, hother, heq⟩ := mem_idsOf.1 hin
    apply hmissing
    rw [← heq]
    exact List.mem_map_of_mem hother
  simp [hcore, hnot]

end

/-- The core records are served first where what they take alone and what the pinned
durable records take behind the pinned core ones are within the budgets together. All
else that is asked of a selection holds of every one. -/
theorem recallSound_iff (records : List (ContinuityMemory F)) (hids : UniqueIds records)
    (policy : ContinuityRecallPolicy) : RecallSound policy records ↔
      WithinBudget policy (coreAlone policy records ++ pinnedDurable policy records) := by
  have hnodup : ((pinnedInOrder policy records).filter isCore ++
      (pinnedInOrder policy records).filter (fun item => !isCore item) ++
      (otherInOrder policy records).filter isCore).Nodup := by
    have hall := (uniqueIds_inOrder policy hids).of_map
    rw [inOrder_eq] at hall
    exact (List.nodup_append.1 hall).1
  have hhereditary : @Greedy.Hereditary (ContinuityMemory F) (WithinBudget policy) :=
    withinBudget_hereditary
  have hbetween := @Greedy.takes_between_iff _ _ _ hhereditary withinBudget_nil _ _ _
    ((otherInOrder policy records).filter fun item => !isCore item) hnodup
  rw [← coreAlone_eq, ← pinnedDurable_eq, ← inOrder_eq] at hbetween
  have hcore : ∀ item ∈ coreAlone policy records, item ∈ records ∧
      eligible policy item = true ∧ item.retentionClass = .core := by
    intro item hitem
    rw [coreAlone, selectAll_eq] at hitem
    obtain ⟨hmem, hclass⟩ := List.mem_filter.1 ((Greedy.taken_sublist _ _ _).subset hitem)
    obtain ⟨hrecord, heligible⟩ := (mem_inOrder policy).1 hmem
    exact ⟨hrecord, heligible, of_decide_eq_true hclass⟩
  rw [← hbetween]
  constructor
  · intro h item hitem
    obtain ⟨hrecord, heligible, hclass⟩ := hcore item hitem
    by_contra hmissing
    exact h.core_first item hrecord heligible hclass
      (mt (mem_selected_iff policy hids hrecord heligible).1 hmissing) hitem
  · intro h
    obtain ⟨hitems, hchars, hexact⟩ := selection_account policy records
    refine ⟨hitems, hchars, hexact, fun hcomplete item hitem heligible hclass =>
      selection_complete policy records hcomplete hitem heligible hclass, ?_⟩
    intro item hitem heligible hclass hmissing halone
    exact hmissing ((mem_selected_iff policy hids hitem heligible).2 (h item halone))

namespace Recall

theorem name_ok : (sampleFields "name" .core "user" true).postInit = .ok () := rfl

theorem likes_ok :
    { sampleFields "likes" .durable "" true with pinned := true }.postInit = .ok () := rfl

def name : ContinuityMemory Unit := ⟨_, name_ok⟩
def likes : ContinuityMemory Unit := ⟨_, likes_ok⟩

/-- Room for one record. -/
def single : ContinuityRecallPolicy where
  maxItems := 1
  maxChars := 3000
  includeDurable := true
  checked := rfl

/-- The one place goes to the pinned durable record, and the core record is left out. -/
theorem core_not_first : ¬ RecallSound single [name, likes] := by
  intro h
  have hmissing : name.recordId ∉
      (selectContinuityContext [name, likes] single).selectedRecordIds := by
    decide +kernel
  have halone : coreAlone single [name, likes] = [name] := rfl
  refine h.core_first name List.mem_cons_self rfl rfl hmissing ?_
  rw [halone]
  exact List.mem_singleton_self name

theorem recallSound_iff_sample : RecallSound single [name, likes] ↔
    WithinBudget single (coreAlone single [name, likes] ++ pinnedDurable single [name, likes]) :=
  recallSound_iff [name, likes] (by decide : ([name, likes].map (·.recordId)).Nodup) single

end Recall

end MemoryCore
