import Mathlib.Data.List.Perm.Subperm

/-!
# Greedy passes

A pass over a list takes each element that still fits beside what it has taken
and goes on without the others. Where what fits does not depend on the order
(`Hereditary`: with some elements all fewer of them fit), the pass is settled by
what is used up when it starts: more of it can only cost, and it costs nothing as
long as everything fits together (`taken_beside`).
-/

namespace Greedy

variable {α : Type} (fits : List α → Prop) [DecidablePred fits]

/-- What a pass over the elements takes, beside what is used up already. -/
def taken : List α → List α → List α
  | _, [] => []
  | used, x :: xs =>
    if fits (used ++ [x]) then x :: taken (used ++ [x]) xs else taken used xs

/-- What fits, all fewer elements of it fit, in any order. -/
def Hereditary : Prop := ∀ xs ys, List.Subperm xs ys → fits ys → fits xs

theorem taken_sublist (used xs : List α) : (taken fits used xs).Sublist xs := by
  induction xs generalizing used with
  | nil => exact List.Sublist.refl _
  | cons x xs ih =>
      rw [taken]
      by_cases hx : fits (used ++ [x])
      · rw [if_pos hx]
        exact (ih _).cons_cons x
      · rw [if_neg hx]
        exact (ih _).cons x

theorem taken_append (used xs ys : List α) : taken fits used (xs ++ ys) =
    taken fits used xs ++ taken fits (used ++ taken fits used xs) ys := by
  induction xs generalizing used with
  | nil => simp [taken]
  | cons x xs ih =>
      rw [List.cons_append, taken, taken]
      by_cases hx : fits (used ++ [x])
      · rw [if_pos hx, if_pos hx, ih, List.append_assoc, List.singleton_append, List.cons_append]
      · rw [if_neg hx, if_neg hx, ih]

variable {fits}

/-- A pass never takes more than fits. -/
theorem fits_taken {used : List α} (h : fits used) (xs : List α) :
    fits (used ++ taken fits used xs) := by
  induction xs generalizing used with
  | nil => simpa [taken] using h
  | cons x xs ih =>
      rw [taken]
      by_cases hx : fits (used ++ [x])
      · rw [if_pos hx, List.append_cons]
        exact ih hx
      · rw [if_neg hx]
        exact ih h

/-- What a pass takes it takes beside more as well, where all of it fits together. -/
theorem taken_beside (hfits : Hereditary fits) {used more : List α} (hmore : used.Subperm more)
    {xs : List α} (h : fits (more ++ taken fits used xs)) :
    taken fits more xs = taken fits used xs := by
  induction xs generalizing used more with
  | nil => rfl
  | cons x xs ih =>
      rw [taken] at h
      rw [taken, taken]
      have hgrow : (used ++ [x]).Subperm (more ++ [x]) := hmore.append (List.Subperm.refl [x])
      by_cases hx : fits (used ++ [x])
      · rw [if_pos hx, List.append_cons] at h
        have hx' : fits (more ++ [x]) :=
          hfits _ _ (List.sublist_append_left _ _).subperm h
        rw [if_pos hx, if_pos hx', ih hgrow h]
      · have hx' : ¬ fits (more ++ [x]) := fun h' => hx (hfits _ _ hgrow h')
        rw [if_neg hx] at h
        rw [if_neg hx, if_neg hx', ih hmore h]

/-- A pass over two lists that others are put between takes what it takes without
them just where that and what the first of the others takes fit together. -/
theorem takes_between_iff (hfits : Hereditary fits) (hnil : fits [])
    {first between second last : List α} (hnodup : (first ++ between ++ second).Nodup) :
    (∀ x ∈ taken fits [] (first ++ second),
        x ∈ taken fits [] (first ++ between ++ second ++ last)) ↔
      fits (taken fits [] (first ++ second) ++ taken fits (taken fits [] first) between) := by
  have hpass : taken fits [] (first ++ between ++ second ++ last) =
      taken fits [] first ++ taken fits (taken fits [] first) between ++
        taken fits (taken fits [] first ++ taken fits (taken fits [] first) between) second ++
        taken fits (taken fits [] (first ++ between ++ second)) last := by
    simp only [taken_append, List.nil_append]
  have halone : taken fits [] (first ++ second) =
      taken fits [] first ++ taken fits (taken fits [] first) second := by
    simp only [taken_append, List.nil_append]
  have hwhole := fits_taken hnil (first ++ between ++ second ++ last)
  rw [List.nil_append] at hwhole
  have hswap : (taken fits [] first ++ taken fits (taken fits [] first) between ++
      taken fits (taken fits [] first) second).Perm
      (taken fits [] (first ++ second) ++ taken fits (taken fits [] first) between) := by
    rw [halone, List.append_assoc, List.append_assoc]
    exact List.perm_append_comm.append_left _
  constructor
  · intro hall
    have hsub : (taken fits [] first ++ taken fits (taken fits [] first) between ++
        taken fits (taken fits [] first) second).Sublist (first ++ between ++ second) :=
      ((taken_sublist _ _ _).append (taken_sublist _ _ _)).append (taken_sublist _ _ _)
    refine hfits _ _ (hswap.symm.subperm.trans ?_) hwhole
    refine (hsub.nodup hnodup).subperm fun x hx => ?_
    rcases List.mem_append.1 hx with hx | hx
    · rw [hpass]
      exact List.mem_append_left _ (List.mem_append_left _ hx)
    · refine hall x ?_
      rw [halone]
      exact List.mem_append_right _ hx
  · intro h x hx
    have hall := hfits _ _ hswap.subperm h
    have hsame := taken_beside hfits
      (List.sublist_append_left (taken fits [] first)
        (taken fits (taken fits [] first) between)).subperm hall
    rw [halone] at hx
    rw [hpass, hsame]
    rcases List.mem_append.1 hx with hx | hx
    · exact List.mem_append_left _ (List.mem_append_left _ (List.mem_append_left _ hx))
    · exact List.mem_append_left _ (List.mem_append_right _ hx)

/-! ## Giving up the first

A list that does not fit gives up its first elements until it does. -/

section Dropped

variable (fits) in
/-- What is given up, from the front, until the rest fits. -/
def dropped : List α → List α
  | [] => []
  | x :: xs => if fits (x :: xs) then [] else x :: dropped xs

theorem dropped_subset (xs : List α) : dropped fits xs ⊆ xs := by
  induction xs with
  | nil => exact List.Subset.refl []
  | cons x xs ih =>
      rw [dropped]
      by_cases hx : fits (x :: xs)
      · rw [if_pos hx]
        exact List.nil_subset _
      · rw [if_neg hx]
        exact List.cons_subset_cons x ih

theorem dropped_eq_nil_iff (xs : List α) : dropped fits xs = [] ↔ xs = [] ∨ fits xs := by
  cases xs with
  | nil => exact ⟨fun _ => Or.inl rfl, fun _ => rfl⟩
  | cons x xs =>
      rw [dropped]
      by_cases hx : fits (x :: xs)
      · rw [if_pos hx]
        exact ⟨fun _ => Or.inr hx, fun _ => rfl⟩
      · rw [if_neg hx]
        simp [hx]

/-- It is the shortest prefix whose rest fits. -/
theorem dropped_spec (hnil : fits []) (xs : List α) :
    ∃ kept, xs = dropped fits xs ++ kept ∧ fits kept ∧
      ∀ before after, xs = before ++ after → before.length < (dropped fits xs).length →
        ¬ fits after := by
  induction xs with
  | nil => exact ⟨[], rfl, hnil, fun _ _ _ hlt => absurd hlt (Nat.not_lt_zero _)⟩
  | cons x xs ih =>
      rw [dropped]
      by_cases hx : fits (x :: xs)
      · rw [if_pos hx]
        exact ⟨x :: xs, rfl, hx, fun _ _ _ hlt => absurd hlt (Nat.not_lt_zero _)⟩
      · obtain ⟨kept, hkept, hfits, hshortest⟩ := ih
        rw [if_neg hx]
        refine ⟨kept, by rw [List.cons_append, ← hkept], hfits, fun before after hsplit hlt => ?_⟩
        cases before with
        | nil =>
            rw [List.nil_append] at hsplit
            rw [← hsplit]
            exact hx
        | cons y before =>
            refine hshortest before after (List.cons.inj hsplit).2 ?_
            rw [List.length_cons, List.length_cons] at hlt
            omega

end Dropped

end Greedy
