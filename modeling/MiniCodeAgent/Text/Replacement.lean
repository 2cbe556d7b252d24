import Mathlib.Data.List.Infix

/-!
# Texts with pieces replaced

`Replaced new cs ds` says that `ds` is `cs` with some pieces taken out and `new`
put in the place of each. What the pieces were does not matter: a text that is
not in `cs` and cannot overlap with `new` is not in `ds` either. So a text that
has been replaced away stays away, whatever is replaced afterwards.
-/

namespace Text

variable {α : Type}

inductive Replaced (new : List α) : List α → List α → Prop
  | nil : Replaced new [] []
  | keep (c : α) {cs ds : List α} (h : Replaced new cs ds) : Replaced new (c :: cs) (c :: ds)
  | piece (old : List α) {cs ds : List α} (h : Replaced new cs ds) :
    Replaced new (old ++ cs) (new ++ ds)

theorem Replaced.refl (new cs : List α) : Replaced new cs cs := by
  induction cs with
  | nil => exact .nil
  | cons c cs ih => exact .keep c ih

/-- Either nothing was taken out or `new` is there. -/
theorem Replaced.eq_or_inside {new cs ds : List α} (h : Replaced new cs ds) :
    ds = cs ∨ new <:+: ds := by
  induction h with
  | nil => exact Or.inl rfl
  | keep c h ih =>
      rcases ih with heq | hin
      · rw [heq]
        exact Or.inl rfl
      · exact Or.inr (hin.trans (List.suffix_cons c _).isInfix)
  | piece old h ih => exact Or.inr (List.prefix_append new _).isInfix

/-- In no text do occurrences of the two overlap: neither is inside the other, and no end of
one is a start of the other. -/
structure Apart (old new : List α) : Prop where
  outside : ¬ old <:+: new
  around : ¬ new <:+: old
  before : ∀ border, border ≠ [] → border <:+ old → ¬ border <+: new
  after : ∀ border, border ≠ [] → border <+: old → ¬ border <:+ new

theorem Apart.ne_nil {old new : List α} (h : Apart old new) : old ≠ [] := by
  intro heq
  rw [heq] at h
  exact h.outside List.nil_infix

/-- Lists without an element in common. -/
theorem apart_of_disjoint {old new : List α} (hold : old ≠ []) (hnew : new ≠ [])
    (h : ∀ c ∈ old, c ∉ new) : Apart old new := by
  have hborder : ∀ border : List α, border ≠ [] → (∀ c ∈ border, c ∈ old) →
      ¬ ∀ c ∈ border, c ∈ new := by
    intro border hne hin hin'
    obtain ⟨c, hc⟩ := List.exists_mem_of_ne_nil border hne
    exact h c (hin c hc) (hin' c hc)
  exact {
    outside := fun hin => hborder old hold (fun _ hc => hc) fun _ hc => hin.subset hc
    around := fun hin => hborder new hnew (fun _ hc => hin.subset hc) fun _ hc => hc
    before := fun border hne hsuffix hstarts => hborder border hne
      (fun _ hc => hsuffix.subset hc) fun _ hc => hstarts.subset hc
    after := fun border hne hstarts hsuffix => hborder border hne
      (fun _ hc => hstarts.subset hc) fun _ hc => hsuffix.subset hc }

/-- What starts in the middle of `new` or right behind it would overlap with it. -/
theorem Apart.not_infix_append {old new ds : List α} (h : Apart old new) (hds : ¬ old <:+: ds) :
    ¬ old <:+: new ++ ds := by
  have hgo : ∀ rest, rest <:+ new → ¬ old <:+: rest ++ ds := by
    intro rest
    induction rest with
    | nil => exact fun _ => hds
    | cons c rest ih =>
        intro hrest hin
        have htail : rest <:+ new := (List.suffix_cons c rest).trans hrest
        rcases List.infix_cons_iff.1 hin with hstarts | hin
        · rcases List.prefix_or_prefix_of_prefix hstarts (List.prefix_append (c :: rest) ds) with
            hinside | hover
          · exact h.outside (hinside.isInfix.trans hrest.isInfix)
          · exact h.after (c :: rest) (List.cons_ne_nil c rest) hover hrest
        · exact ih htail hin
  exact hgo new (List.suffix_refl new)

/-- A text at the start either was there before or runs into the first piece. -/
theorem Replaced.start {new cs ds : List α} (h : Replaced new cs ds) {start : List α}
    (hstart : start <+: ds) :
    start <+: cs ∨ ∃ border, border ≠ [] ∧ border <:+ start ∧
      (border <+: new ∨ new <+: border) := by
  induction h generalizing start with
  | nil => exact Or.inl hstart
  | keep c h ih =>
      cases start with
      | nil => exact Or.inl List.nil_prefix
      | cons d start =>
          obtain ⟨rfl, hrest⟩ := List.cons_prefix_cons.1 hstart
          rcases ih hrest with hstarts | ⟨border, hne, hsuffix, hborder⟩
          · exact Or.inl (List.cons_prefix_cons.2 ⟨rfl, hstarts⟩)
          · exact Or.inr ⟨border, hne, hsuffix.trans (List.suffix_cons d start), hborder⟩
  | @piece old cs ds h ih =>
      by_cases hempty : start = []
      · rw [hempty]
        exact Or.inl List.nil_prefix
      · exact Or.inr ⟨start, hempty, List.suffix_refl start,
          List.prefix_or_prefix_of_prefix hstart (List.prefix_append new ds)⟩

theorem Apart.starts_of_replaced {old new cs ds : List α} (h : Apart old new)
    (hreplaced : Replaced new cs ds) (hstarts : old <+: ds) : old <+: cs := by
  rcases hreplaced.start hstarts with hkept | ⟨border, hne, hsuffix, hinto | hover⟩
  · exact hkept
  · exact absurd hinto (h.before border hne hsuffix)
  · exact absurd (hover.isInfix.trans hsuffix.isInfix) h.around

/-- A text that is not there does not come back. -/
theorem Apart.not_infix_of_replaced {old new cs ds : List α} (h : Apart old new)
    (hreplaced : Replaced new cs ds) (hcs : ¬ old <:+: cs) : ¬ old <:+: ds := by
  induction hreplaced with
  | nil => exact hcs
  | @keep c cs ds hreplaced ih =>
      rw [List.infix_cons_iff, not_or] at hcs ⊢
      exact ⟨fun hstarts => hcs.1 (h.starts_of_replaced (.keep c hreplaced) hstarts), ih hcs.2⟩
  | @piece piece cs ds hreplaced ih =>
      exact h.not_infix_append (ih fun hin =>
        hcs (hin.trans (List.suffix_append piece cs).isInfix))

end Text
