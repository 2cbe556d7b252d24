import Mathlib.Logic.Function.Basic
import Mathlib.Data.List.Basic

/-!
# Taking changes back

A store of values by keys, and a list of changes that were made to it one after another,
each with what it found and what it left. Whatever else happens to other keys in between,
the changes taken back from the last to the first put the keys they are about back to what
they were, and at each of them the store still holds what the change left.
-/

namespace Rollback

variable {κ β : Type}

structure Change (κ β : Type) where
  key : κ
  before : β
  after : β

/-- The change that takes this one back. -/
def Change.inverse (c : Change κ β) : Change κ β := ⟨c.key, c.after, c.before⟩

/-- The change leads from one store to the other. -/
structure Change.Makes (c : Change κ β) (f f' : κ → β) : Prop where
  found : f c.key = c.before
  left : f' c.key = c.after
  others : ∀ k, k ≠ c.key → f' k = f k

/-- Two stores with the same values at some keys. -/
def Agree (T : κ → Prop) (f g : κ → β) : Prop := ∀ k, T k → f k = g k

/-- Changes to some keys, while the others are anyone's. -/
inductive Run (T : κ → Prop) (f : κ → β) : List (Change κ β) → (κ → β) → Prop
  | start : Run T f [] f
  | change {f₁ f₂ : κ → β} {changes : List (Change κ β)} {c : Change κ β}
      (h : Run T f changes f₁) (hkey : T c.key) (hmakes : c.Makes f₁ f₂) :
      Run T f (changes ++ [c]) f₂
  | outside {f₁ f₂ : κ → β} {changes : List (Change κ β)} (h : Run T f changes f₁)
      (hkept : Agree T f₂ f₁) : Run T f changes f₂

/-- Changes one after another, and nothing between them. -/
inductive Chain : (κ → β) → List (Change κ β) → (κ → β) → Prop
  | nil (f : κ → β) : Chain f [] f
  | cons {f f₁ f₂ : κ → β} {c : Change κ β} {changes : List (Change κ β)}
      (hmakes : c.Makes f f₁) (h : Chain f₁ changes f₂) : Chain f (c :: changes) f₂

variable [DecidableEq κ] {T : κ → Prop}

theorem inverse_makes {c : Change κ β} {g : κ → β} (h : g c.key = c.after) :
    c.inverse.Makes g (Function.update g c.key c.before) where
  found := h
  left := Function.update_self _ _ _
  others _ hne := Function.update_of_ne hne _ _

/-- By induction on the run, from its end: the last change is taken back first. -/
theorem Run.rollback {f f' : κ → β} {changes : List (Change κ β)} (h : Run T f changes f')
    {g : κ → β} (hg : Agree T g f') :
    ∃ g', Chain g (changes.reverse.map Change.inverse) g' ∧ Agree T g' f ∧
      ∀ k, ¬ T k → g' k = g k := by
  induction h generalizing g with
  | start => exact ⟨g, .nil g, hg, fun _ _ => rfl⟩
  | outside _ hkept ih => exact ih fun k hk => (hg k hk).trans (hkept k hk)
  | @change f₁ f₂ changes c _ hkey hmakes ih =>
      have hleft : g c.key = c.after := (hg c.key hkey).trans hmakes.left
      have hback : Agree T (Function.update g c.key c.before) f₁ := by
        intro k hk
        by_cases hsame : k = c.key
        · rw [hsame, Function.update_self, hmakes.found]
        · rw [Function.update_of_ne hsame, hg k hk, hmakes.others k hsame]
      obtain ⟨g', hchain, hrestored, hothers⟩ := ih hback
      refine ⟨g', ?_, hrestored, fun k hk => ?_⟩
      · rw [List.reverse_append, List.reverse_singleton, List.singleton_append, List.map_cons]
        exact .cons (inverse_makes hleft) hchain
      · have hne : k ≠ c.key := fun hsame => hk (hsame ▸ hkey)
        rw [hothers k hk, Function.update_of_ne hne]

end Rollback
