import MiniCodeAgent.Json.Text

/-!
# Redaction

`SecretRedactor` as `security.py` has it. Configured secrets are replaced one
after another, in the order they were configured, and the key patterns come
after them; the patterns are regular expressions and enter as the substitution
they perform. `redactData` carries a redaction of text through a JSON value:
every string is redacted, every key is kept.
-/

namespace MiniCodeAgent

/-- `text.replace(old, new)` for an `old` that is not empty: the occurrences
from the left that do not overlap. -/
def replaceText (old new : List Char) : Nat → List Char → List Char
  | 0, cs => cs
  | _ + 1, [] => []
  | n + 1, c :: cs =>
    if old.isPrefixOf (c :: cs) then
      new ++ replaceText old new n ((c :: cs).drop old.length)
    else c :: replaceText old new n cs

def pyReplace (text old new : String) : String :=
  String.ofList (replaceText old.toList new.toList (text.toList.length + 1) text.toList)

def redactedSecret : String := "[REDACTED_SECRET]"

/-- The text is untouched or shows that something was taken out of it. -/
def MarkedOr (text redacted : String) : Prop :=
  redacted = text ∨ redactedSecret.toList <:+: redacted.toList

theorem markedOr_id (text : String) : MarkedOr text (id text) := Or.inl rfl

structure SecretRedactor where
  secrets : List String
  /-- `pattern.sub("[REDACTED_SECRET]", _)` for every pattern in turn. -/
  redactPatterns : String → String
  marks : ∀ text, MarkedOr text (redactPatterns text)

/-- The constructor keeps the values long enough to be secrets. -/
def SecretRedactor.create (values : List String) (redactPatterns : String → String)
    (marks : ∀ text, MarkedOr text (redactPatterns text)) : SecretRedactor :=
  ⟨values.filter fun value => 8 ≤ value.toList.length, redactPatterns, marks⟩

def SecretRedactor.redactText (r : SecretRedactor) (text : String) : String :=
  let redacted := r.secrets.foldl (fun cs secret =>
    replaceText secret.toList redactedSecret.toList (cs.length + 1) cs) text.toList
  r.redactPatterns (String.ofList redacted)

theorem replaceText_marked (old new : List Char) (n : Nat) (cs : List Char) :
    replaceText old new n cs = cs ∨ new <:+: replaceText old new n cs := by
  induction n generalizing cs with
  | zero => exact Or.inl rfl
  | succ n ih =>
      cases cs with
      | nil => exact Or.inl rfl
      | cons c cs =>
          unfold replaceText
          split
          · exact Or.inr ⟨[], _, rfl⟩
          · rcases ih cs with h | ⟨before, after, h⟩
            · exact Or.inl (by rw [h])
            · exact Or.inr ⟨c :: before, after, by rw [← h]; rfl⟩

/-- Redaction does not turn one text into another: what it changes shows the
mark, however many secrets and patterns have been at it. -/
theorem SecretRedactor.redactText_marked (r : SecretRedactor) (text : String) :
    MarkedOr text (r.redactText text) := by
  have hsecrets : ∀ (secrets : List String) (cs : List Char),
      (cs = text.toList ∨ redactedSecret.toList <:+: cs) →
      let redacted := secrets.foldl (fun cs secret =>
        replaceText secret.toList redactedSecret.toList (cs.length + 1) cs) cs
      redacted = text.toList ∨ redactedSecret.toList <:+: redacted := by
    intro secrets
    induction secrets with
    | nil => exact fun cs h => h
    | cons secret secrets ih =>
        intro cs h
        refine ih _ ?_
        dsimp only
        rcases replaceText_marked secret.toList redactedSecret.toList (cs.length + 1) cs with
          heq | hmark
        · rwa [heq]
        · exact Or.inr hmark
  unfold redactText
  rcases r.marks (String.ofList (r.secrets.foldl (fun cs secret =>
    replaceText secret.toList redactedSecret.toList (cs.length + 1) cs) text.toList)) with h | h
  · rw [MarkedOr, h]
    rcases hsecrets r.secrets text.toList (Or.inl rfl) with heq | hmark
    · exact Or.inl (by rw [heq, String.ofList_toList])
    · exact Or.inr (by rwa [String.toList_ofList])
  · exact Or.inr h

/-- A text that cannot show the mark is what redaction left of itself alone. -/
theorem SecretRedactor.eq_of_redactText_eq (r : SecretRedactor) {text plain : String}
    (hplain : '[' ∉ plain.toList) (h : r.redactText text = plain) : text = plain := by
  rcases r.redactText_marked text with heq | hmark
  · rw [← heq, h]
  · have hbracket : '[' ∈ redactedSecret.toList := by decide
    rw [h] at hmark
    exact absurd (hmark.subset hbracket) hplain

/-- Redaction has no hold on a short text: a secret has at least eight
characters, and so has whatever a key pattern matches. -/
structure KeepsShortText (r : SecretRedactor) : Prop where
  secrets : ∀ secret ∈ r.secrets, 8 ≤ secret.toList.length
  patterns : ∀ text, text.toList.length < 8 → r.redactPatterns text = text

theorem replaceText_short {old : List Char} (new : List Char) (n : Nat) {cs : List Char}
    (h : cs.length < old.length) : replaceText old new n cs = cs := by
  induction n generalizing cs with
  | zero => rfl
  | succ n ih =>
      cases cs with
      | nil => rfl
      | cons c cs =>
          have hlonger : ¬ old.isPrefixOf (c :: cs) = true := by
            intro hpref
            have := (List.isPrefixOf_iff_prefix.1 hpref).length_le
            omega
          rw [replaceText, if_neg hlonger, ih (by rw [List.length_cons] at h; omega)]

theorem KeepsShortText.redactText {r : SecretRedactor} (h : KeepsShortText r) {text : String}
    (hshort : text.toList.length < 8) : r.redactText text = text := by
  have hsecrets : ∀ secrets : List String, (∀ secret ∈ secrets, 8 ≤ secret.toList.length) →
      secrets.foldl (fun cs secret =>
        replaceText secret.toList redactedSecret.toList (cs.length + 1) cs) text.toList =
        text.toList := by
    intro secrets hlong
    induction secrets with
    | nil => rfl
    | cons secret secrets ih =>
        have := hlong secret List.mem_cons_self
        rw [List.foldl_cons, replaceText_short _ _ (by omega)]
        exact ih fun secret hmem => hlong secret (List.mem_cons_of_mem _ hmem)
  rw [SecretRedactor.redactText, hsecrets r.secrets h.secrets, String.ofList_toList]
  exact h.patterns text hshort

/-- The constructor sees to the secrets. -/
theorem SecretRedactor.create_keepsShortText (values : List String)
    {redactPatterns : String → String} (marks : ∀ text, MarkedOr text (redactPatterns text))
    (hpatterns : ∀ text, text.toList.length < 8 → redactPatterns text = text) :
    KeepsShortText (SecretRedactor.create values redactPatterns marks) where
  secrets _ hmem := of_decide_eq_true (List.mem_filter.1 hmem).2
  patterns := hpatterns

variable {F : Type}

mutual

/-- `redact_data`. -/
def redactData (redactText : String → String) : Json F → Json F
  | .str s => .str (redactText s)
  | .arr xs => .arr (redactItems redactText xs)
  | .obj kvs => .obj (redactMembers redactText kvs)
  | .null => .null
  | .bool b => .bool b
  | .int i => .int i
  | .float f => .float f
termination_by structural x => x

def redactItems (redactText : String → String) : List (Json F) → List (Json F)
  | [] => []
  | x :: xs => redactData redactText x :: redactItems redactText xs
termination_by structural x => x

def redactMember (redactText : String → String) : String × Json F → String × Json F
  | (k, v) => (k, redactData redactText v)
termination_by structural x => x

def redactMembers (redactText : String → String) :
    List (String × Json F) → List (String × Json F)
  | [] => []
  | kv :: kvs => redactMember redactText kv :: redactMembers redactText kvs
termination_by structural x => x

end

@[simp] theorem redactItems_eq_map (redactText : String → String) (xs : List (Json F)) :
    redactItems redactText xs = xs.map (redactData redactText) := by
  induction xs with
  | nil => rfl
  | cons x xs ih => rw [redactItems, ih, List.map_cons]

@[simp] theorem redactMembers_eq_map (redactText : String → String) (kvs : Dict (Json F)) :
    redactMembers redactText kvs = kvs.map fun kv => (kv.1, redactData redactText kv.2) := by
  induction kvs with
  | nil => rfl
  | cons kv kvs ih =>
      obtain ⟨k, v⟩ := kv
      rw [redactMembers, ih, List.map_cons, redactMember]

mutual

/-- A redaction that changes no text changes no value. -/
theorem redactData_same {redactText : String → String} (h : ∀ text, redactText text = text)
    (j : Json F) : redactData redactText j = j := by
  cases j with
  | str s => rw [redactData, h]
  | arr xs => rw [redactData, redactItems_same h xs]
  | obj kvs => rw [redactData, redactMembers_same h kvs]
  | _ => rfl
termination_by structural j

theorem redactItems_same {redactText : String → String} (h : ∀ text, redactText text = text)
    (xs : List (Json F)) : redactItems redactText xs = xs := by
  cases xs with
  | nil => rfl
  | cons x xs => rw [redactItems, redactData_same h x, redactItems_same h xs]
termination_by structural xs

theorem redactMember_same {redactText : String → String} (h : ∀ text, redactText text = text)
    (kv : String × Json F) : redactMember redactText kv = kv := by
  cases kv with
  | mk k v => rw [redactMember, redactData_same h v]
termination_by structural kv

theorem redactMembers_same {redactText : String → String} (h : ∀ text, redactText text = text)
    (kvs : List (String × Json F)) : redactMembers redactText kvs = kvs := by
  cases kvs with
  | nil => rfl
  | cons kv kvs => rw [redactMembers, redactMember_same h kv, redactMembers_same h kvs]
termination_by structural kvs

end

/-- Keys survive, so a redacted record answers where the record did. -/
theorem get?_redactData (redactText : String → String) (j : Json F) (key : String) :
    (redactData redactText j).get? key = (j.get? key).map (redactData redactText) := by
  cases j with
  | obj kvs =>
      rw [redactData, redactMembers_eq_map, Json.get?_obj, Json.get?_obj]
      exact Dict.get?_map (redactData redactText) kvs key
  | _ => rfl

end MiniCodeAgent
