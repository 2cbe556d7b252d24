import MiniCodeAgent.Builtins
import MiniCodeAgent.Security
import MiniCodeAgent.Text.Replacement

/-!
# The key patterns

`SECRET_PATTERNS` of `SecretRedactor`. Each is a row of character classes with
how many characters of each there must be and may be. None of them has two
classes next to each other that would compete for a character, so what a class
can take it takes, and nothing is ever given back.
-/

namespace MiniCodeAgent

/-- `[…]{least,most}`. -/
structure PatternItem where
  accepts : Char → Bool
  least : Nat
  most : Option Nat

abbrev SecretPattern := List PatternItem

/-- How many characters the class takes, if they are enough. -/
def PatternItem.count (item : PatternItem) (cs : List Char) : Option Nat :=
  let found := (cs.takeWhile item.accepts).length
  let taken := match item.most with
    | some most => min most found
    | none => found
  if taken < item.least then none else some taken

/-- `pattern.match(text)`: how long the match at the start is. -/
def matchLength : SecretPattern → List Char → Option Nat
  | [], _ => some 0
  | item :: items, cs => do
    let taken ← item.count cs
    let rest ← matchLength items (cs.drop taken)
    return taken + rest

/-- `pattern.sub(new, text)`: the matches from the left that do not overlap. -/
def subPattern (pattern : SecretPattern) (new : List Char) : Nat → List Char → List Char
  | 0, cs => cs
  | _ + 1, [] => []
  | n + 1, c :: cs =>
    match matchLength pattern (c :: cs) with
    | some taken => new ++ subPattern pattern new n ((c :: cs).drop taken)
    | none => c :: subPattern pattern new n cs

theorem replaced_subPattern (pattern : SecretPattern) (new : List Char) (n : Nat)
    (cs : List Char) : Text.Replaced new cs (subPattern pattern new n cs) := by
  induction n generalizing cs with
  | zero => exact Text.Replaced.refl new cs
  | succ n ih =>
      cases cs with
      | nil => exact .nil
      | cons c cs =>
          rw [subPattern]
          split
          · next taken _ =>
              have hpiece := Text.Replaced.piece ((c :: cs).take taken) (ih ((c :: cs).drop taken))
              rw [List.take_append_drop] at hpiece
              exact hpiece
          · exact .keep c (ih cs)

/-! ## The patterns -/

def single (accepts : Char → Bool) : PatternItem := ⟨accepts, 1, some 1⟩

def atLeast (least : Nat) (accepts : Char → Bool) : PatternItem := ⟨accepts, least, none⟩

def literal (text : String) : SecretPattern := text.toList.map fun c => single fun d => d = c

/-- One of the characters, or a letter or a digit. -/
def alphanumericOr (others : String) (c : Char) : Bool :=
  c.isAlphanum || others.toList.contains c

/-- Letters in either case. -/
def ignoringCase (text : String) : SecretPattern :=
  text.toList.map fun c => single fun d => d.toLower = c.toLower

/-- What `[A-Za-z0-9._\-]` stands for under `re.IGNORECASE`. -/
def bearerCharacter (c : Char) : Bool := alphanumericOr "._-\u0130\u0131\u017f\u212a" c

def secretPatterns : List SecretPattern :=
  [literal "sk-" ++ [single (alphanumericOr ""), atLeast 8 (alphanumericOr "_-")],
    literal "sk-ant-" ++ [atLeast 8 (alphanumericOr "_-")],
    literal "gh" ++ [single fun c => "pousr".toList.contains c] ++ literal "_" ++
      [atLeast 20 (alphanumericOr "_")],
    literal "github_pat_" ++ [atLeast 20 (alphanumericOr "_")],
    literal "xox" ++ [single fun c => "baprs".toList.contains c] ++ literal "-" ++
      [atLeast 20 (alphanumericOr "-")],
    literal "AKIA" ++ [⟨fun c => c.isDigit || c.isUpper, 16, some 16⟩],
    ignoringCase "Bearer" ++ [atLeast 1 pyIsSpace, atLeast 12 bearerCharacter]]

/-- `for pattern in self.SECRET_PATTERNS`. -/
def redactPatterns (text : String) : String :=
  String.ofList (secretPatterns.foldl (fun cs pattern =>
    subPattern pattern redactedSecret.toList (cs.length + 1) cs) text.toList)

theorem redactPatterns_marked (text : String) : MarkedOr text (redactPatterns text) := by
  have hfold : ∀ (patterns : List SecretPattern) (cs : List Char),
      (cs = text.toList ∨ redactedSecret.toList <:+: cs) →
      let redacted := patterns.foldl (fun cs pattern =>
        subPattern pattern redactedSecret.toList (cs.length + 1) cs) cs
      redacted = text.toList ∨ redactedSecret.toList <:+: redacted := by
    intro patterns
    induction patterns with
    | nil => exact fun cs h => h
    | cons pattern patterns ih =>
        intro cs h
        refine ih _ ?_
        dsimp only
        rcases (replaced_subPattern pattern redactedSecret.toList (cs.length + 1) cs).eq_or_inside
          with heq | hmark
        · rwa [heq]
        · exact Or.inr hmark
  rcases hfold secretPatterns text.toList (Or.inl rfl) with heq | hmark
  · exact Or.inl (by rw [redactPatterns, heq, String.ofList_toList])
  · exact Or.inr (by rw [redactPatterns, String.toList_ofList]; exact hmark)

/-- `SecretRedactor` with these values from the environment and its caller. -/
def secretRedactor (values : List String) : SecretRedactor :=
  SecretRedactor.create values redactPatterns redactPatterns_marked

end MiniCodeAgent
