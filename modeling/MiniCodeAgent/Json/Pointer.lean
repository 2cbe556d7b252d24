import MiniCodeAgent.Json.RoundTrip

/-!
# JSON pointers

A pointer names a place in a document: behind a slash each, the names of the
members and the numbers of the items on the way to it. A name is written with `~0`
for a tilde and `~1` for a slash. `resolve` reads a pointer as the standard has it,
token by token, and `pointerText` writes the pointer of a path, so that in a document
whose dictionaries repeat no key a pointer leads to the place it was written for and
to no other.
-/

namespace Json

variable {F : Type}

/-! ## Tokens -/

/-- A name as a token has it. -/
def escapeToken (cs : List Char) : List Char :=
  cs.flatMap fun c => if c = '~' then ['~', '0'] else if c = '/' then ['~', '1'] else [c]

/-- The name a token stands for; a tilde stands before `0` or `1` only. -/
def unescapeToken : List Char → Option (List Char)
  | [] => some []
  | '~' :: '0' :: cs => (unescapeToken cs).map ('~' :: ·)
  | '~' :: '1' :: cs => (unescapeToken cs).map ('/' :: ·)
  | '~' :: _ => none
  | c :: cs => (unescapeToken cs).map (c :: ·)

theorem unescapeToken_cons {c : Char} (hc : c ≠ '~') (cs : List Char) :
    unescapeToken (c :: cs) = (unescapeToken cs).map (c :: ·) := by
  rw [unescapeToken]
  · exact fun _ h _ => hc h
  · exact fun _ h _ => hc h
  · exact fun h => hc h

theorem unescapeToken_escapeToken (cs : List Char) : unescapeToken (escapeToken cs) = some cs := by
  induction cs with
  | nil => rfl
  | cons c cs ih =>
      rw [escapeToken, List.flatMap_cons]
      by_cases htilde : c = '~'
      · rw [if_pos htilde, htilde]
        show (unescapeToken (escapeToken cs)).map ('~' :: ·) = _
        rw [ih, Option.map_some]
      · rw [if_neg htilde]
        by_cases hslash : c = '/'
        · rw [if_pos hslash, hslash]
          show (unescapeToken (escapeToken cs)).map ('/' :: ·) = _
          rw [ih, Option.map_some]
        · rw [if_neg hslash]
          show unescapeToken (c :: escapeToken cs) = _
          rw [unescapeToken_cons htilde, ih, Option.map_some]

theorem slash_not_mem_escapeToken (cs : List Char) : '/' ∉ escapeToken cs := by
  intro h
  obtain ⟨c, -, hc⟩ := List.mem_flatMap.1 h
  split at hc
  · simp at hc
  · split at hc
    · simp at hc
    · next hslash => exact hslash (List.mem_singleton.1 hc).symm

theorem escapeToken_plain {cs : List Char} (h : ∀ c ∈ cs, c ≠ '~' ∧ c ≠ '/') :
    escapeToken cs = cs := by
  induction cs with
  | nil => rfl
  | cons c cs ih =>
      obtain ⟨htilde, hslash⟩ := h c List.mem_cons_self
      rw [escapeToken, List.flatMap_cons, if_neg htilde, if_neg hslash]
      exact congrArg (c :: ·) (ih fun d hd => h d (List.mem_cons_of_mem _ hd))

/-! ## Resolution -/

/-- The number of an item: digits, and no zero before others. -/
def itemNumber? (name : List Char) : Option Nat :=
  if name ≠ [] ∧ name.all Char.isDigit ∧ (name.head? = some '0' → name = ['0']) then
    some (Nat.ofDigitChars 10 name 0)
  else none

/-- From name to name. -/
def follow : List (List Char) → Json F → Option (Json F)
  | [], j => some j
  | name :: names, .obj kvs => (Dict.get? kvs (String.ofList name)).bind (follow names)
  | name :: names, .arr xs => (itemNumber? name).bind fun i => xs[i]?.bind (follow names)
  | _ :: _, _ => none

/-- The names a pointer goes along. -/
def pointerNames? (pointer : List Char) : Option (List (List Char)) :=
  match pointer with
  | [] => some []
  | '/' :: tokens => (tokens.splitOn '/').mapM unescapeToken
  | _ => none

/-- The value a pointer leads to. -/
def resolve (pointer : String) (j : Json F) : Option (Json F) :=
  (pointerNames? pointer.toList).bind fun names => follow names j

/-! ## Paths -/

inductive Step where
  | key (name : String)
  | item (index : Nat)
  deriving DecidableEq

def Step.name : Step → List Char
  | .key name => name.toList
  | .item index => Nat.toDigits 10 index

abbrev Path := List Step

def pointerText (path : Path) : List Char := path.flatMap fun step => '/' :: escapeToken step.name

theorem pointerText_cons (step : Step) (path : Path) :
    pointerText (step :: path) = '/' :: (escapeToken step.name ++ pointerText path) := rfl

theorem pointerText_eq_intercalate (step : Step) (path : Path) : pointerText (step :: path) =
    '/' :: ['/'].intercalate ((step :: path).map fun step => escapeToken step.name) := by
  induction path generalizing step with
  | nil => simp [pointerText]
  | cons next path ih =>
      rw [pointerText_cons, ih next, List.map_cons, List.map_cons]
      simp [List.intercalate]

/-- What is read of a pointer is what it was written for. -/
theorem pointerNames?_pointerText (path : Path) :
    pointerNames? (pointerText path) = some (path.map Step.name) := by
  cases path with
  | nil => rfl
  | cons step path =>
      have hsplit : (['/'].intercalate ((step :: path).map fun step => escapeToken step.name)).splitOn
          '/' = (step :: path).map fun step => escapeToken step.name := by
        refine List.splitOn_intercalate '/' (fun token htoken => ?_) (by simp)
        obtain ⟨other, -, rfl⟩ := List.mem_map.1 htoken
        exact slash_not_mem_escapeToken _
      have hmap : ∀ steps : Path, (steps.map fun step => escapeToken step.name).mapM unescapeToken =
          some (steps.map Step.name) := by
        intro steps
        induction steps with
        | nil => rfl
        | cons first steps ih =>
            rw [List.map_cons, List.mapM_cons, unescapeToken_escapeToken, ih]
            rfl
      rw [pointerText_eq_intercalate, pointerNames?, hsplit]
      exact hmap (step :: path)

/-- A scalar, and the path to it. -/
inductive Leaf : Json F → Path → Json F → Prop
  | scalar {value : Json F} (hobj : ∀ kvs, value ≠ .obj kvs) (harr : ∀ xs, value ≠ .arr xs) :
      Leaf value [] value
  | member {kvs : Dict (Json F)} {key : String} {child leaf : Json F} {path : Path}
      (hmem : (key, child) ∈ kvs) (h : Leaf child path leaf) : Leaf (.obj kvs) (.key key :: path) leaf
  | item {xs : List (Json F)} {index : Nat} {child leaf : Json F} {path : Path}
      (hget : xs[index]? = some child) (h : Leaf child path leaf) :
      Leaf (.arr xs) (.item index :: path) leaf

theorem itemNumber?_digits (n : Nat) : itemNumber? (Nat.toDigits 10 n) = some n := by
  unfold itemNumber?
  rw [if_pos, Nat.ofDigitChars_ten_toDigits]
  refine ⟨Nat.toDigits_ne_nil, List.all_eq_true.2 fun c hc =>
    Nat.isDigit_of_mem_toDigits (by decide) (by decide) hc, fun hhead => ?_⟩
  rcases toDigits_whole n with hzero | ⟨c, ds, hdigits, -, hc, -⟩
  · exact hzero
  · rw [hdigits] at hhead
    exact absurd (Option.some.inj hhead) hc

theorem Leaf.follow {root leaf : Json F} {path : Path} (h : Leaf root path leaf) (hwf : root.WF) :
    Json.follow (path.map Step.name) root = some leaf := by
  induction h with
  | scalar => rfl
  | member hmem _ ih =>
      obtain ⟨hkeys, hchildren⟩ := wf_obj.1 hwf
      show (Dict.get? _ (String.ofList _)).bind _ = _
      rw [Step.name, String.ofList_toList, Dict.get?_of_mem hkeys hmem, Option.bind_some]
      exact ih (hchildren _ hmem)
  | item hget _ ih =>
      show (itemNumber? _).bind _ = _
      rw [Step.name, itemNumber?_digits, Option.bind_some, hget, Option.bind_some]
      exact ih (wf_arr.1 hwf _ (List.mem_of_getElem? hget))

theorem Leaf.resolve {root leaf : Json F} {path : Path} (h : Leaf root path leaf) (hwf : root.WF) :
    Json.resolve (String.ofList (pointerText path)) root = some leaf := by
  rw [Json.resolve, String.toList_ofList, pointerNames?_pointerText, Option.bind_some]
  exact h.follow hwf

/-- At one root, two paths to leaves go along the same names only if they are one. -/
theorem Leaf.path_eq {root leaf leaf' : Json F} {path path' : Path} (h : Leaf root path leaf)
    (h' : Leaf root path' leaf') (hwf : root.WF) (hnames : path.map Step.name = path'.map Step.name) :
    path = path' := by
  induction h generalizing path' with
  | scalar hobj harr =>
      cases h' with
      | scalar => rfl
      | member => exact absurd rfl (hobj _)
      | item => exact absurd rfl (harr _)
  | @member kvs key child leaf path hmem _ ih =>
      cases h' with
      | scalar hobj => exact absurd rfl (hobj _)
      | @member _ key' child' _ path' hmem' hleaf' =>
          obtain ⟨hkeys, hchildren⟩ := wf_obj.1 hwf
          rw [List.map_cons, List.map_cons] at hnames
          obtain ⟨hname, hrest⟩ := List.cons.inj hnames
          have hkey : key = key' := String.toList_inj.1 hname
          subst hkey
          have hchild := (Dict.get?_of_mem hkeys hmem).symm.trans (Dict.get?_of_mem hkeys hmem')
          rw [← Option.some.inj hchild] at hleaf'
          rw [ih hleaf' (hchildren _ hmem) hrest]
  | @item xs index child leaf path hget _ ih =>
      cases h' with
      | scalar _ harr => exact absurd rfl (harr _)
      | @item _ index' child' _ path' hget' hleaf' =>
          rw [List.map_cons, List.map_cons] at hnames
          obtain ⟨hname, hrest⟩ := List.cons.inj hnames
          have hindex : index = index' := by
            have hnumber := congrArg itemNumber? hname
            rw [Step.name, Step.name, itemNumber?_digits, itemNumber?_digits] at hnumber
            exact Option.some.inj hnumber
          subst hindex
          rw [← Option.some.inj (hget.symm.trans hget')] at hleaf'
          rw [ih hleaf' (wf_arr.1 hwf _ (List.mem_of_getElem? hget)) hrest]

/-- And no other path to a leaf has the same pointer. -/
theorem Leaf.pointer_injective {root leaf leaf' : Json F} {path path' : Path}
    (h : Leaf root path leaf) (h' : Leaf root path' leaf') (hwf : root.WF)
    (hpointer : pointerText path = pointerText path') : path = path' := by
  have hnames := congrArg pointerNames? hpointer
  rw [pointerNames?_pointerText, pointerNames?_pointerText] at hnames
  exact h.path_eq h' hwf (Option.some.inj hnames)

end Json
