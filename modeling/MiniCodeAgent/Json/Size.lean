import MiniCodeAgent.Json.Text

/-!
# The size of a document

State files have a size limit, so what is written is never quite independent of
what it says. Two questions come up. Whether a document keeps its size when a
value in it is exchanged for another of the same size: `SameSize` is a
congruence for the update of a dictionary. And whether a document fits at all:
`room` is a bound that is read off the value without printing it, and it does
not care for the order of a dictionary's items.
-/

namespace Json

variable {F : Type} [PyFloat F]

/-- The bytes of a text in UTF-8. -/
def bytes (cs : List Char) : Nat := (cs.map Char.utf8Size).sum

@[simp] theorem bytes_nil : bytes [] = 0 := rfl

@[simp] theorem bytes_cons (c : Char) (cs : List Char) :
    bytes (c :: cs) = c.utf8Size + bytes cs := by
  rw [bytes, List.map_cons, List.sum_cons, bytes]

@[simp] theorem bytes_append (cs ds : List Char) : bytes (cs ++ ds) = bytes cs + bytes ds := by
  rw [bytes, List.map_append, List.sum_append, bytes, bytes]

theorem bytes_le (cs : List Char) : bytes cs ≤ 4 * cs.length := by
  induction cs with
  | nil => rfl
  | cons c cs ih =>
      have := c.utf8Size_le_four
      rw [bytes_cons, List.length_cons]
      omega

theorem size_ofList (cs : List Char) : (String.ofList cs).toUTF8.size = bytes cs := by
  have hencode : ∀ cs : List Char, cs.utf8Encode.size = bytes cs := by
    intro cs
    induction cs with
    | nil => rw [List.utf8Encode_nil]; rfl
    | cons c cs ih =>
        rw [List.utf8Encode_cons, ByteArray.size_append, ih, List.utf8Encode_singleton,
          List.size_toByteArray, String.length_utf8EncodeChar, bytes_cons]
  rw [← hencode]
  exact congrArg ByteArray.size String.toByteArray_ofList

theorem size_dumps (st : Style) (j : Json F) : (dumps st j).toUTF8.size = bytes (dump st j 0) :=
  size_ofList _

/-! ## Values of one size -/

/-- The two values take the same room wherever they stand. -/
def SameSize (st : Style) (v v' : Json F) : Prop :=
  ∀ d, bytes (dump st v d) = bytes (dump st v' d)

theorem bytes_dumpMembers_set {st : Style} {v v' : Json F} (h : SameSize st v v')
    (kvs : Dict (Json F)) (key : String) (sep : List Char) (d : Nat) :
    bytes (dumpMembers st (Dict.set kvs key v) sep d) =
      bytes (dumpMembers st (Dict.set kvs key v') sep d) := by
  induction kvs generalizing sep with
  | nil => simp [Dict.set, dumpMembers, dumpMember, h d]
  | cons kv kvs ih =>
      obtain ⟨k, u⟩ := kv
      simp only [Dict.set]
      split
      · simp [dumpMembers, dumpMember, h d]
      · simp only [dumpMembers, bytes_append, ih]

theorem SameSize.set {st : Style} {v v' : Json F} (h : SameSize st v v')
    (kvs : Dict (Json F)) (key : String) :
    SameSize st (.obj (Dict.set kvs key v)) (.obj (Dict.set kvs key v')) := by
  intro d
  have hempty : (Dict.set kvs key v).isEmpty = (Dict.set kvs key v').isEmpty := by
    cases kvs with
    | nil => rfl
    | cons kv kvs =>
        simp only [Dict.set]
        split <;> rfl
  rw [dump, dump, hempty]
  split
  · rfl
  · simp only [bytes_cons, bytes_append, bytes_dumpMembers_set h]

/-! ## A bound -/

mutual

/-- Enough room for the value at a depth. -/
def room : Json F → Nat → Nat
  | .null, _ => 4
  | .bool _, _ => 5
  | .int i, _ => 4 * (dumpInt i).length
  | .float f, _ => 4 * (PyFloat.repr f).text.length
  | .str s, _ => 6 * s.length + 2
  | .arr xs, d => roomItems xs (d + 1) + (2 * d + 3)
  | .obj kvs, d => roomMembers kvs (d + 1) + (2 * d + 3)
termination_by structural x => x

def roomItems : List (Json F) → Nat → Nat
  | [], _ => 0
  | x :: xs, d => roomItems xs d + (room x d + (2 * d + 2))
termination_by structural x => x

def roomMember : String × Json F → Nat → Nat
  | (k, v), d => room v d + (6 * k.length + 4)
termination_by structural x => x

def roomMembers : List (String × Json F) → Nat → Nat
  | [], _ => 0
  | kv :: kvs, d => roomMembers kvs d + (roomMember kv d + (2 * d + 2))
termination_by structural x => x

end

theorem bytes_escapeChar (c : Char) : bytes (escapeChar c) ≤ 6 := by
  have hhex : ∀ n, n < 16 → (hexDigit n).utf8Size = 1 := by decide
  unfold escapeChar
  repeat' split
  all_goals first
    | decide
    | skip
  · next h =>
      simp [hhex _ (show c.toNat / 16 < 16 by omega), hhex _ (show c.toNat % 16 < 16 by omega)]
      decide
  · have := c.utf8Size_le_four
    simp
    omega

theorem bytes_dumpString (s : String) : bytes (dumpString s) ≤ 6 * s.length + 2 := by
  have hflat : ∀ cs : List Char, bytes (cs.flatMap escapeChar) ≤ 6 * cs.length := by
    intro cs
    induction cs with
    | nil => rfl
    | cons c cs ih =>
        have := bytes_escapeChar c
        rw [List.flatMap_cons, bytes_append, List.length_cons]
        omega
  have := hflat s.toList
  have hquote : '"'.utf8Size = 1 := rfl
  rw [String.length_toList] at this
  simp only [dumpString, bytes_cons, bytes_append, bytes_nil, hquote]
  omega

/-- A layout that indents by two at most. -/
structure Style.Small (st : Style) : Prop where
  comma : bytes st.comma = 1
  colon : bytes st.colon ≤ 2
  gap : ∀ d, bytes (st.gap d) ≤ 2 * d + 1

theorem Style.compact_small : Style.compact.Small := ⟨rfl, by decide, fun _ => Nat.zero_le _⟩

theorem Style.indent2_small : Style.indent2.Small where
  comma := rfl
  colon := by decide
  gap d := by
    have hspace : bytes (List.replicate (2 * d) ' ') = 2 * d := by
      have hone : ' '.utf8Size = 1 := rfl
      rw [bytes, List.map_replicate, List.sum_replicate_nat, hone, Nat.mul_one]
    have hline : '\n'.utf8Size = 1 := rfl
    show bytes ('\n' :: List.replicate (2 * d) ' ') ≤ _
    rw [bytes_cons, hspace, hline]
    omega

theorem bytes_dump_le {st : Style} (hst : st.Small) (j : Json F) (d : Nat) :
    bytes (dump st j d) ≤ room j d := by
  have hsep : ∀ d, bytes (st.comma ++ st.gap d) ≤ 2 * d + 2 := by
    intro d
    have := hst.gap d
    rw [bytes_append, hst.comma]
    omega
  have hgap : ∀ d, bytes (st.gap d) ≤ 2 * d + 2 := fun d => Nat.le_succ_of_le (hst.gap d)
  induction j using Json.ind generalizing d with
  | null => exact le_of_eq rfl
  | bool b => cases b <;> simp only [dump, room] <;> decide
  | int i => exact bytes_le _
  | float f => exact bytes_le _
  | str s => exact bytes_dumpString s
  | arr xs ih =>
      have go : ∀ (ys : List (Json F)) (sep : List Char), (∀ y ∈ ys, y ∈ xs) →
          bytes sep ≤ 2 * (d + 1) + 2 →
          bytes (dumpItems st ys sep (d + 1)) ≤ roomItems ys (d + 1) := by
        intro ys
        induction ys with
        | nil => intro _ _ _; exact Nat.le_refl _
        | cons y ys ihy =>
            intro sep hys hle
            have h1 := ih y (hys y List.mem_cons_self) (d + 1)
            have h2 := ihy _ (fun z hz => hys z (List.mem_cons_of_mem _ hz)) (hsep (d + 1))
            simp only [dumpItems, roomItems, bytes_append] at h2 ⊢
            omega
      rw [dump]
      split
      · exact le_trans (by decide : bytes ['[', ']'] ≤ 3) (by rw [room]; omega)
      · have h1 := go xs _ (fun _ h => h) (hgap (d + 1))
        have h2 := hst.gap d
        have hopen : '['.utf8Size = 1 := rfl
        have hclose : ']'.utf8Size = 1 := rfl
        simp only [bytes_cons, bytes_append, bytes_nil, room, hopen, hclose]
        omega
  | obj kvs ih =>
      have go : ∀ (ms : Dict (Json F)) (sep : List Char), (∀ m ∈ ms, m ∈ kvs) →
          bytes sep ≤ 2 * (d + 1) + 2 →
          bytes (dumpMembers st ms sep (d + 1)) ≤ roomMembers ms (d + 1) := by
        intro ms
        induction ms with
        | nil => intro _ _ _; exact Nat.le_refl _
        | cons m ms ihm =>
            intro sep hms hle
            obtain ⟨k, v⟩ := m
            have h1 := ih (k, v) (hms (k, v) List.mem_cons_self) (d + 1)
            have h2 := ihm _ (fun z hz => hms z (List.mem_cons_of_mem _ hz)) (hsep (d + 1))
            have h3 := bytes_dumpString k
            have h4 := hst.colon
            simp only [dumpMembers, dumpMember, roomMembers, roomMember, bytes_append] at h1 h2 ⊢
            omega
      rw [dump]
      split
      · exact le_trans (by decide : bytes ['{', '}'] ≤ 3) (by rw [room]; omega)
      · have h1 := go kvs _ (fun _ h => h) (hgap (d + 1))
        have h2 := hst.gap d
        have hopen : '{'.utf8Size = 1 := rfl
        have hclose : '}'.utf8Size = 1 := rfl
        simp only [bytes_cons, bytes_append, bytes_nil, room, hopen, hclose]
        omega

theorem roomItems_eq_sum (xs : List (Json F)) (d : Nat) :
    roomItems xs d = (xs.map fun x => room x d + (2 * d + 2)).sum := by
  induction xs with
  | nil => rfl
  | cons x xs ih =>
      rw [roomItems, ih, List.map_cons, List.sum_cons, Nat.add_comm]

theorem roomMembers_eq_sum (kvs : Dict (Json F)) (d : Nat) :
    roomMembers kvs d =
      (kvs.map fun kv => room kv.2 d + (6 * kv.1.length + 4) + (2 * d + 2)).sum := by
  induction kvs with
  | nil => rfl
  | cons kv kvs ih =>
      obtain ⟨k, v⟩ := kv
      rw [roomMembers, roomMember, ih, List.map_cons, List.sum_cons, Nat.add_comm]

theorem room_sortKeys (j : Json F) (d : Nat) : room j.sortKeys d = room j d := by
  induction j using Json.ind generalizing d with
  | null | bool | int | float | str => rfl
  | arr xs ih =>
      rw [sortKeys, sortItems_eq_map, room, room, roomItems_eq_sum, roomItems_eq_sum, List.map_map]
      refine congrArg (· + _) (congrArg List.sum (List.map_congr_left fun x hx => ?_))
      rw [Function.comp_apply, ih x hx]
  | obj kvs ih =>
      rw [sortKeys, sortMembers_eq_map, room, room, roomMembers_eq_sum, roomMembers_eq_sum,
        ((List.perm_insertionSort keyLE _).map _).sum_nat, List.map_map]
      refine congrArg (· + _) (congrArg List.sum (List.map_congr_left fun kv hkv => ?_))
      rw [Function.comp_apply, ih kv hkv]

theorem size_dumps_le (j : Json F) : (dumps .indent2 j).toUTF8.size ≤ room j 0 := by
  rw [size_dumps]
  exact bytes_dump_le Style.indent2_small j 0

theorem size_canonical_le (j : Json F) : (canonical j).toUTF8.size ≤ room j 0 := by
  rw [canonical, size_dumps, ← room_sortKeys]
  exact bytes_dump_le Style.compact_small _ 0

end Json
