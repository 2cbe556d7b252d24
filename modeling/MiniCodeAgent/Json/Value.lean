import Mathlib.Data.Rat.Cast.Order
import Mathlib.Data.List.Sort
import Mathlib.Data.String.Basic
import Mathlib.Data.List.Nodup

/-!
# JSON values as Python holds them

A document is a tree of the values `json.loads` can build: `None`, booleans,
integers of any size, floats, strings, lists and dictionaries with string
keys. A dictionary is its list of items in insertion order, which is the
order `json.dumps` prints and `json.loads` restores; what makes such a list a
dictionary is that no key occurs twice, and `WF` says so at every level.

Floats are the one leaf that is not spelled out. The layer only ever prints
them, reads them back and compares their values, so `PyFloat` asks for those
three operations and for the one fact the language documents about them:
`float(repr(x))` is `x`. The literals `NaN` and `Infinity` are not JSON and
have no place here.
-/

namespace Json

/-- The text of a number as the JSON grammar has it, cut into its parts. -/
structure NumText where
  sign : List Char
  whole : List Char
  frac : List Char
  exp : List Char

namespace NumText

def text (t : NumText) : List Char := t.sign ++ (t.whole ++ (t.frac ++ t.exp))

/-- Each part is one the grammar allows: an optional minus, a whole part with
no leading zero, an optional fraction and an optional exponent. -/
structure Ok (t : NumText) : Prop where
  sign : t.sign = [] ∨ t.sign = ['-']
  whole : t.whole = ['0'] ∨
    ∃ c ds, t.whole = c :: ds ∧ c.isDigit = true ∧ c ≠ '0' ∧ ∀ x ∈ ds, x.isDigit = true
  frac : t.frac = [] ∨ ∃ d ds, t.frac = '.' :: d :: ds ∧ ∀ x ∈ d :: ds, x.isDigit = true
  exp : t.exp = [] ∨ ∃ e s d ds, t.exp = e :: (s ++ d :: ds) ∧ (e = 'e' ∨ e = 'E') ∧
    (s = [] ∨ s = ['+'] ∨ s = ['-']) ∧ ∀ x ∈ d :: ds, x.isDigit = true

/-- A fraction or an exponent is what makes a number a float. -/
def IsFloat (t : NumText) : Prop := t.frac ≠ [] ∨ t.exp ≠ []

end NumText

/-- Python's finite floats, as far as `json` looks at them. -/
class PyFloat (F : Type) where
  /-- The exact value, which `==` compares. -/
  val : F → Rat
  repr : F → NumText
  /-- `float(text)`. -/
  ofText : List Char → F
  repr_ok : ∀ f, (repr f).Ok
  repr_isFloat : ∀ f, (repr f).IsFloat
  ofText_repr : ∀ f, ofText (repr f).text = f

/-- The least instance: `0.0` and no other float. -/
instance : PyFloat Unit where
  val _ := 0
  repr _ := ⟨[], ['0'], ['.', '0'], []⟩
  ofText _ := ()
  repr_ok _ := ⟨Or.inl rfl, Or.inl rfl, Or.inr ⟨'0', [], rfl, List.forall_mem_singleton.2 rfl⟩,
    Or.inl rfl⟩
  repr_isFloat _ := Or.inl (by decide)
  ofText_repr _ := rfl

end Json

inductive Json (F : Type) where
  | null
  | bool (b : Bool)
  | int (i : Int)
  | float (f : F)
  | str (s : String)
  | arr (xs : List (Json F))
  | obj (kvs : List (String × Json F))

/-- A dictionary: its items in insertion order. -/
abbrev Dict (α : Type) := List (String × α)

namespace Dict

variable {α β : Type}

/-- `d.get(key)`. -/
def get? (d : Dict α) (key : String) : Option α :=
  match d with
  | [] => none
  | (k, v) :: rest => if k = key then some v else get? rest key

/-- `d[key] = value`: an existing key keeps its place. -/
def set (d : Dict α) (key : String) (value : α) : Dict α :=
  match d with
  | [] => [(key, value)]
  | (k, v) :: rest =>
    if k = key then (key, value) :: rest else (k, v) :: set rest key value

/-- `d.pop(key, None)`. -/
def pop (d : Dict α) (key : String) : Dict α := d.filter fun kv => kv.1 ≠ key

def keys (d : Dict α) : List String := d.map Prod.fst

/-- `dict(pairs)`: a repeated key keeps its first place and its last value. -/
def ofPairs (pairs : List (String × α)) : Dict α :=
  pairs.foldl (fun d kv => set d kv.1 kv.2) []

@[simp] theorem get?_nil (key : String) : get? ([] : Dict α) key = none := rfl

@[simp] theorem get?_cons (k : String) (v : α) (d : Dict α) (key : String) :
    get? ((k, v) :: d) key = if k = key then some v else get? d key := rfl

@[simp] theorem keys_nil : keys ([] : Dict α) = [] := rfl

@[simp] theorem keys_cons (kv : String × α) (d : Dict α) :
    keys (kv :: d) = kv.1 :: keys d := rfl

theorem get?_append (d e : Dict α) (key : String) :
    get? (d ++ e) key = (get? d key).or (get? e key) := by
  induction d with
  | nil => rfl
  | cons kv d ih =>
      obtain ⟨k, v⟩ := kv
      simp only [List.cons_append, get?_cons]
      split
      · rfl
      · exact ih

@[simp] theorem get?_set (d : Dict α) (key : String) (value : α) (key' : String) :
    get? (set d key value) key' = if key = key' then some value else get? d key' := by
  induction d with
  | nil => rfl
  | cons kv d ih =>
      obtain ⟨k, v⟩ := kv
      simp only [set]
      split
      · next h =>
          subst h
          simp only [get?_cons]
          split <;> rfl
      · next h =>
          simp only [get?_cons, ih]
          split
          · next hk => subst hk; rw [if_neg (Ne.symm h)]
          · rfl

theorem get?_eq_none_iff {d : Dict α} {key : String} :
    get? d key = none ↔ key ∉ keys d := by
  induction d with
  | nil => simp [keys]
  | cons kv d ih =>
      obtain ⟨k, v⟩ := kv
      simp only [get?_cons, keys_cons, List.mem_cons, not_or]
      split
      · next h => simp [h]
      · next h => exact ⟨fun hn => ⟨Ne.symm h, ih.1 hn⟩, fun hn => ih.2 hn.2⟩

theorem mem_of_get? {d : Dict α} {key : String} {value : α}
    (h : get? d key = some value) : (key, value) ∈ d := by
  induction d with
  | nil => cases h
  | cons kv d ih =>
      obtain ⟨k, v⟩ := kv
      simp only [get?_cons] at h
      split at h
      · next hk => subst hk; cases h; exact List.mem_cons_self
      · exact List.mem_cons_of_mem _ (ih h)

theorem get?_of_mem {d : Dict α} (hd : (keys d).Nodup) {key : String} {value : α}
    (h : (key, value) ∈ d) : get? d key = some value := by
  induction d with
  | nil => cases h
  | cons kv d ih =>
      obtain ⟨k, v⟩ := kv
      simp only [keys_cons, List.nodup_cons] at hd
      rcases List.mem_cons.1 h with heq | hmem
      · cases heq; simp
      · have hk : k ≠ key := by
          rintro rfl
          exact hd.1 (List.mem_map.2 ⟨_, hmem, rfl⟩)
        rw [get?_cons, if_neg hk]
        exact ih hd.2 hmem

/-- Two dictionaries with the same items in another order answer alike. -/
theorem get?_perm {d e : Dict α} (h : d.Perm e) (hd : (keys d).Nodup) (key : String) :
    get? d key = get? e key := by
  have he : (keys e).Nodup := (h.map Prod.fst).nodup_iff.1 hd
  cases hg : get? d key with
  | some v => exact (get?_of_mem he (h.mem_iff.1 (mem_of_get? hg))).symm
  | none =>
      have hk : key ∉ keys e := fun hm =>
        get?_eq_none_iff.1 hg ((h.map Prod.fst).mem_iff.2 hm)
      exact (get?_eq_none_iff.2 hk).symm

theorem get?_map (f : α → β) (d : Dict α) (key : String) :
    get? (d.map fun kv => (kv.1, f kv.2)) key = (get? d key).map f := by
  induction d with
  | nil => rfl
  | cons kv d ih =>
      obtain ⟨k, v⟩ := kv
      simp only [List.map_cons, get?_cons]
      split
      · rfl
      · exact ih

theorem keys_set (d : Dict α) (key : String) (value : α) :
    keys (set d key value) = if key ∈ keys d then keys d else keys d ++ [key] := by
  induction d with
  | nil => rfl
  | cons kv d ih =>
      obtain ⟨k, v⟩ := kv
      simp only [set]
      split
      · next h => subst h; simp
      · next h =>
          rw [keys_cons, keys_cons, ih]
          by_cases hm : key ∈ keys d
          · rw [if_pos hm, if_pos (List.mem_cons_of_mem _ hm)]
          · rw [if_neg hm, if_neg (by simp [hm, Ne.symm h])]
            rfl

theorem nodup_keys_set {d : Dict α} (hd : (keys d).Nodup) (key : String) (value : α) :
    (keys (set d key value)).Nodup := by
  rw [keys_set]
  split
  · exact hd
  · next h => exact List.nodup_append.2 ⟨hd, by simp, by
      intro a ha b hb
      rw [List.mem_singleton] at hb
      subst hb
      rintro rfl
      exact h ha⟩

theorem mem_set {d : Dict α} {key : String} {value : α} {kv : String × α}
    (h : kv ∈ set d key value) : kv = (key, value) ∨ kv ∈ d := by
  induction d with
  | nil => exact Or.inl (List.mem_singleton.1 h)
  | cons kv' d ih =>
      obtain ⟨k, v⟩ := kv'
      simp only [set] at h
      split at h
      · rcases List.mem_cons.1 h with rfl | h
        · exact Or.inl rfl
        · exact Or.inr (List.mem_cons_of_mem _ h)
      · rcases List.mem_cons.1 h with rfl | h
        · exact Or.inr List.mem_cons_self
        · exact (ih h).imp_right (List.mem_cons_of_mem _)

theorem set_of_notMem {d : Dict α} {key : String} (h : key ∉ keys d) (value : α) :
    set d key value = d ++ [(key, value)] := by
  induction d with
  | nil => rfl
  | cons kv d ih =>
      obtain ⟨k, v⟩ := kv
      simp only [keys_cons, List.mem_cons, not_or] at h
      rw [set, if_neg (Ne.symm h.1), ih h.2]
      rfl

/-- Items whose keys already differ are their own dictionary. -/
theorem ofPairs_eq_self {pairs : Dict α} (h : (keys pairs).Nodup) : ofPairs pairs = pairs := by
  have go : ∀ (rest d : Dict α), (keys (d ++ rest)).Nodup →
      rest.foldl (fun d kv => set d kv.1 kv.2) d = d ++ rest := by
    intro rest
    induction rest with
    | nil => intro d _; simp
    | cons kv rest ih =>
        intro d hd
        have hk : kv.1 ∉ keys d := by
          intro hm
          simp only [keys, List.map_append, List.map_cons] at hd hm
          exact (List.nodup_append.1 hd).2.2 _ hm _ List.mem_cons_self rfl
        rw [List.foldl_cons, set_of_notMem hk, ih _ (by simpa using hd)]
        simp
  exact go pairs [] h

end Dict

namespace Json

variable {F : Type}

/-- Induction with the children handed over as members of the list they
stand in. -/
@[elab_as_elim]
theorem ind {P : Json F → Prop} (null : P .null) (bool : ∀ b, P (.bool b))
    (int : ∀ i, P (.int i)) (float : ∀ f, P (.float f)) (str : ∀ s, P (.str s))
    (arr : ∀ xs, (∀ x ∈ xs, P x) → P (.arr xs))
    (obj : ∀ kvs, (∀ kv ∈ kvs, P kv.2) → P (.obj kvs)) : ∀ j, P j := by
  intro j
  refine @Json.rec F P (fun xs => ∀ x ∈ xs, P x) (fun kvs => ∀ kv ∈ kvs, P kv.2)
    (fun kv => P kv.2) null bool int float str arr obj ?_ ?_ ?_ ?_ ?_ j
  · intro x hx; cases hx
  · intro x xs hx hxs y hy
    rcases List.mem_cons.1 hy with rfl | hy
    · exact hx
    · exact hxs y hy
  · intro kv hkv; cases hkv
  · intro kv kvs hkv hkvs y hy
    rcases List.mem_cons.1 hy with rfl | hy
    · exact hkv
    · exact hkvs y hy
  · intro _ _ h; exact h

/-- `value.get(key)` on a dictionary; anything else has no keys. -/
def get? (j : Json F) (key : String) : Option (Json F) :=
  match j with
  | .obj kvs => Dict.get? kvs key
  | _ => none

/-- `value.get(key, default)`. -/
def getD (j : Json F) (key : String) (default : Json F) : Json F :=
  (j.get? key).getD default

theorem getD_null_eq_str {j : Json F} {key text : String} :
    j.getD key .null = .str text ↔ j.get? key = some (.str text) := by
  unfold getD
  cases j.get? key <;> simp

@[simp] theorem get?_obj (kvs : Dict (Json F)) (key : String) :
    (Json.obj kvs).get? key = Dict.get? kvs key := rfl

/-! ## Equality and truth as Python reads them -/

variable [PyFloat F]

/-- The value a number has for `==`; `True` and `False` are numbers too. -/
def num? : Json F → Option Rat
  | .bool b => some (if b then 1 else 0)
  | .int i => some i
  | .float f => some (PyFloat.val f)
  | _ => none

mutual

/-- `a == b`. -/
def pyEq : Json F → Json F → Bool
  | .null, .null => true
  | .str s, .str t => s == t
  | .arr xs, .arr ys => pyEqItems xs ys
  | .obj kvs, .obj kvs' => kvs.length == kvs'.length && pyEqMembers kvs kvs'
  | .bool b, y => num? (.bool b : Json F) == num? y
  | .int i, y => num? (.int i : Json F) == num? y
  | .float f, y => num? (.float f) == num? y
  | _, _ => false
termination_by structural x => x

def pyEqItems : List (Json F) → List (Json F) → Bool
  | [], [] => true
  | x :: xs, y :: ys => pyEq x y && pyEqItems xs ys
  | _, _ => false
termination_by structural x => x

def pyEqMember : String × Json F → Dict (Json F) → Bool
  | (k, v), d => match Dict.get? d k with
    | some w => pyEq v w
    | none => false
termination_by structural x => x

def pyEqMembers : List (String × Json F) → Dict (Json F) → Bool
  | [], _ => true
  | kv :: kvs, d => pyEqMember kv d && pyEqMembers kvs d
termination_by structural x => x

end

/-- `bool(value)`. -/
def truthy : Json F → Bool
  | .null => false
  | .bool b => b
  | .int i => i ≠ 0
  | .float f => PyFloat.val f ≠ 0
  | .str s => s ≠ ""
  | .arr xs => !xs.isEmpty
  | .obj kvs => !kvs.isEmpty

@[simp] theorem pyEq_str_right (j : Json F) (s : String) :
    j.pyEq (.str s) = true ↔ j = .str s := by
  cases j <;> simp [pyEq, num?]

@[simp] theorem pyEq_str_left (j : Json F) (s : String) :
    (Json.str s).pyEq j = true ↔ j = .str s := by
  cases j with
  | str t => simp only [pyEq, beq_iff_eq, Json.str.injEq]; exact eq_comm
  | _ => simp [pyEq]

@[simp] theorem pyEq_null_right (j : Json F) : j.pyEq .null = true ↔ j = .null := by
  cases j <;> simp [pyEq, num?]

/-! ## Well-formed documents and their canonical order -/

omit [PyFloat F]

/-- No dictionary in the value repeats a key: the trees Python can hold. -/
inductive WF : Json F → Prop
  | null : WF .null
  | bool (b : Bool) : WF (.bool b)
  | int (i : Int) : WF (.int i)
  | float (f : F) : WF (.float f)
  | str (s : String) : WF (.str s)
  | arr {xs : List (Json F)} (h : ∀ x ∈ xs, WF x) : WF (.arr xs)
  | obj {kvs : Dict (Json F)} (hk : (Dict.keys kvs).Nodup) (h : ∀ kv ∈ kvs, WF kv.2) :
      WF (.obj kvs)

attribute [simp] WF.null WF.bool WF.int WF.float WF.str

@[simp] theorem wf_arr {xs : List (Json F)} : WF (.arr xs) ↔ ∀ x ∈ xs, WF x :=
  ⟨fun h => by cases h with | arr h => exact h, .arr⟩

@[simp] theorem wf_obj {kvs : Dict (Json F)} :
    WF (.obj kvs) ↔ (Dict.keys kvs).Nodup ∧ ∀ kv ∈ kvs, WF kv.2 :=
  ⟨fun h => by cases h with | obj hk h => exact ⟨hk, h⟩, fun h => .obj h.1 h.2⟩

theorem WF.get? {j v : Json F} {key : String} (hj : j.WF) (h : j.get? key = some v) :
    v.WF := by
  cases hj with
  | obj hk hv => exact hv _ (Dict.mem_of_get? h)
  | _ => cases h

theorem WF.set {kvs : Dict (Json F)} {v : Json F} (h : (Json.obj kvs).WF) (key : String)
    (hv : v.WF) : (Json.obj (Dict.set kvs key v)).WF := by
  rw [wf_obj] at h ⊢
  refine ⟨Dict.nodup_keys_set h.1 key v, fun kv hkv => ?_⟩
  rcases Dict.mem_set hkv with rfl | hkv
  · exact hv
  · exact h.2 kv hkv

theorem pyEq_refl [PyFloat F] {j : Json F} (h : j.WF) : j.pyEq j = true := by
  induction j using Json.ind with
  | null | bool | int | float | str => simp [pyEq]
  | arr xs ih =>
      have go : ∀ ys : List (Json F), (∀ y ∈ ys, y ∈ xs) → pyEqItems ys ys = true := by
        intro ys
        induction ys with
        | nil => intro _; rfl
        | cons y ys ihy =>
            intro hys
            have hy := hys y List.mem_cons_self
            rw [pyEqItems, ih y hy (wf_arr.1 h y hy), Bool.true_and]
            exact ihy fun z hz => hys z (List.mem_cons_of_mem _ hz)
      rw [pyEq]
      exact go xs fun _ hy => hy
  | obj kvs ih =>
      obtain ⟨hk, hv⟩ := wf_obj.1 h
      have go : ∀ ms : Dict (Json F), (∀ m ∈ ms, m ∈ kvs) → pyEqMembers ms kvs = true := by
        intro ms
        induction ms with
        | nil => intro _; rfl
        | cons m ms ihm =>
            intro hms
            obtain ⟨k, v⟩ := m
            have hm := hms (k, v) List.mem_cons_self
            rw [pyEqMembers, pyEqMember, Dict.get?_of_mem hk hm]
            simp only []
            rw [ih (k, v) hm (hv (k, v) hm), Bool.true_and]
            exact ihm fun z hz => hms z (List.mem_cons_of_mem _ hz)
      rw [pyEq, beq_self_eq_true, Bool.true_and]
      exact go kvs fun _ hm => hm

/-- The order `sort_keys` puts the items of a dictionary in. -/
def keyLE (a b : String × Json F) : Prop := a.1 ≤ b.1

instance : DecidableRel (keyLE (F := F)) := fun a b => inferInstanceAs (Decidable (a.1 ≤ b.1))

instance : Std.Total (keyLE (F := F)) := ⟨fun a b => le_total a.1 b.1⟩

instance : IsTrans (String × Json F) keyLE := ⟨fun _ _ _ h h' => le_trans h h'⟩

mutual

/-- The value with every dictionary's items in key order, as
`json.dumps(..., sort_keys=True)` visits them. -/
def sortKeys : Json F → Json F
  | .arr xs => .arr (sortItems xs)
  | .obj kvs => .obj ((sortMembers kvs).insertionSort keyLE)
  | .null => .null
  | .bool b => .bool b
  | .int i => .int i
  | .float f => .float f
  | .str s => .str s
termination_by structural x => x

def sortItems : List (Json F) → List (Json F)
  | [] => []
  | x :: xs => sortKeys x :: sortItems xs
termination_by structural x => x

def sortMember : String × Json F → String × Json F
  | (k, v) => (k, sortKeys v)
termination_by structural x => x

def sortMembers : List (String × Json F) → List (String × Json F)
  | [] => []
  | kv :: kvs => sortMember kv :: sortMembers kvs
termination_by structural x => x

end

@[simp] theorem sortItems_eq_map (xs : List (Json F)) : sortItems xs = xs.map sortKeys := by
  induction xs with
  | nil => rfl
  | cons x xs ih => rw [sortItems, ih, List.map_cons]

@[simp] theorem sortMembers_eq_map (kvs : Dict (Json F)) :
    sortMembers kvs = kvs.map fun kv => (kv.1, sortKeys kv.2) := by
  induction kvs with
  | nil => rfl
  | cons kv kvs ih =>
      obtain ⟨k, v⟩ := kv
      rw [sortMembers, ih, List.map_cons, sortMember]

theorem keys_map_sortKeys (kvs : Dict (Json F)) :
    Dict.keys (kvs.map fun kv => (kv.1, sortKeys kv.2)) = Dict.keys kvs := by
  induction kvs with
  | nil => rfl
  | cons kv kvs ih => rw [List.map_cons, Dict.keys_cons, ih, Dict.keys_cons]

/-- Sorting the items leaves every lookup alone. -/
theorem get?_sortKeys {j : Json F} (h : j.WF) (key : String) :
    j.sortKeys.get? key = (j.get? key).map sortKeys := by
  cases j with
  | obj kvs =>
      have hk : (Dict.keys (kvs.map fun kv => (kv.1, sortKeys kv.2))).Nodup := by
        rw [keys_map_sortKeys]
        exact (wf_obj.1 h).1
      rw [sortKeys, sortMembers_eq_map, get?_obj, get?_obj, ← Dict.get?_map]
      exact (Dict.get?_perm (List.perm_insertionSort _ _).symm hk key).symm
  | _ => rfl

/-- The order a dictionary was built in does not matter. -/
theorem sortKeys_eq_of_perm {kvs kvs' : Dict (Json F)} (h : kvs.Perm kvs')
    (hk : (Dict.keys kvs).Nodup) : (Json.obj kvs).sortKeys = (Json.obj kvs').sortKeys := by
  rw [sortKeys, sortKeys, sortMembers_eq_map, sortMembers_eq_map]
  congr 1
  have hperm := h.map fun kv => (kv.1, sortKeys kv.2)
  have hkeys : (Dict.keys (kvs.map fun kv => (kv.1, sortKeys kv.2))).Nodup := by
    rw [keys_map_sortKeys]
    exact hk
  refine List.Perm.eq_of_pairwise ?_ (List.pairwise_insertionSort keyLE _)
    (List.pairwise_insertionSort keyLE _)
    ((List.perm_insertionSort keyLE _).trans (hperm.trans (List.perm_insertionSort keyLE _).symm))
  intro a b ha hb hab hba
  have ha' := (List.perm_insertionSort keyLE _).mem_iff.1 ha
  have hb' := hperm.mem_iff.2 ((List.perm_insertionSort keyLE _).mem_iff.1 hb)
  have hkey : a.1 = b.1 := le_antisymm hab hba
  have hga := Dict.get?_of_mem hkeys ha'
  have hgb := Dict.get?_of_mem hkeys (show (b.1, b.2) ∈ _ from hb')
  rw [hkey, hgb] at hga
  exact Prod.ext hkey (Option.some.inj hga).symm

theorem WF.sortKeys {j : Json F} (h : j.WF) : j.sortKeys.WF := by
  induction j using Json.ind with
  | null | bool | int | float | str => simp [Json.sortKeys]
  | arr xs ih =>
      rw [Json.sortKeys, sortItems_eq_map, wf_arr]
      intro y hy
      obtain ⟨x, hx, rfl⟩ := List.mem_map.1 hy
      exact ih x hx (wf_arr.1 h x hx)
  | obj kvs ih =>
      obtain ⟨hk, hv⟩ := wf_obj.1 h
      rw [Json.sortKeys, sortMembers_eq_map, wf_obj]
      have hp := List.perm_insertionSort keyLE (kvs.map fun kv => (kv.1, kv.2.sortKeys))
      constructor
      · rw [← keys_map_sortKeys] at hk
        exact (hp.map Prod.fst).nodup_iff.2 hk
      · intro y hy
        obtain ⟨kv, hkv, rfl⟩ := List.mem_map.1 (hp.mem_iff.1 hy)
        exact ih kv hkv (hv kv hkv)

@[simp] theorem sortKeys_sortKeys (j : Json F) : j.sortKeys.sortKeys = j.sortKeys := by
  induction j using Json.ind with
  | null | bool | int | float | str => rfl
  | arr xs ih =>
      rw [sortKeys, sortItems_eq_map, sortKeys, sortItems_eq_map, List.map_map]
      exact congrArg Json.arr (List.map_congr_left fun x hx => ih x hx)
  | obj kvs ih =>
      rw [sortKeys, sortMembers_eq_map, sortKeys, sortMembers_eq_map]
      have hsorted := List.pairwise_insertionSort keyLE (kvs.map fun kv => (kv.1, kv.2.sortKeys))
      have hmap : ((kvs.map fun kv => (kv.1, kv.2.sortKeys)).insertionSort keyLE).map
          (fun kv => (kv.1, kv.2.sortKeys)) =
          (kvs.map fun kv => (kv.1, kv.2.sortKeys)).insertionSort keyLE := by
        rw [List.map_congr_left (g := id), List.map_id]
        intro kv hkv
        obtain ⟨kv', hkv', rfl⟩ := List.mem_map.1
          ((List.perm_insertionSort keyLE _).mem_iff.1 hkv)
        show (kv'.1, kv'.2.sortKeys.sortKeys) = (kv'.1, kv'.2.sortKeys)
        rw [ih kv' hkv']
      rw [hmap, List.Pairwise.insertionSort_eq hsorted]

end Json
