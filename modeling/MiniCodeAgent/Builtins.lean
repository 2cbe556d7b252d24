import MiniCodeAgent.Contracts
import Mathlib.Data.List.Infix
import Mathlib.Data.List.TakeWhile

/-!
# The Python built-ins the code applies to JSON values

`str`, `int`, `list` and `strip`, on the values `json.loads` can return, and the
two digests. A container's `str` is its `repr`, which no decision of the
modelled code ever reads; it enters as a function. SHA-256 and HMAC-SHA-256 are
functions on bytes that answer in hexadecimal digits.
-/

namespace MiniCodeAgent

variable {F : Type}

def valueError (message : String) : PyExc := ⟨"ValueError", message, true⟩
def typeError (message : String) : PyExc := ⟨"TypeError", message, true⟩
def keyError (key : String) : PyExc := ⟨"KeyError", "'" ++ key ++ "'", true⟩
def attributeError (message : String) : PyExc := ⟨"AttributeError", message, true⟩

/-- `if cond: raise exc`. -/
def raiseIf (cond : Prop) [Decidable cond] (exc : PyExc) : Except PyExc Unit :=
  if cond then .error exc else .ok ()

theorem raiseIf_ok {cond : Prop} [Decidable cond] {exc : PyExc} {u : Unit} :
    raiseIf cond exc = .ok u ↔ ¬ cond := by
  unfold raiseIf
  split
  · next h => exact ⟨by rintro ⟨⟩, fun hn => absurd h hn⟩
  · next h => exact ⟨fun _ => h, fun _ => rfl⟩

theorem raiseIf_error {cond : Prop} [Decidable cond] {exc raised : PyExc}
    (h : raiseIf cond exc = .error raised) : raised = exc := by
  unfold raiseIf at h
  split at h
  · cases h
    rfl
  · cases h

/-- What a sequence that returned went through. -/
theorem except_bind_ok {ε α β : Type} {x : Except ε α} {f : α → Except ε β} {b : β} :
    (x >>= f) = .ok b ↔ ∃ a, x = .ok a ∧ f a = .ok b := by
  cases x with
  | ok a =>
      constructor
      · exact fun h => ⟨a, rfl, h⟩
      · rintro ⟨_, ⟨⟩, h⟩
        exact h
  | error e =>
      constructor
      · rintro ⟨⟩
      · rintro ⟨_, ⟨⟩, _⟩

theorem except_bind_error {ε α β : Type} {x : Except ε α} {f : α → Except ε β} {e : ε}
    (h : (x >>= f) = .error e) : x = .error e ∨ ∃ a, x = .ok a ∧ f a = .error e := by
  cases x with
  | ok a => exact Or.inr ⟨a, rfl, h⟩
  | error e' =>
      injection h with h
      exact Or.inl (h ▸ rfl)

theorem except_ok_bind {ε α β : Type} (a : α) (f : α → Except ε β) :
    (Except.ok a >>= f) = f a := rfl

/-- A loop that returned, with what is said of the elements it has seen. -/
theorem except_foldlM_ok {ε α β : Type} {f : β → α → Except ε β} {P : List α → β → Prop}
    {xs : List α} {b b' : β} (h : xs.foldlM f b = .ok b') (hb : P [] b)
    (hstep : ∀ {before : List α} {x : α} {c c' : β}, x ∈ xs → P before c → f c x = .ok c' →
      P (before ++ [x]) c') : P xs b' := by
  have go : ∀ (after before : List α) (c : β), (∀ x ∈ after, x ∈ xs) → P before c →
      after.foldlM f c = .ok b' → P (before ++ after) b' := by
    intro after
    induction after with
    | nil =>
        intro before c _ hP hrun
        cases hrun
        rw [List.append_nil]
        exact hP
    | cons x after ih =>
        intro before c hmem hP hrun
        rw [List.foldlM_cons] at hrun
        obtain ⟨c', hx, hrest⟩ := except_bind_ok.1 hrun
        have := ih (before ++ [x]) c' (fun y hy => hmem y (List.mem_cons_of_mem _ hy))
          (hstep (hmem x List.mem_cons_self) hP hx) hrest
        rw [List.append_assoc] at this
        exact this
  exact go xs [] b (fun _ hx => hx) hb h

/-- Every element of a list that was mapped has its image in the result. -/
theorem except_mapM_mem {ε α β : Type} {f : α → Except ε β} {xs : List α} {ys : List β}
    (h : xs.mapM f = .ok ys) {x : α} (hx : x ∈ xs) : ∃ y ∈ ys, f x = .ok y := by
  induction xs generalizing ys with
  | nil => cases hx
  | cons first xs ih =>
      rw [List.mapM_cons] at h
      obtain ⟨r, hr, h⟩ := except_bind_ok.1 h
      obtain ⟨rs, hrs, h⟩ := except_bind_ok.1 h
      cases h
      rcases List.mem_cons.1 hx with rfl | hx
      · exact ⟨r, List.mem_cons_self, hr⟩
      · obtain ⟨y, hmem, hy⟩ := ih hrs hx
        exact ⟨y, List.mem_cons_of_mem _ hmem, hy⟩

/-- Everything in the result is the image of an element. -/
theorem except_mapM_mem_result {ε α β : Type} {f : α → Except ε β} {xs : List α} {ys : List β}
    (h : xs.mapM f = .ok ys) {y : β} (hy : y ∈ ys) : ∃ x ∈ xs, f x = .ok y := by
  induction xs generalizing ys with
  | nil =>
      cases h
      cases hy
  | cons first xs ih =>
      rw [List.mapM_cons] at h
      obtain ⟨r, hr, h⟩ := except_bind_ok.1 h
      obtain ⟨rs, hrs, h⟩ := except_bind_ok.1 h
      cases h
      rcases List.mem_cons.1 hy with rfl | hy
      · exact ⟨first, List.mem_cons_self, hr⟩
      · obtain ⟨x, hmem, hx⟩ := ih hrs hy
        exact ⟨x, List.mem_cons_of_mem _ hmem, hx⟩

theorem except_mapM_append_ok {ε α β : Type} {f : α → Except ε β} {xs xs' : List α} {zs : List β} :
    (xs ++ xs').mapM f = .ok zs ↔
      ∃ ys ys', xs.mapM f = .ok ys ∧ xs'.mapM f = .ok ys' ∧ zs = ys ++ ys' := by
  rw [List.mapM_append, except_bind_ok]
  constructor
  · rintro ⟨ys, hys, h⟩
    obtain ⟨ys', hys', h⟩ := except_bind_ok.1 h
    cases h
    exact ⟨ys, ys', hys, hys', rfl⟩
  · rintro ⟨ys, ys', hys, hys', rfl⟩
    exact ⟨ys, hys, except_bind_ok.2 ⟨ys', hys', rfl⟩⟩

theorem except_mapM_singleton_ok {ε α β : Type} {f : α → Except ε β} {x : α} {ys : List β} :
    [x].mapM f = .ok ys ↔ ∃ y, f x = .ok y ∧ ys = [y] := by
  rw [List.mapM_cons, except_bind_ok]
  constructor
  · rintro ⟨y, hy, h⟩
    cases h
    exact ⟨y, hy, rfl⟩
  · rintro ⟨y, hy, rfl⟩
    exact ⟨y, hy, rfl⟩

theorem except_mapM_returns {ε α β : Type} {f : α → Except ε β} {xs : List α}
    (h : ∀ x ∈ xs, ∃ y, f x = .ok y) : ∃ ys, xs.mapM f = .ok ys := by
  induction xs with
  | nil => exact ⟨[], rfl⟩
  | cons x xs ih =>
      obtain ⟨y, hy⟩ := h x List.mem_cons_self
      obtain ⟨ys, hys⟩ := ih fun x' hx' => h x' (List.mem_cons_of_mem _ hx')
      exact ⟨y :: ys, by rw [List.mapM_cons, hy, except_ok_bind, hys]; rfl⟩

/-- A mapped list says of its elements what the list itself says of its own. -/
theorem except_mapM_map {ε α β γ : Type} {f : α → Except ε β} {g : β → γ} {k : α → γ}
    {xs : List α} {ys : List β} (h : xs.mapM f = .ok ys)
    (hf : ∀ x y, f x = .ok y → g y = k x) : ys.map g = xs.map k := by
  induction xs generalizing ys with
  | nil =>
      cases h
      rfl
  | cons x xs ih =>
      rw [List.mapM_cons] at h
      obtain ⟨y, hy, h⟩ := except_bind_ok.1 h
      obtain ⟨rest, hrest, h⟩ := except_bind_ok.1 h
      cases h
      rw [List.map_cons, List.map_cons, hf x y hy, ih hrest]

/-- What a filter that asks each element kept. -/
theorem except_filterM_ok {ε α : Type} {p : α → Except ε Bool} {xs ys : List α}
    (h : xs.filterM p = .ok ys) : ys.Sublist xs ∧ ∀ y ∈ ys, p y = .ok true := by
  have go : ∀ (xs acc kept : List α), List.filterAuxM p xs acc = .ok kept →
      ∃ new : List α, kept = new.reverse ++ acc ∧ new.Sublist xs ∧ ∀ y ∈ new, p y = .ok true := by
    intro xs
    induction xs with
    | nil =>
        rintro acc kept ⟨⟩
        exact ⟨[], rfl, List.Sublist.refl _, by simp⟩
    | cons x xs ih =>
        intro acc kept h
        obtain ⟨keep, hkeep, h⟩ := except_bind_ok.1 h
        obtain ⟨new, rfl, hsub, hnew⟩ := ih _ _ h
        cases keep with
        | true =>
            refine ⟨x :: new, by simp, hsub.cons_cons x, ?_⟩
            exact List.forall_mem_cons.2 ⟨hkeep, hnew⟩
        | false => exact ⟨new, rfl, hsub.cons x, hnew⟩
  obtain ⟨kept, hkept, h⟩ := except_bind_ok.1 h
  cases h
  obtain ⟨new, rfl, hsub, hnew⟩ := go xs [] kept hkept
  rw [List.append_nil, List.reverse_reverse]
  exact ⟨hsub, hnew⟩

theorem except_foldlM_returns {ε α β : Type} {f : β → α → Except ε β} {xs : List α}
    (h : ∀ x ∈ xs, ∀ b, ∃ b', f b x = .ok b') (b : β) : ∃ b', xs.foldlM f b = .ok b' := by
  induction xs generalizing b with
  | nil => exact ⟨b, rfl⟩
  | cons x xs ih =>
      obtain ⟨b₁, hb₁⟩ := h x List.mem_cons_self b
      obtain ⟨b', hb'⟩ := ih (fun x' hx' => h x' (List.mem_cons_of_mem _ hx')) b₁
      exact ⟨b', by rw [List.foldlM_cons, hb₁, except_ok_bind, hb']⟩

/-- A literal's length, counted on the characters it is written with. -/
theorem length_literal {text : String} {chars : List Char} {n : Nat}
    (h : text = String.ofList chars) (hlength : chars.length = n) : text.length = n := by
  rw [h, String.length_ofList, hlength]

theorem all_literal {text : String} {chars : List Char} {p : Char → Bool}
    (h : text = String.ofList chars) (hall : chars.all p = true) : text.toList.all p = true := by
  rw [h, String.toList_ofList, hall]

/-- `str.isspace` of one character. -/
def pyIsSpace (c : Char) : Bool :=
  let n := c.toNat
  (9 ≤ n && n ≤ 13) || (28 ≤ n && n ≤ 32) || n = 0x85 || n = 0xA0 || n = 0x1680 ||
    (0x2000 ≤ n && n ≤ 0x200A) || n = 0x2028 || n = 0x2029 || n = 0x202F || n = 0x205F ||
    n = 0x3000

/-- `text.strip()`. -/
def pyStrip (text : String) : String :=
  String.ofList (((text.toList.dropWhile pyIsSpace).reverse.dropWhile pyIsSpace).reverse)

/-- A text with a character that is no space is not blank. -/
theorem pyStrip_ne_empty {text : String} {c : Char} (hc : c ∈ text.toList)
    (hspace : pyIsSpace c = false) : pyStrip text ≠ "" := by
  intro h
  have hlist := congrArg String.toList h
  rw [pyStrip, String.toList_ofList] at hlist
  have hback := List.dropWhile_eq_nil_iff.1 (List.reverse_eq_nil_iff.1 hlist)
  have hfront : text.toList.dropWhile pyIsSpace = [] := by
    cases hrest : text.toList.dropWhile pyIsSpace with
    | nil => rfl
    | cons d rest =>
        have hd : ¬ pyIsSpace d = true := by
          have hhead := List.head_dropWhile_not pyIsSpace (l := text.toList) (by rw [hrest]; simp)
          simp only [hrest, List.head_cons] at hhead
          rw [hhead]
          exact Bool.false_ne_true
        rw [hrest] at hback
        exact absurd (hback d (List.mem_reverse.2 List.mem_cons_self)) hd
  have hyes := List.dropWhile_eq_nil_iff.1 hfront c hc
  rw [hspace] at hyes
  cases hyes

/-- `text.startswith(start)`. -/
def startsWith (text start : String) : Bool := start.toList.isPrefixOf text.toList

/-- `needle in text`. -/
def pyContains (needle text : String) : Bool := decide (needle.toList <:+: text.toList)

/-- `re.findall` of one character of `first` and as many of `rest` as follow it;
`found` is the match under way. -/
def findRuns (first rest : Char → Bool) : List Char → List Char → List String
  | found, [] => if found.isEmpty then [] else [String.ofList found]
  | found, c :: cs =>
    if found.isEmpty then findRuns first rest (if first c then [c] else []) cs
    else if rest c then findRuns first rest (found ++ [c]) cs
    else String.ofList found :: findRuns first rest [] cs

/-- `str(value)`. -/
def pyStr (repr : Json F → String) : Json F → String
  | .str s => s
  | .null => "None"
  | .bool true => "True"
  | .bool false => "False"
  | .int i => String.ofList (Json.dumpInt i)
  | j => repr j

/-- `int(value)`; a text is read in ASCII digits. -/
def pyInt [Json.PyFloat F] : Json F → Except PyExc Int
  | .int i => .ok i
  | .bool b => .ok (if b then 1 else 0)
  | .float f =>
    let q := Json.PyFloat.val f
    .ok (if q < 0 then -((-q).floor) else q.floor)
  | .str s =>
    let cs := (pyStrip s).toList
    let (neg, ds) := match cs with
      | '-' :: rest => (true, rest)
      | '+' :: rest => (false, rest)
      | _ => (false, cs)
    if ds ≠ [] ∧ ds.all Char.isDigit then
      let n : Int := Nat.ofDigitChars 10 ds 0
      .ok (if neg then -n else n)
    else .error (valueError "invalid literal for int() with base 10")
  | _ => .error (typeError "int() argument must be a string, a bytes-like object or a number")

/-- `list(value)`. -/
def pyList : Json F → Except PyExc (List (Json F))
  | .arr xs => .ok xs
  | .str s => .ok (s.toList.map fun c => .str (String.singleton c))
  | .obj kvs => .ok (kvs.map fun kv => .str kv.1)
  | _ => .error (typeError "object is not iterable")

/-- `value[key]` on a dictionary. -/
def pyItem (key : String) (j : Json F) : Except PyExc (Json F) :=
  match j.get? key with
  | some v => .ok v
  | none => .error (keyError key)

/-- `value.get(key, default)`, which only a dictionary has. -/
def pyGet (value : Json F) (key : String) (default : Json F) : Except PyExc (Json F) :=
  match value with
  | .obj kvs => .ok ((Dict.get? kvs key).getD default)
  | _ => .error (attributeError "object has no attribute 'get'")

/-- `data.decode("utf-8")`. -/
def decodeUtf8 (data : ByteArray) : Except PyExc String :=
  match String.fromUTF8? data with
  | some text => .ok text
  | none => .error ⟨"UnicodeDecodeError", "'utf-8' codec can't decode", true⟩

@[simp] theorem decodeUtf8_toUTF8 (text : String) : decodeUtf8 text.toUTF8 = .ok text := by
  have h : String.fromUTF8? text.toUTF8 = some text := by
    unfold String.fromUTF8?
    exact dif_pos text.isValidUTF8
  rw [decodeUtf8, h]

theorem toUTF8_of_decodeUtf8 {data : ByteArray} {text : String}
    (h : decodeUtf8 data = .ok text) : text.toUTF8 = data := by
  unfold decodeUtf8 at h
  split at h
  · next text' heq =>
      cases h
      unfold String.fromUTF8? at heq
      split at heq
      · cases heq
        rfl
      · cases heq
  · cases h

/-! ## Digests -/

def isHexDigit (c : Char) : Bool := c.isDigit || ('a' ≤ c && c ≤ 'f')

def isHex (text : String) : Bool := text.toList.all isHexDigit

/-- `hashlib.sha256(_).hexdigest()` and `hmac.new(_, _, sha256).hexdigest()`. -/
structure Digests where
  sha256 : ByteArray → String
  hmacSha256 : ByteArray → ByteArray → String
  sha256_hex : ∀ data, isHex (sha256 data) = true
  hmacSha256_hex : ∀ key data, isHex (hmacSha256 key data) = true

/-- Two digits for each byte: a digest without collisions. -/
def hexText (data : ByteArray) : String :=
  String.ofList (data.data.toList.flatMap fun b =>
    [Json.hexDigit (b.toNat / 16), Json.hexDigit (b.toNat % 16)])

theorem isHex_hexText (data : ByteArray) : isHex (hexText data) = true := by
  have hdigit : ∀ n, n < 16 → isHexDigit (Json.hexDigit n) = true := by decide
  rw [isHex, hexText, String.toList_ofList, List.all_eq_true]
  intro c hc
  obtain ⟨b, -, hb⟩ := List.mem_flatMap.1 hc
  have := b.toNat_lt
  rcases List.mem_cons.1 hb with rfl | hb
  · exact hdigit _ (by omega)
  · rw [List.mem_singleton.1 hb]
    exact hdigit _ (by omega)

theorem length_hexText (data : ByteArray) : (hexText data).length = 2 * data.size := by
  rw [hexText, String.length_ofList, List.length_flatMap]
  simp
  omega

theorem hexText_injective {a b : ByteArray} (h : hexText a = hexText b) : a = b := by
  have hdigit : ∀ m, m < 16 → ∀ n, n < 16 → Json.hexDigit m = Json.hexDigit n → m = n := by decide
  have hlist : ∀ xs ys : List UInt8,
      (xs.flatMap fun b => [Json.hexDigit (b.toNat / 16), Json.hexDigit (b.toNat % 16)]) =
        (ys.flatMap fun b => [Json.hexDigit (b.toNat / 16), Json.hexDigit (b.toNat % 16)]) →
      xs = ys := by
    intro xs
    induction xs with
    | nil =>
        intro ys hys
        cases ys with
        | nil => rfl
        | cons y ys => simp at hys
    | cons x xs ih =>
        intro ys hys
        cases ys with
        | nil => simp at hys
        | cons y ys =>
            simp only [List.flatMap_cons, List.cons_append, List.nil_append, List.cons.injEq] at hys
            obtain ⟨hhigh, hlow, hrest⟩ := hys
            have hx := x.toNat_lt
            have hy := y.toNat_lt
            have h1 := hdigit _ (by omega) _ (by omega) hhigh
            have h2 := hdigit _ (by omega) _ (by omega) hlow
            rw [ih ys hrest, UInt8.toNat_inj.1 (show x.toNat = y.toNat by omega)]
  have := hlist _ _ (String.ofList_injective h)
  exact ByteArray.ext (Array.toList_inj.1 this)

theorem pyIsSpace_of_isHexDigit {c : Char} (h : isHexDigit c = true) : pyIsSpace c = false := by
  have hrange : 48 ≤ c.toNat ∧ c.toNat ≤ 57 ∨ 97 ≤ c.toNat ∧ c.toNat ≤ 102 := by
    simp only [isHexDigit, Char.isDigit, Bool.or_eq_true, Bool.and_eq_true, decide_eq_true_eq] at h
    exact h
  simp only [pyIsSpace]
  simp
  omega

theorem dropWhile_of_plain {l : List Char} (h : ∀ c ∈ l, pyIsSpace c = false) :
    l.dropWhile pyIsSpace = l := by
  cases l with
  | nil => rfl
  | cons c rest =>
      rw [List.dropWhile_cons_of_neg]
      simp [h c (by simp)]

/-- A text without spaces has none to strip. -/
theorem pyStrip_of_plain {text : String} (h : ∀ c ∈ text.toList, pyIsSpace c = false) :
    pyStrip text = text := by
  have hreverse : ∀ c ∈ text.toList.reverse, pyIsSpace c = false :=
    fun c hc => h c (List.mem_reverse.1 hc)
  rw [pyStrip, dropWhile_of_plain h, dropWhile_of_plain hreverse, List.reverse_reverse,
    String.ofList_toList]

/-- Digests that never collide, in place of ones that are not known to. -/
def hexDigests : Digests where
  sha256 := hexText
  hmacSha256 key data := hexText (key ++ data)
  sha256_hex := isHex_hexText
  hmacSha256_hex key data := isHex_hexText (key ++ data)

/-- Digests that tell nothing apart. -/
def zeroDigests : Digests where
  sha256 _ := "00"
  hmacSha256 _ _ := "00"
  sha256_hex _ := rfl
  hmacSha256_hex _ _ := rfl

def isAscii (text : String) : Bool := text.toList.all fun c => c.toNat < 128

theorem isAscii_of_isHex {text : String} (h : isHex text = true) : isAscii text = true := by
  rw [isHex, List.all_eq_true] at h
  rw [isAscii, List.all_eq_true]
  intro c hc
  have := h c hc
  simp only [isHexDigit, Char.isDigit, Bool.or_eq_true, Bool.and_eq_true, decide_eq_true_eq] at this
  rw [decide_eq_true_eq]
  rcases this with ⟨-, hle⟩ | ⟨-, hle⟩
  · have : c.toNat ≤ 57 := hle
    omega
  · have : c.toNat ≤ 102 := hle
    omega

/-- `hmac.compare_digest` on texts. -/
def compareDigest (a b : String) : Except PyExc Bool :=
  if isAscii a && isAscii b then .ok (a == b)
  else .error (typeError "comparing strings with non-ASCII characters is not supported")

end MiniCodeAgent
