import MiniCodeAgent.Json.Text

/-!
# What `dumps` prints, `loads` reads back

The scanners come first, each with the one fact its caller needs: the text of
a string, or of a number, followed by something that does not continue it,
scans back to the string or the number and leaves the rest. A number has no
closing mark of its own, so its lemma asks what may stand behind it
(`NumStop`); everything the printer puts behind a value is such a text.

`parseValue_dump` then walks the value. The fuel it needs is `cost`, which
depends on the value alone, and `cost_le` says that the text is long enough
for the fuel `loads` takes from it. The layout never matters: `Style.Ok` only
asks that the separators are whitespace around the one comma or colon.
-/

namespace Json

variable {F : Type}

/-! ## Strings -/

theorem hexVal?_hexDigit : ∀ n, n < 16 → hexVal? (hexDigit n) = some n := by decide

theorem unicodeEscape?_control {c : Char} (h : c.toNat < 32) (rest : List Char) :
    unicodeEscape? ('0' :: '0' :: hexDigit (c.toNat / 16) :: hexDigit (c.toNat % 16) :: rest)
      = some (c, rest) := by
  have h1 := hexVal?_hexDigit (c.toNat / 16) (by omega)
  have h2 := hexVal?_hexDigit (c.toNat % 16) (by omega)
  have h0 : hexVal? '0' = some 0 := by decide
  have hn : (0 * 16 + 0) * 16 * 16 + c.toNat / 16 * 16 + c.toNat % 16 = c.toNat := by omega
  have hx : hex4? ('0' :: '0' :: hexDigit (c.toNat / 16) :: hexDigit (c.toNat % 16) :: rest)
      = some (c.toNat, rest) := by
    simp only [hex4?, h0, h1, h2, Option.bind_eq_bind, Option.bind_some]
    congr 2
    omega
  rw [unicodeEscape?, hx]
  simp only [Option.bind_eq_bind, Option.bind_some]
  rw [if_neg (by omega), if_neg (by omega), Char.ofNat_toNat]

theorem scanString_escapeChar (c : Char) (n : Nat) (rest : List Char) :
    scanString (n + 1) (escapeChar c ++ rest) =
      (scanString n rest).bind fun p => some (c :: p.1, p.2) := by
  unfold escapeChar
  split
  · next h => subst h; rfl
  split
  · next h => subst h; rfl
  split
  · next h => subst h; rfl
  split
  · next h => subst h; rfl
  split
  · next h => subst h; rfl
  split
  · next h => subst h; rfl
  split
  · next h => subst h; rfl
  split
  · next h =>
      rw [List.cons_append, List.cons_append, scanString, if_neg (by decide), if_pos rfl]
      simp only [List.cons_append, List.nil_append]
      rw [if_pos trivial, unicodeEscape?_control h]
      rfl
  · next hq hb _ _ _ _ _ h =>
      simp only [List.cons_append, List.nil_append, scanString]
      rw [if_neg hq, if_neg hb, if_neg h]
      rfl

theorem scanString_flatMap (s rest : List Char) :
    ∀ n, s.length < n → scanString n (s.flatMap escapeChar ++ '"' :: rest) = some (s, rest) := by
  induction s with
  | nil =>
      intro n hn
      obtain ⟨m, rfl⟩ : ∃ m, n = m + 1 := ⟨n - 1, by simp at hn; omega⟩
      rfl
  | cons c s ih =>
      intro n hn
      obtain ⟨m, rfl⟩ : ∃ m, n = m + 1 := ⟨n - 1, by simp at hn; omega⟩
      rw [List.flatMap_cons, List.append_assoc, scanString_escapeChar,
        ih m (by simpa using hn)]
      rfl

theorem length_le_flatMap_escapeChar (s : List Char) :
    s.length ≤ (s.flatMap escapeChar).length := by
  induction s with
  | nil => simp
  | cons c s ih =>
      have hc : 1 ≤ (escapeChar c).length := by
        unfold escapeChar
        repeat' split
        all_goals simp
      simp only [List.flatMap_cons, List.length_append, List.length_cons]
      omega

/-- A string literal reads back behind its opening quote, on the fuel
`parseValue` and `parseMembers` give it. -/
theorem scanString_dumpString (s : String) (rest : List Char) :
    let text := s.toList.flatMap escapeChar ++ '"' :: rest
    scanString (text.length + 1) text = some (s.toList, rest) := by
  refine scanString_flatMap s.toList rest _ ?_
  have := length_le_flatMap_escapeChar s.toList
  simp only [List.length_append, List.length_cons]
  omega

/-! ## Numbers -/

/-- The text behind a number does not continue it. -/
def NumStop (rest : List Char) : Prop :=
  ∀ c cs, rest = c :: cs → c.isDigit = false ∧ c ≠ '.' ∧ c ≠ 'e' ∧ c ≠ 'E'

theorem NumStop.cons {c : Char} {cs : List Char}
    (h : c.isDigit = false ∧ c ≠ '.' ∧ c ≠ 'e' ∧ c ≠ 'E') : NumStop (c :: cs) := by
  rintro _ _ ⟨⟩
  exact h

/-- A run of digits ends where a text that does not start with one begins. -/
def DigitStop (rest : List Char) : Prop := ∀ c cs, rest = c :: cs → c.isDigit = false

theorem NumStop.digitStop {rest : List Char} (h : NumStop rest) : DigitStop rest :=
  fun c cs hc => (h c cs hc).1

theorem takeWhile_digits {ds rest : List Char} (h : ∀ x ∈ ds, x.isDigit = true)
    (hr : DigitStop rest) :
    (ds ++ rest).takeWhile Char.isDigit = ds ∧ (ds ++ rest).dropWhile Char.isDigit = rest := by
  induction ds with
  | nil =>
      cases rest with
      | nil => exact ⟨rfl, rfl⟩
      | cons c cs => simp [hr c cs rfl]
  | cons d ds ih =>
      have hd := h d List.mem_cons_self
      obtain ⟨h1, h2⟩ := ih fun x hx => h x (List.mem_cons_of_mem _ hx)
      simp [hd, h1, h2]

theorem scanSign_digit {d : Char} (hd : d.isDigit = true) (cs : List Char) :
    scanSign (d :: cs) = ([], d :: cs) := by
  have h1 : d ≠ '+' := by rintro rfl; exact absurd hd (by decide)
  have h2 : d ≠ '-' := by rintro rfl; exact absurd hd (by decide)
  unfold scanSign
  split
  · next heq => cases heq; exact absurd rfl h1
  · next heq => cases heq; exact absurd rfl h2
  · rfl

theorem scanExp_ok {t : NumText} (ht : t.Ok) {rest : List Char} (hr : NumStop rest) :
    scanExp (t.exp ++ rest) = (t.exp, rest) := by
  rcases ht.exp with he | ⟨e, s, d, ds, he, hee, hs, hds⟩
  · rw [he, List.nil_append]
    cases rest with
    | nil => rfl
    | cons c cs =>
        obtain ⟨_, _, h1, h2⟩ := hr c cs rfl
        rw [scanExp, if_neg (by rintro (h | h); exacts [h1 h, h2 h])]
  · have hd := hds d List.mem_cons_self
    have hsign : scanSign (s ++ d :: (ds ++ rest)) = (s, d :: (ds ++ rest)) := by
      rcases hs with rfl | rfl | rfl
      · exact scanSign_digit hd _
      · rfl
      · rfl
    obtain ⟨h1, h2⟩ := takeWhile_digits
      (fun x hx => hds x (List.mem_cons_of_mem _ hx)) hr.digitStop
    have hcons : t.exp ++ rest = e :: (s ++ d :: (ds ++ rest)) := by rw [he]; simp
    rw [hcons, scanExp, if_pos hee, hsign]
    simp only []
    rw [if_pos hd, h1, h2, he]

theorem exp_digitStop {t : NumText} (ht : t.Ok) {rest : List Char} (hr : NumStop rest) :
    DigitStop (t.exp ++ rest) := by
  rcases ht.exp with he | ⟨e, s, d, ds, he, hee, -, -⟩
  · rw [he]; exact hr.digitStop
  · rw [he]
    rintro _ _ ⟨⟩
    rcases hee with rfl | rfl <;> decide

theorem scanFrac_ok {t : NumText} (ht : t.Ok) {rest : List Char} (hr : NumStop rest) :
    scanFrac (t.frac ++ (t.exp ++ rest)) = (t.frac, t.exp ++ rest) := by
  rcases ht.frac with hf | ⟨d, ds, hf, hds⟩
  · rw [hf, List.nil_append]
    unfold scanFrac
    split
    · next heq =>
        exfalso
        rcases ht.exp with he | ⟨e, s, d, ds, he, hee, -, -⟩
        · rw [he] at heq
          exact (hr _ _ heq).2.1 rfl
        · rw [he, List.cons_append, List.cons.injEq] at heq
          obtain ⟨rfl, -⟩ := heq
          rcases hee with h | h <;> exact absurd h (by decide)
    · rfl
  · have hd := hds d List.mem_cons_self
    obtain ⟨h1, h2⟩ := takeWhile_digits
      (fun x hx => hds x (List.mem_cons_of_mem _ hx)) (exp_digitStop ht hr)
    have hcons : t.frac ++ (t.exp ++ rest) = '.' :: d :: (ds ++ (t.exp ++ rest)) := by
      rw [hf]; simp
    rw [hcons, scanFrac, if_pos hd, h1, h2, hf]

theorem frac_digitStop {t : NumText} (ht : t.Ok) {rest : List Char} (hr : NumStop rest) :
    DigitStop (t.frac ++ (t.exp ++ rest)) := by
  rcases ht.frac with hf | ⟨d, ds, hf, -⟩
  · rw [hf]; exact exp_digitStop ht hr
  · rw [hf]
    rintro _ _ ⟨⟩
    decide

theorem scanWhole_ok {t : NumText} (ht : t.Ok) {rest : List Char} (hr : DigitStop rest) :
    scanWhole (t.whole ++ rest) = some (t.whole, rest) := by
  rcases ht.whole with hw | ⟨c, ds, hw, hc, h0, hds⟩
  · rw [hw]; rfl
  · obtain ⟨h1, h2⟩ := takeWhile_digits hds hr
    rw [hw, List.cons_append, scanWhole, if_neg h0, if_pos hc, h1, h2]

theorem whole_head {t : NumText} (ht : t.Ok) (rest : List Char) :
    ∃ c cs, t.whole ++ rest = c :: cs ∧ c.isDigit = true := by
  rcases ht.whole with hw | ⟨c, ds, hw, hc, -, -⟩
  · exact ⟨'0', rest, by rw [hw]; rfl, by decide⟩
  · exact ⟨c, ds ++ rest, by rw [hw]; rfl, hc⟩

theorem scanMinus_digit {c : Char} (hc : c.isDigit = true) (cs : List Char) :
    scanMinus (c :: cs) = ([], c :: cs) := by
  have h : c ≠ '-' := by rintro rfl; exact absurd hc (by decide)
  unfold scanMinus
  split
  · next heq => cases heq; exact absurd rfl h
  · rfl

theorem scanNumber_text {t : NumText} (ht : t.Ok) {rest : List Char} (hr : NumStop rest) :
    scanNumber (t.text ++ rest) = some (t, rest) := by
  have hm : scanMinus (t.text ++ rest) =
      (t.sign, t.whole ++ (t.frac ++ (t.exp ++ rest))) := by
    rcases ht.sign with hs | hs
    · obtain ⟨c, cs, hc, hd⟩ := whole_head ht (t.frac ++ (t.exp ++ rest))
      have happ : t.text ++ rest = c :: cs := by rw [← hc]; simp [NumText.text, hs]
      rw [happ, scanMinus_digit hd, hs, hc]
    · have happ : t.text ++ rest = '-' :: (t.whole ++ (t.frac ++ (t.exp ++ rest))) := by
        simp [NumText.text, hs]
      rw [happ, hs]
      rfl
  rw [scanNumber, hm, scanWhole_ok ht (frac_digitStop ht hr)]
  simp only [scanFrac_ok ht hr, scanExp_ok ht hr]

/-- The text of an integer, cut up. -/
def intText (i : Int) : NumText :=
  ⟨if i < 0 then ['-'] else [], Nat.toDigits 10 i.natAbs, [], []⟩

theorem dumpInt_eq_text (i : Int) : dumpInt i = (intText i).text := by
  unfold dumpInt intText NumText.text
  split <;> simp

theorem toDigits_whole (n : Nat) : Nat.toDigits 10 n = ['0'] ∨
    ∃ c ds, Nat.toDigits 10 n = c :: ds ∧ c.isDigit = true ∧ c ≠ '0' ∧
      ∀ x ∈ ds, x.isDigit = true := by
  induction n using Nat.strong_induction_on with
  | _ n ih =>
    rcases Nat.lt_or_ge n 10 with h | h
    · rw [Nat.toDigits_of_lt_base h]
      rcases Nat.eq_zero_or_pos n with rfl | hp
      · exact Or.inl rfl
      · refine Or.inr ⟨_, [], rfl, ?_, ?_, by simp⟩
        · rw [Nat.isDigit_digitChar]; simpa using h
        · simp; omega
    · rw [Nat.toDigits_of_base_le (by decide) h]
      right
      have hdig : ((n % 10).digitChar).isDigit = true := by
        rw [Nat.isDigit_digitChar]; simp; omega
      rcases ih (n / 10) (by omega) with h0 | ⟨c, ds, hc, hcd, hc0, hds⟩
      · exfalso
        have hv := Nat.ofDigitChars_ten_toDigits (n := n / 10)
        rw [h0] at hv
        have : (Nat.ofDigitChars 10 ['0'] 0) = 0 := by decide
        omega
      · refine ⟨c, ds ++ [(n % 10).digitChar], by rw [hc]; rfl, hcd, hc0, ?_⟩
        intro x hx
        rcases List.mem_append.1 hx with hx | hx
        · exact hds x hx
        · rw [List.mem_singleton] at hx
          rw [hx]
          exact hdig

theorem intText_ok (i : Int) : (intText i).Ok where
  sign := by unfold intText; split <;> simp
  whole := toDigits_whole i.natAbs
  frac := Or.inl rfl
  exp := Or.inl rfl

variable [PyFloat F]

theorem ofNumText_intText (i : Int) : ofNumText (intText i) = (.int i : Json F) := by
  unfold ofNumText intText
  simp only [Nat.ofDigitChars_ten_toDigits, and_self, if_true]
  split
  · next h => rw [if_neg (by simp)]; congr 1; omega
  · next h => rw [if_pos rfl]; congr 1; omega

theorem ofNumText_repr (f : F) : ofNumText (PyFloat.repr f) = .float f := by
  unfold ofNumText
  rw [if_neg, PyFloat.ofText_repr]
  rintro ⟨h1, h2⟩
  exact (PyFloat.repr_isFloat f).elim (fun h => h h1) (fun h => h h2)

/-! ## Values -/

/-- The separators are what the parser takes for one: whitespace around the
comma, around the colon, and nothing but whitespace in a gap. -/
structure Style.Ok (st : Style) : Prop where
  comma : ∃ ws, st.comma = ',' :: ws ∧ ∀ c ∈ ws, isWs c = true
  colon : ∃ ws, st.colon = ':' :: ws ∧ ∀ c ∈ ws, isWs c = true
  gap : ∀ d, ∀ c ∈ st.gap d, isWs c = true

theorem Style.compact_ok : Style.compact.Ok where
  comma := ⟨[], rfl, by simp⟩
  colon := ⟨[], rfl, by simp⟩
  gap := by intro d c hc; cases hc

theorem Style.indent2_ok : Style.indent2.Ok where
  comma := ⟨[], rfl, by simp⟩
  colon := ⟨[' '], rfl, List.forall_mem_singleton.2 rfl⟩
  gap := by
    intro d c hc
    rcases List.mem_cons.1 hc with rfl | hc
    · decide
    · rw [List.eq_of_mem_replicate hc]
      decide

theorem skipWs_append {ws : List Char} (h : ∀ c ∈ ws, isWs c = true) (rest : List Char) :
    skipWs (ws ++ rest) = skipWs rest := by
  induction ws with
  | nil => rfl
  | cons c ws ih =>
      rw [List.cons_append, skipWs, List.dropWhile_cons_of_pos (h c List.mem_cons_self)]
      exact ih fun x hx => h x (List.mem_cons_of_mem _ hx)

theorem skipWs_cons {c : Char} (h : isWs c = false) (rest : List Char) :
    skipWs (c :: rest) = c :: rest :=
  List.dropWhile_cons_of_neg (by simp [h])

theorem ws_numStop {c : Char} (h : isWs c = true) :
    c.isDigit = false ∧ c ≠ '.' ∧ c ≠ 'e' ∧ c ≠ 'E' := by
  simp only [isWs, Bool.or_eq_true, decide_eq_true_eq] at h
  rcases h with ((rfl | rfl) | rfl) | rfl <;> decide

theorem numStop_append {ws rest : List Char} (h : ∀ c ∈ ws, isWs c = true)
    (hr : NumStop rest) : NumStop (ws ++ rest) := by
  cases ws with
  | nil => exact hr
  | cons c ws => exact NumStop.cons (ws_numStop (h c List.mem_cons_self))

/-- What no value starts with: whitespace and the closing brackets. -/
def Opens (cs : List Char) : Prop :=
  ∃ c rest, cs = c :: rest ∧ isWs c = false ∧ c ≠ ']' ∧ c ≠ '}'

theorem Opens.append {cs : List Char} (h : Opens cs) (rest : List Char) :
    Opens (cs ++ rest) := by
  obtain ⟨c, tail, rfl, h'⟩ := h
  exact ⟨c, tail ++ rest, rfl, h'⟩

theorem Opens.skipWs {cs : List Char} (h : Opens cs) : skipWs cs = cs := by
  obtain ⟨c, rest, rfl, hc, -⟩ := h
  exact skipWs_cons hc rest

/-- A minus sign or a digit, which is how a number starts. -/
def NumHead (c : Char) : Prop := c = '-' ∨ c.isDigit = true

theorem NumHead.opens {c : Char} (h : NumHead c) (rest : List Char) : Opens (c :: rest) := by
  refine ⟨c, rest, rfl, ?_⟩
  rcases h with rfl | h
  · decide
  · refine ⟨?_, ?_, ?_⟩
    · cases hw : isWs c with
      | false => rfl
      | true => rw [(ws_numStop hw).1] at h; cases h
    · rintro rfl; exact absurd h (by decide)
    · rintro rfl; exact absurd h (by decide)

theorem text_head {t : NumText} (ht : t.Ok) (rest : List Char) :
    ∃ c cs, t.text ++ rest = c :: cs ∧ NumHead c := by
  rcases ht.sign with hs | hs
  · obtain ⟨c, cs, hc, hd⟩ := whole_head ht (t.frac ++ (t.exp ++ rest))
    exact ⟨c, cs, by rw [← hc]; simp [NumText.text, hs], Or.inr hd⟩
  · exact ⟨'-', t.whole ++ (t.frac ++ (t.exp ++ rest)), by simp [NumText.text, hs], Or.inl rfl⟩

theorem dump_opens (st : Style) (j : Json F) (d : Nat) : Opens (dump st j d) := by
  cases j with
  | null => exact ⟨_, _, rfl, by decide⟩
  | bool b => cases b <;> exact ⟨_, _, rfl, by decide⟩
  | int i =>
      obtain ⟨c, cs, hc, hn⟩ := text_head (intText_ok i) []
      rw [List.append_nil] at hc
      rw [dump, dumpInt_eq_text, hc]
      exact hn.opens cs
  | float f =>
      obtain ⟨c, cs, hc, hn⟩ := text_head (PyFloat.repr_ok f) []
      rw [List.append_nil] at hc
      rw [dump, hc]
      exact hn.opens cs
  | str s => exact ⟨_, _, rfl, by decide⟩
  | arr xs => rw [dump]; split <;> exact ⟨_, _, rfl, by decide⟩
  | obj kvs => rw [dump]; split <;> exact ⟨_, _, rfl, by decide⟩

mutual

/-- The fuel a value takes to parse. -/
def cost : Json F → Nat
  | .null | .bool _ | .int _ | .float _ | .str _ => 1
  | .arr xs => 1 + costItems xs
  | .obj kvs => 1 + costMembers kvs
termination_by structural x => x

def costItems : List (Json F) → Nat
  | [] => 0
  | x :: xs => 1 + cost x + costItems xs
termination_by structural x => x

def costMember : String × Json F → Nat
  | (_, v) => cost v
termination_by structural x => x

def costMembers : List (String × Json F) → Nat
  | [] => 0
  | kv :: kvs => 1 + costMember kv + costMembers kvs
termination_by structural x => x

end

/-- What the round trip says of one value, at any depth and fuel. -/
def ReadsBack (st : Style) (j : Json F) : Prop :=
  ∀ d n rest, NumStop rest → cost j ≤ n →
    parseValue n (dump st j d ++ rest) = some (j, rest)

theorem parseValue_number {n : Nat} {t : NumText} (ht : t.Ok) {rest : List Char}
    (hr : NumStop rest) :
    parseValue (n + 1) (t.text ++ rest) = some ((ofNumText t : Json F), rest) := by
  have hs := scanNumber_text ht hr
  obtain ⟨c, cs, hc, hn⟩ := text_head ht rest
  rw [hc] at hs ⊢
  unfold parseValue
  split
  all_goals first
    | (exfalso
       next heq =>
         cases heq
         rcases hn with h | h
         · exact absurd h (by decide)
         · exact absurd h (by decide))
    | (rw [hs]; rfl)

section Items

variable {st : Style} (hst : st.Ok)

include hst

theorem skipWs_comma (d : Nat) {cs : List Char} (hcs : Opens cs) :
    ∃ tail, st.comma ++ st.gap d ++ cs = ',' :: tail ∧ skipWs tail = cs := by
  obtain ⟨ws, hc, hws⟩ := hst.comma
  refine ⟨ws ++ (st.gap d ++ cs), by simp [hc], ?_⟩
  rw [skipWs_append hws, skipWs_append (hst.gap d), hcs.skipWs]

theorem skipWs_colon {cs : List Char} (hcs : Opens cs) :
    ∃ tail, st.colon ++ cs = ':' :: tail ∧ skipWs tail = cs := by
  obtain ⟨ws, hc, hws⟩ := hst.colon
  refine ⟨ws ++ cs, by simp [hc], ?_⟩
  rw [skipWs_append hws, hcs.skipWs]

theorem parseItems_dump (d d' : Nat) (rest : List Char) :
    ∀ (xs : List (Json F)) (x : Json F) (n : Nat),
      (∀ y ∈ x :: xs, ReadsBack st y) → costItems (x :: xs) ≤ n →
      parseItems n (dump st x d ++
        (dumpItems st xs (st.comma ++ st.gap d) d ++ (st.gap d' ++ ']' :: rest)))
        = some (x :: xs, rest) := by
  intro xs
  induction xs with
  | nil =>
      intro x n hx hn
      obtain ⟨m, rfl⟩ : ∃ m, n = m + 1 := ⟨n - 1, by simp only [costItems] at hn; omega⟩
      have hclose : NumStop (st.gap d' ++ ']' :: rest) :=
        numStop_append (hst.gap d') (NumStop.cons (by decide))
      have hv := hx x List.mem_cons_self d m _ hclose
        (by simp only [costItems] at hn; omega)
      have hs : skipWs (st.gap d' ++ ']' :: rest) = ']' :: rest := by
        rw [skipWs_append (hst.gap d'), skipWs_cons (by decide)]
      simp only [dumpItems, List.nil_append]
      rw [parseItems, hv]
      simp only [Option.bind_eq_bind, Option.bind_some, hs]
  | cons y ys ih =>
      intro x n hx hn
      obtain ⟨m, rfl⟩ : ∃ m, n = m + 1 := ⟨n - 1, by simp only [costItems] at hn; omega⟩
      have hrec := ih y m (fun z hz => hx z (List.mem_cons_of_mem _ hz))
        (by simp only [costItems] at hn ⊢; omega)
      obtain ⟨tail, htail, hskip⟩ := skipWs_comma hst d
        ((dump_opens st y d).append
          (dumpItems st ys (st.comma ++ st.gap d) d ++ (st.gap d' ++ ']' :: rest)))
      have happ : dumpItems st (y :: ys) (st.comma ++ st.gap d) d ++
          (st.gap d' ++ ']' :: rest) = ',' :: tail := by
        rw [← htail]
        simp [dumpItems]
      have hv := hx x List.mem_cons_self d m (',' :: tail) (NumStop.cons (by decide))
        (by simp only [costItems] at hn; omega)
      rw [happ, parseItems, hv]
      simp only [Option.bind_eq_bind, Option.bind_some]
      rw [skipWs_cons (by decide)]
      simp only [hskip, hrec, Option.bind_some]

theorem parseMembers_dump (d d' : Nat) (rest : List Char) :
    ∀ (kvs : Dict (Json F)) (kv : String × Json F) (n : Nat),
      (∀ m ∈ kv :: kvs, ReadsBack st m.2) → costMembers (kv :: kvs) ≤ n →
      parseMembers n (dumpMember st kv d ++
        (dumpMembers st kvs (st.comma ++ st.gap d) d ++ (st.gap d' ++ '}' :: rest)))
        = some (kv :: kvs, rest) := by
  intro kvs
  induction kvs with
  | nil =>
      rintro ⟨k, v⟩ n hx hn
      simp only [costMembers, costMember] at hn
      obtain ⟨m, rfl⟩ : ∃ m, n = m + 1 := ⟨n - 1, by omega⟩
      have hclose : NumStop (st.gap d' ++ '}' :: rest) :=
        numStop_append (hst.gap d') (NumStop.cons (by decide))
      have hv := hx (k, v) List.mem_cons_self d m _ hclose (show v.cost ≤ m by omega)
      have hs : skipWs (st.gap d' ++ '}' :: rest) = '}' :: rest := by
        rw [skipWs_append (hst.gap d'), skipWs_cons (by decide)]
      obtain ⟨tail, htail, hskip⟩ := skipWs_colon hst
        ((dump_opens st v d).append (st.gap d' ++ '}' :: rest))
      have happ : dumpMember st (k, v) d ++ (dumpMembers st ([] : Dict (Json F)) (st.comma ++ st.gap d) d ++
          (st.gap d' ++ '}' :: rest)) =
          '"' :: (k.toList.flatMap escapeChar ++ '"' :: ':' :: tail) := by
        rw [← htail]
        simp [dumpMember, dumpMembers, dumpString]
      rw [happ, parseMembers]
      simp only [scanString_dumpString, Option.bind_eq_bind, Option.bind_some]
      rw [skipWs_cons (by decide)]
      simp only [hskip, hv, hs, Option.bind_some, String.ofList_toList]
  | cons kv' kvs ih =>
      rintro ⟨k, v⟩ n hx hn
      simp only [costMembers, costMember] at hn
      obtain ⟨m, rfl⟩ : ∃ m, n = m + 1 := ⟨n - 1, by omega⟩
      have hrec := ih kv' m (fun z hz => hx z (List.mem_cons_of_mem _ hz))
        (by simp only [costMembers]; omega)
      have hopens : Opens (dumpMember st kv' d ++
          (dumpMembers st kvs (st.comma ++ st.gap d) d ++ (st.gap d' ++ '}' :: rest))) := by
        obtain ⟨k', v'⟩ := kv'
        exact ⟨'"', _, rfl, by decide⟩
      obtain ⟨tail, htail, hskip⟩ := skipWs_comma hst d hopens
      have hv := hx (k, v) List.mem_cons_self d m (',' :: tail) (NumStop.cons (by decide))
        (show v.cost ≤ m by omega)
      obtain ⟨tail', htail', hskip'⟩ := skipWs_colon hst
        ((dump_opens st v d).append (',' :: tail))
      have happ : dumpMember st (k, v) d ++ (dumpMembers st (kv' :: kvs)
          (st.comma ++ st.gap d) d ++ (st.gap d' ++ '}' :: rest)) =
          '"' :: (k.toList.flatMap escapeChar ++ '"' :: ':' :: tail') := by
        rw [← htail', ← htail]
        simp [dumpMember, dumpMembers, dumpString]
      rw [happ, parseMembers]
      simp only [scanString_dumpString, Option.bind_eq_bind, Option.bind_some]
      rw [skipWs_cons (by decide)]
      simp only [hskip', hv, Option.bind_some]
      rw [skipWs_cons (by decide)]
      simp only [hskip, hrec, Option.bind_some, String.ofList_toList]

/-- Every value reads back from its text, whatever the layout. -/
theorem parseValue_dump {j : Json F} (hj : j.WF) : ReadsBack st j := by
  induction j using Json.ind with
  | null =>
      intro d n rest _ hn
      obtain ⟨m, rfl⟩ : ∃ m, n = m + 1 := ⟨n - 1, by simp only [cost] at hn; omega⟩
      rfl
  | bool b =>
      intro d n rest _ hn
      obtain ⟨m, rfl⟩ : ∃ m, n = m + 1 := ⟨n - 1, by simp only [cost] at hn; omega⟩
      cases b <;> rfl
  | int i =>
      intro d n rest hr hn
      obtain ⟨m, rfl⟩ : ∃ m, n = m + 1 := ⟨n - 1, by simp only [cost] at hn; omega⟩
      rw [dump, dumpInt_eq_text, parseValue_number (intText_ok i) hr, ofNumText_intText]
  | float f =>
      intro d n rest hr hn
      obtain ⟨m, rfl⟩ : ∃ m, n = m + 1 := ⟨n - 1, by simp only [cost] at hn; omega⟩
      rw [dump, parseValue_number (PyFloat.repr_ok f) hr, ofNumText_repr]
  | str s =>
      intro d n rest _ hn
      obtain ⟨m, rfl⟩ : ∃ m, n = m + 1 := ⟨n - 1, by simp only [cost] at hn; omega⟩
      have happ : dump st (.str s : Json F) d ++ rest =
          '"' :: (s.toList.flatMap escapeChar ++ '"' :: rest) := by
        simp [dump, dumpString]
      rw [happ, parseValue]
      simp only [scanString_dumpString, Option.bind_eq_bind, Option.bind_some,
        String.ofList_toList]
  | arr xs ih =>
      intro d n rest _ hn
      obtain ⟨m, rfl⟩ : ∃ m, n = m + 1 := ⟨n - 1, by simp only [cost] at hn; omega⟩
      cases xs with
      | nil => rfl
      | cons x xs =>
          have hitems := parseItems_dump hst (d + 1) d rest xs x m
            (fun y hy => ih y hy (wf_arr.1 hj y hy)) (by simp only [cost] at hn; omega)
          have hopens : Opens (dump st x (d + 1) ++
              (dumpItems st xs (st.comma ++ st.gap (d + 1)) (d + 1) ++
                (st.gap d ++ ']' :: rest))) :=
            (dump_opens st x (d + 1)).append _
          have happ : dump st (.arr (x :: xs)) d ++ rest =
              '[' :: (st.gap (d + 1) ++ (dump st x (d + 1) ++
                (dumpItems st xs (st.comma ++ st.gap (d + 1)) (d + 1) ++
                  (st.gap d ++ ']' :: rest)))) := by
            simp [dump, dumpItems]
          rw [happ, parseValue]
          simp only [skipWs_append (hst.gap (d + 1)), hopens.skipWs]
          split
          · next heq =>
              obtain ⟨c, cs, hc, -, hne, -⟩ := hopens
              rw [hc] at heq
              cases heq
              exact absurd rfl hne
          · rw [hitems]
            rfl
  | obj kvs ih =>
      intro d n rest _ hn
      obtain ⟨m, rfl⟩ : ∃ m, n = m + 1 := ⟨n - 1, by simp only [cost] at hn; omega⟩
      obtain ⟨hk, hv⟩ := wf_obj.1 hj
      cases kvs with
      | nil => rfl
      | cons kv kvs =>
          have hmembers := parseMembers_dump hst (d + 1) d rest kvs kv m
            (fun y hy => ih y hy (hv y hy)) (by simp only [cost] at hn; omega)
          have hopens : Opens (dumpMember st kv (d + 1) ++
              (dumpMembers st kvs (st.comma ++ st.gap (d + 1)) (d + 1) ++
                (st.gap d ++ '}' :: rest))) := by
            obtain ⟨k, v⟩ := kv
            exact ⟨'"', _, rfl, by decide⟩
          have happ : dump st (.obj (kv :: kvs)) d ++ rest =
              '{' :: (st.gap (d + 1) ++ (dumpMember st kv (d + 1) ++
                (dumpMembers st kvs (st.comma ++ st.gap (d + 1)) (d + 1) ++
                  (st.gap d ++ '}' :: rest)))) := by
            simp [dump, dumpMembers]
          rw [happ, parseValue]
          simp only [skipWs_append (hst.gap (d + 1)), hopens.skipWs]
          split
          · next heq =>
              obtain ⟨c, cs, hc, -, -, hne⟩ := hopens
              rw [hc] at heq
              cases heq
              exact absurd rfl hne
          · rw [hmembers]
            simp only [Option.bind_eq_bind, Option.bind_some, Dict.ofPairs_eq_self hk]

omit [PyFloat F] hst in
theorem length_pos_of_opens {cs : List Char} (h : Opens cs) : 1 ≤ cs.length := by
  obtain ⟨c, rest, rfl, -⟩ := h
  simp

/-- The fuel fits in twice the text: a comma pays for each item after the
first, the brackets for the rest. -/
theorem cost_le (j : Json F) (d : Nat) : cost j ≤ 2 * (dump st j d).length := by
  have hcomma : ∀ d, 1 ≤ (st.comma ++ st.gap d).length := by
    intro d
    obtain ⟨ws, hc, -⟩ := hst.comma
    simp [hc]
  induction j using Json.ind generalizing d with
  | null => simp [cost, dump]
  | bool b => cases b <;> simp [cost, dump]
  | int i =>
      have := length_pos_of_opens (dump_opens st (.int i : Json F) d)
      simp only [cost]
      omega
  | float f =>
      have := length_pos_of_opens (dump_opens st (.float f) d)
      simp only [cost]
      omega
  | str s =>
      have := length_pos_of_opens (dump_opens st (.str s : Json F) d)
      simp only [cost]
      omega
  | arr xs ih =>
      have go : ∀ (ys : List (Json F)) (sep : List Char), (∀ y ∈ ys, y ∈ xs) →
          1 ≤ sep.length → costItems ys ≤ 2 * (dumpItems st ys sep (d + 1)).length := by
        intro ys
        induction ys with
        | nil => intro _ _ _; simp [costItems]
        | cons y ys ihy =>
            intro sep hys hsep
            have h1 := ih y (hys y List.mem_cons_self) (d + 1)
            have h2 := ihy (st.comma ++ st.gap (d + 1))
              (fun z hz => hys z (List.mem_cons_of_mem _ hz)) (hcomma (d + 1))
            simp only [costItems, dumpItems, List.length_append] at h2 ⊢
            omega
      cases xs with
      | nil => simp [cost, costItems, dump]
      | cons x xs =>
          have h1 := ih x List.mem_cons_self (d + 1)
          have h2 := go xs (st.comma ++ st.gap (d + 1))
            (fun z hz => List.mem_cons_of_mem _ hz) (hcomma (d + 1))
          simp only [cost, costItems, dump, dumpItems, List.isEmpty_cons, Bool.false_eq_true,
            if_false, List.length_cons, List.length_append] at h2 ⊢
          omega
  | obj kvs ih =>
      have go : ∀ (ms : Dict (Json F)) (sep : List Char), (∀ m ∈ ms, m ∈ kvs) →
          1 ≤ sep.length → costMembers ms ≤ 2 * (dumpMembers st ms sep (d + 1)).length := by
        intro ms
        induction ms with
        | nil => intro _ _ _; simp [costMembers]
        | cons m ms ihm =>
            intro sep hms hsep
            obtain ⟨k, v⟩ := m
            have h1 := ih (k, v) (hms (k, v) List.mem_cons_self) (d + 1)
            have h2 := ihm (st.comma ++ st.gap (d + 1))
              (fun z hz => hms z (List.mem_cons_of_mem _ hz)) (hcomma (d + 1))
            simp only [costMembers, costMember, dumpMembers, dumpMember,
              List.length_append] at h1 h2 ⊢
            omega
      cases kvs with
      | nil => simp [cost, costMembers, dump]
      | cons kv kvs =>
          obtain ⟨k, v⟩ := kv
          have h1 := ih (k, v) List.mem_cons_self (d + 1)
          have h2 := go kvs (st.comma ++ st.gap (d + 1))
            (fun z hz => List.mem_cons_of_mem _ hz) (hcomma (d + 1))
          simp only [cost, costMembers, costMember, dump, dumpMembers, dumpMember,
            List.isEmpty_cons, Bool.false_eq_true, if_false, List.length_cons,
            List.length_append] at h1 h2 ⊢
          omega

/-- `json.loads(json.dumps(value))` is the value, in any layout. -/
theorem loads_dumps {j : Json F} (hj : j.WF) : loads (dumps st j) = some j := by
  have hread := parseValue_dump hst hj 0 (2 * (dump st j 0).length + 2) []
    (by intro c cs h; cases h) (by have := cost_le hst j 0; omega)
  rw [List.append_nil] at hread
  simp only [loads, dumps, String.toList_ofList, (dump_opens st j 0).skipWs, hread]
  rfl

end Items

/-! ## What `loads` returns is a document -/

omit [PyFloat F] in
theorem ofPairs_wf {kvs : List (String × Json F)} (h : ∀ kv ∈ kvs, kv.2.WF) :
    (Json.obj (Dict.ofPairs kvs)).WF := by
  have go : ∀ (rest : List (String × Json F)) (d : Dict (Json F)), (Json.obj d).WF →
      (∀ kv ∈ rest, kv.2.WF) →
      (Json.obj (rest.foldl (fun d kv => Dict.set d kv.1 kv.2) d)).WF := by
    intro rest
    induction rest with
    | nil => intro d hd _; exact hd
    | cons kv rest ih =>
        intro d hd hr
        exact ih _ (hd.set kv.1 (hr kv List.mem_cons_self))
          fun x hx => hr x (List.mem_cons_of_mem _ hx)
  exact go kvs [] (by simp) h

theorem ofNumText_wf (t : NumText) : (ofNumText t : Json F).WF := by
  unfold ofNumText
  split <;> simp

/-- One fuel step at a time: the value, the items and the members a parse
returns hold no dictionary that repeats a key. -/
theorem parse_wf : ∀ n : Nat,
    (∀ cs (j : Json F) rest, parseValue n cs = some (j, rest) → j.WF) ∧
    (∀ cs (xs : List (Json F)) rest, parseItems n cs = some (xs, rest) → ∀ x ∈ xs, x.WF) ∧
    (∀ cs (kvs : List (String × Json F)) rest, parseMembers n cs = some (kvs, rest) →
      ∀ kv ∈ kvs, kv.2.WF) := by
  intro n
  induction n with
  | zero =>
      refine ⟨?_, ?_, ?_⟩ <;> intro cs _ _ h <;> cases h
  | succ n ih =>
      obtain ⟨ihv, ihi, ihm⟩ := ih
      refine ⟨?_, ?_, ?_⟩
      · intro cs j rest h
        unfold parseValue at h
        split at h
        · obtain ⟨p, -, h⟩ := Option.bind_eq_some_iff.1 h
          cases h
          simp
        · split at h
          · cases h; simp
          · obtain ⟨p, hp, h⟩ := Option.bind_eq_some_iff.1 h
            cases h
            exact ofPairs_wf (ihm _ p.1 p.2 hp)
        · split at h
          · cases h; simp
          · obtain ⟨p, hp, h⟩ := Option.bind_eq_some_iff.1 h
            cases h
            exact wf_arr.2 (ihi _ p.1 p.2 hp)
        · cases h; simp
        · cases h; simp
        · cases h; simp
        · obtain ⟨p, -, h⟩ := Option.bind_eq_some_iff.1 h
          cases h
          exact ofNumText_wf p.1
      · intro cs xs rest h
        unfold parseItems at h
        obtain ⟨p, hp, h⟩ := Option.bind_eq_some_iff.1 h
        have hx := ihv _ p.1 p.2 hp
        simp only [] at h
        split at h
        · obtain ⟨q, hq, h⟩ := Option.bind_eq_some_iff.1 h
          cases h
          intro y hy
          rcases List.mem_cons.1 hy with rfl | hy
          · exact hx
          · exact ihi _ q.1 q.2 hq y hy
        · cases h
          simpa using hx
        · cases h
      · intro cs kvs rest h
        unfold parseMembers at h
        split at h
        · obtain ⟨k, -, h⟩ := Option.bind_eq_some_iff.1 h
          simp only [] at h
          split at h
          · obtain ⟨p, hp, h⟩ := Option.bind_eq_some_iff.1 h
            have hx := ihv _ p.1 p.2 hp
            split at h
            · obtain ⟨q, hq, h⟩ := Option.bind_eq_some_iff.1 h
              cases h
              intro y hy
              rcases List.mem_cons.1 hy with rfl | hy
              · exact hx
              · exact ihm _ q.1 q.2 hq y hy
            · cases h
              simpa using hx
            · cases h
          · cases h
        · cases h

theorem loads_wf {s : String} {j : Json F} (h : loads s = some j) : j.WF := by
  simp only [loads] at h
  split at h
  · next heq =>
      split at h
      · cases h
        exact (parse_wf _).1 _ _ _ heq
      · cases h
  · cases h

/-! ## Canonical text -/

/-- Two documents with the same canonical text differ in the order of their
keys at most. -/
theorem sortKeys_eq_of_canonical {a b : Json F} (ha : a.WF) (hb : b.WF)
    (h : canonical a = canonical b) : a.sortKeys = b.sortKeys := by
  have h1 := loads_dumps Style.compact_ok ha.sortKeys
  have h2 := loads_dumps Style.compact_ok hb.sortKeys
  unfold canonical at h
  rw [h, h2] at h1
  exact (Option.some.inj h1).symm

/-- Nothing changes once the keys are in order. -/
theorem canonical_sortKeys (j : Json F) : canonical j.sortKeys = canonical j := by
  rw [canonical, canonical, sortKeys_sortKeys]

/-- A document that was read back from its canonical text. -/
theorem loads_canonical {j : Json F} (hj : j.WF) : loads (canonical j) = some j.sortKeys :=
  loads_dumps Style.compact_ok hj.sortKeys

/-- No control character stands in a compact text: it is one line. -/
def Printable (cs : List Char) : Prop := ∀ c ∈ cs, 32 ≤ c.toNat

instance (cs : List Char) : Decidable (Printable cs) := List.decidableBAll _ cs

theorem printable_append {cs ds : List Char} : Printable (cs ++ ds) ↔ Printable cs ∧ Printable ds :=
  List.forall_mem_append

theorem printable_cons {c : Char} {cs : List Char} :
    Printable (c :: cs) ↔ 32 ≤ c.toNat ∧ Printable cs := List.forall_mem_cons

theorem printable_escapeChar (c : Char) : Printable (escapeChar c) := by
  have hdigit : ∀ n, n < 16 → 32 ≤ (hexDigit n).toNat := by decide
  unfold escapeChar
  repeat' split
  all_goals try decide
  · next h =>
      intro d hd
      simp only [List.mem_cons, List.not_mem_nil, or_false] at hd
      rcases hd with rfl | rfl | rfl | rfl | rfl | rfl
      · decide
      · decide
      · decide
      · decide
      · exact hdigit _ (by omega)
      · exact hdigit _ (by omega)
  · next h =>
      intro d hd
      rw [List.mem_singleton.1 hd]
      omega

theorem printable_dumpString (s : String) : Printable (dumpString s) := by
  rw [dumpString, printable_cons, printable_append]
  refine ⟨by decide, ?_, by decide⟩
  intro c hc
  obtain ⟨d, -, hd⟩ := List.mem_flatMap.1 hc
  exact printable_escapeChar d c hd

theorem printable_text {t : NumText} (ht : t.Ok) : Printable t.text := by
  have hdigit : ∀ {ds : List Char}, (∀ x ∈ ds, x.isDigit = true) → Printable ds := by
    intro ds hds c hc
    have := hds c hc
    simp only [Char.isDigit, Bool.and_eq_true, decide_eq_true_eq] at this
    have h48 : 48 ≤ c.toNat := this.1
    omega
  rw [NumText.text, printable_append, printable_append, printable_append]
  refine ⟨?_, ?_, ?_, ?_⟩
  · rcases ht.sign with h | h <;> rw [h] <;> decide
  · rcases ht.whole with h | ⟨c, ds, h, hc, -, hds⟩
    · rw [h]
      decide
    · rw [h]
      exact hdigit fun x hx => (List.mem_cons.1 hx).elim (fun h => h ▸ hc) (hds x)
  · rcases ht.frac with h | ⟨d, ds, h, hds⟩
    · rw [h]
      decide
    · rw [h, printable_cons]
      exact ⟨by decide, hdigit hds⟩
  · rcases ht.exp with h | ⟨e, s, d, ds, h, he, hs, hds⟩
    · rw [h]
      decide
    · rw [h, printable_cons, printable_append]
      refine ⟨by rcases he with rfl | rfl <;> decide, ?_, hdigit hds⟩
      rcases hs with rfl | rfl | rfl <;> decide

theorem printable_dump (j : Json F) (d : Nat) : Printable (dump .compact j d) := by
  induction j using Json.ind generalizing d with
  | null => exact show Printable ['n', 'u', 'l', 'l'] by decide
  | bool b =>
      cases b
      · exact show Printable ['f', 'a', 'l', 's', 'e'] by decide
      · exact show Printable ['t', 'r', 'u', 'e'] by decide
  | int i =>
      rw [dump, dumpInt_eq_text]
      exact printable_text (intText_ok i)
  | float f =>
      rw [dump]
      exact printable_text (PyFloat.repr_ok f)
  | str s => exact printable_dumpString s
  | arr xs ih =>
      have hitems : ∀ (ys : List (Json F)) (sep : List Char) (d : Nat), (∀ y ∈ ys, y ∈ xs) →
          Printable sep → Printable (dumpItems .compact ys sep d) := by
        intro ys
        induction ys with
        | nil => exact fun sep d _ _ c hc => nomatch hc
        | cons y ys ihys =>
            intro sep d hys hsep
            rw [dumpItems, printable_append, printable_append]
            exact ⟨hsep, ih y (hys y List.mem_cons_self) d,
              ihys _ d (fun z hz => hys z (List.mem_cons_of_mem _ hz)) (show Printable [','] by decide)⟩
      rw [dump]
      split
      · decide
      · rw [printable_cons, printable_append]
        exact ⟨by decide, hitems xs [] _ (fun y hy => hy) (fun c hc => nomatch hc),
          show Printable [']'] by decide⟩
  | obj kvs ih =>
      have hmembers : ∀ (ms : Dict (Json F)) (sep : List Char) (d : Nat), (∀ m ∈ ms, m ∈ kvs) →
          Printable sep → Printable (dumpMembers .compact ms sep d) := by
        intro ms
        induction ms with
        | nil => exact fun sep d _ _ c hc => nomatch hc
        | cons m ms ihms =>
            intro sep d hms hsep
            obtain ⟨k, v⟩ := m
            rw [dumpMembers, dumpMember, printable_append, printable_append, printable_append,
              printable_append]
            exact ⟨hsep, ⟨printable_dumpString k, show Printable [':'] by decide,
              ih (k, v) (hms (k, v) List.mem_cons_self) d⟩,
              ihms _ d (fun z hz => hms z (List.mem_cons_of_mem _ hz)) (show Printable [','] by decide)⟩
      rw [dump]
      split
      · decide
      · rw [printable_cons, printable_append]
        exact ⟨by decide, hmembers kvs [] _ (fun y hy => hy) (fun c hc => nomatch hc),
          show Printable ['\x7d'] by decide⟩

theorem printable_canonical (j : Json F) : Printable (canonical j).toList := by
  rw [canonical, dumps, String.toList_ofList]
  exact printable_dump _ 0

end Json
