import MiniCodeAgent.Json.RoundTrip

/-!
# Characters beyond ASCII

The printer escapes nothing beyond ASCII and has nothing beyond ASCII of its own:
such a character stands in the text of a document exactly where a key or a string
of the document has it.
-/

namespace Json

variable {F : Type}

/-- The keys and the strings of a document. -/
inductive HasText : Json F → String → Prop
  | str (s : String) : HasText (.str s) s
  | item {xs : List (Json F)} {x : Json F} {s : String} (hmem : x ∈ xs) (h : HasText x s) :
      HasText (.arr xs) s
  | key {kvs : Dict (Json F)} {kv : String × Json F} (hmem : kv ∈ kvs) : HasText (.obj kvs) kv.1
  | member {kvs : Dict (Json F)} {kv : String × Json F} {s : String} (hmem : kv ∈ kvs)
      (h : HasText kv.2 s) : HasText (.obj kvs) s

def Ascii (cs : List Char) : Prop := ∀ c ∈ cs, c.toNat < 128

instance (cs : List Char) : Decidable (Ascii cs) := List.decidableBAll _ cs

theorem ascii_append {cs ds : List Char} : Ascii (cs ++ ds) ↔ Ascii cs ∧ Ascii ds :=
  List.forall_mem_append

theorem ascii_cons {c : Char} {cs : List Char} : Ascii (c :: cs) ↔ c.toNat < 128 ∧ Ascii cs :=
  List.forall_mem_cons

theorem ascii_digits {ds : List Char} (hds : ∀ x ∈ ds, x.isDigit = true) : Ascii ds := by
  intro c hc
  have h := hds c hc
  simp only [Char.isDigit, Bool.and_eq_true, decide_eq_true_eq] at h
  have h57 : c.toNat ≤ 57 := h.2
  omega

theorem ascii_text {t : NumText} (ht : t.Ok) : Ascii t.text := by
  rw [NumText.text, ascii_append, ascii_append, ascii_append]
  refine ⟨?_, ?_, ?_, ?_⟩
  · rcases ht.sign with h | h
    · simp [h, Ascii]
    · rw [h]
      decide
  · rcases ht.whole with h | ⟨c, ds, h, hc, -, hds⟩
    · rw [h]
      decide
    · rw [h]
      exact ascii_digits fun x hx => (List.mem_cons.1 hx).elim (fun h => h ▸ hc) (hds x)
  · rcases ht.frac with h | ⟨d, ds, h, hds⟩
    · simp [h, Ascii]
    · rw [h, ascii_cons]
      exact ⟨by decide, ascii_digits hds⟩
  · rcases ht.exp with h | ⟨e, s, d, ds, h, he, hs, hds⟩
    · simp [h, Ascii]
    · rw [h, ascii_cons, ascii_append]
      refine ⟨by rcases he with rfl | rfl <;> decide, ?_, ascii_digits hds⟩
      rcases hs with rfl | rfl | rfl <;> decide

variable {c : Char}

theorem mem_escapeChar (hc : 128 ≤ c.toNat) (d : Char) : c ∈ escapeChar d ↔ c = d := by
  have hdigit : ∀ n, n < 16 → (hexDigit n).toNat < 128 := by decide
  by_cases hplain : 128 ≤ d.toNat
  · have hsame : escapeChar d = [d] := by
      have hne : ∀ e : Char, e.toNat < 128 → d ≠ e := by
        intro e he h
        rw [h] at hplain
        omega
      rw [escapeChar, if_neg (hne _ (by decide)), if_neg (hne _ (by decide)),
        if_neg (hne _ (by decide)), if_neg (hne _ (by decide)), if_neg (hne _ (by decide)),
        if_neg (hne _ (by decide)), if_neg (hne _ (by decide)), if_neg (by omega)]
    rw [hsame, List.mem_singleton]
  · have hascii : Ascii (escapeChar d) := by
      unfold escapeChar
      repeat' split
      all_goals try decide
      · next h =>
          intro e he
          simp only [List.mem_cons, List.not_mem_nil, or_false] at he
          rcases he with rfl | rfl | rfl | rfl | rfl | rfl
          · decide
          · decide
          · decide
          · decide
          · exact hdigit _ (by omega)
          · exact hdigit _ (by omega)
      · intro e he
        rw [List.mem_singleton.1 he]
        omega
    constructor
    · intro h
      have := hascii c h
      omega
    · intro h
      rw [h] at hc
      omega

theorem mem_dumpString (hc : 128 ≤ c.toNat) (s : String) : c ∈ dumpString s ↔ c ∈ s.toList := by
  have hquote : c ≠ '"' := by
    intro h
    rw [h] at hc
    exact absurd hc (by decide)
  have hescape : ∀ d, c ∈ escapeChar d ↔ c = d := mem_escapeChar hc
  simp [dumpString, hquote, hescape]

theorem not_mem_ascii (hc : 128 ≤ c.toNat) {cs : List Char} (h : Ascii cs) : c ∉ cs := by
  intro hmem
  have := h c hmem
  omega

/-- A value without texts, which is dumped in ASCII. -/
theorem mem_dump_plain (hc : 128 ≤ c.toNat) {cs : List Char} (hascii : Ascii cs) {j : Json F}
    (hnone : ∀ s, ¬ HasText j s) : c ∈ cs ↔ ∃ s, HasText j s ∧ c ∈ s.toList := by
  refine iff_of_false (not_mem_ascii hc hascii) fun h => ?_
  obtain ⟨s, hs, -⟩ := h
  exact hnone s hs

variable [PyFloat F]

/-- Beyond ASCII, a document's text has what its keys and strings have. -/
theorem mem_dump (hc : 128 ≤ c.toNat) (j : Json F) (d : Nat) :
    c ∈ dump .compact j d ↔ ∃ s, HasText j s ∧ c ∈ s.toList := by
  induction j using Json.ind generalizing d with
  | null =>
      exact mem_dump_plain hc (show Ascii ['n', 'u', 'l', 'l'] by decide) fun s hs => by cases hs
  | bool b =>
      refine mem_dump_plain hc ?_ fun s hs => by cases hs
      cases b
      · exact show Ascii ['f', 'a', 'l', 's', 'e'] by decide
      · exact show Ascii ['t', 'r', 'u', 'e'] by decide
  | int i =>
      refine mem_dump_plain hc ?_ fun s hs => by cases hs
      rw [dump, dumpInt_eq_text]
      exact ascii_text (intText_ok i)
  | float f =>
      refine mem_dump_plain hc ?_ fun s hs => by cases hs
      rw [dump]
      exact ascii_text (PyFloat.repr_ok f)
  | str s =>
      rw [dump, mem_dumpString hc]
      constructor
      · exact fun h => ⟨s, .str s, h⟩
      · intro h
        obtain ⟨s', hs, h⟩ := h
        cases hs
        exact h
  | arr xs ih =>
      have hitems : ∀ (ys : List (Json F)) (sep : List Char) (d : Nat), (∀ y ∈ ys, y ∈ xs) →
          Ascii sep → (c ∈ dumpItems .compact ys sep d ↔
            ∃ y ∈ ys, ∃ s, HasText y s ∧ c ∈ s.toList) := by
        intro ys
        induction ys with
        | nil => simp [dumpItems]
        | cons y ys ihys =>
            intro sep d hys hsep
            rw [dumpItems, List.mem_append, List.mem_append, ih y (hys y List.mem_cons_self) d,
              ihys (Style.compact.comma ++ Style.compact.gap d) d
                (fun z hz => hys z (List.mem_cons_of_mem _ hz)) (show Ascii [','] by decide)]
            have hnone := not_mem_ascii hc hsep
            simp [hnone]
      have htexts : (∃ y ∈ xs, ∃ s, HasText y s ∧ c ∈ s.toList) ↔
          ∃ s, HasText (.arr xs) s ∧ c ∈ s.toList := by
        constructor
        · intro h
          obtain ⟨y, hy, s, hs, hmem⟩ := h
          exact ⟨s, .item hy hs, hmem⟩
        · intro h
          obtain ⟨s, hs, hmem⟩ := h
          cases hs with
          | item hy hs => exact ⟨_, hy, s, hs, hmem⟩
      rw [← htexts, dump]
      split
      · next hempty =>
          rw [List.isEmpty_iff.1 hempty]
          exact iff_of_false (not_mem_ascii hc (by decide)) (by simp)
      · have hopen := not_mem_ascii hc (show Ascii ['['] by decide)
        have hclose : c ∉ Style.compact.gap d ++ [']'] :=
          not_mem_ascii hc (show Ascii [']'] by decide)
        rw [List.mem_cons, List.mem_append,
          hitems xs (Style.compact.gap (d + 1)) _ (fun y hy => hy) (show Ascii [] by decide)]
        rw [List.mem_singleton] at hopen
        simp only [hopen, hclose, false_or, or_false]
  | obj kvs ih =>
      have hmembers : ∀ (ms : Dict (Json F)) (sep : List Char) (d : Nat), (∀ m ∈ ms, m ∈ kvs) →
          Ascii sep → (c ∈ dumpMembers .compact ms sep d ↔
            ∃ m ∈ ms, c ∈ m.1.toList ∨ ∃ s, HasText m.2 s ∧ c ∈ s.toList) := by
        intro ms
        induction ms with
        | nil => simp [dumpMembers]
        | cons m ms ihms =>
            intro sep d hms hsep
            obtain ⟨k, v⟩ := m
            rw [dumpMembers, dumpMember, List.mem_append, List.mem_append, List.mem_append,
              List.mem_append, mem_dumpString hc, ih (k, v) (hms (k, v) List.mem_cons_self) d,
              ihms (Style.compact.comma ++ Style.compact.gap d) d
                (fun z hz => hms z (List.mem_cons_of_mem _ hz)) (show Ascii [','] by decide)]
            have hnone := not_mem_ascii hc hsep
            have hcolon := not_mem_ascii hc (show Ascii Style.compact.colon by decide)
            simp [hnone, hcolon]
      have htexts : (∃ m ∈ kvs, c ∈ m.1.toList ∨ ∃ s, HasText m.2 s ∧ c ∈ s.toList) ↔
          ∃ s, HasText (.obj kvs) s ∧ c ∈ s.toList := by
        constructor
        · intro h
          obtain ⟨m, hm, hkey | ⟨s, hs, hmem⟩⟩ := h
          · exact ⟨m.1, .key hm, hkey⟩
          · exact ⟨s, .member hm hs, hmem⟩
        · intro h
          obtain ⟨s, hs, hmem⟩ := h
          cases hs with
          | key hm => exact ⟨_, hm, Or.inl hmem⟩
          | member hm hs => exact ⟨_, hm, Or.inr ⟨s, hs, hmem⟩⟩
      rw [← htexts, dump]
      split
      · next hempty =>
          rw [List.isEmpty_iff.1 hempty]
          exact iff_of_false (not_mem_ascii hc (by decide)) (by simp)
      · have hopen := not_mem_ascii hc (show Ascii ['\x7b'] by decide)
        have hclose : c ∉ Style.compact.gap d ++ ['\x7d'] :=
          not_mem_ascii hc (show Ascii ['\x7d'] by decide)
        rw [List.mem_cons, List.mem_append,
          hmembers kvs (Style.compact.gap (d + 1)) _ (fun m hm => hm) (show Ascii [] by decide)]
        rw [List.mem_singleton] at hopen
        simp only [hopen, hclose, false_or, or_false]

end Json
