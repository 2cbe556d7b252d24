import MiniCodeAgent.Proofs.UndoRoundTrip

/-!
# Where a patch applies

`apply_patch` takes the place of the old text to be the only one when `str.count` says one,
and `str.count` goes on behind each occurrence it finds: it says two where two occurrences
stand apart, and one where all of them overlap. So the place is the only one exactly if no
two occurrences overlap, and the text the patch leaves is the old one with this place
written over.
-/

namespace MiniCodeAgent

open CommandExecutor TransactionAdapter

/-! ## Counting -/

/-- The old text stands at this place. -/
def OccursAt (old text : List Char) (place : Nat) : Prop := old <+: text.drop place

instance (old text : List Char) (place : Nat) : Decidable (OccursAt old text place) :=
  inferInstanceAs (Decidable (_ <+: _))

section Count

variable {old : List Char}

theorem occursAt_succ {c : Char} {text : List Char} {place : Nat} :
    OccursAt old (c :: text) (place + 1) ↔ OccursAt old text place := by
  rw [OccursAt, OccursAt, List.drop_succ_cons]

theorem occursAt_drop {text : List Char} {skipped place : Nat} :
    OccursAt old (text.drop skipped) place ↔ OccursAt old text (skipped + place) := by
  rw [OccursAt, OccursAt, List.drop_drop]

theorem not_occursAt_nil (hold : old ≠ []) (place : Nat) : ¬ OccursAt old [] place := by
  rw [OccursAt, List.drop_nil, List.prefix_nil]
  exact hold

theorem countText_pos (hold : old ≠ []) {n : Nat} {text : List Char} (hn : text.length < n) :
    0 < countText old n text ↔ ∃ place, OccursAt old text place := by
  induction n generalizing text with
  | zero => omega
  | succ n ih =>
      cases text with
      | nil => simp [countText, not_occursAt_nil hold]
      | cons c cs =>
          rw [List.length_cons] at hn
          rw [countText]
          split
          · next hstarts =>
              simp only [Nat.zero_lt_succ, true_iff]
              exact ⟨0, List.isPrefixOf_iff_prefix.1 hstarts⟩
          · next hstarts =>
              rw [ih (by omega)]
              constructor
              · intro h
                obtain ⟨place, hplace⟩ := h
                exact ⟨place + 1, occursAt_succ.2 hplace⟩
              · intro h
                obtain ⟨place, hplace⟩ := h
                cases place with
                | zero => exact absurd (List.isPrefixOf_iff_prefix.2 hplace) hstarts
                | succ place => exact ⟨place, occursAt_succ.1 hplace⟩

/-- The count is two or more where two occurrences stand apart. -/
theorem countText_two (hold : old ≠ []) {n : Nat} {text : List Char} (hn : text.length < n) :
    2 ≤ countText old n text ↔
      ∃ p q, p + old.length ≤ q ∧ OccursAt old text p ∧ OccursAt old text q := by
  induction n generalizing text with
  | zero => omega
  | succ n ih =>
      cases text with
      | nil => simp [countText, not_occursAt_nil hold]
      | cons c cs =>
          have hlength : 0 < old.length := List.length_pos_iff.2 hold
          rw [List.length_cons] at hn
          rw [countText]
          split
          · next hstarts =>
              have hdrop : ((c :: cs).drop old.length).length < n := by
                rw [List.length_drop, List.length_cons]
                omega
              rw [Nat.succ_le_succ_iff, Nat.one_le_iff_ne_zero, ← Nat.pos_iff_ne_zero,
                countText_pos hold hdrop]
              constructor
              · intro h
                obtain ⟨place, hplace⟩ := h
                exact ⟨0, old.length + place, by omega,
                  List.isPrefixOf_iff_prefix.1 hstarts, occursAt_drop.1 hplace⟩
              · intro h
                obtain ⟨p, q, hapart, -, hq⟩ := h
                refine ⟨q - old.length, occursAt_drop.2 ?_⟩
                rwa [show old.length + (q - old.length) = q by omega]
          · next hstarts =>
              have hfirst : ∀ place, OccursAt old (c :: cs) place → 0 < place := by
                intro place hplace
                cases place with
                | zero => exact absurd (List.isPrefixOf_iff_prefix.2 hplace) hstarts
                | succ place => omega
              rw [ih (by omega)]
              constructor
              · intro h
                obtain ⟨p, q, hapart, hp, hq⟩ := h
                exact ⟨p + 1, q + 1, by omega, occursAt_succ.2 hp, occursAt_succ.2 hq⟩
              · intro h
                obtain ⟨p, q, hapart, hp, hq⟩ := h
                obtain ⟨p, rfl⟩ := Nat.exists_eq_succ_of_ne_zero (hfirst p hp).ne'
                obtain ⟨q, rfl⟩ := Nat.exists_eq_succ_of_ne_zero (hfirst q hq).ne'
                exact ⟨p, q, by omega, occursAt_succ.1 hp, occursAt_succ.1 hq⟩

/-- What is replaced is the first occurrence. -/
theorem replaceFirst_occursAt {new text : List Char} {place : Nat} (h : OccursAt old text place)
    (hfirst : ∀ other, OccursAt old text other → place ≤ other) (hold : old ≠ []) :
    replaceFirst old new text = text.take place ++ new ++ text.drop (place + old.length) := by
  induction text generalizing place with
  | nil => exact absurd h (not_occursAt_nil hold place)
  | cons c cs ih =>
      rw [replaceFirst]
      split
      · next hstarts =>
          obtain rfl : place = 0 := by
            have hzero := hfirst 0 (List.isPrefixOf_iff_prefix.1 hstarts)
            omega
          simp
      · next hstarts =>
          cases place with
          | zero => exact absurd (List.isPrefixOf_iff_prefix.2 h) hstarts
          | succ place =>
              rw [ih (occursAt_succ.1 h) fun other hother => by
                have hle := hfirst (other + 1) (occursAt_succ.2 hother)
                omega]
              simp [Nat.succ_add]

end Count

/-! ## The patch -/

theorem pyReplace_ne_empty {text old new : String} (htext : text ≠ "") (hnew : new ≠ "") :
    pyReplace text old new ≠ "" := by
  intro hempty
  have hlist : replaceText old.toList new.toList (text.toList.length + 1) text.toList = [] := by
    rw [← @String.toList_ofList (replaceText _ _ _ _), ← pyReplace, hempty, String.toList_empty]
  cases hcs : text.toList with
  | nil => exact htext (String.toList_eq_nil_iff.1 hcs)
  | cons c cs =>
      rw [hcs, replaceText] at hlist
      split at hlist
      · exact hnew (String.toList_eq_nil_iff.1 (List.append_eq_nil_iff.1 hlist).1)
      · cases hlist

theorem normalizeNewlines_ne_empty {text newline : String} (htext : text ≠ "")
    (hnewline : newline ≠ "") : normalizeNewlines text newline ≠ "" := by
  have hnormal : pyReplace (pyReplace text "\r\n" "\n") "\r" "\n" ≠ "" :=
    pyReplace_ne_empty (pyReplace_ne_empty htext (by decide)) (by decide)
  unfold normalizeNewlines
  split
  · exact hnormal
  · exact pyReplace_ne_empty hnormal hnewline

theorem preferredNewline_ne_empty (text : String) : preferredNewline text ≠ "" := by
  unfold preferredNewline
  dsimp only
  split
  · decide
  · split <;> decide

section Patch

variable {F : Type} {env : EditEnv} {t t' : FileTree} {parts : List String}

theorem makeEdit_cases {approves : String → String → Except PyExc Bool}
    {tool detail after : String} {rejection intended result : ToolResult F}
    (h : makeEdit env approves t tool detail rejection intended parts after = .ok (result, t')) :
    (approves tool detail = .ok true ∧ t.atomicWriteText env.cwd parts after = .ok t') ∨
      (approves tool detail = .ok false ∧ t' = t) := by
  obtain ⟨approved, happroved, h⟩ := except_bind_ok.1 h
  cases approved with
  | false => exact Or.inr ⟨happroved, (Prod.mk.inj (Except.ok.inj h)).2.symm⟩
  | true =>
      obtain ⟨written, hwritten, h⟩ := except_bind_ok.1 h
      exact Or.inl ⟨happroved, (Prod.mk.inj (Except.ok.inj h)).2 ▸ hwritten⟩

/-- The text that a patch leaves, written over at one place. -/
def patchedAt (text old new : List Char) (place : Nat) : String :=
  String.ofList (text.take place ++ new ++ text.drop (place + old.length))

theorem patchedAt_eq_iff {text : String} {old new : List Char} {place : Nat}
    (h : OccursAt old text.toList place) :
    patchedAt text.toList old new place = text ↔ new = old := by
  obtain ⟨rest, hrest⟩ := h
  have hdrop : text.toList.drop (place + old.length) = rest := by
    rw [← List.drop_drop, ← hrest, List.drop_left]
  have htext : text.toList = text.toList.take place ++ old ++ rest := by
    rw [List.append_assoc, hrest, List.take_append_drop]
  rw [patchedAt, hdrop]
  constructor
  · intro heq
    have hlists := congrArg String.toList heq
    rw [String.toList_ofList] at hlists
    exact List.append_cancel_left (List.append_cancel_right (hlists.trans htext))
  · rintro rfl
    rw [← htext, String.ofList_toList]

/-- What a patch that was accepted and made has done: the old text stands in the file, with
no second occurrence apart from the first, and the first is written over. -/
theorem applyPatch_ok {approves : String → String → Except PyExc Bool} {path old new : String}
    {result : ToolResult F}
    (h : applyPatch env approves t path old new false = .ok (result, t')) :
    ∃ parts mode text, t.resolve env.cwd path = .ok parts ∧
      t.file parts = some (mode, text.toUTF8) ∧
      pyCount text (normalizeNewlines old (preferredNewline text)) = 1 ∧
      (normalizeNewlines old (preferredNewline text)).toList ≠ [] ∧
      ((approves "apply_patch" path = .ok true ∧
          t.atomicWriteText env.cwd parts (pyReplaceOne text
            (normalizeNewlines old (preferredNewline text))
            (normalizeNewlines new (preferredNewline text))) = .ok t') ∨
        (approves "apply_patch" path = .ok false ∧ t' = t)) := by
  obtain ⟨parts, hparts, h⟩ := except_bind_ok.1 h
  obtain ⟨text, hread, h⟩ := except_bind_ok.1 h
  obtain ⟨_, hold, h⟩ := except_bind_ok.1 h
  obtain ⟨_, hfound, h⟩ := except_bind_ok.1 h
  obtain ⟨_, honce, h⟩ := except_bind_ok.1 h
  obtain ⟨mode, hfile⟩ := readExistingText_ok hread
  have hfound := raiseIf_ok.1 hfound
  have honce := raiseIf_ok.1 honce
  refine ⟨parts, mode, text, hparts, hfile, ?_, ?_, makeEdit_cases h⟩
  · have hle : ¬ pyCount text (normalizeNewlines old (preferredNewline text)) > 1 :=
      fun hmany => honce ⟨hmany, rfl⟩
    omega
  · intro hnil
    exact normalizeNewlines_ne_empty (raiseIf_ok.1 hold) (preferredNewline_ne_empty text)
      (String.toList_eq_nil_iff.1 hnil)

/-- A patch without `replace_all` that returns is unambiguous exactly if no two occurrences
of the old text overlap, unless it changes nothing: then the file is only changed where the
old text stands at one place, and this place is what is written over. -/
theorem applyPatch_unambiguous (env : EditEnv) (approves : String → String → Except PyExc Bool)
    (t t' : FileTree) (path old new : String) (result : ToolResult F)
    (h : applyPatch env approves t path old new false = .ok (result, t')) :
    ∃ parts mode text, t.resolve env.cwd path = .ok parts ∧
      t.file parts = some (mode, text.toUTF8) ∧
      (∀ below, below ≠ parts → t'.file below = t.file below) ∧
      let effectiveOld := (normalizeNewlines old (preferredNewline text)).toList
      let effectiveNew := (normalizeNewlines new (preferredNewline text)).toList
      ((t'.file parts ≠ t.file parts →
          ∃ place, (∀ other, OccursAt effectiveOld text.toList other ↔ other = place) ∧
            t'.file parts =
              some (mode, (patchedAt text.toList effectiveOld effectiveNew place).toUTF8)) ↔
        (approves "apply_patch" path = .ok true → effectiveNew ≠ effectiveOld →
          ∀ p q, OccursAt effectiveOld text.toList p → OccursAt effectiveOld text.toList q →
            p < q → p + effectiveOld.length ≤ q)) := by
  obtain ⟨parts, mode, text, hparts, hfile, hcount, hold, hmade⟩ := applyPatch_ok h
  refine ⟨parts, mode, text, hparts, hfile, ?_, ?_⟩
  · intro below hne
    rcases hmade with ⟨-, hwrite⟩ | ⟨-, rfl⟩
    · exact (FileTree.atomicWriteText_ok hwrite).2 below hne
    · rfl
  · intro effectiveOld effectiveNew
    rcases hmade with ⟨happroved, hwrite⟩ | ⟨hrejected, rfl⟩
    · have hn : text.toList.length < text.toList.length + 1 := by omega
      have hsome : ∃ place, OccursAt effectiveOld text.toList place :=
        (countText_pos hold hn).1 (by show 0 < pyCount text _; omega)
      have hapart : ¬ ∃ p q, p + effectiveOld.length ≤ q ∧ OccursAt effectiveOld text.toList p ∧
          OccursAt effectiveOld text.toList q := by
        rw [← countText_two hold hn]
        show ¬ 2 ≤ pyCount text _
        omega
      have hplace := Nat.find_spec hsome
      have hfirst : ∀ other, OccursAt effectiveOld text.toList other → Nat.find hsome ≤ other :=
        fun other hother => Nat.find_min' hsome hother
      have hleft : t'.file parts = some (mode,
          (patchedAt text.toList effectiveOld effectiveNew (Nat.find hsome)).toUTF8) := by
        have hself := (FileTree.atomicWriteText_ok hwrite).1
        rw [hfile] at hself
        rw [hself, patchedAt, ← replaceFirst_occursAt hplace hfirst hold]
        rfl
      have hchanged : t'.file parts ≠ t.file parts ↔ effectiveNew ≠ effectiveOld := by
        rw [hleft, hfile, Ne, Ne, not_iff_not, ← patchedAt_eq_iff hplace, Option.some_inj,
          Prod.mk.injEq, eq_self, true_and]
        exact String.toByteArray_inj
      rw [hchanged]
      constructor
      · intro hunique _ hne p q hp hq hlt
        obtain ⟨place, honly, -⟩ := hunique hne
        rw [honly] at hp hq
        omega
      · intro hoverlaps hne
        refine ⟨Nat.find hsome, fun other => ⟨fun hother => ?_, ?_⟩, hleft⟩
        · by_contra hother'
          have hle := hfirst other hother
          exact hapart ⟨Nat.find hsome, other,
            hoverlaps happroved hne _ _ hplace hother (by omega), hplace, hother⟩
        · rintro rfl
          exact hplace
    · constructor
      · intro _ happroved
        rw [hrejected] at happroved
        cases happroved
      · exact fun _ hne => absurd rfl hne

end Patch

namespace OverlappingPatch

/-- A workspace whose one file says `aaa`. -/
def tree : FileTree := OneEdit.tree.put ["a"] 0o644 "aaa".toUTF8 OneEdit.writable

theorem writable : tree.Writable ["a"] := by decide

def patched : FileTree := tree.put ["a"] 0o644 "ba".toUTF8 writable

def result : ToolResult Unit :=
  editResult OneEdit.env "apply_patch" "Patched a; replacements=1"
    [("path", .str "a"), ("replace_all", .bool false)] ["a"] "aaa" "ba" true

theorem executed : applyPatch OneEdit.env (fun _ _ => .ok true) tree "a" "aa" "b" false =
    .ok (result, patched) := rfl

theorem changed : patched.file ["a"] ≠ tree.file ["a"] := by decide

end OverlappingPatch

/-- In `aaa` there are two places for `aa`, and the patch takes the first. -/
theorem applyPatch_ambiguous :
    ¬ ∀ (result : ToolResult Unit) (t' : FileTree),
      applyPatch OneEdit.env (fun _ _ => .ok true) OverlappingPatch.tree "a" "aa" "b" false =
        .ok (result, t') →
      t'.file ["a"] ≠ OverlappingPatch.tree.file ["a"] →
        ∃ place, ∀ other, OccursAt "aa".toList "aaa".toList other ↔ other = place := by
  intro h
  obtain ⟨place, honly⟩ := h _ _ OverlappingPatch.executed OverlappingPatch.changed
  have hfirst := (honly 0).1 (by decide)
  have hsecond := (honly 1).1 (by decide)
  omega

theorem applyPatch_unambiguous_sample :
    ∃ parts mode text, OverlappingPatch.tree.resolve OneEdit.env.cwd "a" = .ok parts ∧
      OverlappingPatch.tree.file parts = some (mode, text.toUTF8) ∧
      (∀ below, below ≠ parts →
        OverlappingPatch.patched.file below = OverlappingPatch.tree.file below) ∧
      let effectiveOld := (normalizeNewlines "aa" (preferredNewline text)).toList
      let effectiveNew := (normalizeNewlines "b" (preferredNewline text)).toList
      ((OverlappingPatch.patched.file parts ≠ OverlappingPatch.tree.file parts →
          ∃ place, (∀ other, OccursAt effectiveOld text.toList other ↔ other = place) ∧
            OverlappingPatch.patched.file parts =
              some (mode, (patchedAt text.toList effectiveOld effectiveNew place).toUTF8)) ↔
        ((Except.ok true : Except PyExc Bool) = .ok true → effectiveNew ≠ effectiveOld →
          ∀ p q, OccursAt effectiveOld text.toList p → OccursAt effectiveOld text.toList q →
            p < q → p + effectiveOld.length ≤ q)) :=
  applyPatch_unambiguous OneEdit.env (fun _ _ => .ok true) OverlappingPatch.tree
    OverlappingPatch.patched "a" "aa" "b" OverlappingPatch.result OverlappingPatch.executed

end MiniCodeAgent
