import MiniCodeAgent.SecretPatterns
import MiniCodeAgent.Text.Replacement

/-!
# What redaction leaves of a secret

Secrets are replaced one after another, and the key patterns after them. A
secret that does not overlap with the marker is gone once its turn has come, and
nothing that is replaced later brings it back (`redactText_free`). A shorter
secret whose turn comes while a longer one that contains it is still in the text
cuts the longer one; that happens in no text if and only if the longer secrets
are configured first (`neverCut_iff`). In a JSON value all this is true of the
strings. The keys stay as they are.
-/

namespace MiniCodeAgent

/-! ## Replacing one secret -/

theorem replaced_replaceText (old new : List Char) (n : Nat) (cs : List Char) :
    Text.Replaced new cs (replaceText old new n cs) := by
  induction n generalizing cs with
  | zero => exact Text.Replaced.refl new cs
  | succ n ih =>
      cases cs with
      | nil => exact .nil
      | cons c cs =>
          rw [replaceText]
          split
          · have hpiece := Text.Replaced.piece ((c :: cs).take old.length)
              (ih ((c :: cs).drop old.length))
            rw [List.take_append_drop] at hpiece
            exact hpiece
          · exact .keep c (ih cs)

/-- With room for the whole text no occurrence is left. -/
theorem not_infix_replaceText {old new : List Char} (h : Text.Apart old new) {n : Nat}
    {cs : List Char} (hn : cs.length < n) : ¬ old <:+: replaceText old new n cs := by
  induction n generalizing cs with
  | zero => omega
  | succ n ih =>
      cases cs with
      | nil =>
          intro hin
          exact h.ne_nil (List.infix_nil.1 hin)
      | cons c cs =>
          rw [List.length_cons] at hn
          have hlength := List.length_pos_of_ne_nil h.ne_nil
          rw [replaceText]
          split
          · refine h.not_infix_append (ih ?_)
            rw [List.length_drop, List.length_cons]
            omega
          · next hother =>
              rw [List.infix_cons_iff, not_or]
              refine ⟨fun hstarts => hother ?_, ih (by omega)⟩
              exact List.isPrefixOf_iff_prefix.2
                (h.starts_of_replaced (.keep c (replaced_replaceText old new n cs)) hstarts)

theorem replaceText_of_absent {old : List Char} (new : List Char) (n : Nat) {cs : List Char}
    (h : ¬ old <:+: cs) : replaceText old new n cs = cs := by
  induction n generalizing cs with
  | zero => rfl
  | succ n ih =>
      cases cs with
      | nil => rfl
      | cons c cs =>
          rw [List.infix_cons_iff, not_or] at h
          rw [replaceText, if_neg (fun hstarts => h.1 (List.isPrefixOf_iff_prefix.1 hstarts)),
            ih h.2]

/-! ## Replacing them all -/

/-- The text after these secrets' turns. -/
def redactSecrets (secrets : List String) (cs : List Char) : List Char :=
  secrets.foldl (fun cs secret =>
    replaceText secret.toList redactedSecret.toList (cs.length + 1) cs) cs

theorem redactSecrets_append (secrets more : List String) (cs : List Char) :
    redactSecrets (secrets ++ more) cs = redactSecrets more (redactSecrets secrets cs) :=
  List.foldl_append

/-- The secret does not overlap with the marker. -/
def Redactable (secret : String) : Prop := Text.Apart secret.toList redactedSecret.toList

theorem Redactable.redactSecrets {secret : String} (h : Redactable secret) (secrets : List String)
    {cs : List Char} (hcs : ¬ secret.toList <:+: cs) :
    ¬ secret.toList <:+: redactSecrets secrets cs := by
  induction secrets generalizing cs with
  | nil => exact hcs
  | cons other secrets ih =>
      exact ih (Text.Apart.not_infix_of_replaced h (replaced_replaceText _ _ _ _) hcs)

/-- After its turn a secret is gone for good. -/
theorem Redactable.gone {secret : String} (h : Redactable secret) {secrets : List String}
    (hmem : secret ∈ secrets) (cs : List Char) :
    ¬ secret.toList <:+: MiniCodeAgent.redactSecrets secrets cs := by
  obtain ⟨before, after, rfl⟩ := List.append_of_mem hmem
  rw [redactSecrets_append]
  exact h.redactSecrets after (not_infix_replaceText h (Nat.lt_succ_self _))

theorem Redactable.redactPatterns {secret text : String} (h : Redactable secret)
    (htext : ¬ secret.toList <:+: text.toList) :
    ¬ secret.toList <:+: (redactPatterns text).toList := by
  have hfold : ∀ (patterns : List SecretPattern) (cs : List Char), ¬ secret.toList <:+: cs →
      ¬ secret.toList <:+: patterns.foldl (fun cs pattern =>
        subPattern pattern redactedSecret.toList (cs.length + 1) cs) cs := by
    intro patterns
    induction patterns with
    | nil => exact fun _ hcs => hcs
    | cons pattern patterns ih =>
        intro cs hcs
        exact ih _ (Text.Apart.not_infix_of_replaced h (replaced_subPattern _ _ _ _) hcs)
  rw [MiniCodeAgent.redactPatterns, String.toList_ofList]
  exact hfold secretPatterns text.toList htext

/-- No string that comes out has a secret in it. -/
theorem redactText_free {values : List String}
    (happart : ∀ secret ∈ (secretRedactor values).secrets, Redactable secret) {secret : String}
    (hsecret : secret ∈ (secretRedactor values).secrets) (text : String) :
    ¬ secret.toList <:+: ((secretRedactor values).redactText text).toList := by
  refine (happart secret hsecret).redactPatterns ?_
  rw [String.toList_ofList]
  exact (happart secret hsecret).gone hsecret text.toList

/-! ## Secrets inside secrets -/

/-- The longer text has the shorter one inside it. -/
def Inside (short long : String) : Prop := short ≠ long ∧ short.toList <:+: long.toList

/-- Whenever a secret's turn comes, the longer ones that it is inside of are no longer there. -/
def NeverCut (secrets : List String) (text : String) : Prop :=
  ∀ before short after, secrets = before ++ short :: after → ∀ long ∈ secrets, Inside short long →
    ¬ long.toList <:+: redactSecrets before text.toList

/-- Each secret comes after the longer ones that it is inside of. -/
def LongerFirst (secrets : List String) : Prop :=
  ∀ before short after, secrets = before ++ short :: after → ∀ long ∈ secrets,
    Inside short long → long ∈ before

/-- Secrets that are not in the text leave it alone. -/
theorem redactSecrets_of_absent {secrets : List String} {cs : List Char}
    (h : ∀ secret ∈ secrets, ¬ secret.toList <:+: cs) : redactSecrets secrets cs = cs := by
  induction secrets with
  | nil => rfl
  | cons secret secrets ih =>
      rw [redactSecrets, List.foldl_cons, replaceText_of_absent _ _ (h secret List.mem_cons_self)]
      exact ih fun other hother => h other (List.mem_cons_of_mem secret hother)

/-- The first in a list to be inside of a text. -/
theorem exists_first_infix {secrets : List String} {cs : List Char}
    (h : ∃ secret ∈ secrets, secret.toList <:+: cs) :
    ∃ before secret after, secrets = before ++ secret :: after ∧ secret.toList <:+: cs ∧
      ∀ other ∈ before, ¬ other.toList <:+: cs := by
  induction secrets with
  | nil =>
      obtain ⟨secret, hmem, -⟩ := h
      cases hmem
  | cons first secrets ih =>
      by_cases hfirst : first.toList <:+: cs
      · exact ⟨[], first, secrets, rfl, hfirst, fun _ hother => absurd hother List.not_mem_nil⟩
      · obtain ⟨secret, hmem, hin⟩ := h
        rcases List.mem_cons.1 hmem with rfl | hmem
        · exact absurd hin hfirst
        · obtain ⟨before, found, after, rfl, hfound, hbefore⟩ := ih ⟨secret, hmem, hin⟩
          refine ⟨first :: before, found, after, rfl, hfound, fun other hother => ?_⟩
          rcases List.mem_cons.1 hother with rfl | hother
          · exact hfirst
          · exact hbefore other hother

/-- No text has a longer secret cut if and only if the longer ones come first. -/
theorem neverCut_iff {secrets : List String} (happart : ∀ secret ∈ secrets, Redactable secret) :
    (∀ text, NeverCut secrets text) ↔ LongerFirst secrets := by
  constructor
  · intro hnever before short after hsplit long hlong hinside
    by_contra hlater
    have hshort : short ∈ before ++ [short] :=
      List.mem_append_right _ (List.mem_singleton_self short)
    -- The longer secret itself is the text: up to the first secret inside it, it stays whole.
    obtain ⟨earlier, first, rest, hearly, hfirst, hearlier⟩ :=
      exists_first_infix ⟨short, hshort, hinside.2⟩
    have hfirstInside : Inside first long := by
      refine ⟨fun heq => ?_, hfirst⟩
      have hmem : first ∈ before ++ [short] := by
        rw [hearly]
        exact List.mem_append_right _ List.mem_cons_self
      rcases List.mem_append.1 hmem with hmem | hmem
      · exact hlater (heq ▸ hmem)
      · exact hinside.1 ((List.mem_singleton.1 hmem).symm.trans heq)
    have hsplitFirst : secrets = earlier ++ first :: (rest ++ after) := by
      rw [hsplit, ← List.singleton_append, ← List.append_assoc, hearly, List.append_assoc]
      rfl
    have hcut := hnever long earlier first (rest ++ after) hsplitFirst long hlong hfirstInside
    rw [redactSecrets_of_absent hearlier] at hcut
    exact hcut (List.infix_refl _)
  · intro hfirst text before short after hsplit long hlong hinside
    have hearlier := hfirst before short after hsplit long hlong hinside
    exact (happart long hlong).gone hearlier text.toList

/-! ## Values -/

variable {F : Type}

mutual

/-- The strings of a value, at any depth, keys aside. -/
def jsonTexts : Json F → List String
  | .str s => [s]
  | .arr xs => itemTexts xs
  | .obj kvs => memberTexts kvs
  | _ => []
termination_by structural x => x

def itemTexts : List (Json F) → List String
  | [] => []
  | x :: xs => jsonTexts x ++ itemTexts xs
termination_by structural x => x

def memberText : String × Json F → List String
  | (_, v) => jsonTexts v
termination_by structural x => x

def memberTexts : List (String × Json F) → List String
  | [] => []
  | kv :: kvs => memberText kv ++ memberTexts kvs
termination_by structural x => x

end

mutual

/-- The keys of its objects, at any depth. -/
def jsonKeys : Json F → List String
  | .arr xs => itemKeys xs
  | .obj kvs => memberKeys kvs
  | _ => []
termination_by structural x => x

def itemKeys : List (Json F) → List String
  | [] => []
  | x :: xs => jsonKeys x ++ itemKeys xs
termination_by structural x => x

def memberKey : String × Json F → List String
  | (k, v) => k :: jsonKeys v
termination_by structural x => x

def memberKeys : List (String × Json F) → List String
  | [] => []
  | kv :: kvs => memberKey kv ++ memberKeys kvs
termination_by structural x => x

end

mutual

/-- Every string has been redacted. -/
theorem jsonTexts_redactData (redactText : String → String) (j : Json F) :
    jsonTexts (redactData redactText j) = (jsonTexts j).map redactText := by
  cases j with
  | str s => rfl
  | arr xs => exact itemTexts_redactItems redactText xs
  | obj kvs => exact memberTexts_redactMembers redactText kvs
  | _ => rfl
termination_by structural j

theorem itemTexts_redactItems (redactText : String → String) (xs : List (Json F)) :
    itemTexts (redactItems redactText xs) = (itemTexts xs).map redactText := by
  cases xs with
  | nil => rfl
  | cons x xs =>
      rw [redactItems, itemTexts, itemTexts, jsonTexts_redactData redactText x,
        itemTexts_redactItems redactText xs, List.map_append]
termination_by structural xs

theorem memberText_redactMember (redactText : String → String) (kv : String × Json F) :
    memberText (redactMember redactText kv) = (memberText kv).map redactText := by
  cases kv with
  | mk k v => exact jsonTexts_redactData redactText v
termination_by structural kv

theorem memberTexts_redactMembers (redactText : String → String) (kvs : List (String × Json F)) :
    memberTexts (redactMembers redactText kvs) = (memberTexts kvs).map redactText := by
  cases kvs with
  | nil => rfl
  | cons kv kvs =>
      rw [redactMembers, memberTexts, memberTexts, memberText_redactMember redactText kv,
        memberTexts_redactMembers redactText kvs, List.map_append]
termination_by structural kvs

end

mutual

/-- Every key is what it was. -/
theorem jsonKeys_redactData (redactText : String → String) (j : Json F) :
    jsonKeys (redactData redactText j) = jsonKeys j := by
  cases j with
  | arr xs => exact itemKeys_redactItems redactText xs
  | obj kvs => exact memberKeys_redactMembers redactText kvs
  | _ => rfl
termination_by structural j

theorem itemKeys_redactItems (redactText : String → String) (xs : List (Json F)) :
    itemKeys (redactItems redactText xs) = itemKeys xs := by
  cases xs with
  | nil => rfl
  | cons x xs =>
      rw [redactItems, itemKeys, itemKeys, jsonKeys_redactData redactText x,
        itemKeys_redactItems redactText xs]
termination_by structural xs

theorem memberKey_redactMember (redactText : String → String) (kv : String × Json F) :
    memberKey (redactMember redactText kv) = memberKey kv := by
  cases kv with
  | mk k v => rw [redactMember, memberKey, memberKey, jsonKeys_redactData redactText v]
termination_by structural kv

theorem memberKeys_redactMembers (redactText : String → String) (kvs : List (String × Json F)) :
    memberKeys (redactMembers redactText kvs) = memberKeys kvs := by
  cases kvs with
  | nil => rfl
  | cons kv kvs =>
      rw [redactMembers, memberKeys, memberKeys, memberKey_redactMember redactText kv,
        memberKeys_redactMembers redactText kvs]
termination_by structural kvs

end

/-- The strings that come out are free of the secrets, the keys are those that went in, and no
secret is cut by a shorter one inside it if and only if the longer ones are configured first. -/
theorem redactData_free (values : List String)
    (happart : ∀ secret ∈ (secretRedactor values).secrets, Redactable secret) (j : Json F) :
    (∀ text ∈ jsonTexts (redactData (secretRedactor values).redactText j),
      ∀ secret ∈ (secretRedactor values).secrets, ¬ secret.toList <:+: text.toList) ∧
    jsonKeys (redactData (secretRedactor values).redactText j) = jsonKeys j ∧
    ((∀ text, NeverCut (secretRedactor values).secrets text) ↔
      LongerFirst (secretRedactor values).secrets) := by
  refine ⟨fun text htext secret hsecret => ?_, jsonKeys_redactData _ j, neverCut_iff happart⟩
  rw [jsonTexts_redactData] at htext
  obtain ⟨original, -, rfl⟩ := List.mem_map.1 htext
  exact redactText_free happart hsecret original

theorem hunters_redactable {secret : String}
    (h : secret ∈ ["hunter22", "hunter22-extended"]) : Redactable secret := by
  have hplain : ∀ text ∈ ["hunter22", "hunter22-extended"],
      (text.toList.all fun c => !redactedSecret.toList.contains c) = true ∧ text ≠ "" := by
    intro text htext
    rcases List.mem_cons.1 htext with rfl | htext
    · exact ⟨rfl, by decide⟩
    · rw [List.mem_singleton.1 htext]
      exact ⟨rfl, by decide⟩
  obtain ⟨hall, hne⟩ := hplain secret h
  refine Text.apart_of_disjoint (mt String.toList_eq_nil_iff.1 hne)
    (mt String.toList_eq_nil_iff.1 (by decide)) fun c hc hin => ?_
  have hout := List.all_eq_true.1 hall c hc
  simp [hin] at hout

/-- The longer secret is configured first. -/
theorem redactData_free_sample :
    (∀ text ∈ jsonTexts (redactData (secretRedactor ["hunter22-extended", "hunter22"]).redactText
        (.obj [("password", .arr [.str "hunter22-extended!"])] : Json Unit)),
      ∀ secret ∈ (secretRedactor ["hunter22-extended", "hunter22"]).secrets,
        ¬ secret.toList <:+: text.toList) ∧
    ∀ text, NeverCut (secretRedactor ["hunter22-extended", "hunter22"]).secrets text := by
  have hsecrets : (secretRedactor ["hunter22-extended", "hunter22"]).secrets =
      ["hunter22-extended", "hunter22"] := by decide
  have happart : ∀ secret ∈ (secretRedactor ["hunter22-extended", "hunter22"]).secrets,
      Redactable secret := by
    rw [hsecrets]
    exact fun secret hsecret => hunters_redactable ((List.Perm.swap _ _ _).mem_iff.1 hsecret)
  obtain ⟨hfree, -, hcut⟩ := redactData_free ["hunter22-extended", "hunter22"] happart
    (.obj [("password", .arr [.str "hunter22-extended!"])] : Json Unit)
  refine ⟨hfree, hcut.2 ?_⟩
  rw [hsecrets]
  intro before short after hsplit long hlong hinside
  match before, hsplit with
  | [], hsplit =>
      cases hsplit
      rcases List.mem_cons.1 hlong with rfl | hlong
      · exact absurd rfl hinside.1
      · rw [List.mem_singleton.1 hlong] at hinside
        exact absurd hinside.2 (by decide)
  | [_], hsplit =>
      cases hsplit
      rcases List.mem_cons.1 hlong with rfl | hlong
      · exact List.mem_singleton_self _
      · exact absurd (List.mem_singleton.1 hlong).symm hinside.1
  | _ :: _ :: _, hsplit =>
      have hlength := congrArg List.length hsplit
      simp at hlength

/-- A key keeps its secret, and what is left of the longer one follows the marker. -/
theorem hunters_kept :
    (∀ secret ∈ ["hunter22", "hunter22-extended"], Redactable secret ∧ 8 ≤ secret.length) ∧
    (∃ key ∈ jsonKeys (redactData (secretRedactor ["hunter22", "hunter22-extended"]).redactText
        (.obj [("login hunter22", .null)] : Json Unit)), "hunter22".toList <:+: key.toList) ∧
    redactData (secretRedactor ["hunter22", "hunter22-extended"]).redactText
        (.str "hunter22-extended" : Json Unit) = .str "[REDACTED_SECRET]-extended" := by
  refine ⟨fun secret hsecret => ⟨hunters_redactable hsecret, ?_⟩, ⟨"login hunter22", ?_, ?_⟩, ?_⟩
  · rcases List.mem_cons.1 hsecret with rfl | hsecret
    · decide
    · rw [List.mem_singleton.1 hsecret]
      decide
  · exact List.mem_singleton_self _
  · decide
  · have htext : (secretRedactor ["hunter22", "hunter22-extended"]).redactText
        "hunter22-extended" = "[REDACTED_SECRET]-extended" := by decide +kernel
    rw [redactData, htext]

end MiniCodeAgent
