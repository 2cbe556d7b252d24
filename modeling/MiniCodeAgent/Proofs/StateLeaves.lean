import MiniCodeAgent.TavernHelper
import MiniCodeAgent.Json.Pointer

/-!
# Flattening a state loses nothing

Both adapters flatten a state by the same recursion. Each leaf it produces is a
scalar of the state under the pointer of the one path that leads to it, so what the
pointers of `Json.Pointer` say of a document holds of the leaves. The loops behind
it drop no leaf either: one that looks like a secret is counted, every other becomes
a candidate.
-/

namespace MemoryCore

open MiniCodeAgent Json

variable {F : Type}

/-! ## Tokens -/

theorem replaceText_char {c : Char} {new : List Char} :
    ∀ {fuel : Nat} {cs : List Char}, cs.length < fuel →
      replaceText [c] new fuel cs = cs.flatMap fun d => if d = c then new else [d] := by
  intro fuel
  induction fuel with
  | zero => omega
  | succ fuel ih =>
      intro cs hlength
      cases cs with
      | nil => rfl
      | cons d cs =>
          simp only [List.length_cons] at hlength
          rw [replaceText, List.flatMap_cons]
          by_cases h : d = c
          · subst h
            rw [if_pos (by simp), if_pos rfl]
            exact congrArg (new ++ ·) (ih (by simp; omega))
          · rw [if_neg (by simp [Ne.symm h]), if_neg h, ih (by omega)]
            rfl

theorem pointerToken_eq (key : String) : (pointerToken key).toList = escapeToken key.toList := by
  have hreplace : ∀ (text : String) (c : Char) (new : String),
      (pyReplace text (String.singleton c) new).toList =
        text.toList.flatMap fun d => if d = c then new.toList else [d] := by
    intro text c new
    rw [pyReplace, String.toList_ofList, String.toList_singleton]
    exact replaceText_char (Nat.lt_succ_self _)
  show (pyReplace (pyReplace key (String.singleton '~') "~0") (String.singleton '/') "~1").toList = _
  rw [hreplace, hreplace, List.flatMap_assoc, escapeToken]
  refine List.flatMap_congr fun c _ => ?_
  by_cases htilde : c = '~'
  · rw [if_pos htilde, if_pos htilde]
    rfl
  · rw [if_neg htilde, if_neg htilde, List.flatMap_singleton]
    rfl

theorem digits_plain (n : Nat) : ∀ c ∈ Nat.toDigits 10 n, c ≠ '~' ∧ c ≠ '/' := by
  intro c hc
  have hdigit := Nat.isDigit_of_mem_toDigits (by decide) (by decide) hc
  refine ⟨fun h => ?_, fun h => ?_⟩
  · rw [h] at hdigit
    exact absurd hdigit (by decide)
  · rw [h] at hdigit
    exact absurd hdigit (by decide)

/-! ## The recursion -/

/-- The leaves below a value that stands at this pointer, one for each path to a scalar. -/
structure Flattens (pointer : String) (isLeaf : Path → Json F → Prop)
    (leaves : List (String × Json F)) (paths : List (Path × Json F)) : Prop where
  nodup : (paths.map Prod.fst).Nodup
  mem : ∀ path value, (path, value) ∈ paths ↔ isLeaf path value
  leaves : leaves = paths.map fun p => (String.ofList (pointer.toList ++ pointerText p.1), p.2)

/-- One step further down. -/
theorem Flattens.below {pointer token : String} {step : Step} {isLeaf : Path → Json F → Prop}
    {leaves : List (String × Json F)} {paths : List (Path × Json F)}
    (htoken : token.toList = escapeToken step.name)
    (h : Flattens (pointer ++ "/" ++ token) isLeaf leaves paths) :
    Flattens pointer (fun path value => ∃ rest, path = step :: rest ∧ isLeaf rest value) leaves
      (paths.map fun p => (step :: p.1, p.2)) where
  nodup := by
    rw [List.map_map]
    have hcons : (Prod.fst ∘ fun p : Path × Json F => (step :: p.1, p.2)) =
        (fun path => step :: path) ∘ Prod.fst := rfl
    rw [hcons, ← List.map_map]
    exact h.nodup.map fun _ _ heq => (List.cons.inj heq).2
  mem path value := by
    rw [List.mem_map]
    constructor
    · intro hmem
      obtain ⟨p, hp, heq⟩ := hmem
      cases heq
      exact ⟨p.1, rfl, (h.mem p.1 p.2).1 hp⟩
    · intro hmem
      obtain ⟨rest, rfl, hleaf⟩ := hmem
      exact ⟨(rest, value), (h.mem rest value).2 hleaf, rfl⟩
  leaves := by
    rw [h.leaves, List.map_map]
    refine List.map_congr_left fun p _ => ?_
    show (String.ofList _, p.2) = (String.ofList _, p.2)
    rw [pointerText_cons, String.toList_append, String.toList_append, htoken, List.append_assoc,
      List.append_assoc]
    rfl

theorem Flattens.append {pointer : String} {isLeaf isLeaf' : Path → Json F → Prop}
    {leaves leaves' : List (String × Json F)} {paths paths' : List (Path × Json F)}
    (h : Flattens pointer isLeaf leaves paths) (h' : Flattens pointer isLeaf' leaves' paths')
    (hdisjoint : ∀ path value value', isLeaf path value → ¬ isLeaf' path value') :
    Flattens pointer (fun path value => isLeaf path value ∨ isLeaf' path value) (leaves ++ leaves')
      (paths ++ paths') where
  nodup := by
    rw [List.map_append]
    refine h.nodup.append h'.nodup fun path hpath hpath' => ?_
    obtain ⟨p, hp, rfl⟩ := List.mem_map.1 hpath
    obtain ⟨p', hp', heq⟩ := List.mem_map.1 hpath'
    have hleaf' := (h'.mem p'.1 p'.2).1 hp'
    rw [heq] at hleaf'
    exact hdisjoint p.1 p.2 p'.2 ((h.mem p.1 p.2).1 hp) hleaf'
  mem path value := by rw [List.mem_append, h.mem, h'.mem]
  leaves := by rw [List.map_append, h.leaves, h'.leaves]

theorem Flattens.congr {pointer : String} {isLeaf isLeaf' : Path → Json F → Prop}
    {leaves : List (String × Json F)} {paths : List (Path × Json F)}
    (h : Flattens pointer isLeaf leaves paths) (hiff : ∀ path value, isLeaf path value ↔
      isLeaf' path value) : Flattens pointer isLeaf' leaves paths where
  nodup := h.nodup
  mem path value := (h.mem path value).trans (hiff path value)
  leaves := h.leaves

theorem covers_nil (pointer : String) :
    Flattens pointer (fun _ _ => False) ([] : List (String × Json F)) [] where
  nodup := List.nodup_nil
  mem _ _ := by simp
  leaves := rfl

variable {excess : PyExc} {maxDepth : Int}

/-- What the recursion does with a value, wherever it stands. -/
def LeavesCovered (excess : PyExc) (maxDepth : Int) (value : Json F) : Prop :=
  ∀ (pointer : String) (depth : Int) (leaves : List (String × Json F)),
    (pointer = "" → (∃ kvs, value = .obj kvs) ∨ ∃ xs, value = .arr xs) →
    leavesOf excess maxDepth value pointer depth = .ok leaves →
      ∃ paths, Flattens pointer (Leaf value) leaves paths

theorem slash_ne_empty (pointer token : String) : pointer ++ "/" ++ token ≠ "" := by
  intro h
  have hlist := congrArg String.toList h
  simp at hlist

theorem memberLeaves_covered {kvs : List (String × Json F)} (hkeys : (Dict.keys kvs).Nodup)
    (hchildren : ∀ kv ∈ kvs, LeavesCovered excess maxDepth kv.2) {pointer : String} {depth : Int}
    {leaves : List (String × Json F)}
    (h : memberLeaves excess maxDepth kvs pointer depth = .ok leaves) :
    ∃ paths, Flattens pointer (fun path value => ∃ kv ∈ kvs, ∃ rest, path = .key kv.1 :: rest ∧
      Leaf kv.2 rest value) leaves paths := by
  induction kvs generalizing leaves with
  | nil =>
      cases h
      exact ⟨[], (covers_nil pointer).congr fun path value => by simp⟩
  | cons kv kvs ih =>
      obtain ⟨key, child⟩ := kv
      rw [memberLeaves] at h
      obtain ⟨first, hfirst, h⟩ := except_bind_ok.1 h
      obtain ⟨rest, hrest, h⟩ := except_bind_ok.1 h
      cases h
      rw [Dict.keys_cons, List.nodup_cons] at hkeys
      obtain ⟨paths, hpaths⟩ := hchildren (key, child) List.mem_cons_self _ _ first
        (fun hempty => absurd hempty (slash_ne_empty _ _)) hfirst
      obtain ⟨paths', hpaths'⟩ := ih hkeys.2
        (fun other hother => hchildren other (List.mem_cons_of_mem _ hother)) hrest
      have hbelow := hpaths.below (show (pointerToken key).toList = escapeToken (Step.key key).name
        from pointerToken_eq key)
      refine ⟨_, (hbelow.append hpaths' ?_).congr fun path value => by simp⟩
      intro path value value' hleaf hleaf'
      obtain ⟨below, rfl, -⟩ := hleaf
      obtain ⟨other, hother, below', heq, -⟩ := hleaf'
      cases heq
      exact hkeys.1 (List.mem_map.2 ⟨other, hother, rfl⟩)

theorem itemLeaves_covered {xs : List (Json F)}
    (hchildren : ∀ x ∈ xs, LeavesCovered excess maxDepth x) {index : Nat} {pointer : String}
    {depth : Int} {leaves : List (String × Json F)}
    (h : itemLeaves excess maxDepth xs index pointer depth = .ok leaves) :
    ∃ paths, Flattens pointer (fun path value => ∃ i child, xs[i]? = some child ∧
      ∃ rest, path = .item (index + i) :: rest ∧ Leaf child rest value) leaves paths := by
  induction xs generalizing index leaves with
  | nil =>
      cases h
      exact ⟨[], (covers_nil pointer).congr fun path value => by simp⟩
  | cons child xs ih =>
      rw [itemLeaves] at h
      obtain ⟨first, hfirst, h⟩ := except_bind_ok.1 h
      obtain ⟨rest, hrest, h⟩ := except_bind_ok.1 h
      cases h
      have htoken : (String.ofList (dumpInt index)).toList = escapeToken (Step.item index).name := by
        rw [String.toList_ofList, Step.name, escapeToken_plain (digits_plain index)]
        rfl
      obtain ⟨paths, hpaths⟩ := hchildren child List.mem_cons_self _ _ first
        (fun hempty => absurd hempty (slash_ne_empty _ _)) hfirst
      obtain ⟨paths', hpaths'⟩ := ih
        (fun other hother => hchildren other (List.mem_cons_of_mem _ hother)) hrest
      refine ⟨_, ((hpaths.below htoken).append hpaths' ?_).congr fun path value => ?_⟩
      · intro path value value' hleaf hleaf'
        obtain ⟨below, rfl, -⟩ := hleaf
        obtain ⟨i, other, -, below', heq, -⟩ := hleaf'
        injection heq with hstep
        injection hstep with hindex
        omega
      · constructor
        · intro hleaf
          rcases hleaf with ⟨below, hpath, hleaf⟩ | ⟨i, other, hget, below, hpath, hleaf⟩
          · exact ⟨0, child, rfl, below, hpath, hleaf⟩
          · exact ⟨i + 1, other, hget, below, by rw [hpath]; congr 2; omega, hleaf⟩
        · intro hleaf
          obtain ⟨i, other, hget, below, hpath, hleaf⟩ := hleaf
          cases i with
          | zero =>
              cases hget
              exact Or.inl ⟨below, hpath, hleaf⟩
          | succ i => exact Or.inr ⟨i, other, hget, below, by rw [hpath]; congr 2; omega, hleaf⟩

theorem leaf_obj {kvs : Dict (Json F)} {path : Path} {value : Json F} :
    Leaf (.obj kvs) path value ↔
      ∃ kv ∈ kvs, ∃ rest, path = .key kv.1 :: rest ∧ Leaf kv.2 rest value := by
  constructor
  · intro h
    cases h with
    | scalar hobj => exact absurd rfl (hobj kvs)
    | member hmem h => exact ⟨_, hmem, _, rfl, h⟩
  · intro h
    obtain ⟨kv, hmem, rest, rfl, h⟩ := h
    exact .member hmem h

theorem leaf_arr {xs : List (Json F)} {path : Path} {value : Json F} :
    Leaf (.arr xs) path value ↔ ∃ i child, xs[i]? = some child ∧
      ∃ rest, path = .item (0 + i) :: rest ∧ Leaf child rest value := by
  constructor
  · intro h
    cases h with
    | scalar _ harr => exact absurd rfl (harr xs)
    | @item _ index child _ path hget h => exact ⟨index, child, hget, path, by rw [Nat.zero_add], h⟩
  · intro h
    obtain ⟨i, child, hget, rest, rfl, h⟩ := h
    rw [Nat.zero_add]
    exact .item hget h

/-- A scalar is the one leaf below itself. -/
theorem scalar_covered {value : Json F} (hobj : ∀ kvs, value ≠ .obj kvs)
    (harr : ∀ xs, value ≠ .arr xs)
    (hleaves : ∀ pointer depth, leavesOf excess maxDepth value pointer depth =
      if depth > maxDepth then .error excess
      else .ok [(if pointer = "" then "/" else pointer, value)]) :
    LeavesCovered excess maxDepth value := by
  intro pointer depth leaves hroot h
  have hpointer : pointer ≠ "" := by
    intro hempty
    rcases hroot hempty with ⟨kvs, hvalue⟩ | ⟨xs, hvalue⟩
    · exact hobj kvs hvalue
    · exact harr xs hvalue
  rw [hleaves] at h
  split at h
  · cases h
  · cases h
    refine ⟨[([], value)], List.nodup_singleton _, fun path leaf => ?_, ?_⟩
    · rw [List.mem_singleton]
      constructor
      · intro heq
        cases heq
        exact .scalar hobj harr
      · intro hleaf
        cases hleaf with
        | scalar => rfl
        | member => exact absurd rfl (hobj _)
        | item => exact absurd rfl (harr _)
    · show [(pointer, value)] = [(String.ofList (pointer.toList ++ []), value)]
      rw [List.append_nil, String.ofList_toList]

theorem leavesOf_covered {value : Json F} (hwf : value.WF) : LeavesCovered excess maxDepth value := by
  induction hwf with
  | null => exact scalar_covered (fun _ h => by cases h) (fun _ h => by cases h) fun _ _ => rfl
  | bool => exact scalar_covered (fun _ h => by cases h) (fun _ h => by cases h) fun _ _ => rfl
  | int => exact scalar_covered (fun _ h => by cases h) (fun _ h => by cases h) fun _ _ => rfl
  | float => exact scalar_covered (fun _ h => by cases h) (fun _ h => by cases h) fun _ _ => rfl
  | str => exact scalar_covered (fun _ h => by cases h) (fun _ h => by cases h) fun _ _ => rfl
  | arr _ ih =>
      intro pointer depth leaves _ h
      rw [leavesOf] at h
      split at h
      · cases h
      · obtain ⟨paths, hpaths⟩ := itemLeaves_covered ih h
        exact ⟨paths, hpaths.congr fun path value => leaf_arr.symm⟩
  | obj hkeys _ ih =>
      intro pointer depth leaves _ h
      rw [leavesOf] at h
      split at h
      · cases h
      · obtain ⟨paths, hpaths⟩ := memberLeaves_covered hkeys ih h
        exact ⟨paths, hpaths.congr fun path value => leaf_obj.symm⟩

/-! ## The leaves of a state -/

/-- These leaves are the scalars of a document, each once, under its own pointer. -/
structure Flattened (root : Json F) (leaves : List (String × Json F)) : Prop where
  distinct : (leaves.map Prod.fst).Nodup
  resolves : ∀ leaf ∈ leaves, Json.resolve leaf.1 root = some leaf.2
  complete : ∃ paths : List (Path × Json F), (paths.map Prod.fst).Nodup ∧
    (∀ path value, (path, value) ∈ paths ↔ Leaf root path value) ∧
    leaves = paths.map fun p => (String.ofList (pointerText p.1), p.2)

theorem Flattens.flattened {root : Json F} {leaves : List (String × Json F)}
    {paths : List (Path × Json F)} (h : Flattens "" (Leaf root) leaves paths) (hwf : root.WF) :
    Flattened root leaves where
  distinct := by
    have hfirst : leaves.map Prod.fst =
        (paths.map Prod.fst).map fun path => String.ofList (pointerText path) := by
      rw [h.leaves, List.map_map, List.map_map]
      rfl
    rw [hfirst]
    refine h.nodup.map_on fun path hpath path' hpath' heq => ?_
    obtain ⟨p, hp, rfl⟩ := List.mem_map.1 hpath
    obtain ⟨p', hp', rfl⟩ := List.mem_map.1 hpath'
    exact ((h.mem p.1 p.2).1 hp).pointer_injective ((h.mem p'.1 p'.2).1 hp') hwf
      (String.ofList_inj.1 heq)
  resolves leaf hleaf := by
    rw [h.leaves] at hleaf
    obtain ⟨p, hp, rfl⟩ := List.mem_map.1 hleaf
    exact ((h.mem p.1 p.2).1 hp).resolve hwf
  complete := ⟨paths, h.nodup, h.mem, h.leaves⟩

theorem leavesOf_flattened {kvs : Dict (Json F)} (hwf : (Json.obj kvs).WF)
    {leaves : List (String × Json F)} (h : leavesOf excess maxDepth (.obj kvs) "" 0 = .ok leaves) :
    Flattened (.obj kvs) leaves := by
  obtain ⟨paths, hpaths⟩ := leavesOf_covered hwf "" 0 leaves (fun _ => Or.inl ⟨kvs, rfl⟩) h
  exact hpaths.flattened hwf

/-- The text of a scalar reads back as the scalar. -/
theorem Leaf.loads_canonical [PyFloat F] {root leaf : Json F} {path : Path}
    (h : Leaf root path leaf) (hwf : root.WF) : loads (canonical leaf) = some leaf := by
  induction h with
  | @scalar value hobj harr =>
      rw [Json.loads_canonical hwf]
      cases value with
      | obj kvs => exact absurd rfl (hobj kvs)
      | arr xs => exact absurd rfl (harr xs)
      | _ => rfl
  | member hmem _ ih => exact ih ((wf_obj.1 hwf).2 _ hmem)
  | item hget _ ih => exact ih (wf_arr.1 hwf _ (List.mem_of_getElem? hget))

/-! ## The loops -/

section Loops

variable [PyFloat F] (env : ImportEnv F)

/-- The leaf is held back. -/
def secretLeaf (leaf : String × Json F) : Bool :=
  env.containsSecret (leaf.1 ++ "=" ++ canonical leaf.2)

/-- What a loop adds to its target, and what it counts. -/
structure Taken {C : Type} (candidate : String → String → C) (leaves : List (String × Json F))
    (target : List C) (result : List C × Nat) : Prop where
  candidates : result.1 = target ++ (leaves.filter fun leaf => !secretLeaf env leaf).map
    fun leaf => candidate leaf.1 (canonical leaf.2)
  skipped : result.2 = leaves.countP (secretLeaf env)

variable {env}

theorem takeLeaves_taken {C : Type} {candidate : String → String → C} {maxCandidates : Int}
    {target : List C} {leaves : List (String × Json F)} {result : List C × Nat}
    (h : takeLeaves env excess maxCandidates candidate target leaves = .ok result) :
    Taken env candidate leaves target result := by
  refine except_foldlM_ok (P := fun done progress => Taken env candidate done target progress) h
    ⟨by simp, rfl⟩ fun {done leaf progress progress'} _ hdone hstep => ?_
  obtain ⟨hcandidates, hskipped⟩ := hdone
  split at hstep
  · cases hstep
  · by_cases hsecret : secretLeaf env leaf = true
    · rw [secretLeaf] at hsecret
      rw [if_pos hsecret] at hstep
      cases hstep
      exact ⟨by simp [hcandidates, secretLeaf, hsecret], by simp [hskipped, secretLeaf, hsecret]⟩
    · rw [secretLeaf] at hsecret
      rw [if_neg hsecret] at hstep
      cases hstep
      exact ⟨by simp [hcandidates, secretLeaf, hsecret], by simp [hskipped, secretLeaf, hsecret]⟩

theorem Flattened.loads_canonical {root : Json F} {leaves : List (String × Json F)}
    (h : Flattened root leaves) (hwf : root.WF) :
    ∀ leaf ∈ leaves, loads (canonical leaf.2) = some leaf.2 := by
  obtain ⟨paths, -, hmem, rfl⟩ := h.complete
  intro leaf hleaf
  obtain ⟨p, hp, rfl⟩ := List.mem_map.1 hleaf
  exact Leaf.loads_canonical ((hmem p.1 p.2).1 hp) hwf

/-- Both adapters: what either has made of a state is, scalar by scalar, the state. -/
theorem state_flattened {kvs : Dict (Json F)} (hwf : (Json.obj kvs).WF) (env : ImportEnv F) :
    (∀ (target : List StateCandidate) (sourceRef sourceSha256 scope : String)
      (maxCandidates maxDepth : Int) (result : List StateCandidate × Nat),
      appendStateCandidates env target kvs sourceRef sourceSha256 scope maxCandidates maxDepth =
        .ok result →
      ∃ leaves, Flattened (.obj kvs) leaves ∧
        (∀ leaf ∈ leaves, loads (canonical leaf.2) = some leaf.2) ∧
        Taken env (fun pointer valueJson => ⟨sourceRef, sourceSha256, scope, pointer, valueJson,
          "tavern_helper_variables", "none"⟩) leaves target result) ∧
    ∀ (candidates : List TavernHelperDataCandidate)
      (sourceId sourceKind sourceSha256 suggestedScope : String) (maxCandidates maxDepth : Int)
      (result : List TavernHelperDataCandidate × Nat),
      addDataCandidates env candidates kvs sourceId sourceKind sourceSha256 suggestedScope
        maxCandidates maxDepth = .ok result →
      ∃ leaves, Flattened (.obj kvs) leaves ∧
        (∀ leaf ∈ leaves, loads (canonical leaf.2) = some leaf.2) ∧
        Taken env (fun pointer valueJson => ⟨sourceId, sourceKind, pointer, valueJson,
          sourceSha256, suggestedScope, "none"⟩) leaves candidates result := by
  refine ⟨fun target sourceRef sourceSha256 scope maxCandidates maxDepth result h => ?_,
    fun candidates sourceId sourceKind sourceSha256 suggestedScope maxCandidates maxDepth result
      h => ?_⟩
  · obtain ⟨leaves, hleaves, htaken⟩ := except_bind_ok.1 h
    have hflat := leavesOf_flattened hwf hleaves
    exact ⟨leaves, hflat, hflat.loads_canonical hwf, takeLeaves_taken htaken⟩
  · obtain ⟨leaves, hleaves, htaken⟩ := except_bind_ok.1 h
    have hflat := leavesOf_flattened hwf hleaves
    exact ⟨leaves, hflat, hflat.loads_canonical hwf, takeLeaves_taken htaken⟩

end Loops

/-! ## A state with awkward keys -/

namespace AwkwardState

/-- A key with a slash beside the one that looks like its token, and an empty one. -/
def state : Dict (Json Unit) :=
  [("a/b", .str "x"), ("a~1b", .arr [.bool true, .obj []]), ("", .null)]

def env : ImportEnv Unit where
  digests := zeroDigests
  repr _ := "{}"
  containsSecret text := text == "/a~1b=\"x\""

theorem state_wf : (Json.obj state).WF := by
  simp [state, wf_obj, wf_arr, Dict.keys]

theorem state_flattened_sample : ∃ leaves, Flattened (.obj state) leaves ∧
    (∀ leaf ∈ leaves, loads (canonical leaf.2) = some leaf.2) ∧
    Taken env (fun pointer valueJson => (⟨"chat:c:metadata", "00", "conversation", pointer,
      valueJson, "tavern_helper_variables", "none"⟩ : StateCandidate)) leaves []
      ([⟨"chat:c:metadata", "00", "conversation", "/a~01b/0", "true",
          "tavern_helper_variables", "none"⟩,
        ⟨"chat:c:metadata", "00", "conversation", "/", "null",
          "tavern_helper_variables", "none"⟩], 1) :=
  (state_flattened state_wf env).1 [] "chat:c:metadata" "00" "conversation" 10 5 _ rfl

end AwkwardState

end MemoryCore
