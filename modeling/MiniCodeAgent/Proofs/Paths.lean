import MiniCodeAgent.Scanner
import MiniCodeAgent.TransactionAdapter

/-!
# Paths and their texts

A path whose parts are names an entry can have is read back from its text as it was, and
a path without `..` is normal as it stands.
-/

namespace MiniCodeAgent

namespace Scanner

theorem not_mem_of_mem_splitOn {α : Type} [BEq α] [LawfulBEq α] {a : α} {xs piece : List α}
    (h : piece ∈ xs.splitOn a) : a ∉ piece := by
  induction xs generalizing piece with
  | nil =>
      rw [List.splitOn_nil, List.mem_singleton] at h
      simp [h]
  | cons x xs ih =>
      obtain ⟨first, rest, hsplit⟩ := List.exists_cons_of_ne_nil (List.splitOn_ne_nil a xs)
      rw [List.splitOn_cons_eq_if_modifyHead, hsplit] at h
      rw [hsplit] at ih
      split at h
      · cases List.mem_cons.1 h with
        | inl h => simp [h]
        | inr h => exact ih h
      · next hne =>
          rw [List.modifyHead_cons] at h
          cases List.mem_cons.1 h with
          | inl h =>
              rw [h, List.mem_cons]
              intro hmem
              cases hmem with
              | inl heq => exact hne (beq_iff_eq.2 heq.symm)
              | inr hmem => exact ih List.mem_cons_self hmem
          | inr h => exact ih (List.mem_cons_of_mem _ h)

theorem slash_of_mem_pathParts {path part : String} (h : part ∈ pathParts path) :
    '/' ∉ part.toList := by
  obtain ⟨chars, hchars, rfl⟩ := List.mem_map.1 h
  rw [String.toList_ofList]
  exact not_mem_of_mem_splitOn hchars

theorem pathParts_relativeName {parts : List String} (hne : parts ≠ [])
    (hnames : ∀ part ∈ parts, FileName part) : pathParts (relativeName parts) = parts := by
  have hsplit : (relativeName parts).toList.splitOn '/' = parts.map String.toList := by
    rw [relativeName, String.toList_intercalate]
    refine List.splitOn_intercalate '/' (fun part hpart => ?_) (by simpa using hne)
    obtain ⟨part', hpart', rfl⟩ := List.mem_map.1 hpart
    exact (hnames part' hpart').2.2.2
  rw [pathParts, hsplit, List.map_map]
  exact List.map_id'' (fun part => String.ofList_toList) parts

end Scanner

namespace TransactionAdapter

open Scanner

theorem normalParts_append_plain {base parts : List String} (h : ".." ∉ parts) :
    parts.foldl (fun normal part => if part = ".." then normal.dropLast else normal ++ [part])
      base = base ++ parts := by
  induction parts generalizing base with
  | nil => simp
  | cons part rest ih =>
      rw [List.mem_cons, not_or] at h
      rw [List.foldl_cons, if_neg (fun heq => h.1 heq.symm), ih h.2]
      simp

theorem normalParts_plain {parts : List String} (h : ".." ∉ parts) : normalParts parts = parts := by
  rw [normalParts, normalParts_append_plain h]
  rfl

theorem ofString_posixText {parts : List String} (hne : parts ≠ [])
    (hnames : ∀ part ∈ parts, FileName part) : PyPath.ofString (posixText parts) = ⟨"", parts⟩ := by
  have hparts := pathParts_relativeName hne hnames
  have hroot : rootOf (relativeName parts).toList = "" := by
    cases htext : (relativeName parts).toList with
    | nil => rfl
    | cons c cs =>
        by_cases hslash : c = '/'
        · rw [pathParts, htext, hslash, List.splitOn_cons_eq_if_modifyHead] at hparts
          have hempty : "" ∈ parts := by
            rw [← hparts]
            simp
          exact absurd rfl (hnames "" hempty).1
        · simp [rootOf, hslash]
  have hfilter : parts.filter (fun part => part ≠ "" ∧ part ≠ ".") = parts := by
    refine List.filter_eq_self.2 fun part hpart => ?_
    simpa using ⟨(hnames part hpart).1, (hnames part hpart).2.1⟩
  rw [posixText, if_neg hne, ← relativeName, PyPath.ofString, hroot, hparts, hfilter]

end TransactionAdapter

end MiniCodeAgent
