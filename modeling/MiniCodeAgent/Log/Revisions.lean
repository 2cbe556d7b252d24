import Mathlib.Data.List.Induction
import Mathlib.Data.List.Nodup
import Mathlib.Data.Int.Order.Basic

/-!
# Logs whose entries name their place

Optimistic concurrency: a writer puts into an entry how many entries it saw, and
the log takes the entry only if it still has that many. So the entries of a log
name the places 0, 1, 2, …, and an entry that the log has names a place that is
taken.
-/

namespace Revisions

variable {α : Type} (base : α → Int)

/-- Each entry names the number of entries before it. -/
inductive Contiguous : List α → Prop
  | nil : Contiguous []
  | snoc {log : List α} {e : α} (h : Contiguous log) (hbase : base e = log.length) :
      Contiguous (log ++ [e])

variable {base}

theorem contiguous_snoc {log : List α} {e : α} (h : Contiguous base (log ++ [e])) :
    Contiguous base log ∧ base e = log.length := by
  generalize heq : log ++ [e] = whole at h
  cases h with
  | nil => simp at heq
  | snoc h hbase =>
      obtain ⟨rfl, rfl⟩ := List.append_singleton_inj.1 heq
      exact ⟨h, hbase⟩

/-- The places of a contiguous log are 0, 1, 2, … -/
theorem Contiguous.map_eq {log : List α} (h : Contiguous base log) :
    log.map base = (List.range log.length).map Int.ofNat := by
  induction h with
  | nil => rfl
  | snoc _ hbase ih =>
      rw [List.map_append, ih, List.length_append, List.length_singleton, List.range_succ,
        List.map_append]
      simp [hbase]

theorem Contiguous.nodup {log : List α} (h : Contiguous base log) : (log.map base).Nodup := by
  rw [h.map_eq]
  exact List.nodup_range.map fun _ _ => Int.ofNat.inj

/-- An entry of the log names a place below the log's length. -/
theorem Contiguous.base_lt {log : List α} (h : Contiguous base log) {e : α} (he : e ∈ log) :
    base e < log.length := by
  have hmem : base e ∈ (List.range log.length).map Int.ofNat := by
    rw [← h.map_eq]
    exact List.mem_map_of_mem he
  obtain ⟨n, hn, hbase⟩ := List.mem_map.1 hmem
  rw [List.mem_range] at hn
  rw [← hbase]
  exact Int.ofNat_lt.2 hn

/-- Two entries with one place are one entry. -/
theorem Contiguous.eq {log : List α} (h : Contiguous base log) {e e' : α} (he : e ∈ log)
    (he' : e' ∈ log) (hbase : base e = base e') : e = e' :=
  List.inj_on_of_nodup_map h.nodup he he' hbase

end Revisions
