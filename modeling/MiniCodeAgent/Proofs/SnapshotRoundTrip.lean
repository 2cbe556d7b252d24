import MiniCodeAgent.Mutations
import MiniCodeAgent.Json.RoundTrip

/-!
# A snapshot gives its state back

A snapshot holds the entries as one JSON text: rows in key order, with the keys of
each row sorted. Reading it back puts them in a map again, and the order of the
rows does not matter there. The one thing asked of the state is that an entry
stands under its own key, which is how the ledger puts it in.
-/

namespace MemoryCore

open MiniCodeAgent

variable {F : Type} [Json.PyFloat F]

/-- Every entry stands under its own key. -/
def MemoryState.Keyed (state : MemoryState) : Prop :=
  ∀ key item, state.lookup key = some item → item.key = key

theorem keyed_empty : MemoryState.Keyed ∅ := by
  intro key item h
  rw [Finmap.lookup_empty] at h
  cases h

theorem MemoryState.Keyed.insert {state : MemoryState} (h : state.Keyed)
    (item : MaterializedMemory) : MemoryState.Keyed (state.insert item.key item) := by
  intro key found hfound
  by_cases hkey : key = item.key
  · subst hkey
    rw [Finmap.lookup_insert] at hfound
    cases hfound
    rfl
  · rw [Finmap.lookup_insert_of_ne _ hkey] at hfound
    exact h key found hfound

/-! ## Rows -/

theorem ofText_status (status : MemoryStatus) : MemoryStatus.ofText status.text = some status := by
  cases status <;> rfl

theorem ofText_authority (authority : Authority) :
    Authority.ofText authority.text = some authority := by
  cases authority <;> rfl

theorem ofText_retentionClass (retentionClass : RetentionClass) :
    RetentionClass.ofText retentionClass.text = some retentionClass := by
  cases retentionClass <;> rfl

omit [Json.PyFloat F] in
theorem sortKeys_revisionsJson (revisions : List (String × String)) :
    (revisionsJson revisions : Json F).sortKeys = revisionsJson revisions := by
  simp [revisionsJson, Json.sortKeys]

omit [Json.PyFloat F] in
theorem asRevisions_revisionsJson (revisions : List (String × String)) :
    asRevisions (revisionsJson revisions : Json F) = .ok revisions := by
  rw [revisionsJson, asRevisions]
  induction revisions with
  | nil => rfl
  | cons source revisions ih =>
      rw [List.map_cons, List.mapM_cons, ih]
      rfl

omit [Json.PyFloat F] in
theorem wf_revisionsJson (revisions : List (String × String)) :
    (revisionsJson revisions : Json F).WF := by
  rw [revisionsJson, Json.wf_arr]
  intro pair hpair
  obtain ⟨source, -, rfl⟩ := List.mem_map.1 hpair
  simp

omit [Json.PyFloat F] in
theorem wf_textOrNull (text : Option String) : (textOrNull text : Json F).WF := by
  cases text <;> simp [textOrNull]

omit [Json.PyFloat F] in
theorem wf_row (item : MaterializedMemory) : (item.row : Json F).WF := by
  rw [MaterializedMemory.row, Json.wf_obj]
  have hkeys : ["entity_id", "predicate", "status", "value_json", "authority", "mutation_id",
      "source_event_revisions", "retention_class"].Nodup := by decide
  refine ⟨hkeys, ?_⟩
  simp [wf_revisionsJson, wf_textOrNull]

omit [Json.PyFloat F] in
theorem asTextOrNull_textOrNull (text : Option String) :
    asTextOrNull ((textOrNull text : Json F).sortKeys) = .ok text := by
  cases text <;> rfl

omit [Json.PyFloat F] in
/-- Sorting the keys of a row leaves what its fields are read as. -/
theorem readRow_row (item : MaterializedMemory) :
    readRow (item.row : Json F).sortKeys = .ok item := by
  obtain ⟨fields, hfields⟩ : ∃ fields, (item.row : Json F).sortKeys = .obj fields := ⟨_, rfl⟩
  have hget : ∀ key value, (item.row : Json F).get? key = some value →
      Dict.get? fields key = some value.sortKeys := by
    intro key value hvalue
    have h := Json.get?_sortKeys (wf_row (F := F) item) key
    rw [hvalue, hfields] at h
    exact h
  have hitem : ∀ key value, (item.row : Json F).get? key = some value →
      pyItem key (.obj fields) = .ok value.sortKeys := by
    intro key value hvalue
    rw [pyItem, Json.get?_obj, hget key value hvalue]
  rw [hfields, readRow, readFields]
  simp only [hitem "source_event_revisions" _ rfl, hitem "entity_id" _ rfl,
    hitem "predicate" _ rfl, hitem "status" _ rfl, hitem "authority" _ rfl,
    hitem "mutation_id" _ rfl, hget "value_json" _ rfl, hget "retention_class" _ rfl,
    except_ok_bind, Option.getD_some, sortKeys_revisionsJson, asRevisions_revisionsJson,
    asTextOrNull_textOrNull, Json.sortKeys, asText, asOneOf, ofText_status, ofText_authority,
    ofText_retentionClass]
  rfl

/-! ## States -/

open CanonicalMemorySnapshot

/-- Putting the entries of some keys into a state again. -/
theorem lookup_foldl_put {state : MemoryState} (h : state.Keyed) (keys : List StateKey)
    (start : MemoryState) (key : StateKey) :
    ((keys.filterMap fun k => state.lookup k).foldl put start).lookup key =
      if key ∈ keys then (state.lookup key).or (start.lookup key) else start.lookup key := by
  induction keys generalizing start with
  | nil => rfl
  | cons k keys ih =>
      cases hk : state.lookup k with
      | none =>
          have hcons : (k :: keys).filterMap (fun k => state.lookup k) =
              keys.filterMap fun k => state.lookup k := List.filterMap_cons_none hk
          rw [hcons, ih]
          by_cases hkey : key = k
          · subst hkey
            simp [hk]
          · simp [hkey]
      | some item =>
          have hcons : (k :: keys).filterMap (fun k => state.lookup k) =
              item :: keys.filterMap fun k => state.lookup k := List.filterMap_cons_some hk
          rw [hcons, List.foldl_cons, ih, put, h k item hk]
          by_cases hkey : key = k
          · subst hkey
            rw [Finmap.lookup_insert, if_pos List.mem_cons_self, hk]
            split <;> rfl
          · rw [Finmap.lookup_insert_of_ne _ hkey]
            simp [hkey]

theorem foldl_put_sorted {state : MemoryState} (h : state.Keyed) :
    state.sorted.foldl put ∅ = state := by
  refine Finmap.ext_lookup fun key => ?_
  rw [MemoryState.sorted, lookup_foldl_put h, Finmap.lookup_empty, Option.or_none]
  split
  · rfl
  · next hkey =>
      rw [Finset.mem_sort, Finmap.mem_keys] at hkey
      exact (Finmap.lookup_eq_none.2 hkey).symm

omit [Json.PyFloat F] in
theorem foldlM_readRow (items : List MaterializedMemory) (start : MemoryState) :
    (items.map fun item => (item.row : Json F).sortKeys).foldlM (fun state row => do
      let item ← readRow row
      return put state item) start = .ok (items.foldl put start) := by
  induction items generalizing start with
  | nil => rfl
  | cons item items ih =>
      rw [List.map_cons, List.foldlM_cons, readRow_row, except_ok_bind]
      exact ih (put start item)

/-- What a snapshot of a state is read back as. -/
theorem materialize_create (env : MutationEnv) (streamId : String) (throughRevision : Int)
    {state : MemoryState} (h : state.Keyed) (mutationIds : List String)
    (parentSnapshotId : Option String) :
    (create F env streamId throughRevision state mutationIds parentSnapshotId).materialize F =
      .ok state := by
  have hwf : (Json.arr (state.sorted.map MaterializedMemory.row) : Json F).WF := by
    rw [Json.wf_arr]
    intro row hrow
    obtain ⟨item, -, rfl⟩ := List.mem_map.1 hrow
    exact wf_row item
  have hrows : (Json.arr (state.sorted.map MaterializedMemory.row) : Json F).sortKeys =
      .arr (state.sorted.map fun item => (item.row : Json F).sortKeys) := by
    rw [Json.sortKeys, Json.sortItems_eq_map, List.map_map]
    rfl
  have hloads : (Json.loads (create F env streamId throughRevision state mutationIds
      parentSnapshotId).stateJson : Option (Json F)) =
      some (.arr (state.sorted.map fun item => (item.row : Json F).sortKeys)) := by
    rw [← hrows]
    exact Json.loads_canonical hwf
  rw [materialize, hloads]
  show List.foldlM _ _ _ = _
  rw [foldlM_readRow, foldl_put_sorted h]

end MemoryCore
