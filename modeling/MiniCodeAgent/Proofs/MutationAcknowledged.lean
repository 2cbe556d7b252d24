import MiniCodeAgent.Proofs.MutationSnapshots

/-!
# What an acknowledgement says

`append` calls a mutation committed when it has just logged it, and already
committed when the log has its id. The id is the key a caller retries under, and
nothing in the ledger compares what stands behind it. `MemoryMutation.create` takes
the id from everything else, so for mutations it has made the id is as good as the
mutation, up to two texts with one digest. The public constructor takes any id.
-/

namespace MemoryCore

open MiniCodeAgent MutationLedger

variable {F : Type} [Json.PyFloat F] {env : MutationEnv}

/-! ## The id that `create` gives -/

omit [Json.PyFloat F] in
/-- What the id is the digest of. -/
def MutationFields.payload (f : MutationFields) : Json F :=
  .obj [("stream_id", .str f.streamId), ("revision", .int f.revision),
    ("base_revision", .int f.baseRevision), ("operation", .str f.operation.text),
    ("entity_id", .str f.entityId), ("predicate", .str f.predicate),
    ("value_json", textOrNull f.valueJson), ("schema_id", .str f.schemaId),
    ("schema_version", .int f.schemaVersion),
    ("source_event_revisions", revisionsJson f.sourceEventRevisions),
    ("authority", .str f.authority.text), ("recorded_at", .str f.recordedAt)]

variable (env) in
/-- A mutation that `create` returns for some arguments. -/
def Created (m : MemoryMutation F) : Prop :=
  ∃ streamId baseRevision operation entityId predicate sourceEventRevisions schemaId schemaVersion
    value authority recordedAt,
    MemoryMutation.create env streamId baseRevision operation entityId predicate
      sourceEventRevisions schemaId schemaVersion value authority recordedAt = .ok m

theorem make_fields {f : MutationFields} {m : MemoryMutation F}
    (h : MemoryMutation.make f = .ok m) : m.toMutationFields = f := by
  unfold MemoryMutation.make at h
  split at h
  · cases h
    rfl
  · cases h

theorem Created.mutationId {m : MemoryMutation F} (h : Created env m) :
    m.mutationId = digest env (m.payload : Json F) := by
  obtain ⟨_, _, _, _, _, _, _, _, _, _, _, hcreate⟩ := h
  have hfields := make_fields hcreate
  rw [show m.mutationId = m.toMutationFields.mutationId from rfl, hfields]
  rfl

omit [Json.PyFloat F] in
theorem wf_payload (f : MutationFields) : (f.payload : Json F).WF := by
  rw [MutationFields.payload, Json.wf_obj]
  have hkeys : ["stream_id", "revision", "base_revision", "operation", "entity_id", "predicate",
      "value_json", "schema_id", "schema_version", "source_event_revisions", "authority",
      "recorded_at"].Nodup := by decide
  refine ⟨hkeys, ?_⟩
  simp [wf_revisionsJson, wf_textOrNull]

theorem MutationOperation.text_injective {a b : MutationOperation} (h : a.text = b.text) :
    a = b := by
  cases a <;> cases b <;> first | rfl | exact absurd h (by decide)

theorem Authority.text_injective {a b : Authority} (h : a.text = b.text) : a = b := by
  have hsome := ofText_authority a
  rw [h, ofText_authority] at hsome
  exact (Option.some.inj hsome).symm

omit [Json.PyFloat F] in
theorem textOrNull_injective {a b : Option String}
    (h : (textOrNull a : Json F) = textOrNull b) : a = b := by
  cases a <;> cases b <;> simp_all [textOrNull]

omit [Json.PyFloat F] in
theorem revisionsJson_injective {a b : List (String × String)}
    (h : (revisionsJson a : Json F) = revisionsJson b) : a = b := by
  have hread := asRevisions_revisionsJson (F := F) a
  rw [h, asRevisions_revisionsJson] at hread
  cases hread
  rfl

/-- The canonical text has every field. -/
theorem payload_injective {f f' : MutationFields}
    (h : Json.canonical (f.payload : Json F) = Json.canonical (f'.payload : Json F))
    (hid : f.mutationId = f'.mutationId) : f = f' := by
  have hsort := Json.sortKeys_eq_of_canonical (wf_payload (F := F) f) (wf_payload f') h
  have hget : ∀ key value value', (f.payload : Json F).get? key = some value →
      (f'.payload : Json F).get? key = some value' → value.sortKeys = value'.sortKeys := by
    intro key value value' hvalue hvalue'
    have hkey := Json.get?_sortKeys (wf_payload (F := F) f) key
    rw [hsort, Json.get?_sortKeys (wf_payload f'), hvalue, hvalue'] at hkey
    exact (Option.some.inj hkey).symm
  have htext : ∀ key {a b}, (f.payload : Json F).get? key = some (.str a) →
      (f'.payload : Json F).get? key = some (.str b) → a = b := by
    intro key a b ha hb
    simpa [Json.sortKeys] using hget key _ _ ha hb
  have hint : ∀ key {a b}, (f.payload : Json F).get? key = some (.int a) →
      (f'.payload : Json F).get? key = some (.int b) → a = b := by
    intro key a b ha hb
    simpa [Json.sortKeys] using hget key _ _ ha hb
  have hsorted : ∀ t : Option String, (textOrNull t : Json F).sortKeys = textOrNull t := by
    intro t
    cases t <;> rfl
  have hvalue := hget "value_json" _ _ rfl rfl
  rw [hsorted, hsorted] at hvalue
  have hsources := hget "source_event_revisions" _ _ rfl rfl
  rw [sortKeys_revisionsJson, sortKeys_revisionsJson] at hsources
  rw [MutationFields.mk.injEq]
  exact ⟨hid, htext "stream_id" rfl rfl, hint "revision" rfl rfl,
    hint "base_revision" rfl rfl,
    MutationOperation.text_injective (htext "operation" rfl rfl),
    htext "entity_id" rfl rfl, htext "predicate" rfl rfl,
    textOrNull_injective hvalue, htext "schema_id" rfl rfl,
    hint "schema_version" rfl rfl, revisionsJson_injective hsources,
    Authority.text_injective (htext "authority" rfl rfl),
    htext "recorded_at" rfl rfl⟩

variable (env) in
/-- Two inputs of SHA-256 with one digest. -/
def Collision : Prop := ∃ a b : ByteArray, a ≠ b ∧ env.digests.sha256 a = env.digests.sha256 b

/-- Two mutations made by `create` under one id are one, or the digest collides. -/
theorem Created.eq {m m' : MemoryMutation F} (h : Created env m) (h' : Created env m')
    (hid : m'.mutationId = m.mutationId) : m' = m ∨ Collision env := by
  have hdigest : digest env (m'.payload : Json F) = digest env (m.payload : Json F) := by
    rw [← h.mutationId, ← h'.mutationId, hid]
  by_cases hbytes : (Json.canonical (m'.payload : Json F)).toUTF8 =
      (Json.canonical (m.payload : Json F)).toUTF8
  · have hfields := payload_injective (String.toByteArray_inj.1 hbytes) hid
    obtain ⟨f, hf⟩ := m
    obtain ⟨f', hf'⟩ := m'
    cases hfields
    exact Or.inl rfl
  · exact Or.inr ⟨_, _, hbytes, hdigest⟩

/-! ## The acknowledgement -/

variable {streamId : String} {schemas : List MemoryFieldSchema}

end MemoryCore
