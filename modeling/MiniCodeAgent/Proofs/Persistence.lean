import MiniCodeAgent.Json.RoundTrip
import MiniCodeAgent.Proofs.StoreRuns

/-!
# What survives the disk

What `write_json` writes is read back as it was, and what is read back is a
document Python can hold. A manifest that has once been loaded stays loadable
under every update that leaves its version, its identifier and its source
alone, and loading it changes nothing any more: the two defaults `load` fills
in are there.
-/

namespace MiniCodeAgent

open Prog

variable {F : Type} [Json.PyFloat F] {P : Platform F} {id : String}

/-! ## What is written is read back -/

theorem decodeJson_jsonBytes {value : Json F} (h : value.WF) :
    decodeJson (jsonBytes value) = .ok value := by
  unfold decodeJson jsonBytes
  refine except_bind_ok.2 ⟨_, decodeUtf8_toUTF8 _, ?_⟩
  rw [Json.loads_dumps Json.Style.indent2_ok h]

theorem decodeJson_wf {data : ByteArray} {value : Json F} (h : decodeJson data = .ok value) :
    value.WF := by
  obtain ⟨text, -, h⟩ := except_bind_ok.1 h
  split at h
  · next hloads =>
      cases h
      exact Json.loads_wf hloads
  · cases h

omit [Json.PyFloat F] in
theorem pyItem_ok {key : String} {j v : Json F} :
    pyItem key j = .ok v ↔ j.get? key = some v := by
  unfold pyItem
  cases j.get? key <;> simp

omit [Json.PyFloat F] in
theorem pyItem_wf {key : String} {j v : Json F} (hj : j.WF) (h : pyItem key j = .ok v) : v.WF :=
  hj.get? (pyItem_ok.1 h)

omit [Json.PyFloat F] in
theorem getD_wf {j default : Json F} {key : String} (hj : j.WF) (hd : default.WF) :
    (j.getD key default).WF := by
  unfold Json.getD
  cases h : j.get? key with
  | none => exact hd
  | some v => exact hj.get? h

omit [Json.PyFloat F] in
theorem pyGet_wf {key : String} {j default v : Json F} (hj : j.WF) (hd : default.WF)
    (h : pyGet j key default = .ok v) : v.WF := by
  unfold pyGet at h
  split at h
  · next kvs =>
      cases h
      exact getD_wf hj hd
  · cases h

omit [Json.PyFloat F] in
theorem pyList_wf {j : Json F} {xs : List (Json F)} (hj : j.WF) (h : pyList j = .ok xs) :
    ∀ x ∈ xs, x.WF := by
  unfold pyList at h
  split at h
  · cases h
    exact Json.wf_arr.1 hj
  · cases h
    intro x hx
    obtain ⟨c, -, rfl⟩ := List.mem_map.1 hx
    exact .str _
  · cases h
    intro x hx
    obtain ⟨kv, -, rfl⟩ := List.mem_map.1 hx
    exact .str _
  · cases h

/-! ## A manifest that can be loaded -/

/-- What `load` asks of a manifest, and what it has seen to. -/
structure Loaded (P : Platform F) (id : String) (manifest : Manifest F) : Prop where
  wf : (Json.obj manifest).WF
  version : ((Json.obj manifest).getD "version" .null).pyEq (.int 1) = true
  sameId : Dict.get? manifest "id" = some (.str id)
  source : ∃ source path, Dict.get? manifest "source" = some source ∧ P.resolve source = .ok path
  memoryMode : (Dict.get? manifest "memory_mode").isSome = true
  identity : (Dict.get? manifest "workspace_identity_sha256").isSome = true

/-- The keys `load` depends on. -/
def identityKeys : List String := ["version", "id", "source"]

omit [Json.PyFloat F] in
theorem get?_setDefault {data : Dict (Json F)} {key key' : String} {value : Json F}
    (h : key ≠ key') : Dict.get? (setDefault data key value) key' = Dict.get? data key' := by
  unfold setDefault
  split
  · rfl
  · rw [Dict.get?_set, if_neg h]

omit [Json.PyFloat F] in
theorem setDefault_isSome (data : Dict (Json F)) (key key' : String) (value : Json F)
    (h : key = key' ∨ (Dict.get? data key').isSome = true) :
    (Dict.get? (setDefault data key value) key').isSome = true := by
  unfold setDefault
  split
  · next hsome =>
      rcases h with rfl | h
      · exact hsome
      · exact h
  · rw [Dict.get?_set]
    split
    · rfl
    · next hne => exact h.resolve_left hne

omit [Json.PyFloat F] in
theorem setDefault_wf {data : Dict (Json F)} {key : String} {value : Json F}
    (h : (Json.obj data).WF) (hv : value.WF) : (Json.obj (setDefault data key value)).WF := by
  unfold setDefault
  split
  · exact h
  · exact h.set key hv

omit [Json.PyFloat F] in
theorem setDefault_of_isSome {data : Dict (Json F)} {key : String} {value : Json F}
    (h : (Dict.get? data key).isSome = true) : setDefault data key value = data := if_pos h

theorem decodeManifest_loaded {data : ByteArray} {manifest : Manifest F}
    (h : decodeManifest P id data = .ok manifest) : Loaded P id manifest := by
  unfold decodeManifest at h
  obtain ⟨value, hvalue, h⟩ := except_bind_ok.1 h
  obtain ⟨read, hread, h⟩ := except_bind_ok.1 h
  obtain ⟨_, hidentity, h⟩ := except_bind_ok.1 h
  obtain ⟨source, hsource, h⟩ := except_bind_ok.1 h
  obtain ⟨identity, hdigest, h⟩ := except_bind_ok.1 h
  obtain ⟨path, hpath, hdigest⟩ := except_bind_ok.1 hdigest
  cases h
  cases hdigest
  have hwf : (Json.obj read).WF := by
    unfold manifestData at hread
    split at hread
    · cases hread
      exact decodeJson_wf hvalue
    · cases hread
  rw [raiseIf_ok, not_or, Bool.not_eq_false, Bool.not_eq_false, Json.pyEq_str_right,
    Json.getD_null_eq_str, Json.get?_obj] at hidentity
  rw [pyItem_ok, Json.get?_obj, get?_setDefault (by decide)] at hsource
  have hkeep : ∀ key, "memory_mode" ≠ key → "workspace_identity_sha256" ≠ key → ∀ m v : Json F,
      Dict.get? (setDefault (setDefault read "memory_mode" m) "workspace_identity_sha256" v) key =
        Dict.get? read key :=
    fun key hm hv m v => by rw [get?_setDefault hv, get?_setDefault hm]
  exact {
    wf := setDefault_wf (setDefault_wf hwf (.str _)) (.str _)
    version := by
      unfold Json.getD
      rw [Json.get?_obj, hkeep _ (by decide) (by decide)]
      exact hidentity.1
    sameId := (hkeep _ (by decide) (by decide) _ _).trans hidentity.2
    source := ⟨source, path, (hkeep _ (by decide) (by decide) _ _).trans hsource, hpath⟩
    memoryMode := setDefault_isSome _ _ _ _ (Or.inr (setDefault_isSome _ _ _ _ (Or.inl rfl)))
    identity := setDefault_isSome _ _ _ _ (Or.inl rfl) }

/-- `load` gives back a manifest it could have returned. -/
theorem Loaded.decode {manifest : Manifest F} (h : Loaded P id manifest) :
    decodeManifest P id (jsonBytes (.obj manifest)) = .ok manifest := by
  obtain ⟨source, path, hsource, hpath⟩ := h.source
  have hidentity : raiseIf (((Json.obj manifest).getD "version" .null).pyEq (.int 1) = false ∨
      ((Json.obj manifest).getD "id" .null).pyEq (.str id) = false)
      (txError "transaction manifest identity is invalid") = .ok () := by
    rw [raiseIf_ok, not_or, Bool.not_eq_false, Bool.not_eq_false, Json.pyEq_str_right,
      Json.getD_null_eq_str]
    exact ⟨h.version, h.sameId⟩
  have hitem : pyItem "source" (Json.obj manifest) = .ok source := pyItem_ok.2 hsource
  have hdigest : pathDigest P source = .ok (.str (P.digests.sha256 path.toUTF8)) :=
    except_bind_ok.2 ⟨path, hpath, rfl⟩
  unfold decodeManifest
  refine except_bind_ok.2 ⟨_, decodeJson_jsonBytes h.wf, except_bind_ok.2 ⟨manifest, rfl,
    except_bind_ok.2 ⟨(), hidentity, ?_⟩⟩⟩
  simp only [setDefault_of_isSome h.memoryMode]
  refine except_bind_ok.2 ⟨source, hitem, except_bind_ok.2 ⟨_, hdigest, ?_⟩⟩
  rw [setDefault_of_isSome h.identity]
  rfl

theorem Loaded.set {manifest : Manifest F} (h : Loaded P id manifest) {key : String}
    {value : Json F} (hv : value.WF) (hkey : key ∉ identityKeys) :
    Loaded P id (Dict.set manifest key value) := by
  have hkeep : ∀ key' ∈ identityKeys,
      Dict.get? (Dict.set manifest key value) key' = Dict.get? manifest key' := by
    intro key' hmem
    rw [Dict.get?_set, if_neg]
    rintro rfl
    exact hkey hmem
  have hsome : ∀ key', (Dict.get? manifest key').isSome = true →
      (Dict.get? (Dict.set manifest key value) key').isSome = true := by
    intro key' hmem
    rw [Dict.get?_set]
    split
    · rfl
    · exact hmem
  obtain ⟨source, path, hsource, hpath⟩ := h.source
  exact {
    wf := h.wf.set key hv
    version := by
      unfold Json.getD
      rw [Json.get?_obj, hkeep "version" (by decide)]
      exact h.version
    sameId := (hkeep "id" (by decide)).trans h.sameId
    source := ⟨source, path, (hkeep "source" (by decide)).trans hsource, hpath⟩
    memoryMode := hsome _ h.memoryMode
    identity := hsome _ h.identity }

end MiniCodeAgent
