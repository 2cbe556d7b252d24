import MiniCodeAgent.Embeddings
import MiniCodeAgent.Json.RoundTrip
import Mathlib.Data.List.ReduceOption

/-!
# The cache does not change a ranking

A client that answers each text with one vector of its own is asked for the texts
the cache lacks. Merged with the cached ones by position, its answers are the vectors
of all texts, in their order: what is ranked does not depend on the cache. Every
vector is asked for before any is kept, so texts that share a digest disturb each
other in the cache only, never in the ranking that fills it.
-/

namespace MemoryCore

open MiniCodeAgent

variable {F : Type} [Json.PyFloat F] {env : EmbeddingEnv F}

/-! ## Vectors -/

theorem reduceOption_map_some {α β : Type} (f : α → β) (xs : List α) :
    (xs.map fun x => some (f x)).reduceOption = xs.map f := by
  induction xs with
  | nil => rfl
  | cons x xs ih => rw [List.map_cons, List.map_cons, List.reduceOption_cons_of_some, ih]

omit [Json.PyFloat F] in
theorem validateVector_some {vector : List F} (hne : vector ≠ [])
    (hlength : vector.length ≤ 65536) :
    validateVector (vector.map some) = .ok vector := by
  have hsize : ¬ (vector.map some = [] ∨ (vector.map some).length > 65536) := by
    rw [List.map_eq_nil_iff, List.length_map, not_or]
    exact ⟨hne, by omega⟩
  have hfinite : ¬ (vector.map some).any Option.isNone = true := by simp
  unfold validateVector
  rw [raiseIf, if_neg hsize, except_ok_bind, raiseIf, if_neg hfinite, except_ok_bind]
  show Except.ok _ = Except.ok _
  rw [reduceOption_map_some, List.map_id']

/-- What the cache writes of a vector reads back. -/
theorem rowVector_dumps {row : VectorRow} {vector : List F} (hne : vector ≠ [])
    (hlength : vector.length ≤ 65536) (hdimensions : row.dimensions = vector.length)
    (hjson : row.vectorJson = Json.dumps .compact (.arr (vector.map .float))) :
    rowVector env row = .ok vector := by
  have hwf : (Json.arr (vector.map Json.float)).WF := by
    rw [Json.wf_arr]
    intro x hx
    obtain ⟨f, -, rfl⟩ := List.mem_map.1 hx
    exact .float f
  have hfloats : (vector.map Json.float).mapM env.toFloat = .ok (vector.map some) := by
    clear hne hlength hdimensions hjson hwf
    induction vector with
    | nil => rfl
    | cons f vector ih =>
        rw [List.map_cons, List.mapM_cons, env.toFloat_float, except_ok_bind, ih]
        rfl
  have hitems : jsonItems (Json.arr (vector.map Json.float)) = .ok (vector.map Json.float) := rfl
  unfold rowVector
  rw [hjson, Json.loads_dumps Json.Style.compact_ok hwf]
  show (jsonItems (Json.arr (vector.map Json.float)) >>= _) = _
  rw [hitems, except_ok_bind, hfloats, except_ok_bind, validateVector_some hne hlength,
    except_ok_bind, hdimensions, raiseIf, if_neg (fun h => h rfl), except_ok_bind]
  rfl

/-! ## The cache -/

/-- Nothing stands in the way of the cache's file. -/
structure EmbeddingCache.Usable (cache : EmbeddingCache) : Prop where
  parent : cache.parent = .ok ()
  file : ∀ file ∈ cache.file, file.check = .ok ()

/-- The rows a cache has. -/
def EmbeddingCache.rows (cache : EmbeddingCache) : List VectorRow :=
  (cache.file.bind (·.vectors)).getD []

theorem CacheFile.check_ok {file : CacheFile} (h : file.check = .ok ()) :
    file.metadata.kind = .regular := by
  obtain ⟨u, hkind, -⟩ := except_bind_ok.1 h
  exact not_not.1 (raiseIf_ok.1 hkind)

/-- What the rows hold at a key. -/
def rowsVector (env : EmbeddingEnv F) (rows : List VectorRow) (namespaceName digest : String) :
    Except PyExc (Option (List F)) :=
  match rows.find? (VectorRow.isAt namespaceName digest) with
  | none => .ok none
  | some row => (rowVector env row).map some

theorem EmbeddingCache.Usable.get_eq {cache : EmbeddingCache} (h : cache.Usable)
    (namespaceName digest : String) :
    cache.get env namespaceName digest = rowsVector env cache.rows namespaceName digest := by
  obtain ⟨parent, file⟩ := cache
  cases file with
  | none => rfl
  | some file =>
      have hcheck := h.file file rfl
      have hfile : file.isFile = true := by rw [CacheFile.isFile, CacheFile.check_ok hcheck]
      unfold EmbeddingCache.get
      simp only [hfile, Bool.true_eq_false, if_false, hcheck, except_ok_bind]
      show _ = rowsVector env (file.vectors.getD []) namespaceName digest
      unfold rowsVector
      cases (file.vectors.getD []).find? (VectorRow.isAt namespaceName digest) with
      | none => rfl
      | some row => cases rowVector env row <;> rfl

/-- A vector put into a usable cache is found at its key, and every other key is as it was. -/
theorem EmbeddingCache.Usable.put {cache : EmbeddingCache} (h : cache.Usable)
    (namespaceName digest : String) {vector : List F} (hne : vector ≠ [])
    (hlength : vector.length ≤ 65536) :
    ∃ cache', cache.put namespaceName digest vector = .ok cache' ∧ cache'.Usable ∧
      cache'.get env namespaceName digest = .ok (some vector) ∧
      ∀ namespaceName' digest', ¬ (namespaceName' = namespaceName ∧ digest' = digest) →
        cache'.get env namespaceName' digest' = cache.get env namespaceName' digest' := by
  have hlink : ¬ ∃ file ∈ cache.file, file.metadata.kind = .symlink := by
    intro hfile
    obtain ⟨file, hmem, hkind⟩ := hfile
    rw [CacheFile.check_ok (h.file file hmem)] at hkind
    cases hkind
  obtain ⟨file, hensure, hcheck, hrows⟩ : ∃ file, cache.ensureFile = .ok file ∧
      file.check = .ok () ∧ file.vectors.getD [] = cache.rows := by
    unfold EmbeddingCache.ensureFile EmbeddingCache.rows
    cases hfile : cache.file with
    | none => exact ⟨_, rfl, rfl, rfl⟩
    | some file =>
        refine ⟨file, ?_, h.file file hfile, rfl⟩
        show (file.check >>= fun _ => pure file) = _
        rw [h.file file hfile]
        rfl
  generalize hrow : (⟨namespaceName, digest, vector.length,
    Json.dumps .compact (.arr (vector.map .float))⟩ : VectorRow) = row
  have hput : cache.put namespaceName digest vector =
      .ok ⟨cache.parent, some ⟨file.metadata, file.leadsToFile, some
        (cache.rows.filter (fun row => !row.isAt namespaceName digest) ++ [row])⟩⟩ := by
    unfold EmbeddingCache.put
    rw [validateVector_some hne hlength, except_ok_bind, raiseIf, if_neg hlink, except_ok_bind,
      h.parent, except_ok_bind, hensure, except_ok_bind, hrows, ← hrow]
    rfl
  refine ⟨_, hput, ?_⟩
  generalize hcache : (⟨cache.parent, some { file with vectors := some (cache.rows.filter
    (fun row => !row.isAt namespaceName digest) ++ [row]) }⟩ : EmbeddingCache) = cache'
  have husable : cache'.Usable := by
    rw [← hcache]
    refine ⟨h.parent, fun other hother => ?_⟩
    cases hother
    exact hcheck
  have hrows' : cache'.rows =
      cache.rows.filter (fun row => !row.isAt namespaceName digest) ++ [row] := by
    rw [← hcache]
    rfl
  have hat : row.isAt namespaceName digest = true := by simp [← hrow, VectorRow.isAt]
  refine ⟨husable, ?_, fun namespaceName' digest' hother => ?_⟩
  · have hfind : cache'.rows.find? (VectorRow.isAt namespaceName digest) = some row := by
      have hnone : (cache.rows.filter fun row => !row.isAt namespaceName digest).find?
          (VectorRow.isAt namespaceName digest) = none := by
        rw [List.find?_eq_none]
        intro other hmem hyes
        rw [List.mem_filter, hyes] at hmem
        exact Bool.false_ne_true hmem.2
      rw [hrows', List.find?_append, hnone, Option.none_or, List.find?_singleton, if_pos hat]
    rw [husable.get_eq, rowsVector, hfind]
    show (rowVector env row).map some = _
    rw [rowVector_dumps hne hlength (by rw [← hrow]) (by rw [← hrow])]
    rfl
  · have hrow' : row.isAt namespaceName' digest' = false := by
      rw [← hrow, VectorRow.isAt, Bool.and_eq_false_iff, beq_eq_false_iff_ne, beq_eq_false_iff_ne]
      by_contra hboth
      rw [not_or, not_not, not_not] at hboth
      exact hother ⟨hboth.1.symm, hboth.2.symm⟩
    have hfind : cache'.rows.find? (VectorRow.isAt namespaceName' digest') =
        cache.rows.find? (VectorRow.isAt namespaceName' digest') := by
      rw [hrows', List.find?_append, List.find?_filter, List.find?_singleton, hrow',
        if_neg Bool.false_ne_true, Option.or_none]
      congr 1
      funext other
      by_cases hat' : other.isAt namespaceName' digest' = true
      · have hnot : other.isAt namespaceName digest = false := by
          by_contra hyes
          simp only [VectorRow.isAt, Bool.and_eq_true, beq_iff_eq, Bool.not_eq_false] at hat' hyes
          exact hother ⟨hat'.1.symm.trans hyes.1, hat'.2.symm.trans hyes.2⟩
        simp [hat', hnot]
      · simp [hat']
    rw [husable.get_eq, h.get_eq, rowsVector, rowsVector, hfind]

/-! ## The requests -/

variable {provider : EmbeddingCandidateProvider F} {vectorOf : String → List F}

/-- The client maps each text to one valid vector, whatever else is in the request. -/
structure Steady (provider : EmbeddingCandidateProvider F) (vectorOf : String → List F) : Prop where
  embed : ∀ texts, texts ≠ [] →
    provider.embed texts = .ok (texts.map fun text => (vectorOf text).map some)
  vector_ne : ∀ text, vectorOf text ≠ []
  vector_length : ∀ text, (vectorOf text).length ≤ 65536

/-- What the cache has of these texts is what the client returns. -/
structure Agrees (env : EmbeddingEnv F) (provider : EmbeddingCandidateProvider F)
    (vectorOf : String → List F) (texts : Set String) (cache : EmbeddingCache) : Prop where
  usable : cache.Usable
  entries : ∀ text ∈ texts,
    cache.get env provider.namespaceName (sha256Text env.digests text) = .ok none ∨
    cache.get env provider.namespaceName (sha256Text env.digests text) = .ok (some (vectorOf text))

/-- Where a text has no vector yet, it is among the missing ones. -/
structure Resolving (env : EmbeddingEnv F) (vectorOf : String → List F) (texts : List String)
    (missing : List MissingText) (vectors : List (Option (List F))) : Prop where
  length : vectors.length = texts.length
  placed : ∀ item ∈ missing, texts[item.index]? = some item.text ∧
    item.digest = sha256Text env.digests item.text
  held : ∀ i text, texts[i]? = some text → vectors[i]? = some (some (vectorOf text)) ∨
    ∃ item ∈ missing, item.index = i

omit [Json.PyFloat F] in
/-- Nothing is missing any more. -/
theorem Resolving.vectors_eq {texts : List String} {vectors : List (Option (List F))}
    (h : Resolving env vectorOf texts [] vectors) :
    vectors = texts.map fun text => some (vectorOf text) := by
  refine List.ext_getElem? fun i => ?_
  rw [List.getElem?_map]
  cases htext : texts[i]? with
  | none =>
      rw [List.getElem?_eq_none_iff] at htext
      rw [List.getElem?_eq_none (by rw [h.length]; exact htext), Option.map_none]
  | some text =>
      rcases h.held i text htext with hvector | ⟨item, hitem, -⟩
      · rw [hvector, Option.map_some]
      · cases hitem

omit [Json.PyFloat F] in
/-- A missing text's vector is filled in. -/
theorem Resolving.set {texts : List String} {item : MissingText} {missing : List MissingText}
    {vectors : List (Option (List F))}
    (h : Resolving env vectorOf texts (item :: missing) vectors) :
    Resolving env vectorOf texts missing (vectors.set item.index (some (vectorOf item.text))) where
  length := by rw [List.length_set, h.length]
  placed other hother := h.placed other (List.mem_cons_of_mem _ hother)
  held i text htext := by
    obtain ⟨hitem, -⟩ := h.placed item List.mem_cons_self
    by_cases hi : item.index = i
    · have hbound : item.index < vectors.length := by
        rw [h.length]
        exact (List.getElem?_eq_some_iff.1 hitem).1
      rw [hi] at hitem
      rw [← hi, List.getElem?_set_self hbound, Option.some.inj (hitem.symm.trans htext)]
      exact Or.inl rfl
    · rw [List.getElem?_set_ne hi]
      rcases h.held i text htext with hvector | ⟨other, hother, hindex⟩
      · exact Or.inl hvector
      · rcases List.mem_cons.1 hother with rfl | hother
        · exact absurd hindex hi
        · exact Or.inr ⟨other, hother, hindex⟩

omit [Json.PyFloat F] in
/-- One more text, with what the cache has of it. -/
theorem Resolving.snoc {seen : List String} {missing : List MissingText}
    {vectors : List (Option (List F))} (h : Resolving env vectorOf seen missing vectors)
    {text : String} {cached : Option (List F)}
    (hcached : cached = none ∨ cached = some (vectorOf text)) :
    Resolving env vectorOf (seen ++ [text])
      (if cached = none then missing ++ [⟨seen.length, sha256Text env.digests text, text⟩]
        else missing) (vectors ++ [cached]) where
  length := by simp [h.length]
  placed item hitem := by
    have hitem' : item ∈ missing ∨
        item = ⟨seen.length, sha256Text env.digests text, text⟩ := by
      split at hitem
      · simpa using hitem
      · exact Or.inl hitem
    rcases hitem' with hitem | rfl
    · obtain ⟨hat, hdigest⟩ := h.placed item hitem
      rw [List.getElem?_append_left (List.getElem?_eq_some_iff.1 hat).1]
      exact ⟨hat, hdigest⟩
    · exact ⟨by simp, rfl⟩
  held i other hother := by
    have hi : i < seen.length + 1 := by
      simpa using (List.getElem?_eq_some_iff.1 hother).1
    by_cases hnew : i = seen.length
    · subst hnew
      rw [List.getElem?_concat_length] at hother
      cases hother
      rcases hcached with rfl | rfl
      · refine Or.inr ⟨⟨seen.length, sha256Text env.digests text, text⟩, ?_, rfl⟩
        rw [if_pos rfl]
        exact List.mem_append_right _ List.mem_cons_self
      · exact Or.inl (by rw [← h.length, List.getElem?_concat_length])
    · have hi' : i < seen.length := by omega
      rw [List.getElem?_append_left hi'] at hother
      rw [List.getElem?_append_left (by rw [h.length]; exact hi')]
      rcases h.held i other hother with hvector | ⟨item, hitem, hindex⟩
      · exact Or.inl hvector
      · refine Or.inr ⟨item, ?_, hindex⟩
        split
        · exact List.mem_append_left _ hitem
        · exact hitem

/-- The first loop: a cache that has of each text what the client returns or nothing. -/
theorem cachedVectors_resolving {cache : Option EmbeddingCache} {texts : List String}
    (hcache : ∀ text ∈ texts,
      cachedVector env provider cache (sha256Text env.digests text) = .ok none ∨
      cachedVector env provider cache (sha256Text env.digests text) = .ok (some (vectorOf text))) :
    ∃ vectors missing, cachedVectors env provider cache texts = .ok (vectors, missing) ∧
      Resolving env vectorOf texts missing vectors := by
  -- over what is left of the texts, behind those already seen
  have hloop : ∀ (rest seen : List String) (missing : List MissingText)
      (vectors : List (Option (List F))), texts = seen ++ rest →
      Resolving env vectorOf seen missing vectors →
      ∃ vectors' missing', (rest.zipIdx seen.length).foldlM (fun progress item => do
          let digest := sha256Text env.digests item.1
          let cached ← cachedVector env provider cache digest
          return (progress.1 ++ [cached],
            if cached = none then progress.2 ++ [(⟨item.2, digest, item.1⟩ : MissingText)]
            else progress.2)) (vectors, missing) = (.ok (vectors', missing') : Except PyExc _) ∧
        Resolving env vectorOf texts missing' vectors' := by
    intro rest
    induction rest with
    | nil =>
        intro seen missing vectors htexts h
        rw [htexts, List.append_nil]
        exact ⟨vectors, missing, rfl, h⟩
    | cons text rest ih =>
        intro seen missing vectors htexts h
        have hnext := ih (seen ++ [text])
        rw [List.length_append, List.length_singleton] at hnext
        rw [List.zipIdx_cons, List.foldlM_cons]
        rcases hcache text (by rw [htexts]; simp) with hcached | hcached
        · simp only [hcached, except_ok_bind]
          exact hnext _ _ (by rw [htexts]; simp) (h.snoc (Or.inl rfl))
        · simp only [hcached, except_ok_bind]
          exact hnext _ _ (by rw [htexts]; simp) (h.snoc (Or.inr rfl))
  exact hloop texts [] [] [] rfl ⟨rfl, fun item hitem => (by cases hitem),
    fun i text htext => by simp at htext⟩

/-- The cache after the loop over the answers: the keys of the missing texts hold vectors of
theirs, and every other key is as it was. -/
structure Filled (env : EmbeddingEnv F) (provider : EmbeddingCandidateProvider F)
    (vectorOf : String → List F) (missing : List MissingText)
    (cache cache' : EmbeddingCache) : Prop where
  usable : cache'.Usable
  frame : ∀ namespaceName digest,
    (namespaceName = provider.namespaceName → ∀ item ∈ missing, item.digest ≠ digest) →
    cache'.get env namespaceName digest = cache.get env namespaceName digest
  entry : ∀ item ∈ missing, ∃ item' ∈ missing, item'.digest = item.digest ∧
    cache'.get env provider.namespaceName item.digest = .ok (some (vectorOf item'.text))

theorem Filled.cons {item : MissingText} {missing : List MissingText}
    {cache cache₁ cache₂ : EmbeddingCache}
    (hget : cache₁.get env provider.namespaceName item.digest = .ok (some (vectorOf item.text)))
    (hframe : ∀ namespaceName digest,
      ¬ (namespaceName = provider.namespaceName ∧ digest = item.digest) →
      cache₁.get env namespaceName digest = cache.get env namespaceName digest)
    (h : Filled env provider vectorOf missing cache₁ cache₂) :
    Filled env provider vectorOf (item :: missing) cache cache₂ where
  usable := h.usable
  frame namespaceName digest hother := by
    rw [h.frame namespaceName digest fun hname other hmem =>
      hother hname other (List.mem_cons_of_mem _ hmem)]
    exact hframe namespaceName digest fun hkey =>
      hother hkey.1 item List.mem_cons_self hkey.2.symm
  entry other hother := by
    by_cases hlater : ∃ later ∈ missing, later.digest = other.digest
    · obtain ⟨later, hlater, hdigest⟩ := hlater
      obtain ⟨other', hmem', hdigest', hvector⟩ := h.entry later hlater
      rw [hdigest] at hdigest' hvector
      exact ⟨other', List.mem_cons_of_mem _ hmem', hdigest', hvector⟩
    · rcases List.mem_cons.1 hother with rfl | hother
      · refine ⟨other, List.mem_cons_self, rfl, ?_⟩
        rw [h.frame _ _ fun _ later hmem hdigest => hlater ⟨later, hmem, hdigest⟩]
        exact hget
      · exact absurd ⟨other, hother, rfl⟩ hlater

/-- The second loop, without a cache and with one. -/
theorem mergeVectors_resolving (hsteady : Steady provider vectorOf) {texts : List String}
    {missing : List MissingText} {vectors : List (Option (List F))}
    (h : Resolving env vectorOf texts missing vectors) :
    mergeVectors provider
        (missing.zip (missing.map fun item => (vectorOf item.text).map some)) vectors none =
      (.ok (texts.map fun text => some (vectorOf text)), none) ∧
    ∀ cache : EmbeddingCache, cache.Usable → ∃ cache', mergeVectors provider
        (missing.zip (missing.map fun item => (vectorOf item.text).map some)) vectors (some cache) =
      (.ok (texts.map fun text => some (vectorOf text)), some cache') ∧
      Filled env provider vectorOf missing cache cache' := by
  induction missing generalizing vectors with
  | nil =>
      rw [← h.vectors_eq]
      exact ⟨rfl, fun cache husable => ⟨cache, rfl, husable, fun _ _ _ => rfl,
        fun item hitem => by cases hitem⟩⟩
  | cons item missing ih =>
      obtain ⟨hbare, hkept⟩ := ih h.set
      have hvalid := validateVector_some (hsteady.vector_ne item.text)
        (hsteady.vector_length item.text)
      rw [List.map_cons, List.zip_cons_cons]
      refine ⟨?_, fun cache husable => ?_⟩
      · rw [mergeVectors, hvalid]
        exact hbare
      · obtain ⟨cache₁, hput, husable₁, hget, hframe⟩ := husable.put provider.namespaceName
          item.digest (hsteady.vector_ne item.text) (hsteady.vector_length item.text)
        obtain ⟨cache₂, hmerge, hfilled⟩ := hkept cache₁ husable₁
        refine ⟨cache₂, ?_, hfilled.cons hget hframe⟩
        simp only [mergeVectors, hvalid, hput]
        exact hmerge

/-- All vectors, whatever the cache had. -/
theorem resolveVectors_eq (hsteady : Steady provider vectorOf) {texts : List String} :
    resolveVectors env provider none texts =
      (.ok (texts.map fun text => some (vectorOf text)), none) ∧
    ∀ {known : Set String} {cache : EmbeddingCache}, Agrees env provider vectorOf known cache →
      (∀ text ∈ texts, text ∈ known) → ∃ cache' missing,
      resolveVectors env provider (some cache) texts =
        (.ok (texts.map fun text => some (vectorOf text)), some cache') ∧
      (∀ item ∈ missing, item.text ∈ texts ∧ item.digest = sha256Text env.digests item.text) ∧
      Filled env provider vectorOf missing cache cache' := by
  have hanswer : ∀ missing : List MissingText, missing ≠ [] →
      provider.embed (missing.map (·.text)) =
        .ok (missing.map fun item => (vectorOf item.text).map some) := by
    intro missing hmissing
    rw [hsteady.embed _ (by rw [Ne, List.map_eq_nil_iff]; exact hmissing), List.map_map]
    rfl
  have hresolve : ∀ (cache : Option EmbeddingCache) (vectors : List (Option (List F)))
      (missing : List MissingText),
      cachedVectors env provider cache texts = .ok (vectors, missing) →
      resolveVectors env provider cache texts = mergeVectors provider
        (missing.zip (missing.map fun item => (vectorOf item.text).map some)) vectors cache := by
    intro cache vectors missing hcached
    unfold resolveVectors
    simp only [hcached]
    by_cases hmissing : missing = []
    · rw [if_pos hmissing, hmissing]
      rfl
    · rw [if_neg hmissing]
      simp only [hanswer missing hmissing]
      rw [if_neg (by rw [List.length_map]; exact fun h => h rfl)]
  refine ⟨?_, fun {known cache} hagrees hknown => ?_⟩
  · obtain ⟨vectors, missing, hcached, hresolving⟩ : ∃ vectors missing,
        cachedVectors env provider none texts = .ok (vectors, missing) ∧
          Resolving env vectorOf texts missing vectors :=
      cachedVectors_resolving fun text _ => Or.inl rfl
    rw [hresolve none vectors missing hcached]
    exact (mergeVectors_resolving hsteady hresolving).1
  · obtain ⟨vectors, missing, hcached, hresolving⟩ : ∃ vectors missing,
        cachedVectors env provider (some cache) texts = .ok (vectors, missing) ∧
          Resolving env vectorOf texts missing vectors :=
      cachedVectors_resolving fun text htext => hagrees.entries text (hknown text htext)
    obtain ⟨cache', hmerge, hfilled⟩ :=
      (mergeVectors_resolving hsteady hresolving).2 cache hagrees.usable
    refine ⟨cache', missing, ?_, fun item hitem => ?_, hfilled⟩
    · rw [hresolve (some cache) vectors missing hcached, hmerge]
    · obtain ⟨hat, hdigest⟩ := hresolving.placed item hitem
      exact ⟨List.mem_of_getElem? hat, hdigest⟩

theorem Agrees.filled {known : Set String} {texts : List String} {missing : List MissingText}
    {cache cache' : EmbeddingCache} (h : Agrees env provider vectorOf known cache)
    (hdigests : Set.InjOn (sha256Text env.digests) known) (hknown : ∀ text ∈ texts, text ∈ known)
    (hmissing : ∀ item ∈ missing, item.text ∈ texts ∧
      item.digest = sha256Text env.digests item.text)
    (hfilled : Filled env provider vectorOf missing cache cache') :
    Agrees env provider vectorOf known cache' where
  usable := hfilled.usable
  entries text htext := by
    by_cases hput : ∃ item ∈ missing, item.digest = sha256Text env.digests text
    · obtain ⟨item, hitem, hdigest⟩ := hput
      obtain ⟨item', hitem', hdigest', hvector⟩ := hfilled.entry item hitem
      obtain ⟨htext', hown⟩ := hmissing item' hitem'
      have hsame : item'.text = text := hdigests (hknown _ htext') htext
        (hown.symm.trans (hdigest'.trans hdigest))
      rw [hdigest, hsame] at hvector
      exact Or.inr hvector
    · rw [hfilled.frame _ _ fun _ item hitem hdigest => hput ⟨item, hitem, hdigest⟩]
      exact h.entries text htext

/-- With a cache that agrees with the client, a call ranks as without one, and it leaves a cache
that agrees with the client as long as no two of the texts share a digest. Rows of other
namespaces are as they were. -/
theorem rank_cached (hsteady : Steady provider vectorOf) {known : Set String}
    {cache : EmbeddingCache} (hagrees : Agrees env provider vectorOf known cache) (query : String)
    (documents : List SemanticDocument)
    (hknown : ∀ text ∈ inputTexts provider query documents, text ∈ known) (limit : Int) :
    (provider.rank env (some cache) query documents limit).result =
      (provider.rank env none query documents limit).result ∧
    (provider.rank env (some cache) query documents limit).lastErrorType =
      (provider.rank env none query documents limit).lastErrorType ∧
    ∃ cache', (provider.rank env (some cache) query documents limit).cache = some cache' ∧
      cache'.Usable ∧
      (∀ namespaceName digest, namespaceName ≠ provider.namespaceName →
        cache'.get env namespaceName digest = cache.get env namespaceName digest) ∧
      (Set.InjOn (sha256Text env.digests) known → Agrees env provider vectorOf known cache') := by
  obtain ⟨cache', hkept, husable, hframe, hafter⟩ : ∃ cache',
      rankEmbedded env provider (some cache) query documents limit =
        ((rankEmbedded env provider none query documents limit).1, some cache') ∧
      cache'.Usable ∧
      (∀ namespaceName digest, namespaceName ≠ provider.namespaceName →
        cache'.get env namespaceName digest = cache.get env namespaceName digest) ∧
      (Set.InjOn (sha256Text env.digests) known → Agrees env provider vectorOf known cache') := by
    unfold rankEmbedded
    by_cases hnone : limit < 1 ∨ documents = []
    · rw [if_pos hnone, if_pos hnone]
      exact ⟨cache, rfl, hagrees.usable, fun _ _ _ => rfl, fun _ => hagrees⟩
    · rw [if_neg hnone, if_neg hnone]
      have hbare : resolveVectors env provider none (inputTexts provider query documents) =
          (.ok ((inputTexts provider query documents).map fun text => some (vectorOf text)), none) :=
        (resolveVectors_eq hsteady).1
      obtain ⟨cache', missing, hresolve, hmissing, hfilled⟩ :=
        (resolveVectors_eq hsteady).2 hagrees hknown
      rw [hbare, hresolve]
      exact ⟨cache', rfl, hfilled.usable,
        fun namespaceName digest hname => hfilled.frame _ _ fun hsame => absurd hsame hname,
        fun hdigests => hagrees.filled hdigests hknown hmissing hfilled⟩
  unfold EmbeddingCandidateProvider.rank
  rw [hkept]
  generalize rankEmbedded env provider none query documents limit = bare
  obtain ⟨ranked, bareCache⟩ := bare
  dsimp only
  by_cases hclosed : provider.failOpen = false
  · rw [if_pos hclosed, if_pos hclosed]
    exact ⟨rfl, rfl, cache', rfl, husable, hframe, hafter⟩
  · rw [if_neg hclosed, if_neg hclosed]
    cases ranked with
    | ok result => exact ⟨rfl, rfl, cache', rfl, husable, hframe, hafter⟩
    | error exc =>
        dsimp only
        by_cases hexc : exc.isException = true
        · rw [if_pos hexc, if_pos hexc]
          exact ⟨rfl, rfl, cache', rfl, husable, hframe, hafter⟩
        · rw [if_neg hexc, if_neg hexc]
          exact ⟨rfl, rfl, cache', rfl, husable, hframe, hafter⟩

/-! ## A request with a hit, a miss and a text that occurs twice -/

namespace CachedRequest

def deployment : EmbeddingEnv Unit where
  digests := hexDigests
  toFloat _ := .ok (some ())
  toFloat_float _ := rfl
  cosine _ _ := ()

def embedder : EmbeddingCandidateProvider Unit where
  embed texts := .ok (texts.map fun _ => [some ()])
  namespaceName := "memory"
  minSimilarity := ()
  maxInputChars := 100
  failOpen := true
  namespace_ok := by decide
  similarity_ok := ⟨by decide, by decide⟩
  budget_ok := by decide

def cache : EmbeddingCache where
  parent := .ok ()
  file := some ⟨⟨.regular, true, 0o600⟩, true, some [⟨"memory", sha256Text hexDigests "cats", 1,
    Json.dumps .compact (.arr ([()].map Json.float))⟩]⟩

def documents : List SemanticDocument := [⟨"a", "cats"⟩, ⟨"b", "dogs"⟩, ⟨"a", "cats"⟩]

def known : Set String := {text | text = "cats" ∨ text = "dogs"}

theorem steady : Steady embedder fun _ => [()] where
  embed _ _ := rfl
  vector_ne _ := List.cons_ne_nil _ _
  vector_length _ := by simp

theorem agrees : Agrees deployment embedder (fun _ => [()]) known cache := by
  have husable : cache.Usable := by
    refine ⟨rfl, fun file hfile => ?_⟩
    cases hfile
    rfl
  refine ⟨husable, fun text htext => ?_⟩
  rw [husable.get_eq, rowsVector]
  rcases htext with rfl | rfl
  · right
    have hfind : cache.rows.find? (VectorRow.isAt embedder.namespaceName
        (sha256Text deployment.digests "cats")) = cache.rows.head? := by
      show List.find? _ [_] = some _
      rw [List.find?_singleton, if_pos]
      show (("memory" == "memory") &&
        (sha256Text hexDigests "cats" == sha256Text hexDigests "cats")) = true
      rw [beq_self_eq_true, beq_self_eq_true, Bool.and_self]
    rw [hfind]
    show (rowVector deployment _).map some = _
    rw [rowVector_dumps (List.cons_ne_nil () []) (by simp) rfl rfl]
    rfl
  · left
    have hfind : cache.rows.find? (VectorRow.isAt embedder.namespaceName
        (sha256Text deployment.digests "dogs")) = none := by
      show List.find? _ [_] = none
      rw [List.find?_singleton, if_neg]
      rw [VectorRow.isAt, Bool.and_eq_true, beq_iff_eq, beq_iff_eq]
      intro hsame
      exact absurd (hexText_injective hsame.2) (by decide)
    rw [hfind]

/-- No two of these texts share a digest. -/
theorem known_digests : Set.InjOn (sha256Text deployment.digests) known := by
  intro a _ b _ hsame
  exact String.toByteArray_inj.1 (hexText_injective hsame)

theorem documents_known : ∀ text ∈ inputTexts embedder "dogs" documents, text ∈ known := by
  intro text htext
  rcases List.mem_map.1 htext with ⟨input, hinput, rfl⟩
  simp only [documents, List.map_cons, List.map_nil, List.mem_cons, List.not_mem_nil,
    or_false] at hinput
  rcases hinput with rfl | rfl | rfl | rfl
  · exact Or.inr rfl
  · exact Or.inl rfl
  · exact Or.inr rfl
  · exact Or.inl rfl

theorem rank_cached_sample :
    (embedder.rank deployment (some cache) "dogs" documents 2).result =
      (embedder.rank deployment none "dogs" documents 2).result ∧
    ∃ cache', (embedder.rank deployment (some cache) "dogs" documents 2).cache = some cache' ∧
      Agrees deployment embedder (fun _ => [()]) known cache' := by
  obtain ⟨hresult, -, cache', hcache, -, -, hagrees⟩ :=
    rank_cached steady agrees "dogs" documents documents_known 2
  exact ⟨hresult, cache', hcache, hagrees known_digests⟩

end CachedRequest

end MemoryCore
