import MiniCodeAgent.MemoryRetrieval
import MiniCodeAgent.PrivateFiles
import MiniCodeAgent.SillyTavern

/-!
# Embeddings

`memory_core/semantic.py`: documents are ranked by the similarity of their vectors
to the query's. A client maps texts to vectors; a cache in a private file keeps
those it has answered before, under the digests of the texts.

The floats of `Json.PyFloat` are finite, so a number that may be none of them is an
`Option`. The similarity of two vectors is a function of them.
-/

namespace MemoryCore

open MiniCodeAgent

variable {F : Type} [Json.PyFloat F]

/-- What the embeddings take from outside. -/
structure EmbeddingEnv (F : Type) where
  digests : Digests
  /-- `float(item)`, of an item JSON has. -/
  toFloat : Json F → Except PyExc (Option F)
  toFloat_float : ∀ f, toFloat (.float f) = .ok (some f)
  /-- `_cosine`. -/
  cosine : List F → List F → F

variable (env : EmbeddingEnv F)

/-- `_validate_vector`, of floats. -/
def validateVector (vector : List (Option F)) : Except PyExc (List F) := do
  raiseIf (vector = [] ∨ vector.length > 65536)
    (valueError "embedding vector dimensions are invalid")
  raiseIf (vector.any Option.isNone) (valueError "embedding vector contains a non-finite value")
  return vector.reduceOption

/-! ## The cache -/

/-- A row of `vectors`. -/
structure VectorRow where
  namespaceName : String
  textSha256 : String
  dimensions : Nat
  vectorJson : String
  deriving DecidableEq

/-- What stands at the cache's path. -/
structure CacheFile where
  metadata : PrivateFiles.Metadata
  /-- A link leads to a file. -/
  leadsToFile : Bool
  /-- The table, if there is one. -/
  vectors : Option (List VectorRow)
  deriving DecidableEq

/-- `SQLiteEmbeddingCache`, as its operations find the file system. -/
structure EmbeddingCache where
  /-- What preparing the directory comes to. -/
  parent : Except PyExc Unit
  file : Option CacheFile

/-- `path.is_file()`. -/
def CacheFile.isFile (file : CacheFile) : Bool :=
  match file.metadata.kind with
  | .regular => true
  | .directory => false
  | .symlink => file.leadsToFile

/-- `_check_file`. -/
def CacheFile.check (file : CacheFile) : Except PyExc Unit := do
  raiseIf (file.metadata.kind ≠ .regular)
    (PrivateFiles.permissionError "embedding cache must be a regular file")
  raiseIf (file.metadata.owned = false)
    (PrivateFiles.permissionError "embedding cache is not owned by this user")
  raiseIf (file.metadata.mode &&& 0o077 ≠ 0)
    (PrivateFiles.permissionError "embedding cache permissions are too broad")

def VectorRow.isAt (namespaceName textSha256 : String) (row : VectorRow) : Bool :=
  row.namespaceName == namespaceName && row.textSha256 == textSha256

/-- What iterating over a value of JSON gives. -/
def jsonItems : Json F → Except PyExc (List (Json F))
  | .arr xs => .ok xs
  | .str text => .ok (text.toList.map fun c => .str (String.singleton c))
  | .obj kvs => .ok ((Dict.keys kvs).map .str)
  | _ => .error (typeError "object is not iterable")

/-- The vector of a row. -/
def rowVector (row : VectorRow) : Except PyExc (List F) :=
  match (Json.loads row.vectorJson : Option (Json F)) with
  | none => .error (valueError "invalid JSON")
  | some value => do
    let items ← jsonItems value
    let floats ← items.mapM env.toFloat
    let vector ← validateVector floats
    raiseIf (vector.length ≠ row.dimensions)
      (valueError "cached embedding dimensions do not match")
    return vector

/-- `SQLiteEmbeddingCache.get`. -/
def EmbeddingCache.get (cache : EmbeddingCache) (namespaceName textSha256 : String) :
    Except PyExc (Option (List F)) :=
  match cache.file with
  | none => .ok none
  | some file =>
    if file.isFile = false then .ok none
    else do
      file.check
      match (file.vectors.getD []).find? (VectorRow.isAt namespaceName textSha256) with
      | none => return none
      | some row => do
        let vector ← rowVector env row
        return some vector

/-- The file `_ensure_private_file` leaves. -/
def EmbeddingCache.ensureFile (cache : EmbeddingCache) : Except PyExc CacheFile :=
  match cache.file with
  | none => .ok ⟨⟨.regular, true, 0o600⟩, true, none⟩
  | some file => do
    file.check
    return file

/-- `SQLiteEmbeddingCache.put`. -/
def EmbeddingCache.put (cache : EmbeddingCache) (namespaceName textSha256 : String)
    (vector : List F) : Except PyExc EmbeddingCache := do
  let values ← validateVector (vector.map some)
  raiseIf (∃ file ∈ cache.file, file.metadata.kind = .symlink)
    (PrivateFiles.permissionError "embedding cache must not be a symbolic link")
  cache.parent
  let file ← cache.ensureFile
  let others := (file.vectors.getD []).filter fun row => !row.isAt namespaceName textSha256
  return { cache with
    file := some { file with
      vectors := some (others ++ [{
        namespaceName := namespaceName
        textSha256 := textSha256
        dimensions := values.length
        vectorJson := Json.dumps .compact (.arr (values.map .float)) }]) } }

/-! ## The provider -/

/-- `EmbeddingCandidateProvider`, less its cache, with what the constructor checks. -/
structure EmbeddingCandidateProvider (F : Type) [Json.PyFloat F] where
  /-- `client.embed`. -/
  embed : List String → Except PyExc (List (List (Option F)))
  namespaceName : String
  minSimilarity : F
  maxInputChars : Nat
  failOpen : Bool
  namespace_ok : pyStrip namespaceName ≠ ""
  similarity_ok : -1 ≤ Json.PyFloat.val minSimilarity ∧ Json.PyFloat.val minSimilarity ≤ 1
  budget_ok : 100 ≤ maxInputChars

variable (provider : EmbeddingCandidateProvider F)

/-- A text that has no vector yet. -/
structure MissingText where
  index : Nat
  digest : String
  text : String
  deriving DecidableEq

/-- The texts of a request: the query's, then the documents'. -/
def inputTexts (query : String) (documents : List SemanticDocument) : List String :=
  (query :: documents.map (·.text)).map fun text =>
    String.ofList (text.toList.take provider.maxInputChars)

/-- `self.cache.get(self.namespace, digest) if self.cache else None`. -/
def cachedVector (cache : Option EmbeddingCache) (digest : String) :
    Except PyExc (Option (List F)) :=
  match cache with
  | none => .ok none
  | some cache => cache.get env provider.namespaceName digest

/-- The vectors the cache holds, and the texts it lacks. -/
def cachedVectors (cache : Option EmbeddingCache) (texts : List String) :
    Except PyExc (List (Option (List F)) × List MissingText) :=
  texts.zipIdx.foldlM (fun progress item => do
    let digest := sha256Text env.digests item.1
    let cached ← cachedVector env provider cache digest
    return (progress.1 ++ [cached],
      if cached = none then progress.2 ++ [⟨item.2, digest, item.1⟩] else progress.2)) ([], [])

/-- The loop over what the client generated; the cache keeps what it was given, also where
a later vector is refused. -/
def mergeVectors : List (MissingText × List (Option F)) → List (Option (List F)) →
    Option EmbeddingCache → Except PyExc (List (Option (List F))) × Option EmbeddingCache
  | [], vectors, cache => (.ok vectors, cache)
  | (missing, raw) :: rest, vectors, cache =>
    match validateVector raw with
    | .error exc => (.error exc, cache)
    | .ok vector =>
      match cache with
      | none => mergeVectors rest (vectors.set missing.index (some vector)) none
      | some held =>
        match held.put provider.namespaceName missing.digest vector with
        | .error exc => (.error exc, some held)
        | .ok held => mergeVectors rest (vectors.set missing.index (some vector)) (some held)

/-- The vectors of all texts. -/
def resolveVectors (cache : Option EmbeddingCache) (texts : List String) :
    Except PyExc (List (Option (List F))) × Option EmbeddingCache :=
  match cachedVectors env provider cache texts with
  | .error exc => (.error exc, cache)
  | .ok (vectors, missing) =>
    if missing = [] then (.ok vectors, cache)
    else
      match provider.embed (missing.map (·.text)) with
      | .error exc => (.error exc, cache)
      | .ok generated =>
        if generated.length ≠ missing.length then
          (.error ⟨"RuntimeError", "embedding client returned the wrong vector count", true⟩,
            cache)
        else mergeVectors provider (missing.zip generated) vectors cache

/-- The documents by similarity, as soon as their vectors are there. -/
def rankVectors (documents : List SemanticDocument) (limit : Int)
    (vectors : List (Option (List F))) : Except PyExc (List (String × F)) := do
  let completed := vectors.reduceOption
  raiseIf (completed.length ≠ documents.length + 1)
    ⟨"RuntimeError", "embedding vector resolution was incomplete", true⟩
  let queryVector := completed.headD []
  raiseIf (∃ vector ∈ completed, vector.length ≠ queryVector.length)
    ⟨"RuntimeError", "embedding vector dimensions changed", true⟩
  let ranked := (documents.zip completed.tail).filterMap fun item =>
    let similarity := env.cosine queryVector item.2
    if Json.PyFloat.val provider.minSimilarity ≤ Json.PyFloat.val similarity then
      some (item.1.documentId, similarity)
    else none
  return pyPrefix limit (sortScored ranked)

/-- `_rank`, with the cache it leaves. -/
def rankEmbedded (cache : Option EmbeddingCache) (query : String)
    (documents : List SemanticDocument) (limit : Int) :
    Except PyExc (List (String × F)) × Option EmbeddingCache :=
  if limit < 1 ∨ documents = [] then (.ok [], cache)
  else
    let resolved := resolveVectors env provider cache (inputTexts provider query documents)
    (resolved.1 >>= rankVectors env provider documents limit, resolved.2)

/-- What a call of `rank` leaves. -/
structure RankOutcome (F : Type) where
  result : Except PyExc (List (String × F))
  lastErrorType : String
  cache : Option EmbeddingCache

/-- `EmbeddingCandidateProvider.rank`. -/
def EmbeddingCandidateProvider.rank (cache : Option EmbeddingCache) (query : String)
    (documents : List SemanticDocument) (limit : Int) : RankOutcome F :=
  let ranked := rankEmbedded env provider cache query documents limit
  if provider.failOpen = false then ⟨ranked.1, "", ranked.2⟩
  else
    match ranked.1 with
    | .ok result => ⟨.ok result, "", ranked.2⟩
    | .error exc =>
      if exc.isException then ⟨.ok [], exc.type, ranked.2⟩ else ⟨.error exc, "", ranked.2⟩

end MemoryCore
