import MiniCodeAgent.MemoryOperations
import MiniCodeAgent.MemoryRetrieval

/-!
# Memory search

`SQLiteMemoryStore.search`, with `_search_rows` and `_signed_text_matches_query`. The
index, or `LIKE` where there is none, gives the rows in order, the query takes so many of
them, and only then is each authenticated, compared with the query and asked for its
status. What the index matches and how it ranks is taken from outside.
-/

namespace MiniCodeAgent

namespace MemoryStore

variable {F : Type} [Json.PyFloat F]

def maxQueryLength : Nat := 2000

/-- `memory_fts MATCH expression ORDER BY rank`: rows of the table, none of them twice,
each with minus its rank. -/
structure FullTextIndex (F : Type) where
  ranked : String → List FtsRow → List (FtsRow × F)
  ranked_subperm : ∀ expression rows, ((ranked expression rows).map Prod.fst).Subperm rows

/-- What a search takes from outside: the characters `\w` stands for, `casefold` and the
index. -/
structure SearchHost (F : Type) where
  isWord : Char → Bool
  casefold : String → String
  index : FullTextIndex F

structure MemorySearchResult (F : Type) where
  id : String
  kind : String
  scope : String
  abstraction : String
  origin : String
  authority : String
  confidence : F
  importance : F
  status : String
  score : F

/-! ## Candidates -/

/-- `re.findall(r"\w+", text)`. -/
def SearchHost.words (host : SearchHost F) (text : String) : List String :=
  findRuns host.isWord host.isWord [] text.toList

/-- A phrase for each word, any of which matches. -/
def matchExpression (tokens : List String) : String :=
  " OR ".intercalate (tokens.map fun item =>
    "\"" ++ String.ofList (item.toList.filter (· ≠ '"')) ++ "\"")

/-- `text LIKE pattern ESCAPE '\'`, which folds the case of ASCII letters. -/
def like : List Char → List Char → Bool
  | [], text => text.isEmpty
  | '%' :: pattern, [] => like pattern []
  | '%' :: pattern, c :: text => like pattern (c :: text) || like ('%' :: pattern) text
  | '_' :: pattern, text =>
    match text with
    | [] => false
    | _ :: text => like pattern text
  | '\\' :: pattern, text =>
    match pattern, text with
    | escaped :: pattern, c :: text => escaped.toLower = c.toLower && like pattern text
    | _, _ => false
  | p :: pattern, text =>
    match text with
    | [] => false
    | c :: text => p.toLower = c.toLower && like pattern text
termination_by pattern text => (pattern.length, text.length)

/-- `"%" + token + "%"`, in which nothing of the token stands for anything else. -/
def likePattern (token : String) : List Char :=
  '%' :: token.toList.flatMap (fun c => if c = '%' ∨ c = '_' then ['\\', c] else [c]) ++ ['%']

/-- `importance DESC, recorded_at_ns DESC`. -/
def byImportance (a b : CardRow F) : Prop :=
  Json.PyFloat.val b.importance < Json.PyFloat.val a.importance ∨
    Json.PyFloat.val b.importance = Json.PyFloat.val a.importance ∧
      b.recordedAtNs ≤ a.recordedAtNs

instance : DecidableRel (byImportance (F := F)) := fun _ _ => inferInstanceAs (Decidable (_ ∨ _))

/-- The cards that hold one of the words, where there is no index. -/
def likeRows (host : SearchHost F) (query : String) (db : Database F) :
    List (CardRow F × F) :=
  let words := (host.words query).take 32
  let patterns := (if words = [] then [query] else words).map likePattern
  let rows := db.cards.filter fun row => patterns.any fun pattern =>
    like pattern row.abstraction.toList || like pattern row.cueAnchorsJson.toList
  (rows.insertionSort byImportance).map fun row => (row, row.importance)

/-- `memory_fts JOIN cards ON c.id = memory_fts.card_id`. -/
def indexRows (host : SearchHost F) (expression : String) (db : Database F) :
    List (CardRow F × F) :=
  (host.index.ranked expression db.memoryFts).flatMap fun indexed =>
    (db.cards.filter fun row => row.id = indexed.1.cardId).map fun row => (row, indexed.2)

variable (env : MemoryEnv F) (host : SearchHost F)

/-- The rows the query finds, all of them and in its order. -/
def matchedRows (query : String) (db : Database F) : Except PyExc (List (CardRow F × F)) := do
  let ftsEnabled ← getMeta env "fts_enabled" db
  let expression := matchExpression (host.words query)
  if ftsEnabled = some "1" ∧ expression ≠ "" then return indexRows host expression db
  else return likeRows host query db

/-- `_search_rows`: of the rows it finds, the query takes the first. -/
def searchRows (query : String) (candidateLimit : Int) (db : Database F) :
    Except PyExc (List (CardRow F × F)) := do
  let rows ← matchedRows env host query db
  return rows.take candidateLimit.toNat

/-! ## Searching -/

/-- `_signed_text_matches_query`. -/
def signedTextMatchesQuery (row : CardRow F) (query : String) : Except PyExc Bool := do
  let tokens := (host.words query).map host.casefold
  let parsed ← loadsText row.cueAnchorsJson
  let cues ← pyList (F := F) parsed
  let anchors ← cues.mapM anchorText
  let signedText := host.casefold (" ".intercalate (row.abstraction :: anchors))
  return tokens.isEmpty || tokens.any fun token => pyContains token signedText

def searchResult (row : CardRow F) (status : String) (score : F) : MemorySearchResult F where
  id := row.id
  kind := row.kind
  scope := row.scope
  abstraction := row.abstraction
  origin := row.origin
  authority := row.authority
  confidence := row.confidence
  importance := row.importance
  status := status
  score := score

/-- The loop over the rows, which ends when there are results enough. -/
def collectResults (query : String) (limit : Int) (includeInactive : Bool) (db : Database F) :
    List (CardRow F × F) → List (MemorySearchResult F) →
      Except PyExc (List (MemorySearchResult F))
  | [], results => .ok results
  | (row, score) :: rows, results => do
    verifyCard env row
    let passes ← signedTextMatchesQuery host row query
    if passes = false then collectResults query limit includeInactive db rows results
    else do
      let status ← currentStatus env row.id db
      if includeInactive = false ∧ status ≠ "active" then
        collectResults query limit includeInactive db rows results
      else
        let results := results ++ [searchResult row status score]
        if (results.length : Int) ≥ limit then .ok results
        else collectResults query limit includeInactive db rows results

def search (query : String) (limit : Int) (includeInactive : Bool) (db : Database F) :
    Except PyExc (List (MemorySearchResult F)) := do
  let query := pyStrip query
  raiseIf (query = "" ∨ query.length > maxQueryLength)
    (valueError "memory query must be non-empty and at most 2000 characters")
  raiseIf (limit < 1 ∨ limit > 100) (valueError "memory search limit must be between 1 and 100")
  connect db
  let rows ← searchRows env host query (max (limit * 5) limit) db
  collectResults env host query limit includeInactive db rows []

end MemoryStore

end MiniCodeAgent
