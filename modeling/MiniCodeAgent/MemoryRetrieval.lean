import MiniCodeAgent.MemoryOperations
import MiniCodeAgent.Security

/-!
# Retrieval

`memory_retrieval.py`: a query is answered from the store's cards by five routes
(BM25 over the cards' words, a host's semantic ranking, exact cue anchors, shared
words, and the edges between cards), whose rankings are fused into one score. The
cards the routes see have passed the hard filters first.

Three things come from outside. The Unicode tables normalize text and tell word
characters; the semantic provider answers with any ids and any numbers; and the
float operations may round in any way. A Python `set` of texts is read in an
order of its own.
-/

namespace MiniCodeAgent

/-- The float operations of the scores. -/
structure FloatOps (F : Type) where
  /-- A literal, or an integer where a float is due. -/
  lit : Rat → F
  add : F → F → F
  sub : F → F → F
  mul : F → F → F
  div : F → F → F
  sqrt : F → F
  log : F → F
  /-- `round(_, 6)`. -/
  round6 : F → F

structure SemanticDocument where
  documentId : String
  text : String
  deriving DecidableEq

/-- `SemanticCandidateProvider.rank`: ids with scores, a score that is not a
finite number being `none`. -/
abbrev SemanticRank (F : Type) :=
  String → List SemanticDocument → Int → Except PyExc (List (String × Option F))

/-- What a retriever takes from outside. -/
structure RetrievalEnv (F : Type) where
  store : MemoryEnv F
  /-- `unicodedata.normalize("NFKC", _).casefold()`. -/
  nfkcCasefold : String → String
  /-- `\w` in a regular expression. -/
  isWordChar : Char → Bool
  /-- The order in which a `set` of these texts is read. -/
  setOrder : List String → List String
  /-- `datetime.now(timezone.utc)`. -/
  now : Int
  floats : FloatOps F

structure MemoryScope where
  name : String
  key : String
  deriving DecidableEq

structure MemoryQuery where
  text : String
  scopes : List MemoryScope
  asOf : Option String
  requiredAuthority : String
  limit : Int
  deriving DecidableEq

structure ScenarioMemoryPolicy (F : Type) where
  name : String
  minConfidence : F
  minScore : F
  minMargin : F
  maxCandidates : Int
  graphDepth : Int
  requireExplicitScope : Bool
  trustedEvidenceOrigins : List String

structure MemoryContextItem (F : Type) where
  cardId : String
  value : String
  abstraction : String
  kind : String
  subtype : String
  scope : String
  scopeKey : String
  authority : String
  confidence : F
  contentSha256 : String
  score : F
  routes : List String
  evidenceRefs : List String
  deriving DecidableEq

inductive MemoryDecisionKind where
  | useMemory
  | noMemory
  deriving DecidableEq

structure MemoryUseDecision (F : Type) where
  kind : MemoryDecisionKind
  reason : String
  topScore : F
  scoreMargin : F
  considered : Nat
  eligible : Nat
  deriving DecidableEq

structure MemoryContextPack (F : Type) where
  query : MemoryQuery
  policyName : String
  decision : MemoryUseDecision F
  items : List (MemoryContextItem F)
  deriving DecidableEq

structure RankedCard (F : Type) where
  card : MemoryCard F
  score : F
  routes : List String

/-! ## Text -/

/-- `_STOPWORDS`. -/
def stopwords : List String :=
  ["a", "an", "and", "are", "as", "at", "be", "by", "for", "from", "how", "i", "in", "is", "it",
    "of", "on", "or", "the", "to", "what", "when", "where", "which", "with", "了", "什么", "如何",
    "怎么", "我们", "我的", "你的", "他的", "她的", "它的", "当前", "这个", "那个", "需要"]

/-- `" ".join(text.split())`. -/
def joinWords (text : String) : String :=
  " ".intercalate (((text.toList.splitOnP pyIsSpace).filter (· ≠ [])).map String.ofList)

def isTokenStart (c : Char) : Bool := ('a' ≤ c && c ≤ 'z') || c.isDigit
def isTokenRest (c : Char) : Bool := isTokenStart c || "_.:/+-".toList.contains c
def isCjk (c : Char) : Bool := 0x3400 ≤ c.toNat && c.toNat ≤ 0x9FFF

/-- The bigrams of a span, or the span itself if it is one character. -/
def spanTokens (span : String) : List String :=
  match span.toList with
  | [c] => [String.ofList [c]]
  | cs => (cs.zip cs.tail).map fun pair => String.ofList [pair.1, pair.2]

/-- `\bword\b` somewhere in the text, for a `word` of word characters; `inside`
tells whether the character before the text is one. -/
def searchWord (isWordChar : Char → Bool) (word : List Char) : Bool → List Char → Bool
  | _, [] => false
  | inside, c :: cs =>
    (!inside && word.isPrefixOf (c :: cs) &&
      !((((c :: cs).drop word.length).head?.map isWordChar).getD false)) ||
      searchWord isWordChar word (isWordChar c) cs

variable {F : Type}

section Text

variable (env : RetrievalEnv F)

/-- `_normalize`. -/
def normalizeText (text : String) : String := joinWords (env.nfkcCasefold text)

def lexicalTokens (text : String) : List String :=
  let normalized := (normalizeText env text).toList
  let tokens := findRuns isTokenStart isTokenRest [] normalized ++
    (findRuns isCjk isCjk [] normalized).flatMap spanTokens
  tokens.filter (· ∉ stopwords)

def anchorText : Json F → Except PyExc String
  | .str text => .ok text
  | _ => .error (typeError "sequence item: expected str instance")

/-- `_card_text`. -/
def cardText (card : MemoryCard F) : Except PyExc String := do
  let anchors ← card.cueAnchors.mapM anchorText
  return " ".intercalate (card.abstraction :: anchors)

/-- `_query_content`. -/
def queryContent (query : MemoryQuery) : String :=
  joinWords (query.scopes.foldl (fun content scope =>
    let key := normalizeText env scope.key
    if key = "" then content else pyReplace content key " ") (normalizeText env query.text))

/-- The words that ask for what is related. -/
def graphRequested (query : MemoryQuery) : Bool :=
  let text := normalizeText env query.text
  (["result", "reason", "relationship", "related", "evidence"].any fun word =>
      searchWord env.isWordChar word.toList false text.toList) ||
    ["结果", "结论", "原因", "关系", "证据"].any fun word => pyContains word text

end Text

section Retriever

variable [Json.PyFloat F] (env : RetrievalEnv F)

/-! ## Similarity and the filters -/

/-- `max(a, b)`. -/
def floatMax (a b : F) : F := if Json.PyFloat.val a < Json.PyFloat.val b then b else a

/-- `min(a, b)`. -/
def floatMin (a b : F) : F := if Json.PyFloat.val b < Json.PyFloat.val a then b else a

/-- `max(values, default=default)`. -/
def floatMaxOf (default : F) : List F → F
  | [] => default
  | value :: values => values.foldl floatMax value

/-- `math.sqrt` of the sum of the squared counts of these tokens. -/
def tokenNorm (tokens : List String) : F :=
  env.floats.sqrt (env.floats.lit ((tokens.dedup.map fun token =>
    tokens.count token * tokens.count token).sum : Nat))

def matchesAnchor (content anchor : String) : Bool :=
  let normalized := normalizeText env anchor
  2 ≤ normalized.length && (pyContains normalized content || pyContains content normalized)

/-- `_direct_similarity`. -/
def directSimilarity (query : MemoryQuery) (card : MemoryCard F) : Except PyExc F := do
  let content := queryContent env query
  let anchors ← card.cueAnchors.mapM anchorText
  if anchors.any (matchesAnchor env content) then return env.floats.lit 1
  else do
    let text ← cardText card
    let left := lexicalTokens env content
    let right := lexicalTokens env text
    let numerator : Nat := (left.dedup.map fun token => left.count token * right.count token).sum
    let leftNorm := tokenNorm env left
    let rightNorm := tokenNorm env right
    return if Json.PyFloat.val leftNorm ≠ 0 ∧ Json.PyFloat.val rightNorm ≠ 0 then
      env.floats.div (env.floats.lit numerator) (env.floats.mul leftNorm rightNorm)
    else env.floats.lit 0

/-- `_parse_time`. -/
def parseTime (value : Option String) : Except PyExc Int :=
  match value with
  | none => .ok env.now
  | some text =>
    let normalized := if text.toList.getLast? = some 'Z'
      then String.ofList (text.toList.dropLast ++ "+00:00".toList) else text
    match env.store.fromisoformat normalized with
    | none => .error (valueError "Invalid isoformat string")
    | some parsed =>
      if parsed.aware then .ok parsed.moment
      else .error (valueError "memory query as_of must include a UTC offset")

/-- `bound and compare(_parse_time(bound), moment)`; an empty bound is none. -/
def boundHolds (bound : Option String) (compare : Int → Bool) : Except PyExc Bool :=
  if bound = none ∨ bound = some "" then .ok false
  else do
    let parsed ← parseTime env bound
    return compare parsed

/-- `_valid_at`. -/
def validAt (card : MemoryCard F) (moment : Int) : Except PyExc Bool := do
  let early ← boundHolds env card.validFrom fun parsed => moment < parsed
  if early then return false
  else do
    let expired ← boundHolds env card.validTo fun parsed => parsed ≤ moment
    return !expired

/-- `_scope_matches`. -/
def scopeMatches (card : MemoryCard F) (query : MemoryQuery) (policy : ScenarioMemoryPolicy F) :
    Bool :=
  if card.scope = "global" then true
  else if query.scopes = [] then !policy.requireExplicitScope
  else query.scopes.any fun scope => scope.name = card.scope && scope.key = card.scopeKey

/-! ## Rankings -/

/-- `key=lambda item: (-item[1], item[0])`. -/
def scoredBefore (a b : String × F) : Prop :=
  Json.PyFloat.val b.2 < Json.PyFloat.val a.2 ∨
    (Json.PyFloat.val a.2 = Json.PyFloat.val b.2 ∧ a.1 ≤ b.1)

instance scoredBeforeDecidable : DecidableRel (scoredBefore (F := F)) :=
  fun _ _ => inferInstanceAs (Decidable (_ ∨ _))

def sortScored (values : List (String × F)) : List (String × F) := values.insertionSort scoredBefore

/-- The score of one document for the query's terms. -/
def bm25Score (terms : List String) (documents : List (List String)) (averageLength : F)
    (document : List String) : F :=
  let ops := env.floats
  terms.foldl (fun score token =>
    let frequency := document.count token
    if frequency = 0 then score
    else
      let containing := documents.countP (token ∈ ·)
      let inverseFrequency := ops.log (ops.add (ops.lit 1)
        (ops.div (ops.add (ops.lit (documents.length - containing : Int)) (ops.lit (1 / 2)))
          (ops.add (ops.lit containing) (ops.lit (1 / 2)))))
      let denominator := ops.add (ops.lit frequency) (ops.mul (ops.lit (12 / 10))
        (ops.add (ops.sub (ops.lit 1) (ops.lit (3 / 4)))
          (ops.div (ops.mul (ops.lit (3 / 4)) (ops.lit document.length))
            (floatMax averageLength (ops.lit 1)))))
      ops.add score (ops.div (ops.mul (ops.mul inverseFrequency (ops.lit frequency))
        (ops.lit (22 / 10))) denominator)) (ops.lit 0)

/-- `_bm25_ranking`. -/
def bm25Ranking (queryTokens : List String) (cards : List (MemoryCard F)) :
    Except PyExc (List (String × F)) :=
  if queryTokens = [] ∨ cards = [] then .ok []
  else do
    let texts ← cards.mapM cardText
    let documents := texts.map (lexicalTokens env)
    let averageLength := env.floats.div (env.floats.lit (documents.map List.length).sum)
      (env.floats.lit documents.length)
    let terms := env.setOrder queryTokens.dedup
    let scored := cards.zipWith (fun card document =>
      (card.id, bm25Score env terms documents averageLength document)) documents
    return sortScored (scored.filter fun value => 0 < Json.PyFloat.val value.2)

/-- The rankings so far, and what each says of a card. -/
structure Routes (F : Type) where
  rankings : Dict (List String)
  strengths : Dict (Dict F)

def Routes.addStrength (routes : Routes F) (name : String) (value : String × F) : Routes F :=
  { routes with strengths :=
      routes.strengths.set value.1 (((routes.strengths.get? value.1).getD []).set name value.2) }

/-- `routes[name] = [...]` and the strengths, if there is anything. -/
def Routes.addRanking (routes : Routes F) (name : String) (values : List (String × F)) : Routes F :=
  if values = [] then routes
  else values.foldl (fun routes value => routes.addStrength name value)
    { routes with rankings := routes.rankings.set name (values.map Prod.fst) }

/-- The BM25 scores as parts of the best one. -/
def lexicalValues (bm25 : List (String × F)) : List (String × F) :=
  match bm25 with
  | [] => []
  | best :: _ => bm25.map fun value => (value.1, env.floats.div value.2 best.2)

/-- What is kept of a semantic provider's answer. -/
def semanticValues (byId : Dict (MemoryCard F)) (semantic : List (String × Option F)) :
    List (String × F) :=
  sortScored (semantic.filterMap fun candidate =>
    candidate.2.bind fun score =>
      if (byId.get? candidate.1).isSome ∧ 0 < Json.PyFloat.val score ∧ Json.PyFloat.val score ≤ 1
      then some (candidate.1, score) else none)

/-- The best share of the query an anchor of the card makes up, if one matches. -/
def exactValue (queryNormalized : String) (card : MemoryCard F) :
    Except PyExc (Option (String × F)) := do
  let anchors ← card.cueAnchors.mapM anchorText
  let matched := (anchors.map (normalizeText env)).filter fun anchor =>
    2 ≤ anchor.length && anchor ∉ stopwords &&
      (pyContains anchor queryNormalized || pyContains queryNormalized anchor)
  let shares := matched.map fun anchor => floatMin (env.floats.div (env.floats.lit anchor.length)
    (env.floats.lit (max queryNormalized.length 1))) (env.floats.lit 1)
  return if matched = [] then none else some (card.id, floatMaxOf (env.floats.lit 0) shares)

/-- The share of the query's words the card has, if it has any. -/
def overlapValue (queryTokens : List String) (card : MemoryCard F) :
    Except PyExc (Option (String × F)) := do
  let text ← cardText card
  let shared := queryTokens.dedup.filter (· ∈ lexicalTokens env text)
  let overlap := env.floats.div (env.floats.lit shared.length)
    (env.floats.lit (max queryTokens.dedup.length 1))
  return if Json.PyFloat.val overlap = 0 then none else some (card.id, overlap)

/-! ## Expansion along the edges -/

/-- `relations`: the edges at a card. -/
def MemoryStore.relations (env : MemoryEnv F) (cardId : String) (db : MemoryStore.Database F) :
    Except PyExc (List MemoryEdge) := do
  MemoryStore.connect db
  let _ ← MemoryStore.requireAuthenticatedCard env cardId db
  let rows := (db.edges.filter fun row => row.sourceId = cardId ∨ row.targetId = cardId)
    |>.insertionSort fun a b => a.recordedAtNs ≤ b.recordedAtNs
  rows.mapM fun row => do
    MemoryStore.verifyEdge env row
    return ⟨row.id, row.sourceId, row.targetId, row.relation, row.recordedAtNs⟩

structure Expansion (F : Type) where
  visited : List String
  nextFrontier : List String
  graphSeeds : List String
  graphValues : Dict F

def appendNew (xs : List String) (x : String) : List String := if x ∈ xs then xs else xs ++ [x]

/-- `direct_seeds`: the first three cards of every ranking. -/
def directSeeds (rankings : Dict (List String)) : List String :=
  rankings.foldl (fun seeds ranking => (ranking.2.take 3).foldl appendNew seeds) []

def Expansion.visit (byId : Dict (MemoryCard F)) (depth : Nat) (seedId : String)
    (e : Expansion F) (edge : MemoryEdge) : Expansion F :=
  let neighbor := if edge.sourceId = seedId then edge.targetId else edge.sourceId
  if (byId.get? neighbor).isNone ∨ neighbor ∈ e.visited then e
  else
    let known := (e.graphValues.get? neighbor).getD (env.floats.lit 0)
    { visited := e.visited ++ [neighbor]
      nextFrontier := e.nextFrontier ++ [neighbor]
      graphSeeds := appendNew e.graphSeeds seedId
      graphValues := e.graphValues.set neighbor (floatMax known
        (env.floats.div (env.floats.lit (65 / 100)) (env.floats.lit (depth + 1)))) }

/-- The neighbours of the cards on the frontier, which become the next one. -/
def Expansion.deepen (db : MemoryStore.Database F) (byId : Dict (MemoryCard F))
    (e : Expansion F) (depth : Nat) : Except PyExc (Expansion F) :=
  e.nextFrontier.foldlM (fun e seedId => do
    let edges ← MemoryStore.relations env.store seedId db
    return edges.foldl (Expansion.visit env byId depth seedId) e) { e with nextFrontier := [] }

def expandGraph (db : MemoryStore.Database F) (byId : Dict (MemoryCard F)) (graphDepth : Int)
    (seeds : List String) : Except PyExc (Expansion F) :=
  (List.range graphDepth.toNat).foldlM (Expansion.deepen env db byId)
    { visited := seeds, nextFrontier := seeds, graphSeeds := [], graphValues := [] }

def Routes.addGraph (routes : Routes F) (e : Expansion F) : Routes F :=
  if e.graphValues = [] then routes
  else
    let ranked := sortScored e.graphValues
    let routes := (routes.addRanking "graph" ranked)
    routes.addRanking "graph_seed" (e.graphSeeds.map fun cardId => (cardId, env.floats.lit (1 / 2)))

/-! ## Fusion -/

/-- `xs[:n]`. -/
def pyPrefix {α : Type} (n : Int) (xs : List α) : List α :=
  if 0 ≤ n then xs.take n.toNat else xs.take (xs.length - (-n).toNat)

/-- `reciprocal_scores`. -/
def reciprocalScores (maxCandidates : Int) (rankings : Dict (List String)) : Dict F :=
  rankings.foldl (fun scores ranking =>
    (pyPrefix maxCandidates ranking.2).zipIdx.foldl (fun (scores : Dict F) ranked =>
      scores.set ranked.1 (env.floats.add ((scores.get? ranked.1).getD (env.floats.lit 0))
        (env.floats.div (env.floats.lit 1)
          (env.floats.add (env.floats.lit 60) (env.floats.lit (ranked.2 + 1)))))) scores) []

/-- The score of one card. -/
def fuse (byId : Dict (MemoryCard F)) (strengths : Dict (Dict F)) (maxRrf : F)
    (entry : String × F) : Except PyExc (RankedCard F) :=
  match byId.get? entry.1 with
  | none => .error (keyError entry.1)
  | some card =>
    let ops := env.floats
    let cardStrengths := (strengths.get? entry.1).getD []
    let direct := floatMaxOf (ops.lit 0)
      ((cardStrengths.filter fun strength => strength.1 ≠ "graph").map Prod.snd)
    let graph := (cardStrengths.get? "graph").getD (ops.lit 0)
    let evidence := ops.add (ops.mul (ops.lit (55 / 100)) direct) (ops.mul (ops.lit (1 / 4)) graph)
    let fused := ops.mul (ops.lit (1 / 10)) (ops.div entry.2 maxRrf)
    let quality := ops.add (ops.mul (ops.lit (7 / 100)) card.confidence)
      (ops.mul (ops.lit (3 / 100)) card.importance)
    .ok { card := card
          score := floatMin (ops.lit 1) (ops.add (ops.add evidence fused) quality)
          routes := cardStrengths.keys.insertionSort (· ≤ ·) }

/-- `key=lambda item: (-item.score, item.card.id)`. -/
def rankedBefore (a b : RankedCard F) : Prop :=
  scoredBefore (a.card.id, a.score) (b.card.id, b.score)

instance rankedBeforeDecidable : DecidableRel (rankedBefore (F := F)) :=
  fun _ _ => inferInstanceAs (Decidable (scoredBefore _ _))

/-- `EvidenceTemporalRetriever`, less its store. -/
structure Retriever (F : Type) where
  policy : ScenarioMemoryPolicy F
  semanticProvider : Option (SemanticRank F)

def semanticRanking (retriever : Retriever F) (queryNormalized : String)
    (cards : List (MemoryCard F)) (byId : Dict (MemoryCard F)) : Except PyExc (List (String × F)) :=
  match retriever.semanticProvider with
  | none => .ok []
  | some provider => do
    let documents ← cards.mapM fun card => do
      let text ← cardText card
      return ⟨card.id, text⟩
    let semantic ← provider queryNormalized documents retriever.policy.maxCandidates
    return semanticValues byId semantic

/-- `_rank`. -/
def rank (retriever : Retriever F) (db : MemoryStore.Database F) (query : MemoryQuery)
    (cards : List (MemoryCard F)) : Except PyExc (List (RankedCard F)) :=
  if cards = [] then .ok []
  else do
    let queryNormalized := queryContent env query
    let queryTokens := lexicalTokens env queryNormalized
    let byId := Dict.ofPairs (cards.map fun card => (card.id, card))
    let bm25 ← bm25Ranking env queryTokens cards
    let semantic ← semanticRanking retriever queryNormalized cards byId
    let exact ← cards.mapM (exactValue env queryNormalized)
    let cue ← cards.mapM (overlapValue env queryTokens)
    let routes : Routes F := ⟨[], []⟩
    let routes := routes.addRanking "lexical_bm25" (lexicalValues env bm25)
    let routes := routes.addRanking "semantic" semantic
    let routes := routes.addRanking "exact_anchor" (sortScored exact.reduceOption)
    let routes := routes.addRanking "cue_overlap" (sortScored cue.reduceOption)
    let expansion ← expandGraph env db byId retriever.policy.graphDepth
      (directSeeds routes.rankings)
    let routes := routes.addGraph env expansion
    let scores := reciprocalScores env retriever.policy.maxCandidates routes.rankings
    let maxRrf := floatMaxOf (env.floats.lit 1) (scores.map Prod.snd)
    let ranked ← scores.mapM (fuse env byId routes.strengths maxRrf)
    return ranked.insertionSort rankedBefore

/-! ## Retrieval -/

/-- Whether a card passes the filters on confidence, scope, authority and
evidence. -/
def isCandidate (retriever : Retriever F) (db : MemoryStore.Database F) (query : MemoryQuery)
    (card : MemoryCard F) : Except PyExc Bool :=
  if Json.PyFloat.val card.confidence < Json.PyFloat.val retriever.policy.minConfidence then
    .ok false
  else if scopeMatches card query retriever.policy = false then .ok false
  else do
    let cardRank ← authorityRank card.authority
    let requiredRank ← authorityRank query.requiredAuthority
    if cardRank < requiredRank then return false
    else do
      let sources ← MemoryStore.sources env.store card.id db
      return sources.any fun source => source.origin ∈ retriever.policy.trustedEvidenceOrigins

/-- Whether a candidate is active and valid. -/
def isEligible (moment : Int) (card : MemoryCard F) : Except PyExc Bool :=
  if card.status ≠ "active" then .ok false else validAt env card moment

def noMemory (retriever : Retriever F) (query : MemoryQuery) (reason : String)
    (considered eligible : Nat) (topScore margin : F) : MemoryContextPack F where
  query := query
  policyName := retriever.policy.name
  decision := ⟨.noMemory, reason, topScore, margin, considered, eligible⟩
  items := []

def contextItem (db : MemoryStore.Database F) (ranked : RankedCard F) :
    Except PyExc (MemoryContextItem F) := do
  let sources ← MemoryStore.sources env.store ranked.card.id db
  return {
    cardId := ranked.card.id
    value := ranked.card.value
    abstraction := ranked.card.abstraction
    kind := ranked.card.kind
    subtype := ranked.card.subtype
    scope := ranked.card.scope
    scopeKey := ranked.card.scopeKey
    authority := ranked.card.authority
    confidence := ranked.card.confidence
    contentSha256 := ranked.card.contentSha256
    score := env.floats.round6 ranked.score
    routes := ranked.routes
    evidenceRefs := sources.map (·.sourceRef) }

/-- Whether a ranked card is relevant enough to be selected. -/
def isSelected (hasGraphChain : Bool) (itemFloor : F) (item : RankedCard F) : Bool :=
  if hasGraphChain then
    "graph_seed" ∈ item.routes || ("graph" ∈ item.routes &&
      Json.PyFloat.val (env.floats.lit (1 / 4)) ≤ Json.PyFloat.val item.score)
  else Json.PyFloat.val itemFloor ≤ Json.PyFloat.val item.score

/-- What becomes of the ranked cards: none is good enough, or the best are taken. -/
def selectItems (retriever : Retriever F) (db : MemoryStore.Database F) (query : MemoryQuery)
    (considered eligible : Nat) (top : RankedCard F) (others : List (RankedCard F)) :
    Except PyExc (MemoryContextPack F) :=
  let second := (others.head?.map (·.score)).getD (env.floats.lit 0)
  let margin := env.floats.sub top.score second
  let hasGraphChain := graphRequested env query &&
    (top :: others).any fun item => "graph" ∈ item.routes
  if Json.PyFloat.val top.score < Json.PyFloat.val retriever.policy.minScore then
    .ok (noMemory retriever query "confidence_below_threshold" considered eligible top.score margin)
  else if others ≠ [] ∧ Json.PyFloat.val margin < Json.PyFloat.val retriever.policy.minMargin ∧
      "exact_anchor" ∉ top.routes ∧ hasGraphChain = false then
    .ok (noMemory retriever query "ambiguous_candidates" considered eligible top.score margin)
  else do
    let itemFloor := floatMax (env.floats.lit (1 / 4))
      (env.floats.mul top.score (env.floats.lit (55 / 100)))
    let selected := pyPrefix query.limit
      ((top :: others).filter (isSelected env hasGraphChain itemFloor))
    let items ← selected.mapM (contextItem env db)
    return {
      query := query
      policyName := retriever.policy.name
      decision := ⟨.useMemory, "eligible_high_confidence", top.score, margin, considered, eligible⟩
      items := items }

/-- `best_excluded`, by its similarity, when it outweighs the eligible cards. -/
def excludedWins (retriever : Retriever F) (excluded : List (MemoryCard F))
    (excludedSimilarity activeSimilarity : F) : Bool :=
  !excluded.isEmpty && Json.PyFloat.val (env.floats.lit (35 / 100)) ≤
      Json.PyFloat.val excludedSimilarity &&
    Json.PyFloat.val (env.floats.add activeSimilarity retriever.policy.minMargin) <
      Json.PyFloat.val excludedSimilarity

/-- The checks `retrieve` makes of a query. -/
def validateQuery (query : MemoryQuery) : Except PyExc Unit := do
  raiseIf (pyStrip query.text = "") (valueError "memory query text must not be blank")
  raiseIf (query.limit < 1 ∨ 20 < query.limit)
    (valueError "memory query limit must be between 1 and 20")
  raiseIf (authorityRanks.get? query.requiredAuthority = none)
    (valueError "unsupported required memory authority")

/-- `retrieve`. -/
def retrieve (retriever : Retriever F) (db : MemoryStore.Database F) (query : MemoryQuery) :
    Except PyExc (MemoryContextPack F) := do
  validateQuery query
  let scopePairs := if query.scopes ≠ [] ∨ retriever.policy.requireExplicitScope = true
    then some (query.scopes.map fun scope => (scope.name, scope.key)) else none
  let allCards ← MemoryStore.listCards env.store true scopePairs true db
  let moment ← parseTime env query.asOf
  let candidates ← allCards.filterM (isCandidate env retriever db query)
  let eligible ← candidates.filterM (isEligible env moment)
  let ranked ← rank env retriever db query eligible
  let excluded := candidates.filter fun card => card.id ∉ eligible.map (·.id)
  let excludedSimilarities ← excluded.mapM (directSimilarity env query)
  let activeSimilarities ← eligible.mapM (directSimilarity env query)
  let excludedSimilarity := floatMaxOf (env.floats.lit 0) excludedSimilarities
  let activeSimilarity := floatMaxOf (env.floats.lit 0) activeSimilarities
  if excludedWins env retriever excluded excludedSimilarity activeSimilarity then
    return noMemory retriever query "best_candidate_inactive_or_invalid" allCards.length
      eligible.length excludedSimilarity (env.floats.sub excludedSimilarity activeSimilarity)
  else
    match ranked with
    | [] =>
      return noMemory retriever query "no_relevant_candidate" allCards.length eligible.length
        (env.floats.lit 0) (env.floats.lit 0)
    | top :: others =>
      selectItems env retriever db query allCards.length eligible.length top others

end Retriever

end MiniCodeAgent
