import MiniCodeAgent.Proofs.RepairCapacity
import MiniCodeAgent.Proofs.RetrievalFilter

/-!
# The narrowed query is the full scan

`list_cards` may be given the scopes of a query, and its SQL then selects what
`_scope_matches` accepts: the cards it returns are the accepted cards of the full
scan, in the same order. What a retrieval decides is decided from those alone; of
the others it counts how many there were.
-/

namespace MiniCodeAgent

variable {F : Type} [Json.PyFloat F]

/-! ## The listing -/

/-- A loop that returned lists for all elements returns them for some of them. -/
theorem except_mapM_filter {ε α β : Type} {f g : α → Except ε (List β)} {p : α → Bool}
    {q : β → Bool} {xs : List α} {found : List (List β)} (h : xs.mapM f = .ok found)
    (hf : ∀ x ∈ xs, ∀ ys, f x = .ok ys → (∀ y ∈ ys, q y = p x) ∧ (p x = true → g x = .ok ys)) :
    ∃ found', (xs.filter p).mapM g = .ok found' ∧ found'.flatten = found.flatten.filter q := by
  induction xs generalizing found with
  | nil =>
      cases h
      exact ⟨[], rfl, rfl⟩
  | cons x xs ih =>
      rw [List.mapM_cons] at h
      obtain ⟨ys, hys, h⟩ := except_bind_ok.1 h
      obtain ⟨rest, hrest, h⟩ := except_bind_ok.1 h
      cases h
      obtain ⟨found', hfound', hflat⟩ :=
        ih hrest fun x' hx' => hf x' (List.mem_cons_of_mem _ hx')
      obtain ⟨hq, hg⟩ := hf x List.mem_cons_self ys hys
      by_cases hp : p x = true
      · refine ⟨ys :: found', ?_, ?_⟩
        · rw [List.filter_cons_of_pos hp, List.mapM_cons, hg hp, except_ok_bind, hfound']
          rfl
        · have hall : ys.filter q = ys := List.filter_eq_self.2 fun y hy => (hq y hy).trans hp
          rw [List.flatten_cons, List.flatten_cons, List.filter_append, hall, hflat]
      · refine ⟨found', ?_, ?_⟩
        · rw [List.filter_cons_of_neg hp, hfound']
        · have hnone : ys.filter q = [] := by
            rw [List.filter_eq_nil_iff]
            intro y hy hyes
            exact hp ((hq y hy).symm.trans hyes)
          rw [List.flatten_cons, List.filter_append, hnone, List.nil_append, hflat]

namespace MemoryStore

/-- What a hint lets through, of the cards. -/
def cardInScope (scopePairs : Option (List (String × String))) (includeGlobal : Bool)
    (card : MemoryCard F) : Bool :=
  match scopePairs with
  | none => true
  | some pairs => (includeGlobal && card.scope = "global") ||
    pairs.any fun pair => card.scope = pair.1 && card.scopeKey = pair.2

theorem cardInScope_eq {row : CardRow F} {status : String} {card : MemoryCard F}
    (h : cardFromRow row status = .ok card) (scopePairs : Option (List (String × String)))
    (includeGlobal : Bool) :
    cardInScope scopePairs includeGlobal card = inScope scopePairs includeGlobal row := by
  obtain ⟨-, -, -, hscope, hkey, -, -⟩ := cardFromRow_ok h
  cases scopePairs with
  | none => rfl
  | some pairs => simp only [cardInScope, inScope, hscope, hkey]

/-- Every card is authenticated, and so is its latest state event: the scan of them all
returns. -/
def Scanned (env : MemoryEnv F) (db : Database F) (cards : List (MemoryCard F)) : Prop :=
  listCards env true none true db = .ok cards

/-- Of an authentic store, a hint selects cards of the full scan. -/
theorem listCards_narrowed {env : MemoryEnv F} {db : Database F} {cards : List (MemoryCard F)}
    (h : Scanned env db cards) (scopePairs : Option (List (String × String)))
    (includeGlobal : Bool) :
    listCards env true scopePairs includeGlobal db =
      .ok (cards.filter (cardInScope scopePairs includeGlobal)) := by
  unfold Scanned listCards at h
  obtain ⟨_, hconnect, h⟩ := except_bind_ok.1 h
  obtain ⟨statuses, hstatuses, h⟩ := except_bind_ok.1 h
  obtain ⟨found, hfound, h⟩ := except_bind_ok.1 h
  cases h
  have hall : (db.cards.filter fun row => inScope none true row) = db.cards :=
    List.filter_eq_self.2 fun row _ => rfl
  rw [hall] at hstatuses hfound
  -- of every card the newest event has been authenticated
  have hnewest : ∀ row ∈ Log.newestFirst CardRow.recordedAtNs db.cards,
      ∃ event, latestEvent row.id db = some event ∧ verifyEvent env event = .ok () := by
    intro row hrow
    obtain ⟨hget, hverified⟩ := latestStatuses_get? hstatuses (List.mem_map_of_mem hrow)
    cases hevent : latestEvent row.id db with
    | some event => exact ⟨event, rfl, hverified event hevent⟩
    | none =>
        obtain ⟨each, -, heach⟩ := except_mapM_mem hfound hrow
        obtain ⟨_, -, heach⟩ := except_bind_ok.1 heach
        rw [hget, hevent] at heach
        cases heach
  have hrows : Log.newestFirst CardRow.recordedAtNs
      (db.cards.filter fun row => inScope scopePairs includeGlobal row) =
      (Log.newestFirst CardRow.recordedAtNs db.cards).filter
        fun row => inScope scopePairs includeGlobal row := (Log.filter_newestFirst _ _).symm
  obtain ⟨statuses', hstatuses', hget'⟩ := @latestStatuses_newest _ _ env
    (((Log.newestFirst CardRow.recordedAtNs db.cards).filter
      fun row => inScope scopePairs includeGlobal row).map CardRow.id) db fun cardId hcardId => by
    obtain ⟨row, hrow, rfl⟩ := List.mem_map.1 hcardId
    exact hnewest row (List.mem_filter.1 hrow).1
  obtain ⟨found', hfound', hflat⟩ := except_mapM_filter
    (g := MemoryAdmission.listedRow env true statuses')
    (p := fun row => inScope scopePairs includeGlobal row)
    (q := cardInScope scopePairs includeGlobal) hfound fun row hrow ys hys => by
    obtain ⟨_, hverified, hys⟩ := except_bind_ok.1 hys
    have hget := (latestStatuses_get? hstatuses (List.mem_map_of_mem hrow)).1
    obtain ⟨event, hevent, -⟩ := hnewest row hrow
    rw [hget, hevent] at hys
    simp only [Option.map_some, true_or, if_true] at hys
    obtain ⟨card, hcard, hys⟩ := except_bind_ok.1 hys
    cases hys
    refine ⟨fun y hy => ?_, fun hp => ?_⟩
    · rw [List.mem_singleton.1 hy]
      exact cardInScope_eq hcard scopePairs includeGlobal
    · rw [MemoryAdmission.listedRow, hverified, except_ok_bind,
        hget' row.id (List.mem_map_of_mem (List.mem_filter.2 ⟨hrow, hp⟩)), hevent]
      simp only [Option.map_some, true_or, if_true]
      rw [hcard]
      rfl
  unfold listCards
  rw [hrows]
  refine except_bind_ok.2 ⟨(), hconnect, except_bind_ok.2 ⟨statuses', hstatuses',
    except_bind_ok.2 ⟨found', hfound', ?_⟩⟩⟩
  rw [← hflat]
  rfl

/-- What runs leave is authentic. -/
theorem Healthy.authentic {env : MemoryEnv F} {w : MemoryWorld F} (h : Healthy env w)
    (hinit : w.db.initialized = true) : ∃ cards, Scanned env w.db cards :=
  MemoryAdmission.listCards_returns h hinit true

end MemoryStore

/-! ## The retrieval -/

section Retrieval

variable (env : RetrievalEnv F)

/-- The hint of a query. -/
def scopePairsOf (retriever : Retriever F) (query : MemoryQuery) :
    Option (List (String × String)) :=
  if query.scopes ≠ [] ∨ retriever.policy.requireExplicitScope = true
    then some (query.scopes.map fun scope => (scope.name, scope.key)) else none

omit [Json.PyFloat F] in
/-- The hint lets through what `_scope_matches` accepts. -/
theorem cardInScope_scopePairsOf (retriever : Retriever F) (query : MemoryQuery)
    (card : MemoryCard F) :
    MemoryStore.cardInScope (scopePairsOf retriever query) true card =
      scopeMatches card query retriever.policy := by
  unfold scopePairsOf scopeMatches
  by_cases hhint : query.scopes ≠ [] ∨ retriever.policy.requireExplicitScope = true
  · rw [if_pos hhint, MemoryStore.cardInScope, Bool.true_and, List.any_map]
    by_cases hglobal : card.scope = "global"
    · simp [hglobal]
    · rw [if_neg hglobal, decide_eq_false hglobal, Bool.false_or]
      by_cases hnone : query.scopes = []
      · have hexplicit := hhint.resolve_left fun h => h hnone
        rw [if_pos hnone, hnone, hexplicit]
        rfl
      · rw [if_neg hnone]
        refine congrArg (query.scopes.any ·) (funext fun scope => ?_)
        simp [eq_comm]
  · rw [if_neg hhint]
    rw [not_or, not_not] at hhint
    by_cases hglobal : card.scope = "global"
    · rw [if_pos hglobal]
      rfl
    · rw [if_neg hglobal, if_pos hhint.1, Bool.eq_false_of_not_eq_true hhint.2]
      rfl

/-- `retrieve`, from the candidates on: of the cards there were it knows the number. -/
def retrieveAmong (retriever : Retriever F) (db : MemoryStore.Database F) (query : MemoryQuery)
    (moment : Int) (considered : Nat) (candidates : List (MemoryCard F)) :
    Except PyExc (MemoryContextPack F) := do
  let eligible ← candidates.filterM (isEligible env moment)
  let ranked ← rank env retriever db query eligible
  let excluded := candidates.filter fun card => card.id ∉ eligible.map (·.id)
  let excludedSimilarities ← excluded.mapM (directSimilarity env query)
  let activeSimilarities ← eligible.mapM (directSimilarity env query)
  let excludedSimilarity := floatMaxOf (env.floats.lit 0) excludedSimilarities
  let activeSimilarity := floatMaxOf (env.floats.lit 0) activeSimilarities
  if excludedWins env retriever excluded excludedSimilarity activeSimilarity then
    return noMemory retriever query "best_candidate_inactive_or_invalid" considered
      eligible.length excludedSimilarity (env.floats.sub excludedSimilarity activeSimilarity)
  else
    match ranked with
    | [] =>
      return noMemory retriever query "no_relevant_candidate" considered eligible.length
        (env.floats.lit 0) (env.floats.lit 0)
    | top :: others =>
      selectItems env retriever db query considered eligible.length top others

/-- `retrieve`, from the cards on. -/
def retrieveFrom (retriever : Retriever F) (db : MemoryStore.Database F) (query : MemoryQuery)
    (allCards : List (MemoryCard F)) : Except PyExc (MemoryContextPack F) := do
  let moment ← parseTime env query.asOf
  let candidates ← allCards.filterM (isCandidate env retriever db query)
  retrieveAmong env retriever db query moment allCards.length candidates

theorem retrieve_eq (retriever : Retriever F) (db : MemoryStore.Database F) (query : MemoryQuery) :
    retrieve env retriever db query = (do
      validateQuery query
      let allCards ← MemoryStore.listCards env.store true (scopePairsOf retriever query) true db
      retrieveFrom env retriever db query allCards) := rfl

/-- A pack, less the number of cards that were considered. -/
def MemoryContextPack.uncounted (pack : MemoryContextPack F) : MemoryContextPack F :=
  { pack with decision := { pack.decision with considered := 0 } }

variable {env}

/-- A filter that rejects what another rejects takes as much of what the other leaves. -/
theorem except_filterM_filter {ε α : Type} {p : α → Except ε Bool} {q : α → Bool} (xs : List α)
    (hq : ∀ x, q x = false → p x = .ok false) : (xs.filter q).filterM p = xs.filterM p := by
  have hloop : ∀ (xs acc : List α), (xs.filter q).filterAuxM p acc = xs.filterAuxM p acc := by
    intro xs
    induction xs with
    | nil => exact fun _ => rfl
    | cons x xs ih =>
        intro acc
        by_cases hx : q x = true
        · rw [List.filter_cons_of_pos hx, List.filterAuxM, List.filterAuxM]
          cases p x with
          | error exc => rfl
          | ok taken => exact ih _
        · rw [List.filter_cons_of_neg hx, List.filterAuxM, hq x (Bool.eq_false_of_not_eq_true hx)]
          exact ih acc
  show (xs.filter q).filterAuxM p [] >>= _ = xs.filterAuxM p [] >>= _
  rw [hloop]

theorem isCandidate_scope {retriever : Retriever F} {db : MemoryStore.Database F}
    {query : MemoryQuery} {card : MemoryCard F}
    (h : scopeMatches card query retriever.policy = false) :
    isCandidate env retriever db query card = .ok false := by
  unfold isCandidate
  by_cases hconfidence :
      Json.PyFloat.val card.confidence < Json.PyFloat.val retriever.policy.minConfidence
  · rw [if_pos hconfidence]
  · rw [if_neg hconfidence, if_pos h]

theorem selectItems_uncounted (retriever : Retriever F) (db : MemoryStore.Database F)
    (query : MemoryQuery) (considered considered' eligible : Nat) (top : RankedCard F)
    (others : List (RankedCard F)) :
    (selectItems env retriever db query considered eligible top others).map
        MemoryContextPack.uncounted =
      (selectItems env retriever db query considered' eligible top others).map
        MemoryContextPack.uncounted := by
  unfold selectItems
  dsimp only
  split
  · rfl
  · split
    · rfl
    · generalize List.mapM (contextItem env db) _ = items
      cases items <;> rfl

/-- How many cards were considered decides nothing. -/
theorem retrieveAmong_uncounted (retriever : Retriever F) (db : MemoryStore.Database F)
    (query : MemoryQuery) (moment : Int) (considered considered' : Nat)
    (candidates : List (MemoryCard F)) :
    (retrieveAmong env retriever db query moment considered candidates).map
        MemoryContextPack.uncounted =
      (retrieveAmong env retriever db query moment considered' candidates).map
        MemoryContextPack.uncounted := by
  unfold retrieveAmong
  cases candidates.filterM (isEligible env moment) with
  | error exc => rfl
  | ok eligible =>
  rw [except_ok_bind, except_ok_bind]
  cases rank env retriever db query eligible with
  | error exc => rfl
  | ok ranked =>
  rw [except_ok_bind, except_ok_bind]
  dsimp only
  cases List.mapM (directSimilarity env query)
      (candidates.filter fun card => card.id ∉ eligible.map (·.id)) with
  | error exc => rfl
  | ok excludedSimilarities =>
  rw [except_ok_bind, except_ok_bind]
  cases eligible.mapM (directSimilarity env query) with
  | error exc => rfl
  | ok activeSimilarities =>
  rw [except_ok_bind, except_ok_bind]
  split
  · rfl
  · cases ranked with
    | nil => rfl
    | cons top others => exact selectItems_uncounted retriever db query _ _ _ top others

/-- Of an authentic store, a retrieval is the one from the cards of the full scan that
`_scope_matches` accepts, and from all of them it differs in the number considered only. -/
theorem retrieve_fullScan {db : MemoryStore.Database F} {cards : List (MemoryCard F)}
    (h : MemoryStore.Scanned env.store db cards) (retriever : Retriever F)
    (query : MemoryQuery) :
    retrieve env retriever db query = (do
      validateQuery query
      retrieveFrom env retriever db query
        (cards.filter fun card => scopeMatches card query retriever.policy)) ∧
    (retrieve env retriever db query).map MemoryContextPack.uncounted = (do
      validateQuery query
      retrieveFrom env retriever db query cards : Except PyExc _).map
        MemoryContextPack.uncounted := by
  have hscope : MemoryStore.cardInScope (scopePairsOf retriever query) true =
      fun card : MemoryCard F => scopeMatches card query retriever.policy :=
    funext fun card => cardInScope_scopePairsOf retriever query card
  have hnarrowed : retrieve env retriever db query = (do
      validateQuery query
      retrieveFrom env retriever db query
        (cards.filter fun card => scopeMatches card query retriever.policy)) := by
    rw [retrieve_eq, MemoryStore.listCards_narrowed h, hscope]
    rfl
  refine ⟨hnarrowed, ?_⟩
  rw [hnarrowed]
  cases validateQuery query with
  | error exc => rfl
  | ok u =>
  rw [except_ok_bind, except_ok_bind]
  unfold retrieveFrom
  cases parseTime env query.asOf with
  | error exc => rfl
  | ok moment =>
  rw [except_ok_bind, except_ok_bind,
    except_filterM_filter cards fun card hcard => isCandidate_scope hcard]
  cases cards.filterM (isCandidate env retriever db query) with
  | error exc => rfl
  | ok candidates => exact retrieveAmong_uncounted retriever db query moment _ _ candidates

end Retrieval

/-! ## A card beside one of another scope -/

namespace NarrowedSample

open MemoryStore RetrievalSample

def projectCard : CardRow Unit :=
  newCardRow deployment.store "c1"
    { setting "emacs" "editor" "inform" none with scope := "project", scopeKey := "p" } 8

def twoScopes : Database Unit :=
  { db with
    cards := [card, projectCard]
    cardEvents := db.cardEvents ++ [⟨"e1", "c1", "active", none, 9, "00"⟩] }

theorem authentic : ∃ cards, Scanned deployment.store twoScopes cards ∧
    cards.map (·.scope) = ["project", "user"] := by
  have hlisted : (listCards deployment.store true none true twoScopes).toOption.map
      (fun cards => cards.map (·.scope)) = some ["project", "user"] := by decide +kernel
  obtain ⟨cards, hcards, hscopes⟩ := Option.map_eq_some_iff.1 hlisted
  exact ⟨cards, except_ok_of_toOption hcards, hscopes⟩

end NarrowedSample

open NarrowedSample RetrievalSample in
theorem retrieve_fullScan_sample : ∃ cards,
    MemoryStore.Scanned deployment.store twoScopes cards ∧
    cards.map (·.scope) = ["project", "user"] ∧
    retrieve deployment retriever twoScopes query = (do
      validateQuery query
      retrieveFrom deployment retriever twoScopes query
        (cards.filter fun card => scopeMatches card query retriever.policy)) := by
  obtain ⟨cards, hcards, hscopes⟩ := authentic
  exact ⟨cards, hcards, hscopes, (retrieve_fullScan hcards retriever query).1⟩

end MiniCodeAgent
