import MiniCodeAgent.MemoryControl
import MiniCodeAgent.Proofs.MemoryStatus

/-!
# What a retrieval lets through

Five routes bring ids into the ranking, two of them with ids from outside: the
semantic provider's and the ends of edges. None of them brings a card. A card is
looked up by its id among those the filters have passed, so the ranking's cards
are the filters' whatever the routes say; and the scores it is built from are
one for each id, so no card is ranked twice. Selection, the controller's too,
only drops and reorders.
-/

namespace MiniCodeAgent

variable {F : Type} [Json.PyFloat F] {env : RetrievalEnv F}

/-! ## Dictionaries -/

theorem Dict.mem_ofPairs {α : Type} {pairs : List (String × α)} {kv : String × α}
    (h : kv ∈ Dict.ofPairs pairs) : kv ∈ pairs := by
  have go : ∀ (pairs : List (String × α)) (d : Dict α),
      kv ∈ pairs.foldl (fun d kv => Dict.set d kv.1 kv.2) d → kv ∈ pairs ∨ kv ∈ d := by
    intro pairs
    induction pairs with
    | nil => exact fun d h => Or.inr h
    | cons first pairs ih =>
        intro d h
        rcases ih _ h with h | h
        · exact Or.inl (List.mem_cons_of_mem _ h)
        · rcases Dict.mem_set h with rfl | h
          · exact Or.inl List.mem_cons_self
          · exact Or.inr h
  exact (go pairs [] h).resolve_right List.not_mem_nil

theorem pyPrefix_sublist {α : Type} (n : Int) (xs : List α) : (pyPrefix n xs).Sublist xs := by
  unfold pyPrefix
  split
  · exact List.take_sublist _ _
  · exact List.take_sublist _ _

theorem length_pyPrefix {α : Type} {n : Int} (hn : 0 ≤ n) (xs : List α) :
    ((pyPrefix n xs).length : Int) ≤ n := by
  rw [pyPrefix, if_pos hn, List.length_take]
  omega

/-! ## The ranking -/

omit [Json.PyFloat F] in
/-- Each id has one score. -/
theorem nodup_reciprocalScores (maxCandidates : Int) (rankings : Dict (List String)) :
    (Dict.keys (reciprocalScores env maxCandidates rankings)).Nodup := by
  refine List.foldlRecOn rankings _ (motive := fun scores : Dict F => (Dict.keys scores).Nodup)
    List.nodup_nil fun scores hscores ranking _ => ?_
  exact List.foldlRecOn _ _ (motive := fun scores : Dict F => (Dict.keys scores).Nodup) hscores
    fun scores hscores ranked _ => Dict.nodup_keys_set hscores _ _

/-- A scored id comes with the card it names. -/
theorem fuse_ok {cards : List (MemoryCard F)} {strengths : Dict (Dict F)} {maxRrf : F}
    {entry : String × F} {ranked : RankedCard F}
    (h : fuse env (Dict.ofPairs (cards.map fun card => (card.id, card))) strengths maxRrf entry =
      .ok ranked) :
    ranked.card ∈ cards ∧ ranked.card.id = entry.1 := by
  unfold fuse at h
  split at h
  · cases h
  · next card hcard =>
      cases h
      obtain ⟨card', hmem, heq⟩ := List.mem_map.1 (Dict.mem_ofPairs (Dict.mem_of_get? hcard))
      obtain ⟨hid, rfl⟩ := Prod.mk.inj heq
      exact ⟨hmem, hid⟩

/-- The ranked cards are among those that were to be ranked, each once. -/
theorem rank_ok {retriever : Retriever F} {db : MemoryStore.Database F} {query : MemoryQuery}
    {cards : List (MemoryCard F)} {ranked : List (RankedCard F)}
    (h : rank env retriever db query cards = .ok ranked) :
    (∀ item ∈ ranked, item.card ∈ cards) ∧ (ranked.map (·.card.id)).Nodup := by
  unfold rank at h
  split at h
  · cases h
    exact ⟨by simp, List.nodup_nil⟩
  · simp only [except_bind_ok] at h
    obtain ⟨bm25, -, semantic, -, exact, -, cue, -, expansion, -, unsorted, hfuse, h⟩ := h
    cases h
    constructor
    · intro item hitem
      obtain ⟨entry, -, hentry⟩ := except_mapM_mem_result hfuse ((List.mem_insertionSort _).1 hitem)
      exact (fuse_ok hentry).1
    · have hids : (unsorted.map fun item => item.card.id) = _ :=
        except_mapM_map hfuse fun entry item hitem => (fuse_ok hitem).2
      have hperm := (List.perm_insertionSort rankedBefore unsorted).map fun item => item.card.id
      rw [hperm.nodup_iff, hids]
      exact nodup_reciprocalScores _ _

/-! ## The filters -/

open MemoryStore in
/-- A card as its row has it, with the status of its newest event, both of them
authenticated. -/
def Stored (env : MemoryEnv F) (db : Database F) (card : MemoryCard F) : Prop :=
  ∃ row ∈ db.cards, verifyCard env row = .ok () ∧ cardFromRow row card.status = .ok card ∧
    ∃ event, latestEvent card.id db = some event ∧ verifyEvent env event = .ok () ∧
      event.eventType = card.status

open MemoryStore in
theorem listCards_stored {env : MemoryEnv F} {pairs : Option (List (String × String))}
    {db : Database F} {cards : List (MemoryCard F)}
    (h : listCards env true pairs true db = .ok cards) {card : MemoryCard F}
    (hcard : card ∈ cards) : Stored env db card := by
  simp only [listCards, except_bind_ok] at h
  obtain ⟨-, -, statuses, hstatuses, found, hfound, h⟩ := h
  cases h
  obtain ⟨each, heach, hcard⟩ := List.mem_flatten.1 hcard
  obtain ⟨row, hrow, h⟩ := except_mapM_mem_result hfound heach
  have hmem := (List.mem_filter.1 (Log.mem_newestFirst.1 hrow)).1
  obtain ⟨_, hverified, h⟩ := except_bind_ok.1 h
  obtain ⟨hget, hevent⟩ := latestStatuses_get? hstatuses (List.mem_map_of_mem hrow)
  split at h
  · cases h
  · next status hstatus =>
      simp only [true_or, if_true, except_bind_ok] at h
      obtain ⟨made, hmade, h⟩ := h
      cases h
      rw [List.mem_singleton] at hcard
      subst hcard
      obtain ⟨hid, -, -, -, -, -, hsame⟩ := cardFromRow_ok hmade
      rw [hstatus] at hget
      obtain ⟨event, hlatest, htype⟩ := Option.map_eq_some_iff.1 hget.symm
      refine ⟨row, hmem, hverified, by rwa [hsame], event, by rwa [hid], hevent event hlatest, ?_⟩
      rw [htype, hsame]

/-- The moment lies within the card's bounds; an empty bound is none. -/
structure ValidAt (env : RetrievalEnv F) (card : MemoryCard F) (moment : Int) : Prop where
  started : ∀ text, card.validFrom = some text → text ≠ "" →
    ∃ start, parseTime env (some text) = .ok start ∧ start ≤ moment
  lasting : ∀ text, card.validTo = some text → text ≠ "" →
    ∃ ending, parseTime env (some text) = .ok ending ∧ moment < ending

omit [Json.PyFloat F] in
/-- A bound that is not crossed is none or lies on the right side. -/
theorem boundHolds_false {bound : Option String} {compare : Int → Bool}
    (h : boundHolds env bound compare = .ok false) {text : String} (hbound : bound = some text)
    (hne : text ≠ "") :
    ∃ parsed, parseTime env (some text) = .ok parsed ∧ compare parsed = false := by
  rw [boundHolds, if_neg (by simp [hbound, hne])] at h
  obtain ⟨parsed, hparsed, h⟩ := except_bind_ok.1 h
  cases hcompare : compare parsed with
  | true =>
      rw [hcompare] at h
      cases h
  | false =>
      rw [hbound] at hparsed
      exact ⟨parsed, hparsed, hcompare⟩

omit [Json.PyFloat F] in
theorem validAt_ok {card : MemoryCard F} {moment : Int} (h : validAt env card moment = .ok true) :
    ValidAt env card moment := by
  rw [validAt, except_bind_ok] at h
  obtain ⟨early, hearly, h⟩ := h
  cases early with
  | true => cases h
  | false =>
      obtain ⟨expired, hexpired, h⟩ := except_bind_ok.1 h
      cases expired with
      | true => cases h
      | false =>
          constructor
          · intro text htext hne
            obtain ⟨start, hstart, hle⟩ := boundHolds_false hearly htext hne
            exact ⟨start, hstart, by simpa using hle⟩
          · intro text htext hne
            obtain ⟨ending, hending, hlt⟩ := boundHolds_false hexpired htext hne
            exact ⟨ending, hending, by simpa using hlt⟩

/-- Global, of one of the query's scopes, or of any where neither the query nor
the policy asks for one. -/
def InScope (policy : ScenarioMemoryPolicy F) (query : MemoryQuery) (card : MemoryCard F) : Prop :=
  card.scope = "global" ∨ (query.scopes = [] ∧ policy.requireExplicitScope = false) ∨
    ∃ scope ∈ query.scopes, scope.name = card.scope ∧ scope.key = card.scopeKey

omit [Json.PyFloat F] in
theorem scopeMatches_iff {card : MemoryCard F} {query : MemoryQuery}
    {policy : ScenarioMemoryPolicy F} :
    scopeMatches card query policy = true ↔ InScope policy query card := by
  unfold scopeMatches InScope
  by_cases hglobal : card.scope = "global"
  · simp [hglobal]
  · by_cases hscopes : query.scopes = []
    · simp [hglobal, hscopes]
    · simp [hglobal, hscopes]

/-- All that is asked of a card before it may be shown. -/
structure Admissible (env : RetrievalEnv F) (policy : ScenarioMemoryPolicy F)
    (db : MemoryStore.Database F) (query : MemoryQuery) (moment : Int) (card : MemoryCard F) :
    Prop where
  stored : Stored env.store db card
  active : card.status = "active"
  valid : ValidAt env card moment
  scope : InScope policy query card
  authority : AuthorityLE query.requiredAuthority card.authority
  confidence : Json.PyFloat.val policy.minConfidence ≤ Json.PyFloat.val card.confidence
  trusted : ∃ source ∈ db.sources, source.cardId = card.id ∧
    MemoryStore.verifySource env.store source = .ok () ∧
    source.origin ∈ policy.trustedEvidenceOrigins

theorem sources_ok {env : MemoryEnv F} {cardId : String} {db : MemoryStore.Database F}
    {found : List EvidenceSource} (h : MemoryStore.sources env cardId db = .ok found)
    {source : EvidenceSource} (hsource : source ∈ found) :
    ∃ row ∈ db.sources, row.cardId = cardId ∧ MemoryStore.verifySource env row = .ok () ∧
      row.origin = source.origin := by
  simp only [MemoryStore.sources, except_bind_ok] at h
  obtain ⟨-, -, -, -, h⟩ := h
  obtain ⟨row, hrow, h⟩ := except_mapM_mem_result h hsource
  obtain ⟨_, hverified, h⟩ := except_bind_ok.1 h
  cases h
  rw [MemoryStore.oldestFirst, List.mem_insertionSort, List.mem_filter, decide_eq_true_eq] at hrow
  exact ⟨row, hrow.1, hrow.2, hverified, rfl⟩

/-- A candidate that is eligible too has passed every filter. -/
theorem admissible_of_filters {retriever : Retriever F} {db : MemoryStore.Database F}
    {query : MemoryQuery} {moment : Int} {card : MemoryCard F} (hstored : Stored env.store db card)
    (hcandidate : isCandidate env retriever db query card = .ok true)
    (heligible : isEligible env moment card = .ok true) :
    Admissible env retriever.policy db query moment card := by
  unfold isEligible at heligible
  split at heligible
  · cases heligible
  · next hactive =>
      unfold isCandidate at hcandidate
      split at hcandidate
      · cases hcandidate
      · next hconfidence =>
          split at hcandidate
          · cases hcandidate
          · next hscope =>
              simp only [except_bind_ok] at hcandidate
              obtain ⟨cardRank, hcardRank, requiredRank, hrequired, hcandidate⟩ := hcandidate
              split at hcandidate
              · cases hcandidate
              · next hrank =>
                  obtain ⟨found, hfound, hcandidate⟩ := except_bind_ok.1 hcandidate
                  have hany : (found.any fun source =>
                      source.origin ∈ retriever.policy.trustedEvidenceOrigins) = true :=
                    Except.ok.inj hcandidate
                  obtain ⟨source, hsource, horigin⟩ := List.any_eq_true.1 hany
                  obtain ⟨row, hrow, hcard, hverified, heq⟩ := sources_ok hfound hsource
                  refine ⟨hstored, not_not.1 hactive, validAt_ok heligible, ?_, ?_, ?_, ?_⟩
                  · exact scopeMatches_iff.1 (by simpa using hscope)
                  · exact ⟨requiredRank, cardRank, hrequired, hcardRank, not_lt.1 hrank⟩
                  · exact not_lt.1 hconfidence
                  · exact ⟨row, hrow, hcard, hverified, by rw [heq]; exact of_decide_eq_true horigin⟩

/-! ## What is handed out -/

/-- The item tells of the card. -/
structure ItemOf (card : MemoryCard F) (item : MemoryContextItem F) : Prop where
  cardId : item.cardId = card.id
  value : item.value = card.value
  abstraction : item.abstraction = card.abstraction
  kind : item.kind = card.kind
  subtype : item.subtype = card.subtype
  scope : item.scope = card.scope
  scopeKey : item.scopeKey = card.scopeKey
  authority : item.authority = card.authority
  confidence : item.confidence = card.confidence
  contentSha256 : item.contentSha256 = card.contentSha256

theorem contextItem_ok {db : MemoryStore.Database F} {ranked : RankedCard F}
    {item : MemoryContextItem F} (h : contextItem env db ranked = .ok item) :
    ItemOf ranked.card item := by
  obtain ⟨sources, -, h⟩ := except_bind_ok.1 h
  cases h
  exact ⟨rfl, rfl, rfl, rfl, rfl, rfl, rfl, rfl, rfl, rfl⟩

/-- The items tell of admissible cards, no card twice, and are no more than the
query allows. -/
structure HardFiltered (env : RetrievalEnv F) (policy : ScenarioMemoryPolicy F)
    (db : MemoryStore.Database F) (query : MemoryQuery) (items : List (MemoryContextItem F)) :
    Prop where
  admissible : ∃ moment, parseTime env query.asOf = .ok moment ∧
    ∀ item ∈ items, ∃ card, ItemOf card item ∧ Admissible env policy db query moment card
  distinct : (items.map (·.cardId)).Nodup
  atMost : (items.length : Int) ≤ query.limit

/-- Dropping and reordering keeps to the filters. -/
theorem HardFiltered.select {policy : ScenarioMemoryPolicy F} {db : MemoryStore.Database F}
    {query : MemoryQuery} {items chosen : List (MemoryContextItem F)}
    (h : HardFiltered env policy db query items) (hsub : chosen ⊆ items)
    (hdistinct : (chosen.map (·.cardId)).Nodup) (hmost : (chosen.length : Int) ≤ query.limit) :
    HardFiltered env policy db query chosen := by
  obtain ⟨moment, hmoment, hall⟩ := h.admissible
  exact ⟨⟨moment, hmoment, fun item hitem => hall item (hsub hitem)⟩, hdistinct, hmost⟩

/-- A pack has no items, or those of some of the ranked cards, in their order. -/
theorem selectItems_ok {retriever : Retriever F} {db : MemoryStore.Database F}
    {query : MemoryQuery} {considered eligible : Nat} {top : RankedCard F}
    {others : List (RankedCard F)} {pack : MemoryContextPack F}
    (h : selectItems env retriever db query considered eligible top others = .ok pack) :
    pack.items = [] ∨ ∃ kept, kept.Sublist (top :: others) ∧
      (pyPrefix query.limit kept).mapM (contextItem env db) = .ok pack.items := by
  unfold selectItems at h
  dsimp only at h
  split at h
  · cases h
    exact Or.inl rfl
  · split at h
    · cases h
      exact Or.inl rfl
    · obtain ⟨items, hitems, h⟩ := except_bind_ok.1 h
      cases h
      exact Or.inr ⟨_, List.filter_sublist, hitems⟩

theorem retrieve_hardFiltered {retriever : Retriever F} {db : MemoryStore.Database F}
    {query : MemoryQuery} {pack : MemoryContextPack F}
    (h : retrieve env retriever db query = .ok pack) :
    HardFiltered env retriever.policy db query pack.items := by
  simp only [retrieve, except_bind_ok] at h
  obtain ⟨_, hquery, allCards, hcards, moment, hmoment, candidates, hcandidates, eligible,
    heligible, ranked, hranked, _, -, _, -, h⟩ := h
  have hlimit : 1 ≤ query.limit := by
    simp only [validateQuery, except_bind_ok, raiseIf_ok] at hquery
    omega
  have hnone : pack.items = [] → HardFiltered env retriever.policy db query pack.items := by
    intro hempty
    rw [hempty]
    refine ⟨⟨moment, hmoment, fun item hitem => absurd hitem List.not_mem_nil⟩, List.nodup_nil, ?_⟩
    rw [List.length_nil]
    omega
  split at h
  · cases h
    exact hnone rfl
  · split at h
    · cases h
      exact hnone rfl
    · next top others =>
        rcases selectItems_ok h with hempty | ⟨kept, hkept, hitems⟩
        · exact hnone hempty
        · obtain ⟨hfrom, hdistinct⟩ := rank_ok hranked
          have hsub := (pyPrefix_sublist query.limit kept).trans hkept
          refine ⟨⟨moment, hmoment, fun item hitem => ?_⟩, ?_, ?_⟩
          · obtain ⟨chosen, hchosen, hitem⟩ := except_mapM_mem_result hitems hitem
            obtain ⟨hmem, hpassed⟩ := except_filterM_ok heligible
            obtain ⟨hmem', hpassed'⟩ := except_filterM_ok hcandidates
            have heligible := hfrom chosen (hsub.subset hchosen)
            have hcandidate := hmem.subset heligible
            exact ⟨chosen.card, contextItem_ok hitem, admissible_of_filters
              (listCards_stored hcards (hmem'.subset hcandidate)) (hpassed' _ hcandidate)
              (hpassed _ heligible)⟩
          · have hids : pack.items.map (·.cardId) =
                (pyPrefix query.limit kept).map fun item => item.card.id :=
              except_mapM_map hitems fun chosen item hitem => (contextItem_ok hitem).cardId
            rw [hids]
            exact hdistinct.sublist (hsub.map _)
          · have hlength : pack.items.length = (pyPrefix query.limit kept).length :=
              by simpa using congrArg List.length (except_mapM_map (g := fun _ => ()) (k := fun _ => ())
                hitems fun _ _ _ => rfl)
            rw [hlength]
            exact length_pyPrefix (by omega) kept

/-! ## The controller -/

theorem finishDecision_ok {context : MemoryControlContext} {pack : MemoryContextPack F}
    {operation reason : String} {items : List (ControlledMemoryItem F)}
    {w w' : MemoryStore.MemoryWorld F} {decision : ControlledMemoryDecision F}
    (h : finishDecision env context pack operation reason items w = (.ok decision, w')) :
    decision.items = items := by
  unfold finishDecision at h
  split at h
  · obtain ⟨_, _, -, h⟩ := Txn.bind_ok.1 h
    rw [(Txn.pure_ok.1 h).1]
  · rw [(Txn.pure_ok.1 h).1]

theorem decideSelected_ok {context : MemoryControlContext} {pack : MemoryContextPack F}
    {selected : List (ControlledMemoryItem F)} {w w' : MemoryStore.MemoryWorld F}
    {decision : ControlledMemoryDecision F}
    (h : decideSelected env context pack selected w = (.ok decision, w')) :
    decision.items = selected := by
  unfold decideSelected at h
  by_cases hnone : selected = []
  · rw [if_pos hnone] at h
    rw [hnone]
    exact finishDecision_ok h
  · rw [if_neg hnone] at h
    split at h
    · exact finishDecision_ok h
    · exact finishDecision_ok h

theorem controlItem_memory {controller : MemoryController F} {stats : List (MemoryUtilityStats F)}
    {context : MemoryControlContext} {item : MemoryContextItem F} {chosen : ControlledMemoryItem F}
    (h : controlItem env controller stats context item = some chosen) : chosen.memory = item := by
  rw [controlItem, Option.ite_none_right_eq_some] at h
  rw [← Option.some.inj h.2]

/-- What the controller takes is some of the items, in an order of its own. -/
theorem map_controlItem (controller : MemoryController F) (stats : List (MemoryUtilityStats F))
    (context : MemoryControlContext) (items : List (MemoryContextItem F)) :
    ((items.filterMap (controlItem env controller stats context)).map (·.memory)).Sublist items := by
  induction items with
  | nil => exact List.Sublist.refl _
  | cons item items ih =>
      rw [List.filterMap_cons]
      split
      · exact ih.cons item
      · next chosen hchosen =>
          rw [List.map_cons, controlItem_memory hchosen]
          exact ih.cons_cons item

theorem decideMemory_items {controller : MemoryController F} {context : MemoryControlContext}
    {w w' : MemoryStore.MemoryWorld F} {decision : ControlledMemoryDecision F}
    (h : decideMemory env controller context w = (.ok decision, w')) :
    ∃ pack, retrieve env controller.retriever w.db context.query = .ok pack ∧
      (decision.items = [] ∨ ∃ stats, decision.items = pyPrefix context.query.limit
        ((pack.items.filterMap (controlItem env controller stats context)).insertionSort
          controlledBefore)) := by
  obtain ⟨_, w₁, hvalid, hrest⟩ := Txn.bind_ok.1 h
  obtain ⟨-, rfl⟩ := Txn.lift_ok.1 hvalid
  obtain ⟨pack, w₂, hselect, hdecide⟩ := Txn.bind_ok.1 hrest
  obtain ⟨hpack, rfl⟩ := Txn.reads_ok.1 hselect
  refine ⟨pack, hpack, ?_⟩
  by_cases hnone : pack.decision.kind = .noMemory ∨ pack.items = []
  · rw [if_pos hnone] at hdecide
    exact Or.inl (finishDecision_ok hdecide)
  · rw [if_neg hnone] at hdecide
    obtain ⟨stats, w₃, -, hselected⟩ := Txn.bind_ok.1 hdecide
    exact Or.inr ⟨stats, decideSelected_ok hselected⟩

/-- Whatever the store holds, the provider answers and the edges connect, a
retrieval and the controller's choice from it keep to the hard filters. -/
theorem memory_hardFiltered (env : RetrievalEnv F) :
    (∀ retriever db query pack, retrieve env retriever db query = .ok pack →
      HardFiltered env retriever.policy db query pack.items) ∧
    ∀ controller context w w' decision,
      decideMemory env controller context w = (.ok decision, w') →
        HardFiltered env controller.retriever.policy w.db context.query
          (decision.items.map (·.memory)) := by
  refine ⟨fun retriever db query pack h => retrieve_hardFiltered h, ?_⟩
  intro controller context w w' decision h
  obtain ⟨pack, hpack, hitems⟩ := decideMemory_items h
  have hfiltered := retrieve_hardFiltered hpack
  have hlimit : 0 ≤ context.query.limit := by
    have := hfiltered.atMost
    omega
  rcases hitems with hempty | ⟨stats, hitems⟩
  · rw [hempty]
    exact hfiltered.select (List.nil_subset _) List.nodup_nil (by simpa using hlimit)
  · have hsub : ((pack.items.filterMap (controlItem env controller stats context)).map
        (·.memory)).Sublist pack.items := map_controlItem controller stats context pack.items
    have hperm := (List.perm_insertionSort controlledBefore
      (pack.items.filterMap (controlItem env controller stats context))).map (·.memory)
    have hfront := (pyPrefix_sublist context.query.limit ((pack.items.filterMap
      (controlItem env controller stats context)).insertionSort controlledBefore)).map (·.memory)
    rw [hitems]
    refine hfiltered.select ?_ ?_ ?_
    · exact fun item hitem => hsub.subset (hperm.subset (hfront.subset hitem))
    · have hdistinct := (hperm.map (·.cardId)).nodup_iff.2 (hfiltered.distinct.sublist (hsub.map _))
      exact hdistinct.sublist (hfront.map _)
    · rw [List.length_map]
      exact length_pyPrefix hlimit _

/-! One card, found by its cue anchor. -/

theorem except_ok_of_toOption {ε α : Type} {x : Except ε α} {a : α} (h : x.toOption = some a) :
    x = .ok a := by
  cases x with
  | ok b =>
      cases h
      rfl
  | error e => cases h


namespace RetrievalSample

open MemoryStore

/-- Signatures play no part in the choice. -/
def digests : Digests := zeroDigests

def deployment : RetrievalEnv Unit where
  store := { machine ticking with digests := digests }
  nfkcCasefold text := text
  isWordChar c := c.isAlphanum
  setOrder texts := texts
  now := 1735900000000000
  floats := ⟨fun _ => (), fun _ _ => (), fun _ _ => (), fun _ _ => (), fun _ _ => (), id, id, id⟩

def card : CardRow Unit := newCardRow deployment.store "c0" (setting "vim" "editor" "inform" none) 5

def db : Database Unit :=
  { Database.absent Unit with
    initialized := true
    metas := [⟨"schema_version", "2", "00"⟩]
    cards := [card]
    cardEvents := [⟨"e0", "c0", "active", none, 6, "00"⟩]
    sources := [⟨"s0", "c0", "event", "first", "", "user", 7, "00"⟩] }

def retriever : Retriever Unit where
  policy := ⟨"generic", (), (), (), 24, 1, true, ["user", "trusted_tool"]⟩
  semanticProvider := none

def query : MemoryQuery := ⟨"editor", [⟨"user", ""⟩], none, "none", 3⟩

def context : MemoryControlContext := ⟨query, "working", 0, 1200, false, false⟩

def pack : MemoryContextPack Unit :=
  ⟨query, "generic", ⟨.useMemory, "eligible_high_confidence", (), (), 1, 1⟩,
    [⟨"c0", "vim", "editor", "state", "setting", "user", "", "inform", (), "00", (),
      ["exact_anchor"], ["first"]⟩]⟩

def stats : List (MemoryUtilityStats Unit) := [⟨"c0", 0, 0, 0, 0, ()⟩]

theorem retrieved : retrieve deployment retriever db query = .ok pack :=
  except_ok_of_toOption (by decide +kernel)

theorem fedBack : memoryUtilityStats deployment ["c0"] db = .ok stats :=
  except_ok_of_toOption (by decide +kernel)

def chosen : ControlledMemoryDecision Unit :=
  ⟨"retrieve", "positive_expected_utility",
    pack.items.map fun item => ⟨item, "support", (), 0⟩, pack, false⟩

theorem decided (w : MemoryWorld Unit) (hw : w.db = db) :
    decideMemory deployment ⟨retriever, ()⟩ context w = (.ok chosen, w) := by
  refine Txn.bind_ok.2 ⟨(), w, Txn.lift_ok.2 ⟨rfl, rfl⟩, ?_⟩
  refine Txn.bind_ok.2 ⟨pack, w, Txn.reads_ok.2 ⟨by rw [hw]; exact retrieved, rfl⟩, ?_⟩
  refine Txn.bind_ok.2 ⟨stats, w, Txn.reads_ok.2 ⟨by rw [hw]; exact fedBack, rfl⟩, ?_⟩
  rfl

end RetrievalSample

open RetrievalSample in
theorem memory_hardFiltered_sample :
    HardFiltered deployment retriever.policy db query pack.items ∧
      HardFiltered deployment retriever.policy db query (chosen.items.map (·.memory)) :=
  ⟨(memory_hardFiltered deployment).1 retriever db query pack retrieved,
    (memory_hardFiltered deployment).2 ⟨retriever, ()⟩ context ⟨db, 0, 0⟩ ⟨db, 0, 0⟩ chosen
      (decided _ rfl)⟩

end MiniCodeAgent
