import MiniCodeAgent.MemorySearch
import MiniCodeAgent.Proofs.MemoryIndex
import MiniCodeAgent.Proofs.MemorySingleton

/-!
# How many cards a search finds

A search takes the first rows its query finds, five for each result it may
give, and drops those of them that are not active afterwards. So it finds as
many active cards as there are, up to its limit, if and only if enough of them
stand among those rows.
-/

namespace MiniCodeAgent

namespace MemoryStore

variable {F : Type} [Json.PyFloat F] {env : MemoryEnv F} {host : SearchHost F}

/-! ## The rows a query finds -/

theorem likeRows_mem {query : String} {db : Database F} {found : CardRow F × F}
    (h : found ∈ likeRows host query db) : found.1 ∈ db.cards := by
  obtain ⟨row, hrow, rfl⟩ := List.mem_map.1 h
  exact (List.mem_filter.1 ((List.perm_insertionSort _ _).mem_iff.1 hrow)).1

theorem likeRows_nodup {query : String} {db : Database F}
    (hunique : (db.cards.map CardRow.id).Nodup) :
    ((likeRows host query db).map fun found => found.1.id).Nodup := by
  rw [likeRows, List.map_map]
  show ((List.insertionSort _ _).map CardRow.id).Nodup
  rw [((List.perm_insertionSort _ _).map CardRow.id).nodup_iff]
  exact (List.filter_sublist.map CardRow.id).nodup hunique

omit [Json.PyFloat F] in
theorem indexRows_mem {expression : String} {db : Database F} {found : CardRow F × F}
    (h : found ∈ indexRows host expression db) : found.1 ∈ db.cards := by
  obtain ⟨indexed, -, hrow⟩ := List.mem_flatMap.1 h
  obtain ⟨row, hcard, rfl⟩ := List.mem_map.1 hrow
  exact (List.mem_filter.1 hcard).1

omit [Json.PyFloat F] in
/-- At most one card has the id. -/
theorem filter_id_sublist {cards : List (CardRow F)} (hunique : (cards.map CardRow.id).Nodup)
    (cardId : String) :
    ((cards.filter fun row => row.id = cardId).map CardRow.id).Sublist [cardId] := by
  induction cards with
  | nil => exact List.nil_sublist _
  | cons row cards ih =>
      rw [List.map_cons, List.nodup_cons] at hunique
      by_cases hid : row.id = cardId
      · have hnone : cards.filter (fun row => row.id = cardId) = [] := by
          refine List.filter_eq_nil_iff.2 fun other hother heq => hunique.1 ?_
          rw [hid, ← of_decide_eq_true heq]
          exact List.mem_map_of_mem hother
        rw [List.filter_cons_of_pos (by simpa using hid), hnone, List.map_singleton, hid]
      · rw [List.filter_cons_of_neg (by simpa using hid)]
        exact ih hunique.2

omit [Json.PyFloat F] in
theorem indexRows_nodup {expression : String} {db : Database F}
    (hunique : (db.cards.map CardRow.id).Nodup) (hindexed : Indexed db) :
    ((indexRows host expression db).map fun found => found.1.id).Nodup := by
  have hranked : ((host.index.ranked expression db.memoryFts).map
      fun indexed => indexed.1.cardId).Nodup := by
    obtain ⟨l, hperm, hsub⟩ := host.index.ranked_subperm expression db.memoryFts
    have hnodup := ((hsub.map FtsRow.cardId).trans hindexed).nodup hunique
    rw [(hperm.map FtsRow.cardId).nodup_iff, List.map_map] at hnodup
    exact hnodup
  refine List.Sublist.nodup ?_ hranked
  rw [indexRows]
  induction host.index.ranked expression db.memoryFts with
  | nil => exact List.nil_sublist _
  | cons indexed rest ih =>
      rw [List.flatMap_cons, List.map_append, List.map_cons, List.map_map]
      exact (filter_id_sublist hunique indexed.1.cardId).append ih

variable (env host) in
/-- On the store's own metadata the rows can be read, no card's twice. -/
theorem matchedRows_sound {w : MemoryWorld F} (h : Sound env w) (hindexed : Indexed w.db)
    (query : String) :
    ∃ rows, matchedRows env host query w.db = .ok rows ∧ (∀ found ∈ rows, found.1 ∈ w.db.cards) ∧
      (rows.map fun found => found.1.id).Nodup := by
  obtain ⟨ftsEnabled, hmeta⟩ : ∃ value, getMeta env "fts_enabled" w.db = .ok value := by
    rcases h.metas with hmetas | hmetas
    · exact ⟨none, getMeta_none hmetas⟩
    · exact ⟨_, (getMeta_ready hmetas).2⟩
  have hlike : (∀ found ∈ likeRows host query w.db, found.1 ∈ w.db.cards) ∧
      ((likeRows host query w.db).map fun found => found.1.id).Nodup :=
    ⟨fun _ => likeRows_mem, likeRows_nodup h.unique⟩
  have hindex : ∀ expression, (∀ found ∈ indexRows host expression w.db, found.1 ∈ w.db.cards) ∧
      ((indexRows host expression w.db).map fun found => found.1.id).Nodup :=
    fun expression => ⟨fun _ => indexRows_mem, indexRows_nodup h.unique hindexed⟩
  unfold matchedRows
  rw [hmeta]
  show ∃ rows, (if ftsEnabled = some "1" ∧ matchExpression (host.words query) ≠ "" then
    (.ok (indexRows host (matchExpression (host.words query)) w.db) : Except PyExc _)
    else .ok (likeRows host query w.db)) = .ok rows ∧ _
  split
  · exact ⟨_, rfl, hindex _⟩
  · exact ⟨_, rfl, hlike⟩

/-! ## The rows that are handed out -/

variable (env host) in
/-- The card is active and its signed text has a word of the query. -/
def answers (query : String) (db : Database F) (row : CardRow F) : Bool :=
  match signedTextMatchesQuery host row query, currentStatus env row.id db with
  | .ok true, .ok status => status = "active"
  | _, _ => false

/-- What a row takes to be looked at, its signature aside. -/
def Readable (env : MemoryEnv F) (host : SearchHost F) (query : String) (db : Database F)
    (row : CardRow F) : Prop :=
  (∃ passes, signedTextMatchesQuery host row query = .ok passes) ∧
    ∃ status, currentStatus env row.id db = .ok status

variable {query : String} {limit : Int} {db : Database F}

/-- One row: it is passed over, or it is a result and the search may be over. -/
theorem collectResults_cons (limit : Int) {found : CardRow F × F} (rows : List (CardRow F × F))
    (results : List (MemorySearchResult F)) (hreadable : Readable env host query db found.1)
    (hverified : verifyCard env found.1 = .ok ()) :
    ∃ result, collectResults env host query limit false db (found :: rows) results =
      if answers env host query db found.1 = true then
        if (results.length : Int) + 1 ≥ limit then .ok (results ++ [result])
        else collectResults env host query limit false db rows (results ++ [result])
      else collectResults env host query limit false db rows results := by
  obtain ⟨row, score⟩ := found
  obtain ⟨⟨passes, hpasses⟩, status, hstatus⟩ := hreadable
  refine ⟨searchResult row status score, ?_⟩
  rw [collectResults, hverified]
  show (signedTextMatchesQuery host row query >>= _) = _
  rw [answers, hpasses, hstatus]
  cases passes with
  | false => rfl
  | true =>
      show (if false = false ∧ status ≠ "active" then _ else if _ then _ else _ : Except PyExc _) =
        if decide (status = "active") = true then _ else _
      by_cases hactive : status = "active"
      · rw [if_neg (fun h => h.2 hactive), if_pos (decide_eq_true hactive), List.length_append]
        rfl
      · rw [if_pos ⟨rfl, hactive⟩, if_neg (by simpa using hactive)]

variable (env host query db) in
/-- How many of the rows are to be handed out. -/
def answering (rows : List (CardRow F × F)) : Nat :=
  rows.countP fun found => answers env host query db found.1

/-- A row that is looked at is authentic: the search has not yet got its results before it. -/
def Authentic (env : MemoryEnv F) (host : SearchHost F) (query : String) (limit : Int)
    (db : Database F) (seen : Nat) (rows : List (CardRow F × F)) : Prop :=
  ∀ before found after, rows = before ++ found :: after →
    (seen : Int) + answering env host query db before < limit → verifyCard env found.1 = .ok ()

theorem answering_cons (found : CardRow F × F) (rows : List (CardRow F × F)) :
    answering env host query db (found :: rows) =
      answering env host query db rows +
        if answers env host query db found.1 = true then 1 else 0 := List.countP_cons

theorem authentic_cons {found : CardRow F × F} {rows : List (CardRow F × F)} {seen : Nat} :
    Authentic env host query limit db seen (found :: rows) ↔
      ((seen : Int) < limit → verifyCard env found.1 = .ok ()) ∧
        Authentic env host query limit db
          (seen + if answers env host query db found.1 = true then 1 else 0) rows := by
  constructor
  · intro h
    refine ⟨fun hroom => h [] found rows rfl (by simpa [answering] using hroom), ?_⟩
    intro before other after hrows hroom
    refine h (found :: before) other after (by rw [hrows]; rfl) ?_
    rw [answering_cons]
    push_cast at hroom ⊢
    omega
  · rintro ⟨hhead, htail⟩ before other after hrows hroom
    cases before with
    | nil =>
        cases hrows
        exact hhead (by simpa [answering] using hroom)
    | cons first before =>
        cases hrows
        rw [answering_cons] at hroom
        refine htail before other after rfl ?_
        push_cast at hroom ⊢
        omega

theorem authentic_full {rows : List (CardRow F × F)} {seen : Nat} (hfull : limit ≤ seen) :
    Authentic env host query limit db seen rows := by
  intro before found after _ hroom
  omega

/-- The loop looks at a row only if those before it left room for a result. -/
theorem collectResults_returns {rows : List (CardRow F × F)} {results : List (MemorySearchResult F)}
    (hreadable : ∀ found ∈ rows, Readable env host query db found.1)
    (hroom : (results.length : Int) < limit) :
    (∃ all, collectResults env host query limit false db rows results = .ok all) ↔
      Authentic env host query limit db results.length rows := by
  induction rows generalizing results with
  | nil =>
      refine ⟨fun _ before found after hrows => ?_, fun _ => ⟨results, rfl⟩⟩
      simp at hrows
  | cons found rows ih =>
      have htail := fun other hother => hreadable other (List.mem_cons_of_mem found hother)
      rw [authentic_cons]
      by_cases hverified : verifyCard env found.1 = .ok ()
      · obtain ⟨result, hstep⟩ := collectResults_cons limit rows results
          (hreadable found List.mem_cons_self) hverified
        have hlength : (results ++ [result]).length = results.length + 1 := by simp
        rw [hstep, and_iff_right fun _ => hverified]
        split
        · split
          · next hfull =>
              refine ⟨fun _ => authentic_full ?_, fun _ => ⟨_, rfl⟩⟩
              push_cast
              omega
          · next hmore =>
              rw [← hlength]
              exact ih htail (by push_cast [hlength]; omega)
        · exact ih htail hroom
      · refine ⟨fun hreturns => ?_, fun hauthentic => absurd (hauthentic.1 hroom) hverified⟩
        obtain ⟨all, h⟩ := hreturns
        obtain ⟨_, hreturned, -⟩ := except_bind_ok.1 h
        exact absurd hreturned hverified

/-- As many results as the rows hold, up to the limit. -/
theorem collectResults_length {rows : List (CardRow F × F)}
    {results all : List (MemorySearchResult F)}
    (hreadable : ∀ found ∈ rows, Readable env host query db found.1)
    (hroom : (results.length : Int) < limit)
    (h : collectResults env host query limit false db rows results = .ok all) :
    (all.length : Int) = min limit (results.length + answering env host query db rows) := by
  induction rows generalizing results with
  | nil =>
      cases h
      simp [answering]
      omega
  | cons found rows ih =>
      have htail := fun other hother => hreadable other (List.mem_cons_of_mem found hother)
      have hverified : verifyCard env found.1 = .ok () := by
        obtain ⟨_, hverified, -⟩ := except_bind_ok.1 h
        exact hverified
      obtain ⟨result, hstep⟩ := collectResults_cons limit rows results
        (hreadable found List.mem_cons_self) hverified
      rw [hstep] at h
      rw [answering_cons]
      have hlength : (results ++ [result]).length = results.length + 1 := by simp
      split at h
      · next hanswers =>
          rw [if_pos hanswers]
          split at h
          · cases h
            push_cast [hlength]
            omega
          · next hmore =>
              have := ih htail (by push_cast [hlength]; omega) h
              push_cast [hlength] at this ⊢
              omega
      · next hpassed =>
          rw [if_neg hpassed]
          exact ih htail hroom h

/-! ## Searches -/

variable (env host) in
/-- What a search has to choose from: the active cards that it finds and whose signed text
has a word of the query. -/
def candidates (query : String) (rows : List (CardRow F × F)) (db : Database F) :
    List (CardRow F) :=
  db.cards.filter fun row =>
    rows.any (fun found => found.1.id = row.id) && answers env host query db row

theorem length_candidates {rows : List (CardRow F × F)}
    (hunique : (db.cards.map CardRow.id).Nodup) (hmem : ∀ found ∈ rows, found.1 ∈ db.cards)
    (hnodup : (rows.map fun found => found.1.id).Nodup) :
    (candidates env host query rows db).length = answering env host query db rows := by
  have hleft : ((candidates env host query rows db).map CardRow.id).Nodup :=
    (List.filter_sublist.map CardRow.id).nodup hunique
  have hright : ((rows.filter fun found => answers env host query db found.1).map
      fun found => found.1.id).Nodup := (List.filter_sublist.map _).nodup hnodup
  have hperm := (List.perm_ext_iff_of_nodup hleft hright).2 fun cardId => by
    constructor
    · intro h
      obtain ⟨row, hrow, rfl⟩ := List.mem_map.1 h
      obtain ⟨hcard, hchosen⟩ := List.mem_filter.1 hrow
      obtain ⟨hfound, hanswers⟩ := Bool.and_eq_true_iff.1 hchosen
      obtain ⟨found, hfound, hid⟩ := List.any_eq_true.1 hfound
      have hid := of_decide_eq_true hid
      have hsame := eq_of_same_id hunique (hmem found hfound) hcard hid
      refine List.mem_map.2 ⟨found, List.mem_filter.2 ⟨hfound, ?_⟩, hid⟩
      rw [hsame]
      exact hanswers
    · intro h
      obtain ⟨found, hfound, rfl⟩ := List.mem_map.1 h
      obtain ⟨hfound, hanswers⟩ := List.mem_filter.1 hfound
      refine List.mem_map.2 ⟨found.1, List.mem_filter.2 ⟨hmem found hfound, ?_⟩, rfl⟩
      rw [hanswers, Bool.and_true]
      exact List.any_eq_true.2 ⟨found, hfound, decide_eq_true rfl⟩
  have hlength := hperm.length_eq
  rw [List.length_map, List.length_map] at hlength
  rw [hlength, answering, List.countP_eq_length_filter]

omit [Json.PyFloat F] in
theorem mapM_anchorText (texts : List String) :
    (texts.map (Json.str (F := F))).mapM anchorText = .ok texts := by
  induction texts with
  | nil => rfl
  | cons text texts ih =>
      rw [List.map_cons, List.mapM_cons, ih]
      rfl

/-- The signed text of a card is its abstraction and its cues. -/
theorem signedTextMatchesQuery_newCardRow (cardId : String) (values : CardValues F)
    (recordedAtNs : Int) (query : String) :
    signedTextMatchesQuery host (newCardRow env cardId values recordedAtNs) query =
      .ok (((host.words query).map host.casefold).isEmpty ||
        ((host.words query).map host.casefold).any fun token => pyContains token
          (host.casefold
            (" ".intercalate (values.abstraction :: values.cueAnchors.map pyStrip)))) := by
  rw [signedTextMatchesQuery]
  show (loadsText (Json.dumps .compact (.arr ((values.cueAnchors.map pyStrip).map .str) : Json F))
    >>= _) = _
  rw [loadsText_texts]
  show (((values.cueAnchors.map pyStrip).map (Json.str (F := F))).mapM anchorText >>= _) = _
  rw [mapM_anchorText]
  rfl

variable (host) in
theorem readable_of_sound {w : MemoryWorld F} (h : Sound env w) {row : CardRow F}
    (hrow : row ∈ w.db.cards) (query : String) : Readable env host query w.db row := by
  refine ⟨?_, currentStatus_returns h hrow⟩
  obtain ⟨cardId, values, recordedAtNs, rfl⟩ := h.made row hrow
  exact ⟨_, signedTextMatchesQuery_newCardRow cardId values recordedAtNs query⟩

/-- A query `search` takes. -/
def ValidQuery (query : String) : Prop :=
  pyStrip query ≠ "" ∧ (pyStrip query).length ≤ maxQueryLength

theorem search_ok {rows : List (CardRow F × F)} {results : List (MemorySearchResult F)}
    (hrows : matchedRows env host (pyStrip query) db = .ok rows)
    (hlimit : 1 ≤ limit ∧ limit ≤ 100) :
    search env host query limit false db = .ok results ↔
      ValidQuery query ∧ db.initialized = true ∧
        collectResults env host (pyStrip query) limit false db (rows.take (limit * 5).toNat) [] =
          .ok results := by
  have hcandidates : max (limit * 5) limit = limit * 5 := by omega
  have hsearchRows : searchRows env host (pyStrip query) (limit * 5) db =
      .ok (rows.take (limit * 5).toNat) := by
    rw [searchRows, hrows]
    rfl
  rw [search, hcandidates, hsearchRows]
  constructor
  · intro h
    obtain ⟨_, hquery, h⟩ := except_bind_ok.1 h
    obtain ⟨_, -, h⟩ := except_bind_ok.1 h
    obtain ⟨_, hconnect, h⟩ := except_bind_ok.1 h
    have hquery := raiseIf_ok.1 hquery
    rw [not_or, not_lt] at hquery
    refine ⟨hquery, ?_, h⟩
    exact Bool.eq_true_of_not_eq_false (raiseIf_ok.1 hconnect)
  · rintro ⟨hquery, hinitialized, h⟩
    refine except_bind_ok.2 ⟨(), raiseIf_ok.2 ?_, except_bind_ok.2 ⟨(), raiseIf_ok.2 ?_,
      except_bind_ok.2 ⟨(), raiseIf_ok.2 ?_, h⟩⟩⟩
    · rw [not_or, not_lt]
      exact hquery
    · omega
    · rw [hinitialized]
      decide

variable (env host) in
/-- The search returns, with as many of the cards it has to choose from as its limit allows. -/
def FindsAll (query : String) (limit : Int) (rows : List (CardRow F × F)) (db : Database F) :
    Prop :=
  ∃ results, search env host query limit false db = .ok results ∧
    (results.length : Int) = min limit (candidates env host (pyStrip query) rows db).length

/-- A search finds all it may if and only if the query is one it takes, the rows it looks at
are authentic, and enough of the cards to choose from are among the first rows: five for each
result. -/
theorem search_findsAll (env : MemoryEnv F) (host : SearchHost F) (w : MemoryWorld F)
    (h : Reached env anyStep w) (query : String) (limit : Int)
    (hlimit : 1 ≤ limit ∧ limit ≤ 100) :
    ∃ rows, matchedRows env host (pyStrip query) w.db = .ok rows ∧
      (FindsAll env host query limit rows w.db ↔
        ValidQuery query ∧ w.db.initialized = true ∧
          Authentic env host (pyStrip query) limit w.db 0 (rows.take (limit * 5).toNat) ∧
          min limit (candidates env host (pyStrip query) rows w.db).length ≤
            (answering env host (pyStrip query) w.db (rows.take (limit * 5).toNat) : Int)) := by
  have hsound := sound_of_reached h
  obtain ⟨rows, hrows, hmem, hnodup⟩ :=
    matchedRows_sound env host hsound (indexed_of_reached h) (pyStrip query)
  refine ⟨rows, hrows, ?_⟩
  have hcandidates : (candidates env host (pyStrip query) rows w.db).length =
      answering env host (pyStrip query) w.db rows :=
    length_candidates hsound.unique hmem hnodup
  have htaken : answering env host (pyStrip query) w.db (rows.take (limit * 5).toNat) ≤
      answering env host (pyStrip query) w.db rows :=
    (List.take_sublist _ _).countP_le
  have hreadable : ∀ found ∈ rows.take (limit * 5).toNat,
      Readable env host (pyStrip query) w.db found.1 := fun found hfound =>
    readable_of_sound host hsound (hmem found (List.mem_of_mem_take hfound)) _
  have hroom : (([] : List (MemorySearchResult F)).length : Int) < limit := by
    simp
    omega
  have hreturns := collectResults_returns hreadable hroom
  constructor
  · rintro ⟨results, hsearch, hlength⟩
    obtain ⟨hquery, hinitialized, hcollect⟩ := (search_ok hrows hlimit).1 hsearch
    refine ⟨hquery, hinitialized, hreturns.1 ⟨results, hcollect⟩, ?_⟩
    have hcount := collectResults_length hreadable hroom hcollect
    rw [hlength] at hcount
    simp at hcount
    omega
  · rintro ⟨hquery, hinitialized, hauthentic, henough⟩
    obtain ⟨results, hcollect⟩ := hreturns.2 hauthentic
    refine ⟨results, (search_ok hrows hlimit).2 ⟨hquery, hinitialized, hcollect⟩, ?_⟩
    have hcount := collectResults_length hreadable hroom hcollect
    simp at hcount
    omega

/-! ## A card that was superseded five times -/

/-- One row for each card, in the order of the index: all of them rank the same. -/
def evenIndex : FullTextIndex Unit where
  ranked _ rows := rows.map fun indexed => (indexed, ())
  ranked_subperm _ rows := by
    rw [List.map_map]
    exact (List.map_id rows).symm ▸ List.Subperm.refl rows

def evenHost : SearchHost Unit where
  isWord c := c.isAlphanum || c = '_'
  casefold := pyLower
  index := evenIndex

/-- The setting that is revised. -/
def editorSetting : CardValues Unit := setting "vim" "editor" "inform" none

/-- After so many revisions: the last card is active and the others are superseded. -/
structure Revised (revisions : Nat) (w : MemoryWorld Unit) : Prop where
  reached : Reached (machine ticking) anyStep w
  healthy : Healthy (machine ticking) w
  ready : Ready (machine ticking) w.db
  of : ∀ row ∈ w.db.cards, row.Of (machine ticking) editorSetting
  indexed : w.db.memoryFts.map FtsRow.cardId = w.db.cards.map CardRow.id
  split : ∃ olds last, w.db.cards = olds ++ [last] ∧ olds.length = revisions ∧
    (∀ old ∈ olds, currentStatus (machine ticking) old.id w.db = .ok "superseded") ∧
    currentStatus (machine ticking) last.id w.db = .ok "active"

theorem editorSetting_valid : validateCardInput (machine ticking) editorSetting = .ok () := rfl

theorem editorSetting_floats : editorSetting.Floats := setting_floats "vim" "editor" "inform" none

theorem checkSource_given : ∀ source ∈ [evidence "first"], checkSource source = .ok () := by
  intro source hsource
  rw [List.mem_singleton.1 hsource]
  exact checkSource_evidence

theorem revised_first : ∃ w, Revised 0 w := by
  have hstart : Healthy (machine ticking) (.start Unit) := healthy_start
  obtain ⟨card, w, hrun⟩ := addCard_returns hstart (machine_obliging ticking) editorSetting_valid
    editorSetting_floats (List.cons_ne_nil (evidence "first") []) checkSource_given
  obtain ⟨hadded, hready⟩ := addCard_added rfl (Or.inl rfl) hrun
  obtain ⟨d, row, hd, hadmitted, hcards, hid, hof, -, -, hchange, -⟩ := addCard_ok hrun
  have hrows : w.db.cards = [row] := by
    rw [hd.cards, hcards]
    rfl
  have hhealthy := hstart.extends hd hadmitted fun r hr => by
    rw [hcards] at hr
    rw [List.mem_singleton.1 hr]
    exact ⟨_, editorSetting_floats, hof⟩
  have hlast : lastChange d.events row.id = some "active" := by
    have hchange : d.events.map EventRow.change = [row.id].map fun cardId =>
      (cardId, "active", none) := hchange
    rw [lastChange_eq_of_map hchange, if_pos (List.mem_singleton_self _)]
  have hactive : currentStatus (machine ticking) row.id w.db = .ok "active" := by
    refine (currentStatus_extends hhealthy.sound ticking_monotone hd ?_ "active").2 ?_
    · rw [hrows]
      exact List.mem_singleton_self row
    · rw [hlast]
      rfl
  have hstep : Reached (machine ticking) anyStep
      (perform (machine ticking) (.addCard editorSetting [evidence "first"] []) (.start Unit)) :=
    Reached.start.step _ trivial
  rw [perform_dropValue rfl hrun] at hstep
  refine ⟨w, hstep, hhealthy, hready, ?_, ?_, [], row, hrows, rfl, fun _ hold => absurd hold
    List.not_mem_nil, hactive⟩
  · intro r hr
    rw [hrows] at hr
    rw [List.mem_singleton.1 hr]
    exact hof
  · rw [hadded, hrows, ← hid]
    rfl

/-- A new card is active, and the one it takes the place of is not. -/
theorem lastChange_superseded {events : List EventRow} {new old : String} {related : Option String}
    (h : events.map EventRow.change =
      [(new, "active", none), (old, "superseded", related)]) (cardId : String) :
    lastChange events cardId =
      if cardId = old then some "superseded" else if cardId = new then some "active" else none := by
  obtain ⟨first, rest, rfl, hfirst, hrest⟩ := List.map_eq_cons_iff.1 h
  obtain ⟨second, rest, rfl, hsecond, hrest⟩ := List.map_eq_cons_iff.1 hrest
  obtain rfl := List.map_eq_nil_iff.1 hrest
  have hfirstId : first.cardId = new := congrArg Prod.fst hfirst
  have hsecondId : second.cardId = old := congrArg Prod.fst hsecond
  have hfirstType : first.eventType = "active" := congrArg (fun change => change.2.1) hfirst
  have hsecondType : second.eventType = "superseded" := congrArg (fun change => change.2.1) hsecond
  rw [← List.singleton_append, lastChange_append, lastChange_singleton, lastChange_singleton,
    hfirstId, hsecondId, hfirstType, hsecondType]
  by_cases hold : cardId = old
  · rw [if_pos hold.symm, if_pos hold]
    rfl
  · rw [if_neg (Ne.symm hold), if_neg hold, Option.none_or]
    simp only [eq_comm]

theorem Revised.next {revisions : Nat} {w : MemoryWorld Unit} (h : Revised revisions w) :
    ∃ w', Revised (revisions + 1) w' := by
  obtain ⟨olds, last, hsplit, hlength, hsuperseded, hactive⟩ := h.split
  have hlast : last ∈ w.db.cards := by
    rw [hsplit]
    exact List.mem_append_right _ (List.mem_singleton_self last)
  have hauthority : validateDerivedAuthority editorSetting.authority [last.authority] = .ok () := by
    obtain ⟨-, _, _, rfl⟩ := h.of last hlast
    rfl
  obtain ⟨card, w', hrun⟩ := supersede_returns h.healthy (machine_obliging ticking)
    editorSetting_valid editorSetting_floats (List.cons_ne_nil (evidence "first") [])
    checkSource_given hlast hauthority
  obtain ⟨hadded, hready⟩ := supersede_added rfl (Or.inr h.ready.2) hrun
  obtain ⟨d, row, hd, hadmitted, hcards, hid, hof, hfresh, -, -, -, hchange, -⟩ := supersede_ok hrun
  have hrows : w'.db.cards = w.db.cards ++ [row] := by rw [hd.cards, hcards]
  have hhealthy := h.healthy.extends hd hadmitted fun r hr => by
    rw [hcards] at hr
    rw [List.mem_singleton.1 hr]
    exact ⟨_, editorSetting_floats, hof⟩
  have hne : row.id ≠ last.id := by
    intro heq
    rw [heq] at hfresh
    exact hfresh (List.mem_map_of_mem hlast)
  have hchanged := lastChange_superseded hchange
  have hstep := h.reached.step (.supersede last.id editorSetting [evidence "first"]) trivial
  rw [perform_dropValue rfl hrun] at hstep
  refine ⟨w', hstep, hhealthy, hready, ?_, ?_, w.db.cards, row, hrows, ?_, ?_, ?_⟩
  · intro r hr
    rw [hrows] at hr
    rcases List.mem_append.1 hr with hr | hr
    · exact h.of r hr
    · rw [List.mem_singleton.1 hr]
      exact hof
  · rw [hadded, hrows, h.indexed, ← hid, List.map_append]
    rfl
  · rw [hsplit, List.length_append, hlength]
    rfl
  · intro old hold
    rw [currentStatus_after h.healthy.sound ticking_monotone hd hadmitted hold, hchanged]
    by_cases heq : old.id = last.id
    · rw [if_pos heq]
    · have hother : old.id ≠ row.id := by
        intro hsame
        rw [← hsame] at hfresh
        exact hfresh (List.mem_map_of_mem hold)
      rw [if_neg heq, if_neg hother]
      rw [hsplit] at hold
      rcases List.mem_append.1 hold with hold | hold
      · exact hsuperseded old hold
      · rw [List.mem_singleton.1 hold] at heq
        exact absurd rfl heq
  · refine (currentStatus_extends hhealthy.sound ticking_monotone hd ?_ "active").2 ?_
    · rw [hrows]
      exact List.mem_append_right _ (List.mem_singleton_self row)
    · rw [hchanged, if_neg hne, if_pos rfl]
      rfl

theorem exists_revised (revisions : Nat) : ∃ w, Revised revisions w := by
  induction revisions with
  | zero => exact revised_first
  | succ revisions ih =>
      obtain ⟨w, h⟩ := ih
      exact h.next

omit [Json.PyFloat F] in
/-- With a row for each card the join is the cards. -/
theorem flatMap_filter_id {β : Type} (f : CardRow F → β) {cards : List (CardRow F)}
    (hunique : (cards.map CardRow.id).Nodup) :
    (cards.map CardRow.id).flatMap (fun cardId =>
      (cards.filter fun row => row.id = cardId).map f) = cards.map f := by
  have hone : ∀ row ∈ cards, cards.filter (fun other => other.id = row.id) = [row] := by
    intro row hrow
    have hmem : row ∈ cards.filter fun other => other.id = row.id :=
      List.mem_filter.2 ⟨hrow, decide_eq_true rfl⟩
    have hlength := (filter_id_sublist hunique row.id).length_le
    rw [List.length_map] at hlength
    obtain ⟨other, hother⟩ := List.length_eq_one_iff.1
      (le_antisymm hlength (List.length_pos_of_mem hmem))
    rw [hother] at hmem
    rw [hother, List.mem_singleton.1 hmem]
  rw [List.flatMap_map, List.map_eq_flatMap]
  refine List.flatMap_congr fun row hrow => ?_
  rw [hone row hrow, List.map_singleton]

theorem pyStrip_editor : pyStrip "editor" = "editor" := by
  have hplain : ("editor".toList.all fun c => !pyIsSpace c) = true := all_literal rfl rfl
  refine pyStrip_of_plain fun c hc => ?_
  simpa using List.all_eq_true.1 hplain c hc

/-- The query finds every card, the oldest first. -/
theorem Revised.matchedRows {revisions : Nat} {w : MemoryWorld Unit} (h : Revised revisions w) :
    matchedRows (machine ticking) evenHost "editor" w.db =
      .ok (w.db.cards.map fun row => (row, ())) := by
  have hmeta : getMeta (machine ticking) "fts_enabled" w.db = .ok (some "1") :=
    (getMeta_ready h.ready.2).2
  have hexpression : matchExpression (evenHost.words "editor") ≠ "" := by decide +kernel
  have hindex : indexRows evenHost (matchExpression (evenHost.words "editor")) w.db =
      w.db.cards.map fun row => (row, ()) := by
    rw [← flatMap_filter_id _ h.healthy.sound.unique, ← h.indexed, List.flatMap_map]
    show (w.db.memoryFts.map fun indexed => (indexed, ())).flatMap _ = _
    rw [List.flatMap_map]
  rw [MemoryStore.matchedRows, hmeta]
  show (if some "1" = some "1" ∧ matchExpression (evenHost.words "editor") ≠ "" then
    (.ok (indexRows evenHost (matchExpression (evenHost.words "editor")) w.db) : Except PyExc _)
    else .ok (likeRows evenHost "editor" w.db)) = _
  rw [if_pos ⟨rfl, hexpression⟩, hindex]

/-- The text of every card is the query's word, and the last card is the active one. -/
theorem Revised.answers {revisions : Nat} {w : MemoryWorld Unit} (h : Revised revisions w)
    {row : CardRow Unit} (hrow : row ∈ w.db.cards) (status : String)
    (hstatus : currentStatus (machine ticking) row.id w.db = .ok status) :
    answers (machine ticking) evenHost "editor" w.db row = decide (status = "active") := by
  obtain ⟨-, cardId, recordedAtNs, rfl⟩ := h.of row hrow
  have htext : signedTextMatchesQuery evenHost
      (newCardRow (machine ticking) cardId editorSetting recordedAtNs) "editor" = .ok true := by
    rw [signedTextMatchesQuery_newCardRow]
    rfl
  rw [MemoryStore.answers, htext, hstatus]

/-- None of the first cards is active. -/
theorem Revised.answering_take {revisions : Nat} {w : MemoryWorld Unit} (h : Revised revisions w)
    {count : Nat} (hcount : count ≤ revisions) :
    answering (machine ticking) evenHost "editor" w.db
      ((w.db.cards.map fun row => (row, ())).take count) = 0 := by
  obtain ⟨olds, last, hsplit, hlength, hsuperseded, -⟩ := h.split
  rw [answering, List.countP_eq_zero]
  intro found hfound
  rw [← List.map_take] at hfound
  obtain ⟨row, hrow, rfl⟩ := List.mem_map.1 hfound
  rw [hsplit, List.take_append_of_le_length (by omega)] at hrow
  have hold := List.mem_of_mem_take hrow
  have hcard : row ∈ w.db.cards := by
    rw [hsplit]
    exact List.mem_append_left _ hold
  rw [h.answers hcard "superseded" (hsuperseded row hold)]
  decide

/-- Of all the cards one is active. -/
theorem Revised.answering {revisions : Nat} {w : MemoryWorld Unit} (h : Revised revisions w) :
    answering (machine ticking) evenHost "editor" w.db (w.db.cards.map fun row => (row, ())) =
      1 := by
  have hnone := h.answering_take (le_refl revisions)
  obtain ⟨olds, last, hsplit, hlength, -, hactive⟩ := h.split
  have hlast : last ∈ w.db.cards := by
    rw [hsplit]
    exact List.mem_append_right _ (List.mem_singleton_self last)
  have hanswers : MemoryStore.answers (machine ticking) evenHost "editor" w.db last = true := by
    rw [h.answers hlast "active" hactive]
    decide
  rw [hsplit, List.map_append, List.take_left' (by rw [List.length_map, hlength])] at hnone
  rw [hsplit, List.map_append, MemoryStore.answering, List.countP_append,
    ← MemoryStore.answering, hnone, List.map_singleton, List.countP_singleton, if_pos hanswers]

theorem Revised.length_candidates {revisions : Nat} {w : MemoryWorld Unit}
    (h : Revised revisions w) :
    (candidates (machine ticking) evenHost "editor" (w.db.cards.map fun row => (row, ()))
      w.db).length = 1 := by
  have hunique := h.healthy.sound.unique
  rw [MemoryStore.length_candidates hunique, h.answering]
  · intro found hfound
    obtain ⟨row, hrow, rfl⟩ := List.mem_map.1 hfound
    exact hrow
  · rw [List.map_map]
    exact hunique

/-- The setting has been revised five times. A search for one card finds none. -/
theorem search_crowded_out :
    ∃ w rows, Reached (machine ticking) anyStep w ∧
      matchedRows (machine ticking) evenHost (pyStrip "editor") w.db = .ok rows ∧
      (candidates (machine ticking) evenHost (pyStrip "editor") rows w.db).length = 1 ∧
      search (machine ticking) evenHost "editor" 1 false w.db = .ok [] := by
  have hstrip : pyStrip "editor" = "editor" := pyStrip_editor
  obtain ⟨w, h⟩ := exists_revised 5
  have hrows := h.matchedRows
  have hnone := h.answering_take (le_refl 5)
  have hreadable : ∀ found ∈ (w.db.cards.map fun row => (row, ())).take 5,
      Readable (machine ticking) evenHost "editor" w.db found.1 := fun found hfound => by
    obtain ⟨row, hrow, rfl⟩ := List.mem_map.1 (List.mem_of_mem_take hfound)
    exact readable_of_sound evenHost h.healthy.sound hrow "editor"
  have hroom : (([] : List (MemorySearchResult Unit)).length : Int) < 1 := by decide
  obtain ⟨results, hcollect⟩ := (collectResults_returns hreadable hroom).2
    fun before found after htaken _ => by
      have hfound : found ∈ (w.db.cards.map fun row => (row, ())).take 5 := by
        rw [htaken]
        exact List.mem_append_right _ List.mem_cons_self
      obtain ⟨row, hrow, rfl⟩ := List.mem_map.1 (List.mem_of_mem_take hfound)
      exact h.healthy.verified row hrow
  have hcount := collectResults_length hreadable hroom hcollect
  rw [hnone] at hcount
  obtain rfl : results = [] := by simpa using hcount
  rw [← hstrip] at hrows hcollect
  refine ⟨w, _, h.reached, hrows, ?_, (search_ok hrows (by decide)).2 ⟨?_, h.ready.1, hcollect⟩⟩
  · rw [hstrip]
    exact h.length_candidates
  · rw [ValidQuery, hstrip]
    decide

/-- One card that was never revised is found. -/
theorem search_findsAll_sample :
    ∃ w rows, Reached (machine ticking) anyStep w ∧
      matchedRows (machine ticking) evenHost (pyStrip "editor") w.db = .ok rows ∧
      FindsAll (machine ticking) evenHost "editor" 1 rows w.db := by
  have hstrip : pyStrip "editor" = "editor" := pyStrip_editor
  obtain ⟨w, h⟩ := exists_revised 0
  obtain ⟨rows, hrows, hfinds⟩ := search_findsAll (machine ticking) evenHost w h.reached "editor" 1
    (by decide)
  have hcards := h.matchedRows
  rw [← hstrip, hrows] at hcards
  injection hcards with hcards
  refine ⟨w, rows, h.reached, hrows, hfinds.2 ⟨?_, h.ready.1, ?_, ?_⟩⟩
  · rw [ValidQuery, hstrip]
    decide
  · intro before found after htaken _
    have hfound : found ∈ rows.take 5 := by
      rw [show rows.take 5 = _ from htaken]
      exact List.mem_append_right _ List.mem_cons_self
    rw [hcards] at hfound
    obtain ⟨row, hrow, rfl⟩ := List.mem_map.1 (List.mem_of_mem_take hfound)
    exact h.healthy.verified row hrow
  · have hone := h.length_candidates
    obtain ⟨olds, last, hsplit, hlength, -⟩ := h.split
    have hshort : rows.length ≤ ((1 : Int) * 5).toNat := by
      rw [hcards, List.length_map, hsplit, List.length_append, hlength, List.length_singleton]
      decide
    rw [List.take_of_length_le hshort, hstrip, hcards, hone, h.answering]
    decide

end MemoryStore

end MiniCodeAgent
