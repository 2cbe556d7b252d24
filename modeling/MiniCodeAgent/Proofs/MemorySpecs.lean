import MiniCodeAgent.Proofs.MemoryInserts

/-!
# What each operation of the store does

One lemma for each public operation, about a call that returned: which rows it
appended. `upsertScopedSingleton` has three ways to return, and `Upserted` is
what they have in common: one card wins, and every other card that is or was
about to become active is retired in its favour.
-/

namespace MiniCodeAgent

namespace MemoryStore

variable {F : Type} [Json.PyFloat F]

/-! ## The rows an operation appends -/

/-- The card's authority is one its origin allows. -/
def CardRow.Authorized (row : CardRow F) : Prop :=
  ∃ maximum, maxAuthority row.origin = .ok maximum ∧ AuthorityLE row.authority maximum

/-- Each new card comes with a status event and an authority its origin allows. -/
structure Delta.Admitted (d : Delta F) : Prop where
  covered : ∀ row ∈ d.cards, ∃ event ∈ d.events, event.cardId = row.id
  authorized : ∀ row ∈ d.cards, row.Authorized

omit [Json.PyFloat F] in
theorem admitted_of_noCards {d : Delta F} (h : d.cards = []) : d.Admitted where
  covered row hrow := by rw [h] at hrow; exact absurd hrow List.not_mem_nil
  authorized row hrow := by rw [h] at hrow; exact absurd hrow List.not_mem_nil

omit [Json.PyFloat F] in
theorem Delta.Admitted.and {d d' : Delta F} (h : d.Admitted) (h' : d'.Admitted) :
    (d.and d').Admitted where
  covered row hrow := by
    rcases List.mem_append.1 hrow with hrow | hrow
    · obtain ⟨event, hevent, hid⟩ := h.covered row hrow
      exact ⟨event, List.mem_append_left _ hevent, hid⟩
    · obtain ⟨event, hevent, hid⟩ := h'.covered row hrow
      exact ⟨event, List.mem_append_right _ hevent, hid⟩
  authorized row hrow := (List.mem_append.1 hrow).elim (h.authorized row) (h'.authorized row)

variable {env : MemoryEnv F}

theorem validateCardInput_authorized {values : CardValues F}
    (h : validateCardInput env values = .ok ()) :
    validateAuthority values.origin values.authority = .ok () := by
  unfold validateCardInput at h
  obtain ⟨_, -, h⟩ := except_bind_ok.1 h
  obtain ⟨_, hauthority, -⟩ := except_bind_ok.1 h
  exact hauthority

theorem insertCard_admitted {values : CardValues F}
    (hvalues : validateCardInput env values = .ok ()) {card : MemoryCard F}
    {w w' : MemoryWorld F} (h : insertCard env values w = (.ok card, w')) :
    ∃ row event, row = newCardRow env (env.uuid4 w.uuids) values (env.timeNs w.ticks) ∧
      event.cardId = row.id ∧ event.eventType = "active" ∧ event.relatedCardId = none ∧
      Extends env w ((Delta.card row).and (.event event)) w' ∧
      ((Delta.card row).and (.event event)).Admitted ∧
      row.id ∉ w.db.cards.map CardRow.id ∧ card.id = row.id := by
  obtain ⟨row, event, hrow, hcard, htype, hrelated, hext, hfresh, hid⟩ := insertCard_ok h
  refine ⟨row, event, hrow, hcard, htype, hrelated, hext, ⟨fun r hr => ?_, fun r hr => ?_⟩,
    hfresh, hid⟩
  · rw [List.mem_singleton.1 hr]
    exact ⟨event, List.mem_singleton_self event, hcard⟩
  · rw [List.mem_singleton.1 hr, hrow]
    exact validateAuthority_ok (validateCardInput_authorized hvalues)

/-! ## The last word on a card -/

/-- The status the last of these events sets. -/
def lastChange (events : List EventRow) (cardId : String) : Option String :=
  ((events.filter fun e => e.cardId = cardId).getLast?).map EventRow.eventType

theorem lastChange_append (events more : List EventRow) (cardId : String) :
    lastChange (events ++ more) cardId =
      (lastChange more cardId).or (lastChange events cardId) := by
  rw [lastChange, List.filter_append, List.getLast?_append]
  unfold lastChange
  cases (more.filter fun e => e.cardId = cardId).getLast? with
  | none => rw [Option.none_or, Option.map_none, Option.none_or]
  | some e => rw [Option.some_or, Option.map_some, Option.some_or]

@[simp] theorem lastChange_nil (cardId : String) : lastChange [] cardId = none := rfl

theorem lastChange_singleton (event : EventRow) (cardId : String) :
    lastChange [event] cardId =
      if event.cardId = cardId then some event.eventType else none := by
  by_cases h : event.cardId = cardId
  · rw [if_pos h, lastChange, List.filter_cons_of_pos (by simpa using h)]
    rfl
  · rw [if_neg h, lastChange, List.filter_cons_of_neg (by simpa using h)]
    rfl

/-- Only what the events say counts. -/
theorem lastChange_eq_of_map {events : List EventRow} {olds : List String} {status : String}
    {related : Option String}
    (h : events.map EventRow.change = olds.map fun old => (old, status, related))
    (cardId : String) :
    lastChange events cardId = if cardId ∈ olds then some status else none := by
  induction olds generalizing events with
  | nil =>
      rw [List.map_eq_nil_iff.1 h]
      rfl
  | cons old olds ih =>
      cases events with
      | nil => cases h
      | cons event events =>
          rw [List.map_cons, List.map_cons] at h
          injection h with hhead htail
          have hcard : event.cardId = old := congrArg Prod.fst hhead
          have htype : event.eventType = status :=
            congrArg (fun change => change.2.1) hhead
          rw [← List.singleton_append, lastChange_append, ih htail, lastChange_singleton, hcard,
            htype]
          by_cases hmem : cardId ∈ olds
          · rw [if_pos hmem, if_pos (List.mem_cons_of_mem _ hmem), Option.some_or]
          · rw [if_neg hmem, Option.none_or]
            by_cases heq : old = cardId
            · rw [if_pos heq, if_pos (by rw [heq]; exact List.mem_cons_self)]
            · rw [if_neg heq, if_neg]
              intro hcons
              rcases List.mem_cons.1 hcons with rfl | hcons
              · exact heq rfl
              · exact hmem hcons

/-! ## New cards -/

theorem forM_insertEdge_ok {sourceId relation : String} {targets : List String} {u : PUnit}
    {w w' : MemoryWorld F}
    (h : (targets.forM fun target => (do
      let _ ← insertEdge env sourceId target relation : Tx F PUnit)) w = (.ok u, w')) :
    ∃ d, Extends env w d w' ∧ d.cards = [] ∧ d.sources = [] ∧ d.events = [] ∧
      d.edges.map EdgeRow.link = targets.map fun target => (sourceId, target, relation) := by
  refine Txn.forM_ok (P := fun done w₁ => ∃ d, Extends env w d w₁ ∧ d.cards = [] ∧
    d.sources = [] ∧ d.events = [] ∧
    d.edges.map EdgeRow.link = done.map fun target => (sourceId, target, relation)) h
    ⟨.none, extends_refl w, rfl, rfl, rfl, rfl⟩ ?_
  intro before target after w₁ w₂ v _ hP hx
  obtain ⟨d, hd, hcards, hsources, hevents, hedges⟩ := hP
  rw [Txn.bind_ok] at hx
  obtain ⟨_, w₃, hedge, hx⟩ := hx
  obtain ⟨-, rfl⟩ := Txn.pure_ok.1 hx
  obtain ⟨-, -, -, hext⟩ := insertEdge_ok hedge
  refine ⟨_, hd.trans hext, ?_, ?_, ?_, ?_⟩
  · rw [Delta.and, hcards]
    rfl
  · rw [Delta.and, hsources]
    rfl
  · rw [Delta.and, hevents]
    rfl
  · rw [Delta.and, List.map_append, List.map_append, hedges]
    rfl

theorem cardAuthority_ok {cardId authority : String} {db : Database F}
    (h : cardAuthority env cardId db = .ok authority) :
    ∃ row ∈ db.cards, row.id = cardId ∧ row.authority = authority := by
  unfold cardAuthority at h
  obtain ⟨row, hrow, h⟩ := except_bind_ok.1 h
  obtain ⟨hmem, hid, -⟩ := requireAuthenticatedCard_ok hrow
  cases h
  exact ⟨row, hmem, hid, rfl⟩

/-- A new card with its evidence, derived from cards of at least its authority. -/
theorem addCard_ok {values : CardValues F} {sources : List EvidenceSource}
    {derivedFrom : List String} {card : MemoryCard F} {w w' : MemoryWorld F}
    (h : addCard env values sources derivedFrom w = (.ok card, w')) :
    ∃ d row, Extends env w d w' ∧ d.Admitted ∧ d.cards = [row] ∧ row.id = card.id ∧
      row.Of env values ∧ row.id ∉ w.db.cards.map CardRow.id ∧ d.Recorded sources ∧
      d.events.map EventRow.change = [(row.id, "active", none)] ∧
      (d.edges.map EdgeRow.link = derivedFrom.map fun target => (row.id, target, "derived_from")) ∧
      (∀ target ∈ derivedFrom, ∃ other ∈ w.db.cards, other.id = target ∧
        AuthorityLE values.authority other.authority) ∧
      d.sources.map SourceRow.record = sources.map (recordOf row.id) := by
  unfold addCard at h
  rw [Txn.bind_ok] at h
  obtain ⟨_, w, hlift, h⟩ := h
  obtain ⟨hvalues, rfl⟩ := Txn.lift_ok.1 hlift
  rw [Txn.bind_ok] at h
  obtain ⟨_, w, hlift, h⟩ := h
  obtain ⟨-, rfl⟩ := Txn.lift_ok.1 hlift
  obtain ⟨w₃, hschema, h⟩ := writeTransaction_ok h
  rw [Txn.bind_ok] at h
  obtain ⟨authorities, w₃, hselect, h⟩ := h
  obtain ⟨hauthorities, rfl⟩ := select_ok.1 hselect
  rw [Txn.bind_ok] at h
  obtain ⟨_, w₃, hlift, h⟩ := h
  obtain ⟨hderived, rfl⟩ := Txn.lift_ok.1 hlift
  rw [Txn.bind_ok] at h
  obtain ⟨made, w₆, hcard, h⟩ := h
  rw [Txn.bind_ok] at h
  obtain ⟨_, w₇, hsources, h⟩ := h
  rw [Txn.bind_ok] at h
  obtain ⟨_, w₈, hedges, h⟩ := h
  obtain ⟨rfl, rfl⟩ := Txn.pure_ok.1 h
  obtain ⟨row, event, hrow, hevent, htype, hrelated, hext, hadmitted, hfresh, hid⟩ :=
    insertCard_admitted hvalues hcard
  obtain ⟨ds, hds, ⟨hdsCards, hdsEdges, hdsEvents, hrecords⟩, hrows⟩ := insertSources_ok hsources
  obtain ⟨de, hde, hdeCards, hdeSources, hdeEvents, hlinks⟩ := forM_insertEdge_ok hedges
  have hcardsEq : w₃.db.cards = w.db.cards := by
    rw [hschema.cards]
    exact List.append_nil _
  refine ⟨_, row, ((hschema.trans hext).trans hds).trans hde, ?_, ?_, hid.symm,
    ⟨hvalues, _, _, hrow⟩, ?_, ?_, ?_, ?_, ?_, ?_⟩
  · exact (((admitted_of_noCards rfl).and hadmitted).and (admitted_of_noCards hdsCards)).and
      (admitted_of_noCards hdeCards)
  · show (([] ++ [row] ++ []) ++ ds.cards) ++ de.cards = [row]
    rw [hdsCards, hdeCards]
    rfl
  · rw [← hcardsEq]
    exact hfresh
  · exact (((recorded_of_none rfl).and (recorded_of_none rfl)).and
      fun row hrow => ⟨_, hrecords row hrow⟩).and (recorded_of_none hdeSources)
  · show ((([] ++ ([] ++ [event])) ++ ds.events) ++ de.events).map EventRow.change = _
    rw [hdsEvents, hdeEvents]
    simp [EventRow.change, hevent, htype, hrelated]
  · show ((([] ++ ([] ++ [])) ++ ds.edges) ++ de.edges).map EdgeRow.link = _
    rw [hdsEdges, ← hid]
    exact hlinks
  · intro target htarget
    obtain ⟨authority, hmem, hok⟩ := except_mapM_mem hauthorities htarget
    obtain ⟨other, hother, hotherId, rfl⟩ := cardAuthority_ok hok
    rw [← hcardsEq]
    exact ⟨other, hother, hotherId, validateDerivedAuthority_ok hderived hmem⟩
  · show ((([] ++ ([] ++ [])) ++ ds.sources) ++ de.sources).map SourceRow.record = _
    rw [hdeSources, List.append_nil, ← hid]
    exact hrows

theorem replayedCard_ok {source : EvidenceSource} {kind subtype : String} {db : Database F}
    {rows : List SourceRow} {card : MemoryCard F}
    (h : replayedCard env source kind subtype db rows = .ok (some card)) :
    ∃ row ∈ rows, ¬ changedProvenance row source ∧ row.cardId = card.id ∧
      card.id ∈ db.cards.map CardRow.id := by
  induction rows with
  | nil => cases h
  | cons row rows ih =>
      rw [replayedCard] at h
      obtain ⟨_, -, h⟩ := except_bind_ok.1 h
      obtain ⟨_, hprovenance, h⟩ := except_bind_ok.1 h
      obtain ⟨cardRow, hcard, h⟩ := except_bind_ok.1 h
      obtain ⟨hmem, hid, -⟩ := requireAuthenticatedCard_ok hcard
      split at h
      · next hkind =>
          obtain ⟨status, -, h⟩ := except_bind_ok.1 h
          obtain ⟨made, hmade, h⟩ := except_bind_ok.1 h
          cases h
          have hmadeId := (cardFromRow_ok hmade).1
          exact ⟨row, List.mem_cons_self, raiseIf_ok.1 hprovenance, hid.symm.trans hmadeId.symm,
            by rw [hmadeId]; exact List.mem_map_of_mem hmem⟩
      · obtain ⟨found, hfound, rest⟩ := ih h
        exact ⟨found, List.mem_cons_of_mem _ hfound, rest⟩

/-- What a call with this evidence may have appended: a card with these values
and the evidence, or nothing where the evidence is there. -/
def AddedOnce (env : MemoryEnv F) (values : CardValues F) (source : EvidenceSource)
    (w : MemoryWorld F) (cardId : String) (d : Delta F) : Prop :=
  (d = .none ∧ cardId ∈ w.db.cards.map CardRow.id ∧
      ∃ row ∈ w.db.sources, row.Records cardId source) ∨
    ∃ row event sourceRow, d = ⟨[row], [sourceRow], [], [event]⟩ ∧ row.id = cardId ∧
      row.Of env values ∧ row.id ∉ w.db.cards.map CardRow.id ∧
      sourceRow.Records cardId source ∧ event.change = (cardId, "active", none)

/-- The card the evidence stands for already, or a new one with that evidence. -/
theorem addCardOnceForSource_ok {source : EvidenceSource} {values : CardValues F}
    {card : MemoryCard F} {w w' : MemoryWorld F}
    (h : addCardOnceForSource env source values w = (.ok card, w')) :
    ∃ d, Extends env w d w' ∧ d.Admitted ∧ AddedOnce env values source w card.id d := by
  unfold addCardOnceForSource at h
  rw [Txn.bind_ok] at h
  obtain ⟨_, w, hlift, h⟩ := h
  obtain ⟨hvalues, rfl⟩ := Txn.lift_ok.1 hlift
  obtain ⟨w₁, hschema, h⟩ := writeTransaction_ok h
  have hcardsEq : w₁.db.cards = w.db.cards := by
    rw [hschema.cards]
    exact List.append_nil _
  have hsourcesEq : w₁.db.sources = w.db.sources := by
    rw [hschema.sources]
    exact List.append_nil _
  rw [Txn.bind_ok] at h
  obtain ⟨replayed, w₁, hselect, h⟩ := h
  obtain ⟨hreplayed, rfl⟩ := select_ok.1 hselect
  cases replayed with
  | some found =>
      obtain ⟨rfl, rfl⟩ := Txn.pure_ok.1 h
      obtain ⟨row, hrow, hprovenance, hrowCard, hmem⟩ := replayedCard_ok hreplayed
      obtain ⟨hrow, hmatch⟩ := List.mem_filter.1 ((List.perm_insertionSort _ _).mem_iff.1 hrow)
      have hmatch := of_decide_eq_true hmatch
      rw [changedProvenance, not_or, not_not, not_not] at hprovenance
      rw [hcardsEq] at hmem
      rw [hsourcesEq] at hrow
      exact ⟨.none, hschema, admitted_of_noCards rfl, Or.inl ⟨rfl, hmem, row, hrow, hrowCard,
        hmatch.1, hmatch.2, hprovenance.1, hprovenance.2⟩⟩
  | none =>
      rw [Txn.bind_ok] at h
      obtain ⟨made, w₂, hcard, h⟩ := h
      rw [Txn.bind_ok] at h
      obtain ⟨_, w₃, hsource, h⟩ := h
      obtain ⟨rfl, rfl⟩ := Txn.pure_ok.1 h
      obtain ⟨row, event, hrow, hevent, htype, hrelated, hext, hadmitted, hfresh, hid⟩ :=
        insertCard_admitted hvalues hcard
      rw [hcardsEq] at hfresh
      refine ⟨_, (hschema.trans hext).trans (insertSource_ok hsource).2,
        ((admitted_of_noCards rfl).and hadmitted).and (admitted_of_noCards rfl),
        Or.inr ⟨row, event, _, rfl, hid.symm, ⟨hvalues, _, _, hrow⟩, hfresh, ⟨rfl, rfl, rfl, rfl, rfl⟩, ?_⟩⟩
      rw [EventRow.change, hevent, htype, hrelated, hid]

/-! ## Existing cards -/

/-- A new card in the place of one of at least its authority. -/
theorem supersede_ok {oldCardId : String} {values : CardValues F}
    {sources : List EvidenceSource} {card : MemoryCard F} {w w' : MemoryWorld F}
    (h : supersede env oldCardId values sources w = (.ok card, w')) :
    ∃ d row, Extends env w d w' ∧ d.Admitted ∧ d.cards = [row] ∧ row.id = card.id ∧
      row.Of env values ∧ row.id ∉ w.db.cards.map CardRow.id ∧ d.Recorded sources ∧
      oldCardId ∈ w.db.cards.map CardRow.id ∧
      d.edges.map EdgeRow.link = [(row.id, oldCardId, "supersedes")] ∧
      d.events.map EventRow.change =
        [(row.id, "active", none), (oldCardId, "superseded", some row.id)] ∧
      d.sources.map SourceRow.record = sources.map (recordOf row.id) := by
  unfold supersede at h
  rw [Txn.bind_ok] at h
  obtain ⟨_, w, hlift, h⟩ := h
  obtain ⟨hvalues, rfl⟩ := Txn.lift_ok.1 hlift
  rw [Txn.bind_ok] at h
  obtain ⟨_, w, hlift, h⟩ := h
  obtain ⟨-, rfl⟩ := Txn.lift_ok.1 hlift
  obtain ⟨w₁, hschema, h⟩ := writeTransaction_ok h
  rw [Txn.bind_ok] at h
  obtain ⟨authority, w₁, hselect, h⟩ := h
  obtain ⟨hauthority, rfl⟩ := select_ok.1 hselect
  rw [Txn.bind_ok] at h
  obtain ⟨_, w₁, hlift, h⟩ := h
  obtain ⟨-, rfl⟩ := Txn.lift_ok.1 hlift
  rw [Txn.bind_ok] at h
  obtain ⟨made, w₂, hcard, h⟩ := h
  rw [Txn.bind_ok] at h
  obtain ⟨_, w₃, hsources, h⟩ := h
  rw [Txn.bind_ok] at h
  obtain ⟨_, w₄, hretire, h⟩ := h
  obtain ⟨rfl, rfl⟩ := Txn.pure_ok.1 h
  obtain ⟨row, event, hrow, hevent, htype, hrelated, hext, hadmitted, hfresh, hid⟩ :=
    insertCard_admitted hvalues hcard
  obtain ⟨ds, hds, ⟨hdsCards, hdsEdges, hdsEvents, hrecords⟩, hrows⟩ := insertSources_ok hsources
  obtain ⟨dr, hdr, hdrCards, hdrSources, hdrEdges, hdrEvents⟩ := retire_ok hretire
  have hcardsEq : w₁.db.cards = w.db.cards := by
    rw [hschema.cards]
    exact List.append_nil _
  refine ⟨_, row, ((hschema.trans hext).trans hds).trans hdr, ?_, ?_, hid.symm, ⟨hvalues, _, _, hrow⟩, ?_,
    ?_, ?_, ?_, ?_, ?_⟩
  · exact (((admitted_of_noCards rfl).and hadmitted).and (admitted_of_noCards hdsCards)).and
      (admitted_of_noCards hdrCards)
  · show (([] ++ [row] ++ []) ++ ds.cards) ++ dr.cards = [row]
    rw [hdsCards, hdrCards]
    rfl
  · rw [← hcardsEq]
    exact hfresh
  · exact (((recorded_of_none rfl).and (recorded_of_none rfl)).and
      fun row hrow => ⟨_, hrecords row hrow⟩).and (recorded_of_none hdrSources)
  · obtain ⟨other, hother, hotherId, -⟩ := cardAuthority_ok hauthority
    rw [← hcardsEq, ← hotherId]
    exact List.mem_map_of_mem hother
  · show ((([] ++ ([] ++ [])) ++ ds.edges) ++ dr.edges).map EdgeRow.link = _
    rw [hdsEdges, ← hid]
    exact hdrEdges
  · show ((([] ++ ([] ++ [event])) ++ ds.events) ++ dr.events).map EventRow.change = _
    rw [hdsEvents, List.append_nil, List.map_append, hdrEvents, hid]
    simp [EventRow.change, hevent, htype, hrelated]
  · show ((([] ++ ([] ++ [])) ++ ds.sources) ++ dr.sources).map SourceRow.record = _
    rw [hdrSources, List.append_nil, ← hid]
    exact hrows

theorem transition_ok {cardId status : String} {related : Option String} {u : Unit}
    {w w' : MemoryWorld F} (h : transition env cardId status related w = (.ok u, w')) :
    ∃ event, Extends env w (.event event) w' ∧ event.cardId = cardId ∧
      event.eventType = status ∧ status ≠ "active" ∧ event.relatedCardId = related := by
  unfold transition at h
  rw [Txn.bind_ok] at h
  obtain ⟨_, w, hlift, h⟩ := h
  obtain ⟨hstatus, rfl⟩ := liftRaise_ok.1 hlift
  obtain ⟨w₁, hschema, h⟩ := writeTransaction_ok h
  rw [Txn.bind_ok] at h
  obtain ⟨_, w₁, hselect, h⟩ := h
  obtain ⟨-, rfl⟩ := select_ok.1 hselect
  rw [Txn.bind_ok] at h
  obtain ⟨_, w₁, hselect, h⟩ := h
  obtain ⟨-, rfl⟩ := select_ok.1 hselect
  exact ⟨_, hschema.trans (insertEvent_extends h), rfl, rfl,
    fun hactive => hstatus (Or.inr hactive), rfl⟩

theorem addEdge_ok {sourceId targetId relation : String} {edge : MemoryEdge}
    {w w' : MemoryWorld F} (h : addEdge env sourceId targetId relation w = (.ok edge, w')) :
    ∃ row : EdgeRow, row.link = (sourceId, targetId, relation) ∧ Extends env w (.edge row) w' := by
  unfold addEdge at h
  obtain ⟨w₁, hschema, h⟩ := writeTransaction_ok h
  obtain ⟨-, -, -, hext⟩ := insertEdge_ok h
  exact ⟨_, rfl, hschema.trans hext⟩

theorem addSource_ok {cardId : String} {source made : EvidenceSource} {w w' : MemoryWorld F}
    (h : addSource env cardId source w = (.ok made, w')) :
    ∃ d, Extends env w d w' ∧ d.OnlySources cardId [source] := by
  unfold addSource at h
  obtain ⟨w₁, hschema, h⟩ := writeTransaction_ok h
  obtain ⟨d, hd, honly⟩ := addSourceInConnection_ok (List.mem_singleton_self source) h
  exact ⟨d, hschema.trans hd, honly⟩

/-! ## Control decisions -/

theorem recordMemoryDecision_ok {querySha256 stage operation : String}
    {selectedCardIds : List String} {expectedUtility : PyNumber F} {reason : String}
    {shadow : Bool} {u : Unit} {w w' : MemoryWorld F}
    (h : recordMemoryDecision env querySha256 stage operation selectedCardIds expectedUtility
      reason shadow w = (.ok u, w')) : Extends env w .none w' := by
  unfold recordMemoryDecision at h
  rw [Txn.bind_ok] at h
  obtain ⟨_, w, hlift, h⟩ := h
  obtain ⟨-, rfl⟩ := Txn.lift_ok.1 hlift
  obtain ⟨w₁, hschema, h⟩ := writeTransaction_ok h
  rw [Txn.bind_ok] at h
  obtain ⟨_, w₂, hrequire, h⟩ := h
  have hsame : w₂ = w₁ := by
    refine Txn.forM_ok (P := fun _ w₂ => w₂ = w₁) hrequire rfl ?_
    intro before cardId after w₃ w₄ v _ hP hx
    rw [Txn.bind_ok] at hx
    obtain ⟨_, w₅, hselect, hx⟩ := hx
    rw [(Txn.pure_ok.1 hx).2, (select_ok.1 hselect).2, hP]
  subst hsame
  rw [Txn.bind_ok] at h
  obtain ⟨_, w₃, huuid, h⟩ := h
  obtain ⟨rfl, rfl⟩ := uuid4_ok.1 huuid
  rw [Txn.bind_ok] at h
  obtain ⟨_, w₄, htime, h⟩ := h
  obtain ⟨rfl, rfl⟩ := timeNs_ok.1 htime
  obtain ⟨-, rfl⟩ := insertInto_ok.1 h
  refine hschema.trans (extends_of_eq ?_ ?_ ?_ ?_ ?_ fun _ => Or.inl ⟨?_, ?_⟩)
  · rfl
  · rfl
  · rfl
  · rfl
  · exact ⟨Nat.le_succ _, Nat.le_succ _⟩
  · rfl
  · rfl

theorem recordMemoryOutcome_ok {decisionId : String} {success : Bool} {reward : PyNumber F}
    {harmful : Bool} {tokenCost : Int} {evidence : EvidenceSource} {u : Unit}
    {w w' : MemoryWorld F}
    (h : recordMemoryOutcome env decisionId success reward harmful tokenCost evidence w =
      (.ok u, w')) : Extends env w .none w' := by
  unfold recordMemoryOutcome at h
  rw [Txn.bind_ok] at h
  obtain ⟨_, w, hlift, h⟩ := h
  obtain ⟨-, rfl⟩ := Txn.lift_ok.1 hlift
  obtain ⟨w₁, hschema, h⟩ := writeTransaction_ok h
  rw [Txn.bind_ok] at h
  obtain ⟨_, w₁, hselect, h⟩ := h
  obtain ⟨-, rfl⟩ := select_ok.1 hselect
  rw [Txn.bind_ok] at h
  obtain ⟨_, w₃, huuid, h⟩ := h
  obtain ⟨rfl, rfl⟩ := uuid4_ok.1 huuid
  rw [Txn.bind_ok] at h
  obtain ⟨_, w₄, htime, h⟩ := h
  obtain ⟨rfl, rfl⟩ := timeNs_ok.1 htime
  obtain ⟨-, rfl⟩ := insertInto_ok.1 h
  refine hschema.trans (extends_of_eq ?_ ?_ ?_ ?_ ?_ fun _ => Or.inl ⟨?_, ?_⟩)
  · rfl
  · rfl
  · rfl
  · rfl
  · exact ⟨Nat.le_succ _, Nat.le_succ _⟩
  · rfl
  · rfl

end MemoryStore

end MiniCodeAgent
