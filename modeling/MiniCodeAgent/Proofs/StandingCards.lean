import MiniCodeAgent.Proofs.MemoryStatus
import MiniCodeAgent.Proofs.MemoryUpsert

/-!
# One card for one piece of evidence

`add_card_once_for_source` looks for a card that its evidence stands for before it
adds one. Which card that is the tables say: the cards of a kind and subtype that
source rows of a type and reference name, the oldest row first, have a first one or
none (`standingCard`). Either that card comes back, with the status it has by now,
or a new one does, and this is the only one whose status events are its own.

That a new card's status is the one it was given rests on what every operation
keeps: no status event is about a card that is not there (`Rooted`).
-/

namespace MiniCodeAgent

namespace MemoryStore

variable {F : Type}

/-! ## Status events are about cards -/

/-- Every status event is about a card of the table. -/
def Rooted (db : Database F) : Prop :=
  ∀ event ∈ db.cardEvents, event.cardId ∈ db.cards.map CardRow.id

variable [Json.PyFloat F] {env : MemoryEnv F}

theorem Rooted.extends {w w' : MemoryWorld F} {d : Delta F} (h : Rooted w.db)
    (hd : Extends env w d w')
    (hevents : ∀ event ∈ d.events, event.cardId ∈ w.db.cards.map CardRow.id ∨
      event.cardId ∈ d.cards.map CardRow.id) : Rooted w'.db := by
  intro event hevent
  rw [hd.events] at hevent
  rw [hd.cards, List.map_append, List.mem_append]
  rcases List.mem_append.1 hevent with hold | hnew
  · exact Or.inl (h event hold)
  · exact hevents event hnew

theorem Rooted.unchanged {w w' : MemoryWorld F} {d : Delta F} (h : Rooted w.db)
    (hd : Extends env w d w') (hevents : d.events = []) : Rooted w'.db := by
  refine h.extends hd fun event hevent => ?_
  rw [hevents] at hevent
  cases hevent

omit [Json.PyFloat F] in
/-- What the changes are about, the events are. -/
theorem cardId_of_changes {events : List EventRow}
    {changes : List (String × String × Option String)}
    (h : events.map EventRow.change = changes) {event : EventRow} (hevent : event ∈ events) :
    event.cardId ∈ changes.map Prod.fst := by
  rw [← h, List.map_map]
  exact List.mem_map_of_mem (f := Prod.fst ∘ EventRow.change) hevent

theorem transition_rooted {cardId status : String} {related : Option String} {u : Unit}
    {w w' : MemoryWorld F} (hroot : Rooted w.db)
    (h : transition env cardId status related w = (.ok u, w')) : Rooted w'.db := by
  unfold transition at h
  rw [Txn.bind_ok] at h
  obtain ⟨_, w, hlift, h⟩ := h
  obtain ⟨-, rfl⟩ := liftRaise_ok.1 hlift
  obtain ⟨w₁, hschema, h⟩ := writeTransaction_ok h
  rw [Txn.bind_ok] at h
  obtain ⟨row, w₁, hselect, h⟩ := h
  obtain ⟨hrow, rfl⟩ := select_ok.1 hselect
  obtain ⟨hmem, hid, -⟩ := requireAuthenticatedCard_ok hrow
  rw [Txn.bind_ok] at h
  obtain ⟨_, w₂, hselect, h⟩ := h
  obtain ⟨-, rfl⟩ := select_ok.1 hselect
  refine (hroot.unchanged hschema rfl).extends (insertEvent_extends h) fun event hevent => ?_
  rw [List.mem_singleton.1 hevent]
  refine Or.inl ?_
  show cardId ∈ _
  rw [← hid]
  exact List.mem_map_of_mem hmem

theorem Upserted.rooted {values : CardValues F} {w w' : MemoryWorld F} {actives : List String}
    {winner : String} {d : Delta F} (h : Upserted env values w actives winner d)
    (hd : Extends env w d w') (hactives : actives ⊆ w.db.cards.map CardRow.id)
    (hroot : Rooted w.db) : Rooted w'.db := by
  obtain ⟨retired, hretired, -, hlast⟩ := h.retired
  refine hroot.extends hd fun event hevent => ?_
  by_cases hmem : event.cardId ∈ retired
  · exact ((hretired _).1 hmem).1.imp_left fun hactive => hactives hactive
  · by_cases hnew : event.cardId ∈ d.cards.map CardRow.id
    · exact Or.inr hnew
    · have hnone := hlast event.cardId
      rw [if_neg hmem, if_neg hnew, lastChange, Option.map_eq_none_iff, List.getLast?_eq_none_iff,
        List.filter_eq_nil_iff] at hnone
      exact absurd (decide_eq_true rfl) (hnone event hevent)

/-- One operation, by cases on what it appends. -/
theorem Rooted.perform {w : MemoryWorld F} (h : Rooted w.db) (op : Operation F) :
    Rooted (perform env op w).db := by
  cases hrun : operate env op w with
  | mk r w' =>
  rw [show MemoryStore.perform env op w = w' from congrArg Prod.snd hrun]
  cases r with
  | error e => exact h.unchanged (operate_error hrun) rfl
  | ok u =>
  cases op with
  | addCard values sources derivedFrom =>
      obtain ⟨card, hrun⟩ := dropValue_ok.1 hrun
      obtain ⟨d, row, hd, -, hcards, -, -, -, -, hevents, -⟩ := addCard_ok hrun
      refine h.extends hd fun event hevent => Or.inr ?_
      rw [hcards, List.map_singleton]
      exact cardId_of_changes hevents hevent
  | addCardOnceForSource source values =>
      obtain ⟨card, hrun⟩ := dropValue_ok.1 hrun
      obtain ⟨d, hd, -, hadded⟩ := addCardOnceForSource_ok hrun
      rcases hadded with ⟨rfl, -⟩ | ⟨row, event, sourceRow, rfl, hid, -, -, -, hchange⟩
      · exact h.unchanged hd rfl
      · refine h.extends hd fun other hother => Or.inr ?_
        rw [List.mem_singleton.1 hother, List.map_singleton, List.mem_singleton, hid]
        exact congrArg Prod.fst hchange
  | upsertScopedSingleton anchor values sources =>
      obtain ⟨card, hrun⟩ := dropValue_ok.1 hrun
      obtain ⟨family, active, d, winner, hread, -, hactive, hd, hupserted, -⟩ :=
        upsertScopedSingleton_ok hrun
      refine hupserted.rooted hd (fun cardId hcardId => ?_) h
      obtain ⟨row, hrow, rfl⟩ := List.mem_map.1 hcardId
      rw [hactive] at hrow
      obtain ⟨m, hm, rfl⟩ := List.mem_map.1 hrow
      exact List.mem_map_of_mem (hread m (List.mem_filter.1 hm).1).1
  | supersede oldCardId values sources =>
      obtain ⟨card, hrun⟩ := dropValue_ok.1 hrun
      obtain ⟨d, row, hd, -, hcards, -, -, -, -, hold, -, hevents, -⟩ :=
        supersede_ok hrun
      refine h.extends hd fun event hevent => ?_
      rw [hcards, List.map_singleton, List.mem_singleton]
      have hmem := cardId_of_changes hevents hevent
      simp only [List.map_cons, List.map_nil, List.mem_cons, List.not_mem_nil, or_false] at hmem
      rcases hmem with hnew | hretired
      · exact Or.inr hnew
      · exact Or.inl (hretired ▸ hold)
  | transition cardId status related => exact transition_rooted h hrun
  | addEdge sourceId targetId relation =>
      obtain ⟨edge, hrun⟩ := dropValue_ok.1 hrun
      obtain ⟨row, -, hd⟩ := addEdge_ok hrun
      exact h.unchanged hd rfl
  | addSource cardId source =>
      obtain ⟨made, hrun⟩ := dropValue_ok.1 hrun
      obtain ⟨d, hd, honly⟩ := addSource_ok hrun
      exact h.unchanged hd honly.events
  | recordMemoryDecision => exact h.unchanged (recordMemoryDecision_ok hrun) rfl
  | recordMemoryOutcome => exact h.unchanged (recordMemoryOutcome_ok hrun) rfl

omit [Json.PyFloat F] in
theorem rooted_start : Rooted (MemoryWorld.start F).db := fun _ h => absurd h List.not_mem_nil

theorem rooted_of_reached {meets : MemoryWorld F → Operation F → Prop} {w : MemoryWorld F}
    (h : Reached env meets w) : Rooted w.db := by
  induction h with
  | start => exact rooted_start
  | step _ op _ ih => exact ih.perform op

omit [Json.PyFloat F] in
/-- A card's only event is the newest of its events. -/
theorem latestEvent_of_new {db : Database F} {events : List EventRow} {event : EventRow}
    (hevents : db.cardEvents = events ++ [event])
    (hnew : ∀ other ∈ events, other.cardId ≠ event.cardId) :
    latestEvent event.cardId db = some event := by
  have hnone : events.filter (fun other => other.cardId = event.cardId) = [] :=
    List.filter_eq_nil_iff.2 fun other hother => by simpa using hnew other hother
  rw [latestEvent, hevents, List.filter_append, hnone, List.nil_append,
    List.filter_cons_of_pos (by simp), List.filter_nil]
  rfl

/-! ## The card that evidence stands for -/

/-- The rows of a reference, the oldest first. -/
def referenceRows (db : Database F) (sourceType sourceRef : String) : List SourceRow :=
  oldestFirst (db.sources.filter fun row =>
    row.sourceType = sourceType ∧ row.sourceRef = sourceRef)

/-- The card of the kind and subtype that a row is about. -/
def cardOfRow (db : Database F) (kind subtype : String) (row : SourceRow) : Option (CardRow F) :=
  db.cards.find? fun card => card.id = row.cardId ∧ card.kind = kind ∧ card.subtype = subtype

/-- The first card of the kind and subtype that a reference stands for. -/
def standingCard (db : Database F) (sourceType sourceRef kind subtype : String) :
    Option (CardRow F) :=
  ((referenceRows db sourceType sourceRef).filterMap (cardOfRow db kind subtype)).head?

/-- The card is what the tables say of the row: this one, with this status. -/
def Shows (env : MemoryEnv F) (db : Database F) (row : CardRow F) (card : MemoryCard F) : Prop :=
  row ∈ db.cards ∧ verifyCard env row = .ok () ∧
    ∃ status, currentStatus env row.id db = .ok status ∧ cardFromRow row status = .ok card

theorem Shows.id {db : Database F} {row : CardRow F} {card : MemoryCard F}
    (h : Shows env db row card) : card.id = row.id := by
  obtain ⟨-, -, status, -, hcard⟩ := h
  exact (cardFromRow_ok hcard).1

theorem cardFromRow_value {row : CardRow F} {status : String} {card : MemoryCard F}
    (h : cardFromRow row status = .ok card) :
    card.value = row.value ∧ card.recordedAtNs = row.recordedAtNs := by
  unfold cardFromRow at h
  obtain ⟨_, -, h⟩ := except_bind_ok.1 h
  obtain ⟨_, -, h⟩ := except_bind_ok.1 h
  cases h
  exact ⟨rfl, rfl⟩

/-- By recursion on the rows, as the search goes through them. -/
theorem replayedCard_first {source : EvidenceSource} {kind subtype : String} {db : Database F}
    (hunique : (db.cards.map CardRow.id).Nodup) {rows : List SourceRow}
    {found : Option (MemoryCard F)}
    (h : replayedCard env source kind subtype db rows = .ok found) :
    (found = none ∧ (rows.filterMap (cardOfRow db kind subtype)).head? = none) ∨
      ∃ row card, found = some card ∧ Shows env db row card ∧
        (rows.filterMap (cardOfRow db kind subtype)).head? = some row := by
  induction rows with
  | nil =>
      cases h
      exact Or.inl ⟨rfl, rfl⟩
  | cons row rows ih =>
      rw [replayedCard] at h
      obtain ⟨_, -, h⟩ := except_bind_ok.1 h
      obtain ⟨_, -, h⟩ := except_bind_ok.1 h
      obtain ⟨cardRow, hcard, h⟩ := except_bind_ok.1 h
      obtain ⟨hmem, hid, hverify⟩ := requireAuthenticatedCard_ok hcard
      split at h
      · next hkind =>
          obtain ⟨status, hstatus, h⟩ := except_bind_ok.1 h
          obtain ⟨card, hmade, h⟩ := except_bind_ok.1 h
          cases h
          have hrow : cardOfRow db kind subtype row = some cardRow := by
            cases hfind : cardOfRow db kind subtype row with
            | none =>
                have hno := List.find?_eq_none.1 hfind cardRow hmem
                exact absurd (decide_eq_true ⟨hid, hkind⟩) hno
            | some other =>
                unfold cardOfRow at hfind
                have hother := List.find?_some hfind
                rw [decide_eq_true_eq] at hother
                rw [eq_of_same_id hunique (List.mem_of_find?_eq_some hfind) hmem
                  (hother.1.trans hid.symm)]
          refine Or.inr ⟨cardRow, card, rfl, ⟨hmem, hverify, status, hstatus, hmade⟩, ?_⟩
          rw [List.filterMap_cons_some hrow, List.head?_cons]
      · next hkind =>
          have hrow : cardOfRow db kind subtype row = none := by
            refine List.find?_eq_none.2 fun other hother hmatch => hkind ?_
            have hmatch := of_decide_eq_true hmatch
            rw [← eq_of_same_id hunique hother hmem (hmatch.1.trans hid.symm)]
            exact hmatch.2
          rw [List.filterMap_cons_none hrow]
          exact ih h

/-! ## What comes back -/

/-- A transaction on the store's own metadata runs on tables that are ready. -/
theorem writeTransaction_ready {α : Type} {body : Tx F α} {a : α} {w w' : MemoryWorld F}
    (hkept : MetasKept env w.db) (h : writeTransaction env body w = (.ok a, w')) :
    ∃ w₁, Extends env w .none w₁ ∧ Ready env w₁.db ∧ body w₁ = (.ok a, w') := by
  unfold writeTransaction at h
  rw [Txn.bind_ok] at h
  obtain ⟨_, w₁, hschema, h⟩ := h
  refine ⟨w₁, createSchema_extends hschema, ?_, Txn.atomically_ok.1 h⟩
  rw [createSchema_run hkept] at hschema
  cases hschema
  exact ⟨rfl, rfl⟩

theorem Extends.initialized {w w' : MemoryWorld F} {d : Delta F} (hd : Extends env w d w')
    (hready : Ready env w.db) : w'.db.initialized = true := by
  rcases hd.opens (Or.inr hready.2) with ⟨hinit, -⟩ | ⟨hinit, -⟩
  · exact hinit.trans hready.1
  · exact hinit

/-- The new card's row is the one that was read back. -/
theorem insertCard_card {values : CardValues F} {card : MemoryCard F} {w w' : MemoryWorld F}
    (h : insertCard env values w = (.ok card, w')) :
    ∃ row, requireCard card.id w'.db = .ok row ∧ cardFromRow row "active" = .ok card := by
  unfold insertCard at h
  rw [Txn.bind_ok] at h
  obtain ⟨_, w₁, -, h⟩ := h
  rw [Txn.bind_ok] at h
  obtain ⟨_, w₂, -, h⟩ := h
  rw [Txn.bind_ok] at h
  obtain ⟨_, w₃, -, h⟩ := h
  rw [Txn.bind_ok] at h
  obtain ⟨_, w₄, -, h⟩ := h
  rw [Txn.bind_ok] at h
  obtain ⟨_, w₅, -, h⟩ := h
  rw [Txn.bind_ok] at h
  obtain ⟨_, w₆, -, h⟩ := h
  rw [Txn.bind_ok] at h
  obtain ⟨row, w₇, hselect, h⟩ := h
  obtain ⟨hrow, rfl⟩ := select_ok.1 hselect
  obtain ⟨hcard, rfl⟩ := Txn.lift_ok.1 h
  refine ⟨row, ?_, hcard⟩
  rw [(cardFromRow_ok hcard).1, (requireCard_ok hrow).2]
  exact hrow

/-- What is shown of a row is what `get` answers. -/
theorem Shows.getCard {db : Database F} {row : CardRow F} {card : MemoryCard F}
    (h : Shows env db row card) (hinit : db.initialized = true)
    (hunique : (db.cards.map CardRow.id).Nodup) : getCard env card.id db = .ok card := by
  have hid := h.id
  obtain ⟨hmem, hverify, status, hstatus, hcard⟩ := h
  rw [MemoryStore.getCard, connect, hinit, hid, requireCard_of_mem hunique hmem]
  simp only [raiseIf, if_false, Bool.true_eq_false, except_ok_bind, hverify, hstatus]
  exact hcard

theorem Shows.unchanged {w w' : MemoryWorld F} {row : CardRow F} {card : MemoryCard F}
    (h : Shows env w.db row card) (hd : Extends env w .none w') : Shows env w'.db row card := by
  have hcards : w'.db.cards = w.db.cards := hd.cards.trans (List.append_nil _)
  have hevents : w'.db.cardEvents = w.db.cardEvents := hd.events.trans (List.append_nil _)
  obtain ⟨hmem, hverify, status, hstatus, hcard⟩ := h
  refine ⟨hcards ▸ hmem, hverify, status, ?_, hcard⟩
  rw [currentStatus, latestEvent, hevents]
  exact hstatus

/-- A card was added for the evidence: this row, and it is active. -/
structure AddedFor (env : MemoryEnv F) (values : CardValues F) (w : MemoryWorld F)
    (card : MemoryCard F) (d : Delta F) (row : CardRow F) : Prop where
  cards : d.cards = [row]
  of : row.Of env values
  id : row.id = card.id
  fresh : row.id ∉ w.db.cards.map CardRow.id
  change : d.events.map EventRow.change = [(row.id, "active", none)]
  read : cardFromRow row "active" = .ok card
  admitted : d.Admitted

/-- The card that stands for the evidence comes back, and nothing is written; or none
does, and a new one is added, and shows as it was asked for. -/
theorem addCardOnceForSource_cases {source : EvidenceSource} {values : CardValues F}
    {card : MemoryCard F} {w w' : MemoryWorld F} (hsound : Sound env w) (hroot : Rooted w.db)
    (hfloats : values.Floats) (h : addCardOnceForSource env source values w = (.ok card, w')) :
    w'.db.initialized = true ∧
      ((∃ row, standingCard w.db source.sourceType source.sourceRef values.kind values.subtype =
            some row ∧ Extends env w .none w' ∧ Shows env w.db row card) ∨
        ∃ d row, standingCard w.db source.sourceType source.sourceRef values.kind
            values.subtype = none ∧ Extends env w d w' ∧ AddedFor env values w card d row ∧
          Shows env w'.db row card) := by
  unfold addCardOnceForSource at h
  rw [Txn.bind_ok] at h
  obtain ⟨_, w, hlift, h⟩ := h
  obtain ⟨hvalues, rfl⟩ := Txn.lift_ok.1 hlift
  obtain ⟨w₁, hschema, hready, h⟩ := writeTransaction_ready hsound.metas h
  have hcards : w₁.db.cards = w.db.cards := hschema.cards.trans (List.append_nil _)
  have hevents : w₁.db.cardEvents = w.db.cardEvents := hschema.events.trans (List.append_nil _)
  have hsources : w₁.db.sources = w.db.sources := hschema.sources.trans (List.append_nil _)
  have hsound₁ : Sound env w₁ := hsound.extends hschema (admitted_of_noCards rfl)
  rw [Txn.bind_ok] at h
  obtain ⟨replayed, w₁, hselect, h⟩ := h
  obtain ⟨hreplayed, rfl⟩ := select_ok.1 hselect
  have hstanding : standingCard w₁.db source.sourceType source.sourceRef values.kind
      values.subtype = standingCard w.db source.sourceType source.sourceRef values.kind
      values.subtype := by
    have hsame : cardOfRow w₁.db values.kind values.subtype =
        cardOfRow w.db values.kind values.subtype := by
      funext row
      rw [cardOfRow, cardOfRow, hcards]
    rw [standingCard, standingCard, hsame, referenceRows, referenceRows, hsources]
  rw [← hstanding]
  rcases replayedCard_first hsound₁.unique hreplayed with
    ⟨rfl, hnone⟩ | ⟨row, found, rfl, hshows, hfirst⟩
  · rw [Txn.bind_ok] at h
    obtain ⟨made, w₂, hcard, h⟩ := h
    rw [Txn.bind_ok] at h
    obtain ⟨_, w₃, hsource, h⟩ := h
    obtain ⟨rfl, rfl⟩ := Txn.pure_ok.1 h
    obtain ⟨row, event, hrow, hcardId, htype, hrelated, hext, hadmitted, hfresh, hid⟩ :=
      insertCard_admitted hvalues hcard
    obtain ⟨found, hfound, hread⟩ := insertCard_card hcard
    have hsourced := (insertSource_ok hsource).2
    have hall := (hschema.trans hext).trans hsourced
    have hunique := hext.unique hsound₁.unique
    have hmem : row ∈ w₂.db.cards := by
      rw [hext.cards]
      exact List.mem_append_right _ (List.mem_singleton_self row)
    rw [hid, requireCard_of_mem hunique hmem] at hfound
    obtain rfl := Except.ok.inj hfound
    have hlatest : latestEvent row.id w'.db = some event := by
      have hlog : w'.db.cardEvents = w.db.cardEvents ++ [event] := hall.events
      rw [← hcardId]
      refine latestEvent_of_new hlog fun other hother heq => ?_
      rw [hcards] at hfresh
      exact hfresh (hcardId ▸ heq ▸ hroot other hother)
    have hsigned : ∀ other ∈ w'.db.cardEvents, other.Signed env := by
      intro other hother
      rw [hall.events] at hother
      exact (List.mem_append.1 hother).elim (hsound.eventsSigned other) (hall.eventsSigned other)
    refine ⟨(hext.trans hsourced).initialized hready, Or.inr ⟨_, row, hnone, hall, ?_, ?_⟩⟩
    · exact {
        cards := rfl
        of := ⟨hvalues, _, _, hrow⟩
        id := hid.symm
        fresh := hcards ▸ hfresh
        change := by
          show [event.change] = _
          rw [EventRow.change, hcardId, htype, hrelated]
        read := hread
        admitted := ((admitted_of_noCards rfl).and hadmitted).and (admitted_of_noCards rfl) }
    · refine ⟨?_, ?_, "active", ?_, hread⟩
      · rw [hsourced.cards]
        exact List.mem_append_left _ hmem
      · rw [hrow]
        exact verifyCard_newCardRow hfloats _ _
      · rw [currentStatus_eq hsigned hlatest, htype]
  · obtain ⟨rfl, rfl⟩ := Txn.pure_ok.1 h
    refine ⟨hready.1, Or.inl ⟨row, hfirst, hschema, ?_⟩⟩
    obtain ⟨hmem, hverify, status, hstatus, hread⟩ := hshows
    rw [hcards] at hmem
    rw [currentStatus, latestEvent, hevents] at hstatus
    exact ⟨hmem, hverify, status, hstatus, hread⟩
/-! ## It returns -/

/-- By recursion on the rows: each is signed, agrees with the evidence and is about a card. -/
theorem replayedCard_returns {source : EvidenceSource} (kind subtype : String)
    {w w₁ : MemoryWorld F} (h : Healthy env w) (hcards : w₁.db.cards = w.db.cards)
    (hevents : w₁.db.cardEvents = w.db.cardEvents) {rows : List SourceRow}
    (hsigned : ∀ row ∈ rows, row.Signed env)
    (hagree : ∀ row ∈ rows, ¬ changedProvenance row source)
    (habout : ∀ row ∈ rows, ∃ card ∈ w.db.cards, card.id = row.cardId) :
    ∃ found, replayedCard env source kind subtype w₁.db rows = .ok found := by
  induction rows with
  | nil => exact ⟨none, rfl⟩
  | cons row rows ih =>
      obtain ⟨cardRow, hmem, hid⟩ := habout row List.mem_cons_self
      have hrequire : requireAuthenticatedCard env row.cardId w₁.db = .ok cardRow := by
        rw [← hid, requireAuthenticatedCard, requireCard_of_mem (hcards ▸ h.sound.unique)
          (hcards ▸ hmem), except_ok_bind, h.verified cardRow hmem]
        rfl
      rw [replayedCard, verifySource_signed env (hsigned row List.mem_cons_self), except_ok_bind,
        (raiseIf_ok (u := ())).2 (hagree row List.mem_cons_self), except_ok_bind, hrequire,
        except_ok_bind]
      split
      · obtain ⟨status, hstatus⟩ := currentStatus_returns h.sound hmem
        obtain ⟨card, hcard⟩ := cardFromRow_made (h.sound.made cardRow hmem) status
        rw [currentStatus, latestEvent] at hstatus ⊢
        rw [hevents, hstatus, except_ok_bind, hcard]
        exact ⟨some card, rfl⟩
      · exact ih (fun other hother => hsigned other (List.mem_cons_of_mem _ hother))
          (fun other hother => hagree other (List.mem_cons_of_mem _ hother))
          fun other hother => habout other (List.mem_cons_of_mem _ hother)

/-- The rows of the evidence's reference agree with it, and each is about a card. -/
structure Citable (source : EvidenceSource) (db : Database F) : Prop where
  agree : ∀ row ∈ db.sources, row.sourceType = source.sourceType →
    row.sourceRef = source.sourceRef → ¬ changedProvenance row source
  about : ∀ row ∈ db.sources, ∃ card ∈ db.cards, card.id = row.cardId

theorem addCardOnceForSource_returns {w : MemoryWorld F} (h : Healthy env w)
    (hobliging : Obliging env) {values : CardValues F}
    (hvalues : validateCardInput env values = .ok ()) (hfloats : values.Floats)
    {source : EvidenceSource} (hsource : checkSource source = .ok ())
    (hcitable : Citable source w.db) :
    Txn.Returns (addCardOnceForSource env source values) w := by
  refine (Txn.returns_lift hvalues w).bind fun _ w₁ hlift => ?_
  obtain ⟨-, rfl⟩ := Txn.lift_ok.1 hlift
  refine writeTransaction_returns h fun w₂ hsteady hcards hevents hsources => ?_
  have hrows : ∀ row ∈ oldestFirst (w₂.db.sources.filter fun row =>
      row.sourceType = source.sourceType ∧ row.sourceRef = source.sourceRef),
      row ∈ w₁.db.sources ∧ row.sourceType = source.sourceType ∧
        row.sourceRef = source.sourceRef := by
    intro row hrow
    obtain ⟨hmem, hmatch⟩ := List.mem_filter.1 ((List.perm_insertionSort _ _).mem_iff.1 hrow)
    rw [hsources] at hmem
    exact ⟨hmem, of_decide_eq_true hmatch⟩
  obtain ⟨found, hfound⟩ := replayedCard_returns values.kind values.subtype h hcards hevents
    (fun row hrow => h.sound.sourcesSigned row (hrows row hrow).1)
    (fun row hrow => hcitable.agree row (hrows row hrow).1 (hrows row hrow).2.1
      (hrows row hrow).2.2)
    fun row hrow => hcitable.about row (hrows row hrow).1
  refine Txn.Returns.bind (Txn.returns_reads hfound) fun replayed w₃ hselect => ?_
  obtain ⟨-, rfl⟩ := select_ok.1 hselect
  cases replayed with
  | some card => exact Txn.returns_pure card w₃
  | none =>
      refine (insertCard_returns hsteady hobliging values).bind fun card w₄ hcard => ?_
      obtain ⟨hsteady₄, -⟩ := insertCard_steady hsteady hfloats hcard
      refine (insertSource_returns hsteady₄ hobliging card.id hsource).bind fun _ w₅ _ => ?_
      exact Txn.returns_pure card w₅

end MemoryStore

end MiniCodeAgent
