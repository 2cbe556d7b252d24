import MiniCodeAgent.Proofs.MemoryProgress

/-!
# The status a card is reported with

No table holds a card's status. Both readers, `_current_status` of one card and
`_latest_statuses` of many, take the newest status event by recorded time, and
the one appended last only among equal times. What they report is the status
set last exactly where the recorded times leave no doubt about it: every event
that set another status has to be outdated by one that set this one. A clock
that never steps back sees to that, and one that does not lets a card that was
tombstoned be reported active.
-/

namespace MiniCodeAgent

namespace MemoryStore

variable {F : Type} [Json.PyFloat F] {env : MemoryEnv F}

/-! ## Both readers read the same -/

omit [Json.PyFloat F] in
theorem eventsByCard_filter {cardIds : List String} {cardId : String} (h : cardId ∈ cardIds)
    (db : Database F) :
    (eventsByCard cardIds db).filter (fun row => row.cardId = cardId) =
      Log.newestFirst EventRow.recordedAtNs
        (db.cardEvents.filter fun row => row.cardId = cardId) := by
  have hsame : ∀ rows : List EventRow, (∀ row ∈ rows, row.cardId = cardId) →
      rows.insertionSort (fun a b => a.cardId ≤ b.cardId) = rows := by
    intro rows hrows
    refine List.Pairwise.insertionSort_eq (List.pairwise_of_forall_mem_list fun a ha b hb => ?_)
    rw [hrows a ha, hrows b hb]
  have hmember : ∀ row ∈ Log.newestFirst EventRow.recordedAtNs
      (db.cardEvents.filter fun row => row.cardId = cardId), row.cardId = cardId := by
    intro row hrow
    exact of_decide_eq_true (List.mem_filter.1 (Log.mem_newestFirst.1 hrow)).2
  rw [eventsByCard, Log.filter_insertionSort (r := fun a b : EventRow => a.cardId ≤ b.cardId),
    Log.filter_newestFirst, List.filter_filter]
  have hfilter : (db.cardEvents.filter fun row =>
      decide (row.cardId = cardId) && decide (row.cardId ∈ cardIds)) =
        db.cardEvents.filter fun row => row.cardId = cardId := by
    refine List.filter_congr fun row _ => ?_
    by_cases hid : row.cardId = cardId
    · rw [hid, decide_eq_true h, Bool.and_true]
    · rw [decide_eq_false hid, Bool.false_and]
  rw [hfilter, hsame _ hmember]

omit [Json.PyFloat F] in
/-- The first of a card's rows is its newest event. -/
theorem eventsByCard_find {cardIds : List String} {cardId : String} (h : cardId ∈ cardIds)
    (db : Database F) :
    (eventsByCard cardIds db).find? (fun row => row.cardId = cardId) = latestEvent cardId db := by
  rw [← List.head?_filter, eventsByCard_filter h, Log.head?_newestFirst]
  rfl

omit [Json.PyFloat F] in
theorem mem_eventsByCard {cardIds : List String} {db : Database F} {row : EventRow} :
    row ∈ eventsByCard cardIds db ↔ row ∈ db.cardEvents ∧ row.cardId ∈ cardIds := by
  rw [eventsByCard, List.mem_insertionSort, Log.mem_newestFirst, List.mem_filter,
    decide_eq_true_eq]

omit [Json.PyFloat F] in
theorem latestEvent_mem {cardId : String} {db : Database F} {event : EventRow}
    (h : latestEvent cardId db = some event) : event ∈ db.cardEvents ∧ event.cardId = cardId := by
  obtain ⟨hmem, hid⟩ := List.mem_filter.1 (Log.newest_eq_some.1 h).mem
  exact ⟨hmem, of_decide_eq_true hid⟩

omit [Json.PyFloat F] in
theorem exists_latestEvent {cardId : String} {db : Database F}
    (h : ∃ event ∈ db.cardEvents, event.cardId = cardId) :
    ∃ event, latestEvent cardId db = some event := by
  obtain ⟨event, hevent, hid⟩ := h
  cases hlatest : latestEvent cardId db with
  | some latest => exact ⟨latest, rfl⟩
  | none =>
      have hmem : event ∈ db.cardEvents.filter fun row => row.cardId = cardId :=
        List.mem_filter.2 ⟨hevent, decide_eq_true hid⟩
      rw [Log.newest_eq_none.1 hlatest] at hmem
      cases hmem

theorem currentStatus_eq {cardId : String} {db : Database F}
    (hsigned : ∀ event ∈ db.cardEvents, event.Signed env) {event : EventRow}
    (h : latestEvent cardId db = some event) :
    currentStatus env cardId db = .ok event.eventType := by
  rw [currentStatus, h]
  show (verifyEvent env event >>= _) = _
  rw [verifyEvent_signed env (hsigned event (latestEvent_mem h).1)]
  rfl

/-- The dictionary the loop of `_latest_statuses` builds holds, of every card,
the first row it has come past, and that row was authenticated. -/
theorem statuses_get? {rows : List EventRow} {statuses : Dict String}
    (h : rows.foldlM (fun (statuses : Dict String) row =>
        if (statuses.get? row.cardId).isSome then .ok statuses
        else do
          verifyEvent env row
          return statuses.set row.cardId row.eventType) [] = Except.ok statuses) (cardId : String) :
    statuses.get? cardId =
        (rows.find? fun row => row.cardId = cardId).map EventRow.eventType ∧
      ∀ row, rows.find? (fun row => row.cardId = cardId) = some row →
        verifyEvent env row = .ok () := by
  refine except_foldlM_ok (P := fun seen (statuses : Dict String) =>
    statuses.get? cardId = (seen.find? fun row => row.cardId = cardId).map EventRow.eventType ∧
      ∀ row, seen.find? (fun row => row.cardId = cardId) = some row →
        verifyEvent env row = .ok ()) h ⟨rfl, fun _ hrow => by cases hrow⟩ ?_
  intro before row c c' _ hP hrow
  obtain ⟨hget, hverified⟩ := hP
  rw [List.find?_append, List.find?_singleton]
  by_cases hid : row.cardId = cardId
  · split at hrow
    · next hsome =>
        -- the card's first row has been seen
        cases hrow
        rw [hid, hget, Option.isSome_map] at hsome
        rw [Option.or_of_isSome hsome]
        exact ⟨hget, hverified⟩
    · next hnone =>
        obtain ⟨_, hrowVerified, hrow⟩ := except_bind_ok.1 hrow
        cases hrow
        rw [hid, hget, Option.isSome_map, Option.not_isSome_iff_eq_none] at hnone
        rw [Dict.get?_set, if_pos hid, hnone, if_pos (decide_eq_true hid), Option.none_or]
        refine ⟨rfl, fun found hfound => ?_⟩
        cases hfound
        exact hrowVerified
  · have hskip : c'.get? cardId = c.get? cardId := by
      split at hrow
      · cases hrow
        rfl
      · obtain ⟨_, -, hrow⟩ := except_bind_ok.1 hrow
        cases hrow
        rw [Dict.get?_set, if_neg hid]
    rw [hskip, if_neg (by simpa using hid), Option.or_none]
    exact ⟨hget, hverified⟩

/-- What `_latest_statuses` returned is, of every card it was asked for, the
status of the newest event. -/
theorem latestStatuses_get? {cardIds : List String} {db : Database F} {statuses : Dict String}
    (h : latestStatuses env cardIds db = .ok statuses) {cardId : String} (hmem : cardId ∈ cardIds) :
    statuses.get? cardId = (latestEvent cardId db).map EventRow.eventType ∧
      ∀ event, latestEvent cardId db = some event → verifyEvent env event = .ok () := by
  obtain ⟨statuses', hloop, h⟩ := except_bind_ok.1 h
  have hstatuses := statuses_get? hloop cardId
  rw [eventsByCard_find hmem] at hstatuses
  split at h
  · cases h
  · cases h
    exact hstatuses

/-- The newest event of every card that is asked for is all that has to be authentic. -/
theorem latestStatuses_newest {cardIds : List String} {db : Database F}
    (hnewest : ∀ cardId ∈ cardIds, ∃ event, latestEvent cardId db = some event ∧
      verifyEvent env event = .ok ()) :
    ∃ statuses, latestStatuses env cardIds db = .ok statuses ∧ ∀ cardId ∈ cardIds,
      statuses.get? cardId = (latestEvent cardId db).map EventRow.eventType := by
  -- over what is left of the rows, behind those the loop has come past
  have hloop : ∀ (rest done : List EventRow) (statuses : Dict String),
      eventsByCard cardIds db = done ++ rest →
      done.foldlM (fun (statuses : Dict String) row =>
        if (statuses.get? row.cardId).isSome then .ok statuses
        else do
          verifyEvent env row
          return statuses.set row.cardId row.eventType) [] = Except.ok statuses →
      ∃ statuses', (eventsByCard cardIds db).foldlM (fun (statuses : Dict String) row =>
        if (statuses.get? row.cardId).isSome then .ok statuses
        else do
          verifyEvent env row
          return statuses.set row.cardId row.eventType) [] = Except.ok statuses' := by
    intro rest
    induction rest with
    | nil =>
        intro done statuses hrows hdone
        rw [hrows, List.append_nil]
        exact ⟨statuses, hdone⟩
    | cons row rest ih =>
        intro done statuses hrows hdone
        have hsplit : eventsByCard cardIds db = (done ++ [row]) ++ rest := by
          rw [hrows, List.append_assoc, List.singleton_append]
        by_cases hsome : (statuses.get? row.cardId).isSome = true
        · refine ih (done ++ [row]) statuses hsplit ?_
          rw [List.foldlM_append, hdone, except_ok_bind, List.foldlM_cons, if_pos hsome]
          rfl
        · -- the card's newest event, which no row has come before
          have hmem : row.cardId ∈ cardIds := by
            have hrow : row ∈ eventsByCard cardIds db := by
              rw [hrows]
              exact List.mem_append_right _ List.mem_cons_self
            exact (mem_eventsByCard.1 hrow).2
          obtain ⟨event, hevent, hverified⟩ := hnewest row.cardId hmem
          have hnone : done.find? (fun other => other.cardId = row.cardId) = none := by
            rw [(statuses_get? hdone row.cardId).1, Option.isSome_map] at hsome
            exact Option.not_isSome_iff_eq_none.1 hsome
          rw [← eventsByCard_find hmem, hrows, List.find?_append, hnone, Option.none_or,
            List.find?_cons_of_pos (by simp)] at hevent
          cases hevent
          refine ih (done ++ [row]) (statuses.set row.cardId row.eventType) hsplit ?_
          rw [List.foldlM_append, hdone, except_ok_bind, List.foldlM_cons, if_neg hsome, hverified]
          rfl
  obtain ⟨statuses, hloop⟩ := hloop _ [] [] rfl rfl
  have hread : ∀ cardId ∈ cardIds,
      statuses.get? cardId = (latestEvent cardId db).map EventRow.eventType := by
    intro cardId hmem
    rw [(statuses_get? hloop cardId).1, eventsByCard_find hmem]
  refine ⟨statuses, ?_, hread⟩
  have hmissing : (cardIds.filter fun cardId => (statuses.get? cardId).isNone) = [] := by
    rw [List.filter_eq_nil_iff]
    intro cardId hmem hnone
    obtain ⟨event, hevent, -⟩ := hnewest cardId hmem
    rw [hread cardId hmem, hevent] at hnone
    cases hnone
  unfold latestStatuses
  refine except_bind_ok.2 ⟨statuses, hloop, ?_⟩
  rw [hmissing]
  rfl

theorem latestStatuses_eq {cardIds : List String} {db : Database F}
    (hsigned : ∀ event ∈ db.cardEvents, event.Signed env)
    (hcovered : ∀ cardId ∈ cardIds, ∃ event ∈ db.cardEvents, event.cardId = cardId) :
    ∃ statuses, latestStatuses env cardIds db = .ok statuses ∧ ∀ cardId ∈ cardIds,
      statuses.get? cardId = (latestEvent cardId db).map EventRow.eventType := by
  refine latestStatuses_newest fun cardId hmem => ?_
  obtain ⟨event, hevent⟩ := exists_latestEvent (hcovered cardId hmem)
  exact ⟨event, hevent, verifyEvent_signed env (hsigned event (latestEvent_mem hevent).1)⟩

/-! ## What they report -/

/-- The status both readers report. -/
def Reported (env : MemoryEnv F) (db : Database F) (cardId status : String) : Prop :=
  currentStatus env cardId db = .ok status ∧
    ∀ cardIds, cardId ∈ cardIds → (∀ other ∈ cardIds, other ∈ db.cards.map CardRow.id) →
      ∃ statuses, latestStatuses env cardIds db = .ok statuses ∧
        statuses.get? cardId = some status

theorem reported_iff {w : MemoryWorld F} (h : Sound env w) {row : CardRow F}
    (hrow : row ∈ w.db.cards) (status : String) : Reported env w.db row.id status ↔
      ∃ event, latestEvent row.id w.db = some event ∧ event.eventType = status := by
  obtain ⟨event, hevent⟩ := exists_latestEvent (h.covered row hrow)
  have hcurrent := currentStatus_eq h.eventsSigned hevent
  constructor
  · rintro ⟨hstatus, -⟩
    rw [hcurrent] at hstatus
    cases hstatus
    exact ⟨event, hevent, rfl⟩
  · rintro ⟨event', hevent', rfl⟩
    rw [hevent] at hevent'
    cases hevent'
    refine ⟨hcurrent, fun cardIds hmem hknown => ?_⟩
    have hcovered : ∀ cardId ∈ cardIds, ∃ e ∈ w.db.cardEvents, e.cardId = cardId := by
      intro cardId hcardId
      obtain ⟨other, hother, rfl⟩ := List.mem_map.1 (hknown cardId hcardId)
      exact h.covered other hother
    obtain ⟨statuses, hstatuses, hget⟩ := latestStatuses_eq h.eventsSigned hcovered
    refine ⟨statuses, hstatuses, ?_⟩
    rw [hget row.id hmem, hevent]
    rfl

/-- Every event of the card that set another status is outdated by one that set
this one: by a later time, or at the same time by coming after it. -/
def Undisputed (events : List EventRow) (cardId status : String) : Prop :=
  ∀ before event after, events.filter (fun e => e.cardId = cardId) = before ++ event :: after →
    event.eventType ≠ status →
      (∃ e ∈ before, e.eventType = status ∧ event.recordedAtNs < e.recordedAtNs) ∨
        ∃ e ∈ after, e.eventType = status ∧ event.recordedAtNs ≤ e.recordedAtNs

omit [Json.PyFloat F] in
theorem undisputed_iff {cardId : String} {db : Database F} {event : EventRow}
    (h : latestEvent cardId db = some event) (status : String) :
    Undisputed db.cardEvents cardId status ↔ event.eventType = status := by
  obtain ⟨before, after, hsplit, hbefore, hafter⟩ := Log.newest_eq_some.1 h
  constructor
  · intro hall
    by_contra hne
    rcases hall before event after hsplit hne with ⟨e, he, -, hlt⟩ | ⟨e, he, -, hle⟩
    · exact absurd (hbefore e he) (not_le.2 hlt)
    · exact absurd (hafter e he) (not_lt.2 hle)
  · rintro rfl before' other after' hsplit' hne
    rw [hsplit] at hsplit'
    rcases List.append_eq_append_iff.1 hsplit' with ⟨mid, rfl, hmid⟩ | ⟨mid, rfl, hmid⟩
    · cases mid with
      | nil =>
          rw [List.nil_append] at hmid
          injection hmid with heq
          exact absurd (congrArg EventRow.eventType heq.symm) hne
      | cons c mid =>
          -- the newest event comes before the other one
          rw [List.cons_append] at hmid
          injection hmid with hc hrest
          subst hc
          refine Or.inl ⟨event, List.mem_append_right _ List.mem_cons_self, rfl, hafter other ?_⟩
          rw [hrest]
          exact List.mem_append_right _ List.mem_cons_self
    · cases mid with
      | nil =>
          rw [List.nil_append] at hmid
          injection hmid with heq
          exact absurd (congrArg EventRow.eventType heq) hne
      | cons c mid =>
          rw [List.cons_append] at hmid
          injection hmid with hc hrest
          subst hc
          refine Or.inr ⟨event, ?_, rfl,
            hbefore other (List.mem_append_right _ List.mem_cons_self)⟩
          rw [hrest]
          exact List.mem_append_right _ List.mem_cons_self

/-- Where the clock never steps back the newest event is the last one. -/
theorem latestEvent_of_monotone {w : MemoryWorld F} (h : Sound env w)
    (hclock : Monotone env.timeNs) (cardId : String) :
    latestEvent cardId w.db = (w.db.cardEvents.filter fun e => e.cardId = cardId).getLast? :=
  Log.newest_of_ordered ((h.drawn.ordered hclock).filter _)

theorem currentStatus_of_monotone {w : MemoryWorld F} (h : Sound env w)
    (hclock : Monotone env.timeNs) {cardId status : String}
    (hlast : lastChange w.db.cardEvents cardId = some status) :
    currentStatus env cardId w.db = .ok status := by
  rw [lastChange, ← latestEvent_of_monotone h hclock] at hlast
  obtain ⟨event, hevent, rfl⟩ := Option.map_eq_some_iff.1 hlast
  exact currentStatus_eq h.eventsSigned hevent

/-- In every run, the status reported for a card is the one its last event set
if and only if no event that set another status is left standing; with a clock
that never steps back it always is. -/
theorem status_reported (env : MemoryEnv F) (w : MemoryWorld F) (hw : Reached env anyStep w)
    (row : CardRow F) (hrow : row ∈ w.db.cards) :
    ∃ last, lastChange w.db.cardEvents row.id = some last ∧
      (Reported env w.db row.id last ↔ Undisputed w.db.cardEvents row.id last) ∧
      (Monotone env.timeNs → Reported env w.db row.id last) := by
  have hsound := sound_of_reached hw
  obtain ⟨event, hevent⟩ := exists_latestEvent (hsound.covered row hrow)
  have hlast : ∃ last, lastChange w.db.cardEvents row.id = some last := by
    obtain ⟨hmem, hid⟩ := latestEvent_mem hevent
    rw [lastChange]
    cases hget : (w.db.cardEvents.filter fun e => e.cardId = row.id).getLast? with
    | some e => exact ⟨e.eventType, rfl⟩
    | none =>
        have hmem' : event ∈ w.db.cardEvents.filter fun e => e.cardId = row.id :=
          List.mem_filter.2 ⟨hmem, decide_eq_true hid⟩
        rw [List.getLast?_eq_none_iff.1 hget] at hmem'
        cases hmem'
  obtain ⟨last, hlast⟩ := hlast
  refine ⟨last, hlast, ?_, fun hclock => ?_⟩
  · rw [reported_iff hsound hrow, undisputed_iff hevent]
    constructor
    · rintro ⟨event', hevent', htype⟩
      rw [hevent] at hevent'
      cases hevent'
      exact htype
    · intro htype
      exact ⟨event, hevent, htype⟩
  · have hstatus := currentStatus_of_monotone hsound hclock hlast
    rw [currentStatus_eq hsound.eventsSigned hevent] at hstatus
    cases hstatus
    exact (reported_iff hsound hrow _).2 ⟨event, hevent, rfl⟩

/-! ## A clock that steps back -/

/-- A card that was added and tombstoned, under any clock. -/
theorem tombstoned_run (clock : Nat → Int) :
    ∃ (w : MemoryWorld Unit) (row : CardRow Unit) (first second : EventRow),
      Reached (machine clock) anyStep w ∧ row ∈ w.db.cards ∧
      w.db.cardEvents = [first, second] ∧ first.change = (row.id, "active", none) ∧
      second.cardId = row.id ∧ second.eventType = "tombstoned" ∧
      ∃ m n, m < n ∧ first.recordedAtNs = clock m ∧ second.recordedAtNs = clock n := by
  have hvalues : validateCardInput (machine clock) (setting "vim" "editor" "inform" none) =
      .ok () := rfl
  have hfloats := setting_floats "vim" "editor" "inform" none
  obtain ⟨card, w₁, hadd⟩ := addCard_returns healthy_start (machine_obliging clock) hvalues hfloats
    (List.cons_ne_nil (evidence "first") []) (fun source hsource => by
      rw [List.mem_singleton.1 hsource]
      exact checkSource_evidence)
  obtain ⟨d, row, hd, hadmitted, hcards, -, hof, -, -, hevents, -⟩ := addCard_ok hadd
  have hhealthy : Healthy (machine clock) w₁ := by
    refine healthy_start.extends hd hadmitted fun r hr => ?_
    rw [hcards] at hr
    rw [List.mem_singleton.1 hr]
    exact ⟨_, hfloats, hof⟩
  have hrow : row ∈ w₁.db.cards := by
    rw [hd.cards, hcards]
    exact List.mem_append_right _ (List.mem_singleton_self row)
  have hnone : ∀ other ∈ (none : Option (CardRow Unit)), other ∈ w₁.db.cards :=
    fun _ hother => nomatch hother
  obtain ⟨_, w₂, htransition⟩ := transition_returns hhealthy (machine_obliging clock)
    "tombstoned" (by decide) (by decide) hrow hnone
  obtain ⟨second, hd₂, hsecond, htype, -⟩ := transition_ok htransition
  obtain ⟨first, hfirst, hchange⟩ : ∃ first, d.events = [first] ∧
      first.change = (row.id, "active", none) := by
    cases hlist : d.events with
    | nil =>
        rw [hlist] at hevents
        cases hevents
    | cons first rest =>
        rw [hlist, List.map_cons] at hevents
        injection hevents with hhead htail
        rw [List.map_eq_nil_iff.1 htail]
        exact ⟨first, rfl, hhead⟩
  have hstep₁ : perform (machine clock) (.addCard (setting "vim" "editor" "inform" none)
      [evidence "first"] []) (.start Unit) = w₁ := perform_dropValue rfl hadd
  have hstep₂ : perform (machine clock) (.transition row.id "tombstoned" none) w₁ = w₂ :=
    perform_eq htransition
  have hreached : Reached (machine clock) anyStep w₂ := by
    rw [← hstep₂, ← hstep₁]
    exact .step (.step .start _ trivial) _ trivial
  have hlog : w₂.db.cardEvents = [first, second] := by
    rw [hd₂.events, hd.events, hfirst]
    rfl
  have hdrawn := (sound_of_reached hreached).drawn
  rw [hlog] at hdrawn
  obtain ⟨m, -, hm, n, hmn, hn, -⟩ := hdrawn
  refine ⟨w₂, row, first, second, hreached, ?_, hlog, hchange, hsecond, htype, m, n, hmn, hm, hn⟩
  rw [hd₂.cards]
  exact List.mem_append_left _ hrow

theorem status_reported_sample :
    ∃ (w : MemoryWorld Unit) (row : CardRow Unit), Reached (machine ticking) anyStep w ∧
      lastChange w.db.cardEvents row.id = some "tombstoned" ∧
      Reported (machine ticking) w.db row.id "tombstoned" := by
  obtain ⟨w, row, first, second, hreached, hrow, hlog, hfirst, hsecond, htype, -⟩ :=
    tombstoned_run ticking
  have hlast : lastChange w.db.cardEvents row.id = some "tombstoned" := by
    rw [hlog, ← List.singleton_append, lastChange_append, lastChange_singleton second,
      if_pos hsecond, htype, Option.some_or]
  obtain ⟨last, hlast', -, hreported⟩ := status_reported (machine ticking) w hreached row hrow
  rw [hlast] at hlast'
  cases hlast'
  exact ⟨w, row, hreached, hlast, hreported ticking_monotone⟩

/-- A clock that is set back a little with every reading. -/
def receding (n : Nat) : Int := 1735900000000000000 - n

theorem tombstoned_active :
    ¬ ∀ w, Reached (machine receding) anyStep w → ∀ row ∈ w.db.cards, ∀ last,
      lastChange w.db.cardEvents row.id = some last →
        currentStatus (machine receding) row.id w.db = .ok last := by
  intro hall
  obtain ⟨w, row, first, second, hreached, hrow, hlog, hfirst, hsecond, htype, m, n, hmn, hm, hn⟩ :=
    tombstoned_run receding
  have hsound := sound_of_reached hreached
  have hfirstCard : first.cardId = row.id := congrArg Prod.fst hfirst
  have hfirstType : first.eventType = "active" := congrArg (fun change => change.2.1) hfirst
  have hlast : lastChange w.db.cardEvents row.id = some "tombstoned" := by
    rw [hlog, ← List.singleton_append, lastChange_append, lastChange_singleton second,
      if_pos hsecond, htype, Option.some_or]
  have hlatest : latestEvent row.id w.db = some first := by
    refine Log.newest_eq_some.2 ⟨[], [second], ?_, fun _ h => absurd h List.not_mem_nil,
      fun e he => ?_⟩
    · rw [hlog, List.filter_cons_of_pos (by simpa using hfirstCard),
        List.filter_cons_of_pos (by simpa using hsecond)]
      rfl
    · rw [List.mem_singleton.1 he, hm, hn, receding, receding]
      omega
  have hstatus := hall w hreached row hrow "tombstoned" hlast
  rw [currentStatus_eq hsound.eventsSigned hlatest, hfirstType] at hstatus
  injection hstatus with hstatus
  exact absurd hstatus (by decide)

end MemoryStore

end MiniCodeAgent
