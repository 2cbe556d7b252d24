import Mathlib.Algebra.BigOperators.Group.List.Basic
import MiniCodeAgent.Greedy
import MiniCodeAgent.MemoryAdmission
import MiniCodeAgent.Proofs.MemorySingleton
import MiniCodeAgent.Proofs.StandingCards

/-!
# Repairs within their capacity

A repair that is admitted takes its place beside the repairs of its scope that are
active, and the oldest of these are retired until there is room. The rows tell which
they are: `listCards` hands out the active ones, newest first, and the loop gives up
the last of them, so what is retired is the shortest prefix, oldest first, whose rest
fits together with the new card (`Greedy.dropped`). That the retired ones are retired
afterwards is the clock's doing: a status event counts if none before it is stamped later.
-/

namespace MiniCodeAgent

namespace MemoryAdmission

open MemoryStore

variable {F : Type} [Json.PyFloat F] {env : MemoryEnv F}

/-! ## The active cards -/

omit [Json.PyFloat F] in
/-- The newest status event of the card says that it is active. -/
def IsActive (db : Database F) (cardId : String) : Prop :=
  (latestEvent cardId db).map EventRow.eventType = some "active"

instance (db : Database F) (cardId : String) : Decidable (IsActive db cardId) :=
  inferInstanceAs (Decidable (_ = _))

/-- What `list_cards` makes of one row. -/
def listedRow (env : MemoryEnv F) (includeInactive : Bool) (statuses : Dict String)
    (row : CardRow F) : Except PyExc (List (MemoryCard F)) := do
  verifyCard env row
  match statuses.get? row.id with
  | none => .error (keyError row.id)
  | some status =>
    if includeInactive ∨ status = "active" then do
      let card ← cardFromRow row status
      return [card]
    else return []

/-- One row after the other: a card is handed out if it is active. -/
theorem listed_active {db : Database F} {statuses : Dict String} {rows : List (CardRow F)}
    {found : List (List (MemoryCard F))}
    (hget : ∀ row ∈ rows, statuses.get? row.id = (latestEvent row.id db).map EventRow.eventType)
    (h : rows.mapM (listedRow env false statuses) = .ok found) :
    List.Forall₂ (fun row card => cardFromRow row "active" = .ok card)
      (rows.filter fun row => IsActive db row.id) found.flatten := by
  induction rows generalizing found with
  | nil =>
      cases h
      exact .nil
  | cons row rows ih =>
      rw [List.mapM_cons] at h
      obtain ⟨first, hfirst, h⟩ := except_bind_ok.1 h
      obtain ⟨rest, hrest, h⟩ := except_bind_ok.1 h
      cases h
      have hlisted := ih (fun other hother => hget other (List.mem_cons_of_mem _ hother)) hrest
      obtain ⟨_, -, hfirst⟩ := except_bind_ok.1 hfirst
      rw [hget row List.mem_cons_self] at hfirst
      cases hlatest : (latestEvent row.id db).map EventRow.eventType with
      | none =>
          rw [hlatest] at hfirst
          cases hfirst
      | some status =>
          rw [hlatest] at hfirst
          by_cases hactive : status = "active"
          · subst hactive
            rw [List.filter_cons_of_pos (by simpa [IsActive] using hlatest)]
            obtain ⟨card, hcard, hfirst⟩ := except_bind_ok.1 hfirst
            cases hfirst
            exact .cons hcard hlisted
          · have hnone : (pure [] : Except PyExc (List (MemoryCard F))) = .ok first := by
              simpa [hactive] using hfirst
            cases hnone
            rw [List.filter_cons_of_neg (by simp [IsActive, hlatest, hactive])]
            exact hlisted

/-- What `list_cards` hands out: the active cards, the newest first. -/
theorem listCards_active {db : Database F} {cards : List (MemoryCard F)}
    (h : listCards env false none true db = .ok cards) :
    List.Forall₂ (fun row card => cardFromRow row "active" = .ok card)
      ((Log.newestFirst CardRow.recordedAtNs db.cards).filter fun row => IsActive db row.id)
      cards := by
  unfold listCards at h
  obtain ⟨_, -, h⟩ := except_bind_ok.1 h
  obtain ⟨statuses, hstatuses, h⟩ := except_bind_ok.1 h
  obtain ⟨found, hfound, h⟩ := except_bind_ok.1 h
  cases h
  have hall : (db.cards.filter fun row => inScope none true row) = db.cards :=
    List.filter_eq_self.2 fun row _ => rfl
  rw [hall] at hstatuses hfound
  exact listed_active
    (fun row hrow => (latestStatuses_get? hstatuses (List.mem_map_of_mem hrow)).1) hfound

/-! ## What is retired -/

omit [Json.PyFloat F] in
/-- The active repairs of a scope, the oldest first. -/
def activeRepairs (scope scopeKey : String) (db : Database F) : List (CardRow F) :=
  (db.cards.insertionSort fun a b => a.recordedAtNs ≤ b.recordedAtNs).filter fun row =>
    row.subtype = "verified_repair" ∧ row.scope = scope ∧ row.scopeKey = scopeKey ∧
      IsActive db row.id

/-- Beside these rows there is room for so many more characters. -/
def RoomFor (policy : CapacityPolicy) (incomingChars : Int) (rows : List (CardRow F)) : Prop :=
  (rows.length : Int) + 1 ≤ policy.maxActiveRecordsPerScope ∧
    (rows.map fun row => (row.value.length : Int)).sum + incomingChars ≤
      policy.maxActiveCharsPerScope

instance (policy : CapacityPolicy) (incomingChars : Int) :
    DecidablePred (RoomFor policy incomingChars : List (CardRow F) → Prop) :=
  fun _ => inferInstanceAs (Decidable (_ ∧ _))

def rowRecord (row : CardRow F) : LifecycleRecord := ⟨row.id, row.recordedAtNs, row.value.length⟩

omit [Json.PyFloat F] in
/-- The loop gives up records until there is room. -/
theorem retireLoop_eq (policy : CapacityPolicy) (incomingChars : Int) (rows : List (CardRow F)) :
    retireLoop policy incomingChars (rows.map rowRecord) =
      (Greedy.dropped (RoomFor policy incomingChars) rows).map CardRow.id := by
  induction rows with
  | nil => rfl
  | cons row rows ih =>
      have hover : overCapacity policy incomingChars ((row :: rows).map rowRecord) ↔
          ¬ RoomFor policy incomingChars (row :: rows) := by
        have hchars : (((row :: rows).map rowRecord).map LifecycleRecord.chars).sum =
            ((row :: rows).map fun row => (row.value.length : Int)).sum := by
          rw [List.map_map]
          rfl
        rw [overCapacity, RoomFor, hchars, List.length_map]
        omega
      rw [Greedy.dropped]
      by_cases hroom : RoomFor policy incomingChars (row :: rows)
      · rw [if_pos hroom, List.map_cons, retireLoop, ← List.map_cons,
          if_neg (fun h => hover.1 h hroom)]
        rfl
      · rw [if_neg hroom, List.map_cons, retireLoop, ← List.map_cons, if_pos (hover.2 hroom), ih]
        rfl

/-- The records of the cards that stand beside the incoming one. -/
theorem records_eq {rows : List (CardRow F)} {cards : List (MemoryCard F)}
    (h : List.Forall₂ (fun row card => cardFromRow row "active" = .ok card) rows cards)
    (incoming : MemoryCard F) :
    (cards.filter fun card => besideIncoming incoming card).map lifecycleRecord =
      (rows.filter fun row => row.id ≠ incoming.id ∧ row.subtype = "verified_repair" ∧
        row.scope = incoming.scope ∧ row.scopeKey = incoming.scopeKey).map rowRecord := by
  induction h with
  | nil => rfl
  | @cons row card rows cards hcard _ ih =>
      obtain ⟨hid, -, hsubtype, hscope, hscopeKey, -, -⟩ := cardFromRow_ok hcard
      have hbeside : besideIncoming incoming card ↔ row.id ≠ incoming.id ∧
          row.subtype = "verified_repair" ∧ row.scope = incoming.scope ∧
          row.scopeKey = incoming.scopeKey := by
        rw [besideIncoming, hid, hsubtype, hscope, hscopeKey]
      have hrecord : lifecycleRecord card = rowRecord row := by
        rw [lifecycleRecord, rowRecord, hid, (cardFromRow_value hcard).1, (cardFromRow_value hcard).2]
      rw [List.filter_cons, List.filter_cons]
      by_cases hin : besideIncoming incoming card
      · rw [if_pos (decide_eq_true hin), if_pos (decide_eq_true (hbeside.1 hin)), List.map_cons,
          List.map_cons, ih, hrecord]
      · rw [if_neg (by simpa using hin), if_neg (by simpa using fun h => hin (hbeside.2 h)), ih]

/-- What is retired for a card that comes in, of the other repairs of its scope. -/
theorem selectRetirements_eq {db : Database F} {cards : List (MemoryCard F)}
    (h : listCards env false none true db = .ok cards) (incoming : MemoryCard F)
    (policy : CapacityPolicy) :
    selectRetirements ((cards.filter fun card => besideIncoming incoming card).map
        lifecycleRecord) incoming.value.length policy =
      .ok ((Greedy.dropped (RoomFor policy incoming.value.length)
        ((activeRepairs incoming.scope incoming.scopeKey db).filter fun row =>
          row.id ≠ incoming.id)).map CardRow.id) := by
  have hrows : ((Log.newestFirst CardRow.recordedAtNs db.cards).filter fun row =>
      IsActive db row.id).filter (fun row => row.id ≠ incoming.id ∧
        row.subtype = "verified_repair" ∧ row.scope = incoming.scope ∧
        row.scopeKey = incoming.scopeKey) =
      ((activeRepairs incoming.scope incoming.scopeKey db).filter fun row =>
        row.id ≠ incoming.id).reverse := by
    rw [Log.newestFirst, activeRepairs, List.filter_filter, List.filter_filter,
      List.filter_reverse]
    refine congrArg List.reverse (List.filter_congr fun row _ => ?_)
    simp only [ne_eq, Bool.decide_and]
    grind
  have hsorted : ((activeRepairs incoming.scope incoming.scopeKey db).filter fun row =>
      row.id ≠ incoming.id).Pairwise fun a b => a.recordedAtNs ≤ b.recordedAtNs :=
    ((List.pairwise_insertionSort _ _).filter _).filter _
  rw [records_eq (listCards_active h), hrows, selectRetirements,
    (raiseIf_ok (u := ())).2 (by omega), except_ok_bind]
  generalize (activeRepairs incoming.scope incoming.scopeKey db).filter (fun row =>
      row.id ≠ incoming.id) = rows at hsorted ⊢
  have hlast : (rows.reverse.map rowRecord).insertionSort
      (fun a b => b.recordedAtNs ≤ a.recordedAtNs) = rows.reverse.map rowRecord := by
    refine List.Pairwise.insertionSort_eq ?_
    rw [List.pairwise_map, List.pairwise_reverse]
    exact hsorted
  rw [hlast]
  show Except.ok (retireLoop policy _ (rows.reverse.map rowRecord).reverse) = _
  rw [← List.map_reverse, List.reverse_reverse, retireLoop_eq]

/-! ## The steps of an admission -/

omit [Json.PyFloat F] in
/-- Events about other cards do not count. -/
theorem latestEvent_of_others {db db' : Database F} {more : List EventRow} {cardId : String}
    (hevents : db'.cardEvents = db.cardEvents ++ more)
    (hothers : ∀ event ∈ more, event.cardId ≠ cardId) :
    latestEvent cardId db' = latestEvent cardId db := by
  have hnone : more.filter (fun event => event.cardId = cardId) = [] :=
    List.filter_eq_nil_iff.2 fun event hevent => by simpa using hothers event hevent
  rw [latestEvent, latestEvent, hevents, List.filter_append, hnone, List.append_nil]

/-- An added card is none of those there were, and its events are not theirs. -/
theorem latestEvent_added {values : CardValues F} {card : MemoryCard F} {d : Delta F}
    {row : CardRow F} {w w' : MemoryWorld F} (hd : Extends env w d w')
    (hadded : AddedFor env values w card d row) {other : CardRow F} (hother : other ∈ w.db.cards) :
    other.id ≠ card.id ∧ latestEvent other.id w'.db = latestEvent other.id w.db := by
  have hne : other.id ≠ row.id := fun heq =>
    hadded.fresh (heq ▸ List.mem_map_of_mem hother)
  refine ⟨hadded.id ▸ hne, latestEvent_of_others hd.events fun event hevent => ?_⟩
  have hmem := cardId_of_changes hadded.change hevent
  rw [List.map_singleton, List.mem_singleton] at hmem
  rw [hmem]
  exact hne.symm

/-- Beside a card that was added the active repairs are those there were. -/
theorem activeRepairs_added {values : CardValues F} {card : MemoryCard F} {d : Delta F}
    {row : CardRow F} {w w' : MemoryWorld F} (hd : Extends env w d w')
    (hadded : AddedFor env values w card d row) (scope scopeKey : String) :
    ((activeRepairs scope scopeKey w'.db).filter fun other => other.id ≠ card.id) =
      activeRepairs scope scopeKey w.db := by
  rw [activeRepairs, activeRepairs, List.filter_filter, Log.filter_insertionSort,
    Log.filter_insertionSort, hd.cards, hadded.cards, List.filter_append,
    List.filter_cons_of_neg (by simp [hadded.id]), List.filter_nil, List.append_nil]
  congr 1
  refine List.filter_congr fun other hother => ?_
  obtain ⟨hne, hsame⟩ := latestEvent_added hd hadded hother
  simp [IsActive, hsame, hne]

/-- The loop says of each card that it is stale. -/
theorem retireEach_ok {cardIds : List String} {incomingId : String} {u : PUnit}
    {w w' : MemoryWorld F}
    (h : (cardIds.forM fun cardId => transition env cardId "stale" (some incomingId)) w =
      (.ok u, w')) :
    ∃ d, Extends env w d w' ∧ d.cards = [] ∧ d.events.map EventRow.change =
      cardIds.map fun cardId => (cardId, "stale", some incomingId) := by
  refine Txn.forM_ok (P := fun done w₁ => ∃ d, Extends env w d w₁ ∧ d.cards = [] ∧
    d.events.map EventRow.change = done.map fun cardId => (cardId, "stale", some incomingId))
    h ⟨.none, extends_refl w, rfl, rfl⟩ ?_
  intro before cardId after w₁ w₂ v _ hP hstep
  obtain ⟨d, hd, hcards, hevents⟩ := hP
  obtain ⟨event, hext, hcardId, htype, -, hrelated⟩ := transition_ok hstep
  refine ⟨d.and (.event event), hd.trans hext, ?_, ?_⟩
  · rw [Delta.and, hcards]
    rfl
  · show (d.events ++ [event]).map EventRow.change = _
    rw [List.map_append, List.map_append, hevents, List.map_singleton, List.map_singleton,
      EventRow.change, hcardId, htype, hrelated]

variable {service : AdmissionService F}

theorem enforceRepairCapacity_ok {incoming : MemoryCard F} {u : Unit} {w w' : MemoryWorld F}
    (h : enforceRepairCapacity env service incoming w = (.ok u, w')) :
    ∃ d, Extends env w d w' ∧ d.cards = [] ∧ d.events.map EventRow.change =
      ((Greedy.dropped (RoomFor service.policy incoming.value.length)
        ((activeRepairs incoming.scope incoming.scopeKey w.db).filter fun row =>
          row.id ≠ incoming.id)).map CardRow.id).map
            fun cardId => (cardId, "stale", some incoming.id) := by
  unfold enforceRepairCapacity at h
  rw [Txn.bind_ok] at h
  obtain ⟨cards, w₁, hselect, h⟩ := h
  obtain ⟨hcards, rfl⟩ := select_ok.1 hselect
  rw [Txn.bind_ok] at h
  obtain ⟨retirements, w₂, hlift, h⟩ := h
  obtain ⟨hretirements, rfl⟩ := Txn.lift_ok.1 hlift
  rw [selectRetirements_eq hcards] at hretirements
  obtain rfl := Except.ok.inj hretirements
  exact retireEach_ok h

theorem repair_eq_some {factory : ExperienceFactory}
    {experience : VerifiedExperience} {draft : MemoryDraft F}
    (h : repair factory experience = some draft) :
    ∃ artifact, draft.values = repairValues factory experience artifact := by
  unfold repair at h
  split at h
  · cases h
  · next artifact _ =>
      split at h
      · cases h
      · cases h
        exact ⟨artifact, rfl⟩

/-- What a call that returned a card has done: the evidence's card was there or was added,
and the oldest of the others were retired. -/
theorem admitVerifiedRepair_ok {transactionId : String} {card : MemoryCard F}
    {w w' : MemoryWorld F}
    (h : admitVerifiedRepair env service transactionId w = (.ok (some card), w')) :
    ∃ (experience : VerifiedExperience) (draft : MemoryDraft F) (artifact : String)
      (w₁ : MemoryWorld F),
      verifiedExperience service transactionId = .ok experience ∧
        repair service.factory experience = some draft ∧
        draft.values = repairValues service.factory experience artifact ∧
        addCardOnceForSource env (sourceOf experience.evidence)
          (repairValues service.factory experience artifact) w = (.ok card, w₁) ∧
        ((repairValues (F := F) service.factory experience artifact).value.length : Int) ≤
          service.policy.maxActiveCharsPerScope ∧
        enforceRepairCapacity env service card w₁ = (.ok (), w') := by
  unfold admitVerifiedRepair at h
  rw [Txn.bind_ok] at h
  obtain ⟨experience, w₁, hlift, h⟩ := h
  obtain ⟨hexperience, rfl⟩ := Txn.lift_ok.1 hlift
  cases hdraft : (repair service.factory experience : Option (MemoryDraft F)) with
  | none =>
      rw [hdraft] at h
      cases (Txn.pure_ok.1 h).1
  | some draft =>
      rw [hdraft] at h
      obtain ⟨artifact, hvalues⟩ := repair_eq_some hdraft
      dsimp only at h
      split at h
      · cases (Txn.pure_ok.1 h).1
      · next hroom =>
          rw [Txn.bind_ok] at h
          obtain ⟨made, w₂, hadd, h⟩ := h
          rw [Txn.bind_ok] at h
          obtain ⟨_, w₃, henforce, h⟩ := h
          obtain ⟨hmade, rfl⟩ := Txn.pure_ok.1 h
          obtain rfl := Option.some.inj hmade
          rw [hvalues] at hadd hroom
          exact ⟨experience, draft, artifact, w₂, hexperience, hdraft, hvalues, hadd, by omega,
            henforce⟩

/-! ## The capacity is kept -/

theorem isActive_iff {w : MemoryWorld F} (h : Sound env w) (hclock : Monotone env.timeNs)
    (cardId : String) :
    IsActive w.db cardId ↔ lastChange w.db.cardEvents cardId = some "active" := by
  rw [IsActive, latestEvent_of_monotone h hclock]
  rfl

/-- Where the clock does not step back, cards that are said to be stale are retired,
and the others are what they were. -/
theorem status_retired {w w' : MemoryWorld F} {d : Delta F} (hsound : Sound env w)
    (hclock : Monotone env.timeNs) (hd : Extends env w d w') (hcards : d.cards = [])
    {retired : List String} {related : Option String}
    (hevents : d.events.map EventRow.change = retired.map fun cardId => (cardId, "stale", related))
    {row : CardRow F} (hrow : row ∈ w.db.cards) :
    (IsActive w'.db row.id ↔ IsActive w.db row.id ∧ row.id ∉ retired) ∧
      currentStatus env row.id w'.db =
        if row.id ∈ retired then .ok "stale" else currentStatus env row.id w.db := by
  have hadmitted := admitted_of_noCards hcards
  have hlast := lastChange_eq_of_map hevents row.id
  have hcurrent := currentStatus_after hsound hclock hd hadmitted hrow
  rw [isActive_iff (hsound.extends hd hadmitted) hclock, isActive_iff hsound hclock, hd.events,
    lastChange_append]
  by_cases hretired : row.id ∈ retired
  · rw [if_pos hretired] at hlast
    rw [hlast] at hcurrent
    rw [if_pos hretired, hlast]
    exact ⟨by simp [hretired], hcurrent⟩
  · rw [if_neg hretired] at hlast
    rw [hlast] at hcurrent
    rw [if_neg hretired, hlast]
    exact ⟨by simp [hretired], hcurrent⟩

/-- A card that was added is active. -/
theorem added_active {w w' : MemoryWorld F} (hsound : Sound env w)
    (hclock : Monotone env.timeNs) {values : CardValues F} {card : MemoryCard F} {d : Delta F}
    {row : CardRow F} (hd : Extends env w d w') (hadded : AddedFor env values w card d row) :
    IsActive w'.db row.id := by
  have hone : d.events.map EventRow.change =
      [row.id].map fun cardId => (cardId, "active", none) := hadded.change
  rw [isActive_iff (hsound.extends hd hadded.admitted) hclock, hd.events, lastChange_append,
    lastChange_eq_of_map hone, if_pos (List.mem_singleton_self row.id)]
  rfl

theorem repairValues_floats (factory : ExperienceFactory) (experience : VerifiedExperience)
    (artifact : String) : (repairValues (F := F) factory experience artifact).Floats :=
  ⟨_, _, rfl, rfl⟩

omit [Json.PyFloat F] in
/-- The active repairs, in the order of the table. -/
theorem activeRepairs_perm (scope scopeKey : String) (db : Database F) :
    (activeRepairs scope scopeKey db).Perm (db.cards.filter fun row =>
      row.subtype = "verified_repair" ∧ row.scope = scope ∧ row.scopeKey = scopeKey ∧
        IsActive db row.id) :=
  (List.perm_insertionSort _ _).filter _

omit [Json.PyFloat F] in
theorem activeRepairs_nodup {db : Database F} (hunique : (db.cards.map CardRow.id).Nodup)
    (scope scopeKey : String) : ((activeRepairs scope scopeKey db).map CardRow.id).Nodup := by
  rw [((activeRepairs_perm scope scopeKey db).map CardRow.id).nodup_iff]
  exact hunique.sublist (List.filter_sublist.map CardRow.id)

omit [Json.PyFloat F] in
/-- Without the first part, a list without repetitions is its second part. -/
theorem filter_kept {retired kept : List (CardRow F)}
    (h : ((retired ++ kept).map CardRow.id).Nodup) :
    (retired ++ kept).filter (fun row => row.id ∉ retired.map CardRow.id) = kept := by
  rw [List.map_append] at h
  have hdisjoint := (List.nodup_append.1 h).2.2
  rw [List.filter_append, List.filter_eq_nil_iff.2, List.nil_append, List.filter_eq_self]
  · intro row hrow
    rw [decide_eq_true_eq]
    exact fun hmem => hdisjoint _ hmem _ (List.mem_map_of_mem hrow) rfl
  · intro row hrow
    simpa using ⟨row, hrow, rfl⟩

/-- What a call leaves that added the card. -/
structure Capped (env : MemoryEnv F) (policy : CapacityPolicy) (card : MemoryCard F)
    (w w' : MemoryWorld F) : Prop where
  records : ((activeRepairs card.scope card.scopeKey w'.db).length : Int) ≤
    policy.maxActiveRecordsPerScope
  chars : ((activeRepairs card.scope card.scopeKey w'.db).map fun row =>
    (row.value.length : Int)).sum ≤ policy.maxActiveCharsPerScope
  admitted : ∃ row ∈ activeRepairs card.scope card.scopeKey w'.db, row.id = card.id
  /-- The shortest prefix is retired, the oldest first, that leaves room for the card. -/
  retired : ∃ retired kept, activeRepairs card.scope card.scopeKey w.db = retired ++ kept ∧
    RoomFor policy card.value.length kept ∧
    (∀ before after, activeRepairs card.scope card.scopeKey w.db = before ++ after →
      before.length < retired.length → ¬ RoomFor policy card.value.length after) ∧
    ∀ row ∈ w.db.cards, currentStatus env row.id w'.db =
      if row.id ∈ retired.map CardRow.id then .ok "stale" else currentStatus env row.id w.db

theorem admitVerifiedRepair_capped {transactionId : String} {card : MemoryCard F}
    {w w' : MemoryWorld F} (hsound : Sound env w) (hroot : Rooted w.db)
    (hclock : Monotone env.timeNs)
    (h : admitVerifiedRepair env service transactionId w = (.ok (some card), w'))
    (hnew : card.id ∉ w.db.cards.map CardRow.id) : Capped env service.policy card w w' := by
  obtain ⟨experience, _, artifact, w₁, -, -, -, hadd, hchars, henforce⟩ := admitVerifiedRepair_ok h
  obtain ⟨-, hcases⟩ := addCardOnceForSource_cases hsound hroot
    (repairValues_floats _ _ _) hadd
  rcases hcases with ⟨row, -, -, hshows⟩ | ⟨d, row, -, hd, hadded, hshows⟩
  · exact absurd (hshows.id ▸ List.mem_map_of_mem hshows.1) hnew
  obtain ⟨d₂, hd₂, hcards₂, hevents₂⟩ := enforceRepairCapacity_ok henforce
  rw [activeRepairs_added hd hadded] at hevents₂
  have hvalue := (cardFromRow_value hadded.read).1
  obtain ⟨-, -, hsubtype, hscope, hscopeKey, -, -⟩ := cardFromRow_ok hadded.read
  obtain ⟨-, cardId, recordedAtNs, hrow⟩ := hadded.of
  have hnil : RoomFor service.policy card.value.length ([] : List (CardRow F)) := by
    have hlength : card.value = (repairValues (F := F) service.factory experience
        artifact).value := by rw [hvalue, hrow]; rfl
    refine ⟨?_, ?_⟩
    · have := service.policy.records_pos
      simpa using this
    · rw [hlength]
      simpa using hchars
  obtain ⟨kept, hsplit, hroom, hshortest⟩ := Greedy.dropped_spec hnil
    (activeRepairs card.scope card.scopeKey w.db)
  generalize Greedy.dropped (RoomFor service.policy card.value.length)
    (activeRepairs card.scope card.scopeKey w.db) = retired at hsplit hshortest hevents₂
  have hsound₁ := hsound.extends hd hadded.admitted
  have hnewId : card.id ∉ retired.map CardRow.id := by
    intro hmem
    obtain ⟨other, hother, hid⟩ := List.mem_map.1 hmem
    have hbefore : other ∈ activeRepairs card.scope card.scopeKey w.db := by
      rw [hsplit]
      exact List.mem_append_left _ hother
    have hmem' := (List.mem_filter.1 ((activeRepairs_perm _ _ _).mem_iff.1 hbefore)).1
    exact hnew (hid ▸ List.mem_map_of_mem hmem')
  have hstatus : ∀ other ∈ w.db.cards, (IsActive w'.db other.id ↔
      IsActive w.db other.id ∧ other.id ∉ retired.map CardRow.id) ∧
      currentStatus env other.id w'.db = if other.id ∈ retired.map CardRow.id then .ok "stale"
        else currentStatus env other.id w.db := by
    intro other hother
    have hother₁ : other ∈ w₁.db.cards := by
      rw [hd.cards]
      exact List.mem_append_left _ hother
    obtain ⟨hactive, hcurrent⟩ := status_retired hsound₁ hclock hd₂ hcards₂ hevents₂ hother₁
    have hsame := (latestEvent_added hd hadded hother).2
    have hactive₁ : IsActive w₁.db other.id ↔ IsActive w.db other.id := by
      rw [IsActive, IsActive, hsame]
    have hcurrent₁ : currentStatus env other.id w₁.db = currentStatus env other.id w.db := by
      rw [currentStatus, currentStatus, hsame]
    rw [hactive₁] at hactive
    rw [hcurrent₁] at hcurrent
    exact ⟨hactive, hcurrent⟩
  have hrow₁ : row ∈ w₁.db.cards := by
    rw [hd.cards, hadded.cards]
    exact List.mem_append_right _ (List.mem_singleton_self row)
  have hrowActive : IsActive w'.db row.id := by
    refine (status_retired hsound₁ hclock hd₂ hcards₂ hevents₂ hrow₁).1.2 ⟨?_, ?_⟩
    · exact added_active hsound hclock hd hadded
    · rw [hadded.id]
      exact hnewId
  have hafter : (activeRepairs card.scope card.scopeKey w'.db).Perm (kept ++ [row]) := by
    have hcardsAfter : w'.db.cards = w.db.cards ++ [row] := by
      rw [hd₂.cards, hcards₂, List.append_nil, hd.cards, hadded.cards]
    have hrowPasses : row.subtype = "verified_repair" ∧ row.scope = card.scope ∧
        row.scopeKey = card.scopeKey ∧ IsActive w'.db row.id :=
      ⟨by rw [hrow]; rfl, hscope.symm, hscopeKey.symm, hrowActive⟩
    refine (activeRepairs_perm _ _ _).trans ?_
    have hone : [row].filter (fun other => other.subtype = "verified_repair" ∧
        other.scope = card.scope ∧ other.scopeKey = card.scopeKey ∧ IsActive w'.db other.id) =
        [row] :=
      List.filter_eq_self.2 fun other hother => by
        rw [List.mem_singleton.1 hother]
        exact decide_eq_true hrowPasses
    rw [hcardsAfter, List.filter_append, hone]
    refine List.Perm.append_right [row] ?_
    have hnodup := activeRepairs_nodup hsound.unique card.scope card.scopeKey
    rw [hsplit] at hnodup
    have hkept := filter_kept hnodup
    rw [← hsplit] at hkept
    rw [← hkept]
    refine .trans ?_ ((activeRepairs_perm _ _ _).filter _).symm
    rw [List.filter_filter]
    refine .of_eq (List.filter_congr fun other hother => ?_)
    simp only [(hstatus other hother).1]
    grind
  refine ⟨?_, ?_, ⟨row, ?_, hadded.id⟩, retired, kept, hsplit, hroom, hshortest,
    fun other hother => (hstatus other hother).2⟩
  · rw [hafter.length_eq, List.length_append, List.length_singleton]
    have := hroom.1
    omega
  · rw [(hafter.map _).sum_eq, List.map_append, List.sum_append, List.map_singleton,
      List.sum_singleton, ← hvalue]
    exact hroom.2
  · exact hafter.mem_iff.2 (List.mem_append_right _ (List.mem_singleton_self row))

/-! ## It returns -/

/-- The cards of a store that is as it was left are listed. -/
theorem listCards_returns {w : MemoryWorld F} (h : Healthy env w)
    (hinit : w.db.initialized = true) (includeInactive : Bool) :
    ∃ cards, listCards env includeInactive none true w.db = .ok cards := by
  have hmem : ∀ row ∈ Log.newestFirst CardRow.recordedAtNs
      (w.db.cards.filter fun row => inScope none true row), row ∈ w.db.cards :=
    fun row hrow => (List.mem_filter.1 (Log.mem_newestFirst.1 hrow)).1
  have hcovered : ∀ cardId ∈ (Log.newestFirst CardRow.recordedAtNs
      (w.db.cards.filter fun row => inScope none true row)).map CardRow.id,
      ∃ event ∈ w.db.cardEvents, event.cardId = cardId := by
    intro cardId hcardId
    obtain ⟨row, hrow, rfl⟩ := List.mem_map.1 hcardId
    exact h.sound.covered row (hmem row hrow)
  obtain ⟨statuses, hstatuses, hget⟩ := latestStatuses_eq h.sound.eventsSigned hcovered
  obtain ⟨found, hfound⟩ := except_mapM_returns
    (f := listedRow env includeInactive statuses) fun row hrow => by
    obtain ⟨event, hevent⟩ := exists_latestEvent (h.sound.covered row (hmem row hrow))
    obtain ⟨card, hcard⟩ := cardFromRow_made (h.sound.made row (hmem row hrow)) event.eventType
    rw [listedRow, h.verified row (hmem row hrow), except_ok_bind, hget row.id (List.mem_map_of_mem hrow),
      hevent]
    by_cases hlisted : includeInactive ∨ event.eventType = "active"
    · refine ⟨[card], ?_⟩
      simp only [Option.map_some, if_pos hlisted, hcard]
      rfl
    · refine ⟨[], ?_⟩
      simp only [Option.map_some, if_neg hlisted]
      rfl
  refine ⟨found.flatten, ?_⟩
  unfold listCards
  rw [connect, hinit]
  exact except_bind_ok.2 ⟨(), rfl, except_bind_ok.2 ⟨statuses, hstatuses,
    except_bind_ok.2 ⟨found, hfound, rfl⟩⟩⟩

/-- Cards of the store can be retired one after the other. -/
theorem retireEach_returns {w : MemoryWorld F} (h : Healthy env w) (hobliging : Obliging env)
    {incoming : CardRow F} (hincoming : incoming ∈ w.db.cards) {olds : List (CardRow F)}
    (holds : ∀ old ∈ olds, old ∈ w.db.cards) :
    Txn.Returns ((olds.map CardRow.id).forM fun cardId =>
      transition env cardId "stale" (some incoming.id)) w := by
  refine Txn.Returns.forM (P := fun w => Healthy env w ∧ incoming ∈ w.db.cards ∧
    ∀ old ∈ olds, old ∈ w.db.cards) ⟨h, hincoming, holds⟩ (fun cardId hcardId s hs => ?_)
    fun cardId hcardId s s' v hs hrun => ?_
  · obtain ⟨old, hold, rfl⟩ := List.mem_map.1 hcardId
    have hincoming : ∀ other ∈ some incoming, other ∈ s.db.cards := by
      intro other hother
      rw [← Option.mem_some.1 hother]
      exact hs.2.1
    exact transition_returns hs.1 hobliging "stale" (by decide) (by decide) (hs.2.2 old hold)
      hincoming
  · obtain ⟨event, hext, -, -, -, -⟩ := transition_ok hrun
    have hsame : s'.db.cards = s.db.cards := hext.cards.trans (List.append_nil _)
    rw [hsame]
    exact ⟨hs.1.extends hext (admitted_of_noCards rfl) fun row hrow =>
      absurd hrow List.not_mem_nil, hs.2⟩

theorem enforceRepairCapacity_returns {w : MemoryWorld F} (h : Healthy env w)
    (hobliging : Obliging env) (hinit : w.db.initialized = true) {incoming : MemoryCard F}
    (hincoming : ∃ row ∈ w.db.cards, row.id = incoming.id) :
    Txn.Returns (enforceRepairCapacity env service incoming) w := by
  obtain ⟨row, hrow, hid⟩ := hincoming
  obtain ⟨cards, hcards⟩ := listCards_returns h hinit false
  refine Txn.Returns.bind (Txn.returns_reads hcards) fun found w₁ hselect => ?_
  obtain ⟨hfound, rfl⟩ := select_ok.1 hselect
  rw [hcards] at hfound
  obtain rfl := Except.ok.inj hfound
  refine Txn.Returns.bind (Txn.returns_lift (selectRetirements_eq hcards incoming _) w₁)
    fun retirements w₂ hlift => ?_
  obtain ⟨hretirements, rfl⟩ := Txn.lift_ok.1 hlift
  rw [selectRetirements_eq hcards] at hretirements
  obtain rfl := Except.ok.inj hretirements
  rw [← hid]
  refine retireEach_returns h hobliging hrow fun old hold => ?_
  have hbefore := Greedy.dropped_subset _ hold
  exact (List.mem_filter.1 ((activeRepairs_perm _ _ _).mem_iff.1
    (List.mem_filter.1 hbefore).1)).1

/-- A call that raised before it came to the capacity has written nothing. -/
theorem addCardOnceForSource_error {source : EvidenceSource} {values : CardValues F} {e : PyExc}
    {w w' : MemoryWorld F} (h : addCardOnceForSource env source values w = (.error e, w')) :
    Extends env w .none w' := by
  have hoperate : operate env (.addCardOnceForSource source values) w = (.error e, w') :=
    Txn.bind_error.2 (Or.inl h)
  exact operate_error hoperate

/-- What a card was added for, or came back for, can be given its room. -/
theorem enforce_after_add {source : EvidenceSource} {values : CardValues F} {card : MemoryCard F}
    (hobliging : Obliging env) {w w₁ : MemoryWorld F} (h : Healthy env w) (hroot : Rooted w.db)
    (hfloats : values.Floats) (hadd : addCardOnceForSource env source values w = (.ok card, w₁)) :
    Txn.Returns (enforceRepairCapacity env service card) w₁ := by
  obtain ⟨hinit, hcases⟩ := addCardOnceForSource_cases h.sound hroot hfloats hadd
  rcases hcases with ⟨row, -, hext, hshows⟩ | ⟨d, row, -, hext, hadded, hshows⟩
  · have hhealthy : Healthy env w₁ := h.extends hext (admitted_of_noCards rfl) fun row hrow =>
      absurd hrow List.not_mem_nil
    have hshows₁ := hshows.unchanged hext
    exact enforceRepairCapacity_returns hhealthy hobliging hinit ⟨row, hshows₁.1, hshows₁.id.symm⟩
  · have hhealthy : Healthy env w₁ := h.extends hext hadded.admitted fun other hother => by
      rw [hadded.cards, List.mem_singleton] at hother
      exact ⟨values, hfloats, hother ▸ hadded.of⟩
    exact enforceRepairCapacity_returns hhealthy hobliging hinit ⟨row, hshows.1, hadded.id⟩

/-- On a machine that obliges, a call that raised has added nothing. -/
theorem admitVerifiedRepair_error {transactionId : String} {e : PyExc} (hobliging : Obliging env)
    {w w' : MemoryWorld F} (h : Healthy env w) (hroot : Rooted w.db)
    (hrun : admitVerifiedRepair env service transactionId w = (.error e, w')) :
    w'.db.cards = w.db.cards := by
  unfold admitVerifiedRepair at hrun
  rcases Txn.bind_error.1 hrun with hraised | ⟨experience, w₁, hlift, hthen⟩
  · rw [← show w = w' from congrArg Prod.snd hraised]
  obtain ⟨-, rfl⟩ := Txn.lift_ok.1 hlift
  cases hdraft : (repair service.factory experience : Option (MemoryDraft F)) with
  | none =>
      rw [hdraft] at hthen
      cases hthen
  | some draft =>
      rw [hdraft] at hthen
      obtain ⟨artifact, hvalues⟩ := repair_eq_some hdraft
      dsimp only at hthen
      split at hthen
      · cases hthen
      · rw [hvalues] at hthen
        rcases Txn.bind_error.1 hthen with hadd | ⟨card, w₂, hadd, hafter⟩
        · exact (addCardOnceForSource_error hadd).cards.trans (List.append_nil _)
        have hreturns : Txn.Returns (enforceRepairCapacity env service card) w₂ :=
          enforce_after_add hobliging h hroot (repairValues_floats _ _ _) hadd
        obtain ⟨u, w₃, henforce⟩ := hreturns
        rcases Txn.bind_error.1 hafter with hraised | ⟨_, w₄, -, hpure⟩
        · rw [henforce] at hraised
          cases hraised
        · cases hpure

/-- A call that returned no card has added none. -/
theorem admitVerifiedRepair_none {transactionId : String} {w w' : MemoryWorld F}
    (hrun : admitVerifiedRepair env service transactionId w = (.ok none, w')) : w' = w := by
  unfold admitVerifiedRepair at hrun
  rw [Txn.bind_ok] at hrun
  obtain ⟨experience, w₁, hlift, hrun⟩ := hrun
  obtain ⟨-, rfl⟩ := Txn.lift_ok.1 hlift
  cases hdraft : (repair service.factory experience : Option (MemoryDraft F)) with
  | none =>
      rw [hdraft] at hrun
      exact (Txn.pure_ok.1 hrun).2
  | some draft =>
      rw [hdraft] at hrun
      dsimp only at hrun
      split at hrun
      · exact (Txn.pure_ok.1 hrun).2
      · rw [Txn.bind_ok] at hrun
        obtain ⟨card, w₂, -, hrun⟩ := hrun
        rw [Txn.bind_ok] at hrun
        obtain ⟨_, w₃, -, hrun⟩ := hrun
        cases (Txn.pure_ok.1 hrun).1

/-- The card a call returned was there, or was added by it. -/
theorem admitVerifiedRepair_cards {transactionId : String} {card : MemoryCard F}
    {w w' : MemoryWorld F} (hsound : Sound env w) (hroot : Rooted w.db)
    (h : admitVerifiedRepair env service transactionId w = (.ok (some card), w')) :
    w'.db.cards = w.db.cards ∨ card.id ∉ w.db.cards.map CardRow.id := by
  obtain ⟨experience, _, artifact, w₁, -, -, -, hadd, -, henforce⟩ := admitVerifiedRepair_ok h
  obtain ⟨d₂, hd₂, hcards₂, -⟩ := enforceRepairCapacity_ok henforce
  obtain ⟨-, hcases⟩ := addCardOnceForSource_cases hsound hroot (repairValues_floats _ _ _) hadd
  rcases hcases with ⟨row, -, hext, -⟩ | ⟨d, row, -, -, hadded, -⟩
  · refine Or.inl ?_
    rw [hd₂.cards, hcards₂, List.append_nil]
    exact hext.cards.trans (List.append_nil _)
  · exact Or.inr (hadded.id ▸ hadded.fresh)

/-- In every store a run has come by, on a clock that does not step back: a repair that
is added leaves its scope within its capacity, the card among the active ones, and what
was retired is the shortest prefix, the oldest first, that leaves room for it. A call
that adds a card returns it, on a machine that obliges. -/
theorem repairs_within_capacity (hclock : Monotone env.timeNs) (service : AdmissionService F)
    {w : MemoryWorld F} (hw : Reached env anyStep w) (transactionId : String) :
    (∀ card w', admitVerifiedRepair env service transactionId w = (.ok (some card), w') →
      card.id ∉ w.db.cards.map CardRow.id → Capped env service.policy card w w') ∧
    (Obliging env → Reached env (fun _ op => op.Floats) w → ∀ r w',
      admitVerifiedRepair env service transactionId w = (r, w') → w'.db.cards ≠ w.db.cards →
        ∃ card, r = .ok (some card) ∧ card.id ∉ w.db.cards.map CardRow.id) := by
  have hsound := sound_of_reached hw
  have hroot := rooted_of_reached hw
  refine ⟨fun card w' hrun hnew => admitVerifiedRepair_capped hsound hroot hclock hrun hnew,
    fun hobliging hfloats r w' hrun hadded => ?_⟩
  cases r with
  | error e =>
      exact absurd (admitVerifiedRepair_error hobliging (healthy_of_reached hfloats) hroot hrun)
        hadded
  | ok found =>
      cases found with
      | none => exact absurd (by rw [admitVerifiedRepair_none hrun]) hadded
      | some card =>
          rcases admitVerifiedRepair_cards hsound hroot hrun with hsame | hnew
          · exact absurd hsame hadded
          · exact ⟨card, rfl, hnew⟩

/-! ## A first repair -/

namespace FirstRepair

def experience : VerifiedExperience where
  evidence := ⟨"transaction_receipt", "state:transaction-receipt:first:e3b0c442",
    "e3b0c44298fc1c149afbf4c8996fb92427ae41e4649b934ca495991b7852b855", "trusted_tool"⟩
  scope := "workspace"
  scopeKey := "sha256:workspace"
  validFrom := "2025-01-01T00:00:00+00:00"
  task := "fix"
  checks := []
  artifactText := some "x"
  artifactSizeBytes := 1
  artifactBinary := false

def admission : AdmissionService Unit where
  host := ⟨fun _ => .ok experience, fun _ => .ok []⟩
  factory := .standard (fun _ => false) id
  policy := .standard

theorem repair_experience :
    repair (F := Unit) admission.factory experience =
      some ⟨repairValues admission.factory experience "x", none⟩ := by
  have hkept : ¬ ("x" = "" ∨ experience.artifactBinary = true ∨
      experience.artifactSizeBytes > admission.factory.maxArtifactBytes ∨
      admission.factory.containsSecret (experience.task ++ "\n" ++ "x") = true) := by
    decide +kernel
  have htext : experience.artifactText = some "x" := rfl
  rw [repair, htext]
  exact if_neg hkept

theorem validateCardInput_repair :
    validateCardInput (machine ticking) (repairValues admission.factory experience "x") =
      .ok () := by decide +kernel

theorem repair_returns : ∃ card w',
    admitVerifiedRepair (machine ticking) admission "first" (.start Unit) = (.ok (some card), w') := by
  have hhealthy : Healthy (machine ticking) (.start Unit) := healthy_start
  have hcitable : Citable (sourceOf experience.evidence) (MemoryWorld.start Unit).db :=
    ⟨fun _ hrow => absurd hrow List.not_mem_nil, fun _ hrow => absurd hrow List.not_mem_nil⟩
  obtain ⟨card, w₁, hadd⟩ := addCardOnceForSource_returns hhealthy (machine_obliging _)
    validateCardInput_repair (repairValues_floats _ _ _) (by decide +kernel) hcitable
  have hreturns : Txn.Returns (enforceRepairCapacity (machine ticking) admission card) w₁ :=
    enforce_after_add (machine_obliging _) hhealthy rooted_start (repairValues_floats _ _ _) hadd
  obtain ⟨u, w₂, henforce⟩ := hreturns
  refine ⟨card, w₂, ?_⟩
  unfold admitVerifiedRepair
  refine Txn.bind_ok.2 ⟨experience, _, rfl, ?_⟩
  rw [repair_experience]
  dsimp only
  rw [if_neg (by decide +kernel)]
  exact Txn.bind_ok.2 ⟨card, w₁, hadd, Txn.bind_ok.2 ⟨u, w₂, henforce, rfl⟩⟩

end FirstRepair

theorem repairs_within_capacity_sample : ∃ card w',
    admitVerifiedRepair (machine ticking) FirstRepair.admission "first" (.start Unit) =
        (.ok (some card), w') ∧
      Capped (machine ticking) FirstRepair.admission.policy card (.start Unit) w' := by
  obtain ⟨card, w', hrun⟩ := FirstRepair.repair_returns
  exact ⟨card, w', hrun, (repairs_within_capacity ticking_monotone FirstRepair.admission .start
    "first").1 card w' hrun List.not_mem_nil⟩

end MemoryAdmission

end MiniCodeAgent
