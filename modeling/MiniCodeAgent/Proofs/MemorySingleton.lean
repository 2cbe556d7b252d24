import MiniCodeAgent.Proofs.MemoryStatus

/-!
# One active card in a family

A family of singleton memory (a kind, subtype, scope and scope key) may hold
any number of active cards, since the other operations add cards without
looking. Each way `upsert_scoped_singleton` returns leaves exactly one: the
rows it appended retire every card that was active or is new, except one.
Statuses are read by recorded time, so this takes a clock that never steps
back, under which a card's status is the one set last.
-/

namespace MiniCodeAgent

namespace MemoryStore

variable {F : Type} [Json.PyFloat F] {env : MemoryEnv F}

/-- With such a clock the status read is the status set last. -/
theorem currentStatus_iff {w : MemoryWorld F} (h : Sound env w) (hclock : Monotone env.timeNs)
    {row : CardRow F} (hrow : row ∈ w.db.cards) (status : String) :
    currentStatus env row.id w.db = .ok status ↔
      lastChange w.db.cardEvents row.id = some status := by
  constructor
  · intro hstatus
    obtain ⟨event, hevent⟩ := exists_latestEvent (h.covered row hrow)
    rw [currentStatus_eq h.eventsSigned hevent] at hstatus
    rw [lastChange, ← latestEvent_of_monotone h hclock, hevent]
    cases hstatus
    rfl
  · exact currentStatus_of_monotone h hclock

/-- What was appended decides about the cards it mentions, and only those. -/
theorem currentStatus_extends {w w' : MemoryWorld F} {d : Delta F} (hsound : Sound env w')
    (hclock : Monotone env.timeNs) (hd : Extends env w d w') {row : CardRow F}
    (hrow : row ∈ w'.db.cards) (status : String) :
    currentStatus env row.id w'.db = .ok status ↔
      (lastChange d.events row.id).or (lastChange w.db.cardEvents row.id) = some status := by
  rw [currentStatus_iff hsound hclock hrow, hd.events, lastChange_append]

/-- The status that was set last among what was appended counts, if there is one. -/
theorem currentStatus_after {w w' : MemoryWorld F} {d : Delta F} (hsound : Sound env w)
    (hclock : Monotone env.timeNs) (hd : Extends env w d w') (hadmitted : d.Admitted)
    {row : CardRow F} (hrow : row ∈ w.db.cards) :
    currentStatus env row.id w'.db =
      match lastChange d.events row.id with
      | some status => .ok status
      | none => currentStatus env row.id w.db := by
  have hsound' := hsound.extends hd hadmitted
  have hrow' : row ∈ w'.db.cards := by
    rw [hd.cards]
    exact List.mem_append_left _ hrow
  have hstatus := currentStatus_extends hsound' hclock hd hrow'
  cases hlast : lastChange d.events row.id with
  | some status =>
      rw [hlast] at hstatus
      exact (hstatus status).2 rfl
  | none =>
      rw [hlast] at hstatus
      obtain ⟨event, hevent⟩ := exists_latestEvent (hsound.covered row hrow)
      have hbefore := currentStatus_eq hsound.eventsSigned hevent
      rw [hbefore]
      exact (hstatus event.eventType).2 ((currentStatus_iff hsound hclock hrow _).1 hbefore)

/-- The one active card of the family and what became of the others. -/
structure OneActive (env : MemoryEnv F) (values : CardValues F) (w w' : MemoryWorld F)
    (winner : CardRow F) : Prop where
  mem : winner ∈ w'.db.cards
  family : inFamily values winner
  active : currentStatus env winner.id w'.db = .ok "active"
  only : ∀ row ∈ w'.db.cards, inFamily values row →
    currentStatus env row.id w'.db = .ok "active" → row = winner
  others : ∀ row ∈ w.db.cards, inFamily values row →
    currentStatus env row.id w.db = .ok "active" → row ≠ winner →
      currentStatus env row.id w'.db = .ok "superseded" ∧
      (∃ event ∈ w'.db.cardEvents, event.cardId = row.id ∧ event.eventType = "superseded") ∧
      ∃ edge ∈ w'.db.edges, edge.link = (winner.id, row.id, "supersedes")
  elsewhere : ∀ row ∈ w'.db.cards, ¬ inFamily values row →
    row ∈ w.db.cards ∧ ∀ status, currentStatus env row.id w'.db = .ok status ↔
      currentStatus env row.id w.db = .ok status

omit [Json.PyFloat F] in
theorem exists_event_of_lastChange {events : List EventRow} {cardId status : String}
    (h : lastChange events cardId = some status) :
    ∃ event ∈ events, event.cardId = cardId ∧ event.eventType = status := by
  rw [lastChange] at h
  obtain ⟨event, hevent, htype⟩ := Option.map_eq_some_iff.1 h
  obtain ⟨hmem, hid⟩ := List.mem_filter.1 (List.mem_of_getLast? hevent)
  exact ⟨event, hmem, of_decide_eq_true hid, htype⟩

theorem oneActive_of_upserted {values : CardValues F} {w w' : MemoryWorld F} {d : Delta F}
    {active : List (CardRow F)} {winner : String} (hsound : Sound env w) (hsound' : Sound env w')
    (hclock : Monotone env.timeNs) (hd : Extends env w d w')
    (hupserted : Upserted env values w (active.map CardRow.id) winner d)
    (hactive : ∀ row, row ∈ active ↔ row ∈ w.db.cards ∧ inFamily values row ∧
      currentStatus env row.id w.db = .ok "active") :
    ∃ row, row.id = winner ∧ OneActive env values w w' row := by
  obtain ⟨retired, hretired, hlinks, hchanges⟩ := hupserted.retired
  have hcards : ∀ row, row ∈ w'.db.cards ↔ row ∈ w.db.cards ∨ row ∈ d.cards := by
    intro row
    rw [hd.cards, List.mem_append]
  have hold : ∀ {row : CardRow F}, row ∈ w.db.cards → row.id ∉ d.cards.map CardRow.id := by
    intro row hrow hmem
    obtain ⟨new, hnew, hid⟩ := List.mem_map.1 hmem
    refine hupserted.fresh new hnew ?_
    rw [hid]
    exact List.mem_map_of_mem hrow
  have hactiveId : ∀ {row : CardRow F}, row ∈ w.db.cards → row.id ∈ active.map CardRow.id →
      row ∈ active := by
    intro row hrow hmem
    obtain ⟨other, hother, hid⟩ := List.mem_map.1 hmem
    rw [← eq_of_same_id hsound.unique ((hactive other).1 hother).1 hrow hid]
    exact hother
  -- the winner is an active card or the new one
  obtain ⟨row, hrow, hid, hfamily⟩ : ∃ row ∈ w'.db.cards, row.id = winner ∧
      inFamily values row := by
    rcases hupserted.winner_mem with hmem | hmem
    · obtain ⟨row, hrow, hid⟩ := List.mem_map.1 hmem
      exact ⟨row, (hcards row).2 (Or.inl ((hactive row).1 hrow).1), hid, ((hactive row).1 hrow).2.1⟩
    · obtain ⟨row, hrow, hid⟩ := List.mem_map.1 hmem
      exact ⟨row, (hcards row).2 (Or.inr hrow), hid, hupserted.family row hrow⟩
  have hlost : ∀ {other : CardRow F}, other ∈ w'.db.cards → other.id ∈ retired →
      currentStatus env other.id w'.db = .ok "superseded" := by
    intro other hother hmem
    rw [currentStatus_extends hsound' hclock hd hother, hchanges, if_pos hmem, Option.some_or]
  have hne : ∀ {other : CardRow F}, other ∈ w'.db.cards → other ≠ row → other.id ≠ winner := by
    intro other hother hneq heq
    exact hneq (eq_of_same_id hsound'.unique hother hrow (heq.trans hid.symm))
  refine ⟨row, hid, ?_⟩
  exact {
    mem := hrow
    family := hfamily
    active := by
      have hkept : row.id ∉ retired := by
        intro hmem
        exact ((hretired row.id).1 hmem).2 hid
      rw [currentStatus_extends hsound' hclock hd hrow, hchanges, if_neg hkept]
      rcases (hcards row).1 hrow with hw | hnew
      · rw [if_neg (hold hw), Option.none_or]
        rcases hupserted.winner_mem with hmem | hmem
        · rw [← hid] at hmem
          exact (currentStatus_iff hsound hclock hw _).1 ((hactive row).1 (hactiveId hw hmem)).2.2
        · rw [← hid] at hmem
          exact absurd hmem (hold hw)
      · rw [if_pos (List.mem_map_of_mem hnew), Option.some_or]
    only := by
      intro other hother hin hstatus
      by_contra hneq
      have hotherId := hne hother hneq
      have hretiredOther : other.id ∉ retired := by
        intro hmem
        rw [hlost hother hmem] at hstatus
        injection hstatus with hstatus
        exact absurd hstatus (by decide)
      rcases (hcards other).1 hother with hw | hnew
      · rw [currentStatus_extends hsound' hclock hd hother, hchanges, if_neg hretiredOther,
          if_neg (hold hw), Option.none_or, ← currentStatus_iff hsound hclock hw] at hstatus
        refine hretiredOther ((hretired other.id).2 ⟨Or.inl ?_, hotherId⟩)
        exact List.mem_map_of_mem ((hactive other).2 ⟨hw, hin, hstatus⟩)
      · exact hretiredOther ((hretired other.id).2 ⟨Or.inr (List.mem_map_of_mem hnew), hotherId⟩)
    others := by
      intro other hother hin hstatus hneq
      have hother' := (hcards other).2 (Or.inl hother)
      have hmem : other.id ∈ retired := (hretired other.id).2
        ⟨Or.inl (List.mem_map_of_mem ((hactive other).2 ⟨hother, hin, hstatus⟩)), hne hother' hneq⟩
      refine ⟨hlost hother' hmem, ?_, ?_⟩
      · obtain ⟨event, hevent, hcard, htype⟩ :=
          exists_event_of_lastChange ((hchanges other.id).trans (if_pos hmem))
        refine ⟨event, ?_, hcard, htype⟩
        rw [hd.events]
        exact List.mem_append_right _ hevent
      · have hlink : (winner, other.id, "supersedes") ∈ d.edges.map EdgeRow.link := by
          rw [hlinks]
          exact List.mem_map_of_mem (f := fun old => (winner, old, "supersedes")) hmem
        obtain ⟨edge, hedge, heq⟩ := List.mem_map.1 hlink
        refine ⟨edge, ?_, by rw [heq, hid]⟩
        rw [hd.edges]
        exact List.mem_append_right _ hedge
    elsewhere := by
      intro other hother hout
      have hw : other ∈ w.db.cards := by
        rcases (hcards other).1 hother with hw | hnew
        · exact hw
        · exact absurd (hupserted.family other hnew) hout
      have hretiredOther : other.id ∉ retired := by
        intro hmem
        rcases ((hretired other.id).1 hmem).1 with hmem | hmem
        · exact hout ((hactive other).1 (hactiveId hw hmem)).2.1
        · exact hold hw hmem
      refine ⟨hw, fun status => ?_⟩
      rw [currentStatus_extends hsound' hclock hd hother, hchanges, if_neg hretiredOther,
        if_neg (hold hw), Option.none_or, ← currentStatus_iff hsound hclock hw] }

/-- The active cards the call saw are those of the family. -/
theorem active_iff {anchor : String} {values : CardValues F} {db : Database F}
    {family : List (FamilyMember F)} (hread : ∀ m ∈ family, m.Read env anchor values db)
    (hall : ∀ row ∈ db.cards, inFamily values row → ∃ m ∈ family, m.row = row)
    (row : CardRow F) :
    row ∈ (family.filter fun m => m.status = "active").map FamilyMember.row ↔
      row ∈ db.cards ∧ inFamily values row ∧ currentStatus env row.id db = .ok "active" := by
  constructor
  · intro hrow
    obtain ⟨m, hm, rfl⟩ := List.mem_map.1 hrow
    obtain ⟨hm, hactive⟩ := List.mem_filter.1 hm
    obtain ⟨hmem, hin, hstatus, -⟩ := hread m hm
    rw [of_decide_eq_true hactive] at hstatus
    exact ⟨hmem, hin, hstatus⟩
  · rintro ⟨hmem, hin, hstatus⟩
    obtain ⟨m, hm, rfl⟩ := hall row hmem hin
    obtain ⟨-, -, hstatus', -⟩ := hread m hm
    rw [hstatus] at hstatus'
    injection hstatus' with hstatus'
    exact List.mem_map_of_mem (List.mem_filter.2 ⟨hm, decide_eq_true hstatus'.symm⟩)

/-- In every run under a clock that never steps back, a call that returns leaves
one active card in its family. -/
theorem upsert_oneActive (env : MemoryEnv F) (hclock : Monotone env.timeNs) (w : MemoryWorld F)
    (hw : Reached env anyStep w) (anchor : String) (values : CardValues F)
    (sources : List EvidenceSource) (card : MemoryCard F) (w' : MemoryWorld F)
    (h : upsertScopedSingleton env anchor values sources w = (.ok card, w')) :
    ∃ winner, OneActive env values w w' winner := by
  obtain ⟨family, active, d, winner, hread, hall, rfl, hd, hupserted, -, -, -⟩ :=
    upsertScopedSingleton_ok h
  have hsound := sound_of_reached hw
  obtain ⟨row, -, hone⟩ := oneActive_of_upserted hsound (hsound.extends hd hupserted.admitted)
    hclock hd hupserted (active_iff hread hall)
  exact ⟨row, hone⟩

/-- Two active cards of one family, and one in their place. -/
theorem upsert_oneActive_sample :
    ∃ w w' card, Reached (machine ticking) anyStep w ∧ 2 ≤ w.db.cards.length ∧
      upsertScopedSingleton (machine ticking) "modal" (setting "vim" "modal" "inform" none)
        [evidence "first"] w = (.ok card, w') ∧
      ∃ winner, OneActive (machine ticking) (setting "vim" "modal" "inform" none) w w' winner := by
  obtain ⟨w, a, b, hreached, hhealthy, hconsistent, ha, hb, hauthority, hauthority'⟩ :=
    two_cards anyStep "act" "inform"
      (fun _ _ _ => trivial) rfl rfl
  obtain ⟨card, w', hrun⟩ := upsertScopedSingleton_returns hhealthy (machine_obliging ticking)
    "modal" rfl (setting_floats "vim" "modal" "inform" none) ⟨by decide, List.mem_cons_self⟩
    (List.cons_ne_nil (evidence "first") []) hconsistent
  refine ⟨w, w', card, hreached, ?_, hrun, upsert_oneActive (machine ticking) ticking_monotone w
    hreached "modal" _ _ card w' hrun⟩
  have hne : a ≠ b := by
    intro heq
    rw [heq, hauthority'] at hauthority
    exact absurd hauthority (by decide)
  match hcards : w.db.cards with
  | [] =>
      rw [hcards] at ha
      cases ha
  | [c] =>
      rw [hcards] at ha hb
      exact absurd ((List.mem_singleton.1 ha).trans (List.mem_singleton.1 hb).symm) hne
  | _ :: _ :: _ => simp

end MemoryStore

end MiniCodeAgent
