import MiniCodeAgent.Proofs.MemorySpecs

/-!
# Revising a singleton

`upsert_scoped_singleton` reads its family and returns in one of four ways: a
late revision becomes history or adds to it, a known anchor adds evidence to
the card that carries it, and anything else becomes the new card. They have in
common what `Upserted` says. One card wins; every other card of the family that
was active before or was created on the way is retired in its favour, and no
other card is touched. Which card wins is what `Decided` tells apart.
-/

namespace MiniCodeAgent

namespace MemoryStore

variable {F : Type} [Json.PyFloat F] {env : MemoryEnv F}

/-! ## What was read -/

def FamilyMember.Read (env : MemoryEnv F) (anchor : String) (values : CardValues F)
    (db : Database F) (m : FamilyMember F) : Prop :=
  m.row ∈ db.cards ∧ inFamily values m.row ∧ currentStatus env m.row.id db = .ok m.status ∧
    carriesAnchor anchor m.row = .ok m.carries

theorem readFamily_ok {anchor : String} {values : CardValues F} {db : Database F}
    {family : List (FamilyMember F)} (h : readFamily env anchor values db = .ok family) :
    (∀ m ∈ family, m.Read env anchor values db) ∧
      ∀ row ∈ db.cards, inFamily values row → ∃ m ∈ family, m.row = row := by
  unfold readFamily at h
  have hmember : ∀ row m, (do
      verifyCard env row
      let status ← currentStatus env row.id db
      let carries ← carriesAnchor anchor row
      return ⟨row, status, carries⟩ : Except PyExc (FamilyMember F)) = .ok m →
      m.row = row ∧ currentStatus env row.id db = .ok m.status ∧
        carriesAnchor anchor row = .ok m.carries := by
    intro row m hm
    obtain ⟨_, -, hm⟩ := except_bind_ok.1 hm
    obtain ⟨status, hstatus, hm⟩ := except_bind_ok.1 hm
    obtain ⟨carries, hcarries, hm⟩ := except_bind_ok.1 hm
    cases hm
    exact ⟨rfl, hstatus, hcarries⟩
  constructor
  · intro m hm
    obtain ⟨row, hrow, hread⟩ := except_mapM_mem_result h hm
    obtain ⟨rfl, hstatus, hcarries⟩ := hmember row m hread
    have hrow := List.mem_filter.1 (Log.mem_newestFirst.1 hrow)
    exact ⟨hrow.1, of_decide_eq_true hrow.2, hstatus, hcarries⟩
  · intro row hrow hfamily
    obtain ⟨m, hm, hread⟩ := except_mapM_mem h
      (Log.mem_newestFirst.2 (List.mem_filter.2 ⟨hrow, decide_eq_true hfamily⟩))
    exact ⟨m, hm, (hmember row m hread).1⟩

omit [Json.PyFloat F] in
/-- `max(...)` over the rows found one that nothing exceeds, unless there was none. -/
theorem latestRevision_ok {rows : List (CardRow F)} {best : Option (CardRow F × Int)}
    (h : latestRevision env rows = .ok best) :
    (best = none → rows = []) ∧ ∀ top latest, best = some (top, latest) → top ∈ rows ∧
      revisionMoment env top = .ok latest ∧
      ∀ row ∈ rows, ∃ moment, revisionMoment env row = .ok moment ∧ moment ≤ latest := by
  refine except_foldlM_ok (P := fun seen best => (best = none → seen = []) ∧
    ∀ top latest, best = some (top, latest) → top ∈ seen ∧ revisionMoment env top = .ok latest ∧
      ∀ row ∈ seen, ∃ moment, revisionMoment env row = .ok moment ∧ moment ≤ latest) h
    ⟨fun _ => rfl, fun _ _ hbest => nomatch hbest⟩ ?_
  intro before row best best' _ hP hrow
  obtain ⟨hnone, hsome⟩ := hP
  obtain ⟨moment, hmoment, hrow⟩ := except_bind_ok.1 hrow
  -- the new row is the best, or the best so far stays
  have hnew : (∀ other ∈ before, ∃ m, revisionMoment env other = .ok m ∧ m ≤ moment) →
      (some (row, moment) = none → before ++ [row] = []) ∧
      ∀ top latest, some (row, moment) = some (top, latest) → top ∈ before ++ [row] ∧
        revisionMoment env top = .ok latest ∧
        ∀ other ∈ before ++ [row], ∃ m, revisionMoment env other = .ok m ∧ m ≤ latest := by
    intro hbefore
    refine ⟨(fun h => nomatch h), fun top latest heq => ?_⟩
    cases heq
    refine ⟨List.mem_append_right _ (List.mem_singleton_self _), hmoment, fun other hother => ?_⟩
    rcases List.mem_append.1 hother with hother | hother
    · exact hbefore other hother
    · rw [List.mem_singleton.1 hother]
      exact ⟨moment, hmoment, le_refl _⟩
  cases best with
  | none =>
      cases hrow
      refine hnew fun other hother => ?_
      rw [hnone rfl] at hother
      cases hother
  | some best =>
      obtain ⟨top, latest⟩ := best
      obtain ⟨htop, htopMoment, hle⟩ := hsome top latest rfl
      simp only [] at hrow
      split at hrow
      · next hlt =>
          cases hrow
          refine hnew fun other hother => ?_
          obtain ⟨m, hm, hmle⟩ := hle other hother
          exact ⟨m, hm, by omega⟩
      · next hnlt =>
          cases hrow
          refine ⟨(fun h => nomatch h), fun top' latest' heq => ?_⟩
          cases heq
          refine ⟨List.mem_append_left _ htop, htopMoment, fun other hother => ?_⟩
          rcases List.mem_append.1 hother with hother | hother
          · exact hle other hother
          · rw [List.mem_singleton.1 hother]
            exact ⟨moment, hmoment, by omega⟩

/-! ## What was written -/

/-- One card of the family wins, and the others that were active, or were
created by the call, are retired in its favour. -/
structure Upserted (env : MemoryEnv F) (values : CardValues F) (w : MemoryWorld F)
    (actives : List String) (winner : String) (d : Delta F) : Prop where
  admitted : d.Admitted
  made : ∀ row ∈ d.cards, row.Of env values
  fresh : ∀ row ∈ d.cards, row.id ∉ w.db.cards.map CardRow.id
  winner_mem : winner ∈ actives ∨ winner ∈ d.cards.map CardRow.id
  retired : ∃ retired : List String,
    (∀ old, old ∈ retired ↔ (old ∈ actives ∨ old ∈ d.cards.map CardRow.id) ∧ old ≠ winner) ∧
    d.edges.map EdgeRow.link = retired.map (fun old => (winner, old, "supersedes")) ∧
    ∀ cardId, lastChange d.events cardId =
      if cardId ∈ retired then some "superseded"
      else if cardId ∈ d.cards.map CardRow.id then some "active" else none

theorem Upserted.family {values : CardValues F} {w : MemoryWorld F} {actives : List String}
    {winner : String} {d : Delta F} (h : Upserted env values w actives winner d) :
    ∀ row ∈ d.cards, inFamily values row := by
  intro row hrow
  obtain ⟨-, cardId, recordedAtNs, rfl⟩ := h.made row hrow
  exact ⟨rfl, rfl, rfl, rfl⟩

/-- Evidence is no part of it. -/
theorem Upserted.of_eq {values : CardValues F} {w : MemoryWorld F} {actives : List String}
    {winner : String} {d d' : Delta F} (h : Upserted env values w actives winner d)
    (hcards : d'.cards = d.cards) (hedges : d'.edges = d.edges) (hevents : d'.events = d.events) :
    Upserted env values w actives winner d' where
  admitted := {
    covered := by rw [hcards, hevents]; exact h.admitted.covered
    authorized := by rw [hcards]; exact h.admitted.authorized }
  made := by rw [hcards]; exact h.made
  fresh := by rw [hcards]; exact h.fresh
  winner_mem := by rw [hcards]; exact h.winner_mem
  retired := by rw [hcards, hedges, hevents]; exact h.retired

omit [Json.PyFloat F] in
theorem Delta.OnlySources.after {cardId : String} {sources : List EvidenceSource}
    {d d' : Delta F} (h : d'.OnlySources cardId sources) :
    (d.and d').cards = d.cards ∧ (d.and d').edges = d.edges ∧ (d.and d').events = d.events := by
  refine ⟨?_, ?_, ?_⟩
  · rw [Delta.and, h.cards, List.append_nil]
  · rw [Delta.and, h.edges, List.append_nil]
  · rw [Delta.and, h.events, List.append_nil]

omit [Json.PyFloat F] in
theorem Delta.OnlySources.before {cardId : String} {sources : List EvidenceSource}
    {d : Delta F} (h : d.OnlySources cardId sources) (d' : Delta F) :
    (d.and d').cards = d'.cards ∧ (d.and d').edges = d'.edges ∧
      (d.and d').events = d'.events := by
  refine ⟨?_, ?_, ?_⟩
  · rw [Delta.and, h.cards, List.nil_append]
  · rw [Delta.and, h.edges, List.nil_append]
  · rw [Delta.and, h.events, List.nil_append]

/-- An active card wins and nothing is created. -/
theorem Delta.Supersedes.upserted {values : CardValues F} {w : MemoryWorld F}
    {actives : List String} {winner : String} {d : Delta F} (hwinner : winner ∈ actives)
    (h : d.Supersedes winner (actives.filter fun id => id ≠ winner)) :
    Upserted env values w actives winner d := by
  obtain ⟨hcards, -, hlinks, hchanges⟩ := h
  have hno : ∀ {x : CardRow F}, x ∉ d.cards := by
    intro x hx
    rw [hcards] at hx
    cases hx
  exact {
    admitted := admitted_of_noCards hcards
    made := fun row hrow => absurd hrow hno
    fresh := fun row hrow => absurd hrow hno
    winner_mem := Or.inl hwinner
    retired := by
      refine ⟨_, fun old => ?_, hlinks, fun cardId => ?_⟩
      · rw [List.mem_filter, hcards]
        simp
      · rw [lastChange_eq_of_map hchanges, hcards, List.map_nil,
          if_neg (List.not_mem_nil (a := cardId))] }

theorem admitStale_ok {top : CardRow F} {family : List (FamilyMember F)}
    {values : CardValues F} {sources : List EvidenceSource} {card : MemoryCard F}
    {w w' : MemoryWorld F} (hvalues : validateCardInput env values = .ok ())
    (h : admitStale env top family values sources w = (.ok card, w'))
    {actives : List (CardRow F)}
    (hactives : actives = (family.filter fun m => m.status = "active").map FamilyMember.row)
    (htop : top ∈ actives) (hold : ∀ row ∈ actives, row ∈ w.db.cards) :
    ∃ d, Extends env w d w' ∧ Upserted env values w (actives.map CardRow.id) top.id d ∧
      d.Recorded sources := by
  unfold admitStale at h
  rw [← hactives, Txn.bind_ok] at h
  obtain ⟨_, w₁, hretire, h⟩ := h
  obtain ⟨dr, hdr, hsup⟩ := retireOthers_ok hretire
  have hwinner := List.mem_map_of_mem (f := CardRow.id) htop
  have hupserted : Upserted env values w (actives.map CardRow.id) top.id dr := hsup.upserted hwinner
  generalize family.find? (fun m => m.carries && m.status ≠ "active") = found at h
  rcases found with _ | historical
  · rw [Txn.bind_ok] at h
    obtain ⟨made, w₂, hcard, h⟩ := h
    rw [Txn.bind_ok] at h
    obtain ⟨_, w₃, hsources, h⟩ := h
    rw [Txn.bind_ok] at h
    obtain ⟨_, w₄, hlast, h⟩ := h
    rw [Txn.bind_ok] at h
    obtain ⟨_, w₅, hselect, h⟩ := h
    obtain ⟨-, rfl⟩ := select_ok.1 hselect
    obtain ⟨-, rfl⟩ := Txn.lift_ok.1 h
    obtain ⟨row, event, hrow, hevent, htype, hrelated, hext, hadmitted, hfresh, hid⟩ :=
      insertCard_admitted hvalues hcard
    obtain ⟨ds, hds, hdsCards, hdsEdges, hdsEvents, hrecords⟩ := addSources_ok hsources
    obtain ⟨dl, hdl, hdlCards, hdlSources, hdlEdges, hdlEvents⟩ := retire_ok hlast
    obtain ⟨hdrCards, hdrSources, hdrEdges, hdrEvents⟩ := hsup
    have hcards : w₁.db.cards = w.db.cards := by
      rw [hdr.cards, hdrCards, List.append_nil]
    rw [hcards] at hfresh
    have hne : row.id ≠ top.id := by
      intro heq
      rw [heq] at hfresh
      exact hfresh (List.mem_map_of_mem (hold top htop))
    refine ⟨_, (((hdr.trans hext).trans hds).trans hdl), ?_,
      (((recorded_of_none hdrSources).and (recorded_of_none rfl)).and
        fun row hrow => ⟨_, hrecords row hrow⟩).and (recorded_of_none hdlSources)⟩
    have hdCards : (((dr.and ((Delta.card row).and (.event event))).and ds).and dl).cards =
        [row] := by
      show ((dr.cards ++ ([row] ++ [])) ++ ds.cards) ++ dl.cards = [row]
      rw [hdrCards, hdsCards, hdlCards]
      rfl
    have hdEdges : (((dr.and ((Delta.card row).and (.event event))).and ds).and dl).edges =
        dr.edges ++ dl.edges := by
      show ((dr.edges ++ ([] ++ [])) ++ ds.edges) ++ dl.edges = _
      rw [hdsEdges, List.append_nil, List.append_nil, List.append_nil]
    have hdEvents : (((dr.and ((Delta.card row).and (.event event))).and ds).and dl).events =
        (dr.events ++ [event]) ++ dl.events := by
      show ((dr.events ++ ([] ++ [event])) ++ ds.events) ++ dl.events = _
      rw [hdsEvents, List.append_nil, List.nil_append]
    exact {
      admitted := (((admitted_of_noCards hdrCards).and hadmitted).and
        (admitted_of_noCards hdsCards)).and (admitted_of_noCards hdlCards)
      made := fun r hr => by
        rw [hdCards] at hr
        rw [List.mem_singleton.1 hr, hrow]
        exact ⟨hvalues, _, _, rfl⟩
      fresh := fun r hr => by
        rw [hdCards] at hr
        rw [List.mem_singleton.1 hr]
        exact hfresh
      winner_mem := Or.inl hwinner
      retired := by
        refine ⟨((actives.map CardRow.id).filter fun id => id ≠ top.id) ++ [row.id],
          fun old => ?_, ?_, fun cardId => ?_⟩
        · rw [List.mem_append, List.mem_filter, List.mem_singleton, hdCards, List.map_singleton,
            List.mem_singleton, decide_eq_true_eq]
          constructor
          · rintro (⟨hmem, hold⟩ | rfl)
            · exact ⟨Or.inl hmem, hold⟩
            · exact ⟨Or.inr rfl, hne⟩
          · rintro ⟨hmem | rfl, hold⟩
            · exact Or.inl ⟨hmem, hold⟩
            · exact Or.inr rfl
        · rw [hdEdges, List.map_append, List.map_append, hdrEdges, hdlEdges, hid]
        · rw [hdEvents, lastChange_append, lastChange_append, lastChange_eq_of_map hdrEvents,
            lastChange_eq_of_map hdlEvents, lastChange_singleton, hevent, htype, hdCards, hid,
            List.map_singleton]
          simp only [List.mem_append, List.mem_singleton]
          by_cases hnew : cardId = row.id
          · rw [if_pos hnew, if_pos (Or.inr hnew), Option.some_or]
          · have hnew' : row.id ≠ cardId := fun h => hnew h.symm
            simp only [hnew, hnew', or_false, if_false, Option.none_or] }
  · rw [Txn.bind_ok] at h
    obtain ⟨_, w₂, hsources, h⟩ := h
    obtain ⟨-, rfl⟩ := Txn.lift_ok.1 h
    obtain ⟨ds, hds, honly⟩ := addSources_ok hsources
    obtain ⟨hcards, hedges, hevents⟩ := honly.after (d := dr)
    exact ⟨_, hdr.trans hds, hupserted.of_eq hcards hedges hevents,
      (recorded_of_none hsup.2.1).and honly.recorded⟩

theorem replaySingleton_ok {canonical : CardRow F} {active : List (CardRow F)}
    {values : CardValues F} {sources : List EvidenceSource} {card : MemoryCard F}
    {w w' : MemoryWorld F} (hcanonical : canonical ∈ active)
    (h : replaySingleton env canonical active sources w = (.ok card, w')) :
    ∃ d, Extends env w d w' ∧ Upserted env values w (active.map CardRow.id) canonical.id d ∧
      d.Recorded sources ∧ d.cards = [] := by
  unfold replaySingleton at h
  rw [Txn.bind_ok] at h
  obtain ⟨_, w₁, hsources, h⟩ := h
  rw [Txn.bind_ok] at h
  obtain ⟨_, w₂, hretire, h⟩ := h
  obtain ⟨-, rfl⟩ := Txn.lift_ok.1 h
  obtain ⟨ds, hds, honly⟩ := addSources_ok hsources
  obtain ⟨dr, hdr, hsup⟩ := retireOthers_ok hretire
  obtain ⟨hcards, hedges, hevents⟩ := honly.before dr
  have hupserted : Upserted env values w (active.map CardRow.id) canonical.id dr :=
    hsup.upserted (List.mem_map_of_mem hcanonical)
  exact ⟨_, hds.trans hdr, hupserted.of_eq hcards hedges hevents,
    honly.recorded.and (recorded_of_none hsup.2.1), hcards.trans hsup.1⟩

theorem reviseSingleton_ok {active : List (CardRow F)} {values : CardValues F}
    {sources : List EvidenceSource} {card : MemoryCard F} {w w' : MemoryWorld F}
    (hvalues : validateCardInput env values = .ok ())
    (h : reviseSingleton env active values sources w = (.ok card, w'))
    (hold : ∀ row ∈ active, row ∈ w.db.cards) :
    ∃ d row, Extends env w d w' ∧ Upserted env values w (active.map CardRow.id) row.id d ∧
      d.Recorded sources ∧ d.cards = [row] ∧ row = newCardRow env (env.uuid4 w.uuids) values (env.timeNs w.ticks) := by
  unfold reviseSingleton at h
  rw [Txn.bind_ok] at h
  obtain ⟨made, w₁, hcard, h⟩ := h
  rw [Txn.bind_ok] at h
  obtain ⟨_, w₂, hsources, h⟩ := h
  rw [Txn.bind_ok] at h
  obtain ⟨_, w₃, hretire, h⟩ := h
  obtain ⟨rfl, rfl⟩ := Txn.pure_ok.1 h
  obtain ⟨row, event, hrow, hevent, htype, -, hext, hadmitted, hfresh, hid⟩ :=
    insertCard_admitted hvalues hcard
  obtain ⟨ds, hds, honly⟩ := addSources_ok hsources
  obtain ⟨dr, hdr, hdrCards, hdrSources, hdrEdges, hdrEvents⟩ := retireAll_ok hretire
  refine ⟨_, row, hext.trans (hds.trans hdr), ?_,
    (recorded_of_none rfl).and (honly.recorded.and (recorded_of_none hdrSources)), ?_, hrow⟩
  · have hplain : Upserted env values w (active.map CardRow.id) row.id
        (((Delta.card row).and (.event event)).and dr) := by
      have hdCards : (((Delta.card row).and (.event event)).and dr).cards = [row] := by
        show ([row] ++ []) ++ dr.cards = [row]
        rw [hdrCards]
        rfl
      exact {
        admitted := hadmitted.and (admitted_of_noCards hdrCards)
        made := fun r hr => by
          rw [hdCards] at hr
          rw [List.mem_singleton.1 hr, hrow]
          exact ⟨hvalues, _, _, rfl⟩
        fresh := fun r hr => by
          rw [hdCards] at hr
          rw [List.mem_singleton.1 hr]
          exact hfresh
        winner_mem := Or.inr (by rw [hdCards]; exact List.mem_singleton_self _)
        retired := by
          refine ⟨active.map CardRow.id, fun old => ?_, ?_, fun cardId => ?_⟩
          · rw [hdCards, List.map_singleton, List.mem_singleton]
            constructor
            · intro hmem
              refine ⟨Or.inl hmem, ?_⟩
              rintro rfl
              obtain ⟨other, hother, heq⟩ := List.mem_map.1 hmem
              exact hfresh (List.mem_map.2 ⟨other, hold other hother, heq⟩)
            · rintro ⟨hmem | rfl, hne⟩
              · exact hmem
              · exact absurd rfl hne
          · show ((([] ++ []) ++ dr.edges)).map EdgeRow.link = _
            rw [← hid]
            exact hdrEdges
          · show lastChange (([] ++ [event]) ++ dr.events) cardId = _
            rw [lastChange_append, lastChange_eq_of_map hdrEvents, List.nil_append,
              lastChange_singleton, hevent, htype, hdCards, List.map_singleton]
            simp only [List.mem_singleton]
            by_cases hmem : cardId ∈ active.map CardRow.id
            · rw [if_pos hmem, if_pos hmem, Option.some_or]
            · rw [if_neg hmem, if_neg hmem, Option.none_or]
              by_cases hnew : cardId = row.id
              · rw [if_pos hnew, if_pos hnew.symm]
              · rw [if_neg hnew, if_neg fun h => hnew h.symm] }
    obtain ⟨hcards, hedges, hevents⟩ := honly.before dr
    refine hplain.of_eq ?_ ?_ ?_
    · rw [Delta.and, hcards]
      rfl
    · rw [Delta.and, hedges]
      rfl
    · rw [Delta.and, hevents]
      rfl
  · obtain ⟨hcards, -, -⟩ := honly.before dr
    rw [Delta.and, hcards, hdrCards]
    rfl

/-! ## What was decided -/

/-- Which card wins: a newer active one, an active one that carries the anchor,
or the new one. -/
inductive Decided (env : MemoryEnv F) (anchor : String) (values : CardValues F)
    (active : List (CardRow F)) : String → Delta F → Prop
  | stale {top : CardRow F} {latest moment : Int} {d : Delta F}
      (htop : latestRevision env active = .ok (some (top, latest)))
      (hincoming : parseTimestamp env values.validFrom "valid_from" = .ok (some moment))
      (hlt : moment < latest) (hcarries : carriesAnchor anchor top = .ok false) :
      Decided env anchor values active top.id d
  | replay {canonical : CardRow F} {d : Delta F} (hmem : canonical ∈ active)
      (hcarries : carriesAnchor anchor canonical = .ok true) (hcards : d.cards = []) :
      Decided env anchor values active canonical.id d
  | revise {row : CardRow F} {d : Delta F} {cardId : String} {recordedAtNs : Int}
      (hrow : row = newCardRow env cardId values recordedAtNs) (hcards : d.cards = [row])
      (hnone : ∀ other ∈ active, carriesAnchor anchor other = .ok false)
      (hlatest : ∀ top latest moment, latestRevision env active = .ok (some (top, latest)) →
        parseTimestamp env values.validFrom "valid_from" = .ok (some moment) → latest ≤ moment) :
      Decided env anchor values active row.id d

theorem staleArrival_true {anchor : String} {incoming : Option Int}
    {newest : Option (CardRow F × Int)} (h : staleArrival anchor incoming newest = .ok true) :
    ∃ top latest moment, newest = some (top, latest) ∧ incoming = some moment ∧
      moment < latest ∧ carriesAnchor anchor top = .ok false := by
  rcases newest with _ | ⟨top, latest⟩
  · cases h
  · rcases incoming with _ | moment
    · cases h
    · rw [staleArrival] at h
      split at h
      · next hlt =>
          obtain ⟨carries, hcarries, h⟩ := except_bind_ok.1 h
          cases carries with
          | true => cases h
          | false => exact ⟨top, latest, moment, rfl, rfl, hlt, hcarries⟩
      · cases h

theorem staleArrival_false {anchor : String} {moment : Int} {top : CardRow F} {latest : Int}
    (h : staleArrival anchor (some moment) (some (top, latest)) = .ok false)
    (hcarries : carriesAnchor anchor top = .ok false) : latest ≤ moment := by
  rw [staleArrival] at h
  split at h
  · rw [hcarries] at h
    cases h
  · next hnlt => omega

theorem decideSingleton_ok {anchor : String} {family : List (FamilyMember F)}
    {values : CardValues F} {sources : List EvidenceSource} {card : MemoryCard F}
    {w w' : MemoryWorld F} (hvalues : validateCardInput env values = .ok ())
    (hfamily : ∀ m ∈ family, m.Read env anchor values w.db)
    (h : decideSingleton env anchor family values sources w = (.ok card, w'))
    {active : List (CardRow F)}
    (hactive : active = (family.filter fun m => m.status = "active").map FamilyMember.row) :
    ∃ d winner, Extends env w d w' ∧ Upserted env values w (active.map CardRow.id) winner d ∧
      d.Recorded sources ∧ Decided env anchor values active winner d := by
  have hold : ∀ row ∈ active, row ∈ w.db.cards := by
    intro row hrow
    rw [hactive] at hrow
    obtain ⟨m, hm, rfl⟩ := List.mem_map.1 hrow
    exact (hfamily m (List.mem_filter.1 hm).1).1
  unfold decideSingleton at h
  simp only [← hactive] at h
  rw [Txn.bind_ok] at h
  obtain ⟨incoming, w, hlift, h⟩ := h
  obtain ⟨hincoming, rfl⟩ := Txn.lift_ok.1 hlift
  rw [Txn.bind_ok] at h
  obtain ⟨newest, w, hlift, h⟩ := h
  obtain ⟨hnewest, rfl⟩ := Txn.lift_ok.1 hlift
  rw [Txn.bind_ok] at h
  obtain ⟨stale, w, hlift, h⟩ := h
  obtain ⟨hstale, rfl⟩ := Txn.lift_ok.1 hlift
  by_cases hcase : stale = true
  · subst hcase
    obtain ⟨top, latest, moment, rfl, rfl, hlt, hcarries⟩ := staleArrival_true hstale
    have htop := ((latestRevision_ok hnewest).2 top latest rfl).1
    obtain ⟨d, hd, hupserted, hrecorded⟩ := admitStale_ok hvalues h hactive htop hold
    exact ⟨d, top.id, hd, hupserted, hrecorded, .stale hnewest hincoming hlt hcarries⟩
  · have hfalse : stale = false := Bool.eq_false_of_not_eq_true hcase
    subst hfalse
    simp only [] at h
    rw [Txn.bind_ok] at h
    obtain ⟨exact, w, hlift, h⟩ := h
    obtain ⟨hexact, rfl⟩ := Txn.lift_ok.1 hlift
    rcases exact with _ | ⟨canonical, moment⟩
    · obtain ⟨d, row, hd, hupserted, hrecorded, hcards, hrow⟩ := reviseSingleton_ok hvalues h hold
      have hnone : ∀ other ∈ active, carriesAnchor anchor other = .ok false := by
        intro other hother
        rw [hactive] at hother
        obtain ⟨m, hm, rfl⟩ := List.mem_map.1 hother
        obtain ⟨hm, hstatus⟩ := List.mem_filter.1 hm
        obtain ⟨-, -, -, hread⟩ := hfamily m hm
        rw [hread]
        cases hcarries : m.carries with
        | false => rfl
        | true =>
            have hmem : m ∈ family.filter fun m => m.carries && m.status = "active" :=
              List.mem_filter.2 ⟨hm, by rw [hcarries, hstatus]; rfl⟩
            have hrow := List.mem_map_of_mem (f := FamilyMember.row) hmem
            rw [(latestRevision_ok hexact).1 rfl] at hrow
            cases hrow
      refine ⟨d, row.id, hd, hupserted, hrecorded,
        .revise hrow hcards hnone fun top latest moment htop hm => ?_⟩
      rw [htop] at hnewest
      rw [hm] at hincoming
      cases hnewest
      cases hincoming
      exact staleArrival_false hstale (hnone top ((latestRevision_ok htop).2 top latest rfl).1)
    · have hmem := ((latestRevision_ok hexact).2 canonical moment rfl).1
      obtain ⟨m, hm, rfl⟩ := List.mem_map.1 hmem
      obtain ⟨hm, hboth⟩ := List.mem_filter.1 hm
      rw [Bool.and_eq_true] at hboth
      obtain ⟨-, -, -, hcarries⟩ := hfamily m hm
      rw [hboth.1] at hcarries
      have hcanonical : m.row ∈ active := by
        rw [hactive]
        exact List.mem_map_of_mem (List.mem_filter.2 ⟨hm, hboth.2⟩)
      obtain ⟨d, hd, hupserted, hrecorded, hcards⟩ := replaySingleton_ok hcanonical h
      exact ⟨d, _, hd, hupserted, hrecorded, .replay hcanonical hcarries hcards⟩

/-- A call that returned: the family it read, the card that won and what
happened to the others. -/
theorem upsertScopedSingleton_ok {anchor : String} {values : CardValues F}
    {sources : List EvidenceSource} {card : MemoryCard F} {w w' : MemoryWorld F}
    (h : upsertScopedSingleton env anchor values sources w = (.ok card, w')) :
    ∃ (family : List (FamilyMember F)) (active : List (CardRow F)) (d : Delta F)
      (winner : String), (∀ m ∈ family, m.Read env anchor values w.db) ∧
      (∀ row ∈ w.db.cards, inFamily values row → ∃ m ∈ family, m.row = row) ∧
      active = (family.filter fun m => m.status = "active").map FamilyMember.row ∧
      Extends env w d w' ∧ Upserted env values w (active.map CardRow.id) winner d ∧
      d.Recorded sources ∧ Decided env anchor values active winner d ∧
      anchor ∈ values.cueAnchors := by
  unfold upsertScopedSingleton at h
  rw [Txn.bind_ok] at h
  obtain ⟨_, w, hlift, h⟩ := h
  obtain ⟨hvalues, rfl⟩ := Txn.lift_ok.1 hlift
  rw [Txn.bind_ok] at h
  obtain ⟨_, w, hlift, h⟩ := h
  obtain ⟨hanchor, rfl⟩ := liftRaise_ok.1 hlift
  rw [Txn.bind_ok] at h
  obtain ⟨_, w, hlift, h⟩ := h
  obtain ⟨-, rfl⟩ := Txn.lift_ok.1 hlift
  obtain ⟨w₁, hschema, h⟩ := writeTransaction_ok h
  rw [Txn.bind_ok] at h
  obtain ⟨family, w₁, hselect, h⟩ := h
  obtain ⟨hfamily, rfl⟩ := select_ok.1 hselect
  obtain ⟨hread, hall⟩ := readFamily_ok hfamily
  obtain ⟨d, winner, hd, hupserted, hrecorded, hdecided⟩ := decideSingleton_ok hvalues hread h rfl
  have hcards : w₁.db.cards = w.db.cards := by
    rw [hschema.cards]
    exact List.append_nil _
  have hevents : w₁.db.cardEvents = w.db.cardEvents := by
    rw [hschema.events]
    exact List.append_nil _
  have hstatus : ∀ cardId, currentStatus env cardId w₁.db = currentStatus env cardId w.db := by
    intro cardId
    rw [currentStatus, currentStatus, latestEvent, latestEvent, hevents]
  refine ⟨family, _, d, winner, fun m hm => ?_, ?_, rfl, ?_, ?_, hrecorded, hdecided, ?_⟩
  · obtain ⟨hmem, hin, hst, hcarries⟩ := hread m hm
    rw [hcards] at hmem
    rw [hstatus] at hst
    exact ⟨hmem, hin, hst, hcarries⟩
  · rw [← hcards]
    exact hall
  · have := hschema.trans hd
    rw [none_and] at this
    exact this
  · exact {
      admitted := hupserted.admitted
      made := hupserted.made
      fresh := by rw [← hcards]; exact hupserted.fresh
      winner_mem := hupserted.winner_mem
      retired := hupserted.retired }
  · exact not_not.1 fun hno => hanchor (Or.inr hno)

end MemoryStore

end MiniCodeAgent
