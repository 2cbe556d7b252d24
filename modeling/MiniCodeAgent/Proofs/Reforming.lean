import MiniCodeAgent.Proofs.RepairCapacity

/-!
# Memories formed again

A transaction whose memories are formed again comes to two operations that know it by
different signs. The workflow is known by its anchor, among the cards of its family,
and the repair by the receipt it was made from. Neither adds a card where its sign
stands, but the signs stand for retired cards too: a family without an active card gets
a new one, and a retired repair has others retired to make room for it. So nothing
changes exactly where the workflow's card is active, or is history beside a newer one,
and the repairs that are active beside the transaction's own leave it room.
-/

namespace MiniCodeAgent

namespace MemoryAdmission

open MemoryStore

variable {F : Type} [Json.PyFloat F] {env : MemoryEnv F}

/-! ## Cards and their statuses -/

/-- No card is added, and none changes its status. -/
def Unchanged (env : MemoryEnv F) (w w' : MemoryWorld F) : Prop :=
  w'.db.cards = w.db.cards ∧
    ∀ row ∈ w.db.cards, currentStatus env row.id w'.db = currentStatus env row.id w.db

/-- Cards may be added, and of those that were there these, all active, are not active
any more. -/
structure Retires (env : MemoryEnv F) (w w' : MemoryWorld F) (retired : List String) : Prop where
  cards : ∃ more, w'.db.cards = w.db.cards ++ more
  gone : ∀ row ∈ w.db.cards, row.id ∈ retired → currentStatus env row.id w.db = .ok "active" ∧
    currentStatus env row.id w'.db ≠ .ok "active"
  kept : ∀ row ∈ w.db.cards, row.id ∉ retired →
    currentStatus env row.id w'.db = currentStatus env row.id w.db

theorem Unchanged.refl (w : MemoryWorld F) : Unchanged env w w := ⟨rfl, fun _ _ => rfl⟩

theorem Unchanged.trans {w w₁ w' : MemoryWorld F} (h : Unchanged env w w₁)
    (h' : Unchanged env w₁ w') : Unchanged env w w' := by
  refine ⟨h'.1.trans h.1, fun row hrow => ?_⟩
  rw [h'.2 row (h.1.symm ▸ hrow), h.2 row hrow]

theorem unchanged_of_none {w w' : MemoryWorld F} (hd : Extends env w .none w') :
    Unchanged env w w' := by
  refine ⟨hd.cards.trans (List.append_nil _), fun row _ => ?_⟩
  rw [currentStatus, currentStatus, latestEvent, latestEvent, hd.events]
  simp [Delta.none]

theorem Retires.unchanged_iff {w w' : MemoryWorld F} {retired : List String}
    (h : Retires env w w' retired) :
    Unchanged env w w' ↔ w'.db.cards = w.db.cards ∧ ∀ row ∈ w.db.cards, row.id ∉ retired := by
  constructor
  · intro hsame
    refine ⟨hsame.1, fun row hrow hretired => ?_⟩
    obtain ⟨hactive, hgone⟩ := h.gone row hrow hretired
    exact hgone ((hsame.2 row hrow).trans hactive)
  · intro hnone
    exact ⟨hnone.1, fun row hrow => h.kept row hrow (hnone.2 row hrow)⟩

/-- A card that is retired does not come back, so nothing changes over two steps only if
nothing does in either. -/
theorem Retires.unchanged_trans {w w₁ w' : MemoryWorld F} {first second : List String}
    (h : Retires env w w₁ first) (h' : Retires env w₁ w' second) (hsame : Unchanged env w w') :
    Unchanged env w w₁ ∧ Unchanged env w₁ w' := by
  obtain ⟨more, hmore⟩ := h.cards
  obtain ⟨more', hmore'⟩ := h'.cards
  have hnil : more ++ more' = [] := by
    have hcards := hsame.1
    rw [hmore', hmore, List.append_assoc] at hcards
    exact List.append_right_eq_self.1 hcards
  obtain ⟨rfl, rfl⟩ := List.append_eq_nil_iff.1 hnil
  rw [List.append_nil] at hmore hmore'
  have hfirst : ∀ row ∈ w.db.cards, row.id ∉ first := by
    intro row hrow hretired
    obtain ⟨hactive, hgone⟩ := h.gone row hrow hretired
    have hafter : currentStatus env row.id w'.db = .ok "active" :=
      (hsame.2 row hrow).trans hactive
    by_cases hsecond : row.id ∈ second
    · exact hgone (h'.gone row (hmore.symm ▸ hrow) hsecond).1
    · exact hgone ((h'.kept row (hmore.symm ▸ hrow) hsecond).symm.trans hafter)
  have hunchanged := h.unchanged_iff.2 ⟨hmore, hfirst⟩
  refine ⟨hunchanged, hmore', fun row hrow => ?_⟩
  rw [hmore] at hrow
  rw [hsame.2 row hrow, hunchanged.2 row hrow]

/-! ## The workflow again -/

/-- One card of the family is active, and it carries the anchor, or is newer than what
comes in while another card of the family carries it. -/
def AnchorStands (env : MemoryEnv F) (anchor : String) (values : CardValues F)
    (db : Database F) : Prop :=
  ∃ row ∈ db.cards, inFamily values row ∧
    (∀ other ∈ db.cards, inFamily values other →
      (currentStatus env other.id db = .ok "active" ↔ other = row)) ∧
    (carriesAnchor anchor row = .ok true ∨
      ∃ moment latest, parseTimestamp env values.validFrom "valid_from" = .ok (some moment) ∧
        revisionMoment env row = .ok latest ∧ moment < latest ∧
        ∃ other ∈ db.cards, inFamily values other ∧ carriesAnchor anchor other = .ok true)

theorem upsert_run {anchor : String} {values : CardValues F} {sources : List EvidenceSource}
    {card : MemoryCard F} {w w' : MemoryWorld F}
    (h : upsertScopedSingleton env anchor values sources w = (.ok card, w')) :
    validateCardInput env values = .ok () ∧ ∃ w₁ family, Extends env w .none w₁ ∧
      readFamily env anchor values w₁.db = .ok family ∧
      decideSingleton env anchor family values sources w₁ = (.ok card, w') := by
  unfold upsertScopedSingleton at h
  rw [Txn.bind_ok] at h
  obtain ⟨_, w, hlift, h⟩ := h
  obtain ⟨hvalues, rfl⟩ := Txn.lift_ok.1 hlift
  rw [Txn.bind_ok] at h
  obtain ⟨_, w, hlift, h⟩ := h
  obtain ⟨-, rfl⟩ := liftRaise_ok.1 hlift
  rw [Txn.bind_ok] at h
  obtain ⟨_, w, hlift, h⟩ := h
  obtain ⟨-, rfl⟩ := Txn.lift_ok.1 hlift
  obtain ⟨w₁, hschema, h⟩ := writeTransaction_ok h
  rw [Txn.bind_ok] at h
  obtain ⟨family, w₁, hselect, h⟩ := h
  obtain ⟨hfamily, rfl⟩ := select_ok.1 hselect
  exact ⟨hvalues, w₁, family, hschema, hfamily, h⟩

/-- A late revision is added as a card unless one that is history carries its anchor. -/
theorem admitStale_cards {top : CardRow F} {family : List (FamilyMember F)}
    {values : CardValues F} {sources : List EvidenceSource} {card : MemoryCard F}
    {w w' : MemoryWorld F} (h : admitStale env top family values sources w = (.ok card, w')) :
    w'.db.cards = w.db.cards ↔ ∃ m ∈ family, m.carries = true ∧ m.status ≠ "active" := by
  unfold admitStale at h
  rw [Txn.bind_ok] at h
  obtain ⟨_, w₁, hretire, h⟩ := h
  obtain ⟨dr, hdr, hdrCards, -⟩ := retireOthers_ok hretire
  cases hfound : family.find? (fun m => m.carries && m.status ≠ "active") with
  | none =>
      rw [hfound] at h
      rw [Txn.bind_ok] at h
      obtain ⟨made, w₂, hcard, h⟩ := h
      rw [Txn.bind_ok] at h
      obtain ⟨_, w₃, hsources, h⟩ := h
      rw [Txn.bind_ok] at h
      obtain ⟨_, w₄, hlast, h⟩ := h
      rw [Txn.bind_ok] at h
      obtain ⟨_, w₅, hselect, h⟩ := h
      obtain ⟨-, rfl⟩ := select_ok.1 hselect
      obtain ⟨-, rfl⟩ := Txn.lift_ok.1 h
      obtain ⟨row, event, -, -, -, -, hext, -, -⟩ := insertCard_ok hcard
      obtain ⟨ds, hds, hdsCards, -, -, -⟩ := addSources_ok hsources
      obtain ⟨dl, hdl, hdlCards, -, -, -⟩ := retire_ok hlast
      have hcards : w'.db.cards = w.db.cards ++ [row] := by
        rw [hdl.cards, hdlCards, hds.cards, hdsCards, hext.cards, hdr.cards, hdrCards,
          List.append_nil, List.append_nil, List.append_nil]
        rfl
      have hnone := List.find?_eq_none.1 hfound
      refine ⟨fun hsame => ?_, fun ⟨m, hm, hcarries, hstatus⟩ => ?_⟩
      · rw [hcards] at hsame
        exact absurd (List.append_right_eq_self.1 hsame) (List.cons_ne_nil row [])
      · exact absurd (by simp [hcarries, hstatus]) (hnone m hm)
  | some historical =>
      rw [hfound] at h
      rw [Txn.bind_ok] at h
      obtain ⟨_, w₂, hsources, h⟩ := h
      obtain ⟨-, rfl⟩ := Txn.lift_ok.1 h
      obtain ⟨ds, hds, honly⟩ := addSources_ok hsources
      have hmatch := List.find?_some hfound
      refine ⟨fun _ => ⟨historical, List.mem_of_find?_eq_some hfound, ?_⟩, fun _ => ?_⟩
      · simpa using hmatch
      · rw [hds.cards, honly.cards, hdr.cards, hdrCards, List.append_nil, List.append_nil]

/-- A revision that is older than the newest active one, and is not that one, is late. -/
theorem decideSingleton_stale {anchor : String} {family : List (FamilyMember F)}
    {values : CardValues F} {sources : List EvidenceSource} {card : MemoryCard F}
    {w w' : MemoryWorld F}
    (h : decideSingleton env anchor family values sources w = (.ok card, w'))
    {top : CardRow F} {latest moment : Int}
    (htop : latestRevision env ((family.filter fun m => m.status = "active").map
      FamilyMember.row) = .ok (some (top, latest)))
    (hincoming : parseTimestamp env values.validFrom "valid_from" = .ok (some moment))
    (hlt : moment < latest) (hcarries : carriesAnchor anchor top = .ok false) :
    admitStale env top family values sources w = (.ok card, w') := by
  unfold decideSingleton at h
  rw [Txn.bind_ok] at h
  obtain ⟨incoming, w, hlift, h⟩ := h
  obtain ⟨hparsed, rfl⟩ := Txn.lift_ok.1 hlift
  rw [hincoming] at hparsed
  cases hparsed
  rw [Txn.bind_ok] at h
  obtain ⟨newest, w, hlift, h⟩ := h
  obtain ⟨hnewest, rfl⟩ := Txn.lift_ok.1 hlift
  rw [htop] at hnewest
  cases hnewest
  rw [Txn.bind_ok] at h
  obtain ⟨stale, w, hlift, h⟩ := h
  obtain ⟨hstale, rfl⟩ := Txn.lift_ok.1 hlift
  rw [staleArrival, if_pos hlt, hcarries] at hstale
  cases hstale
  exact h

section Upserting

variable {values : CardValues F} {w w' : MemoryWorld F} {d : Delta F} {active : List (CardRow F)}
  {winner : String} (hsound : Sound env w) (hclock : Monotone env.timeNs)
  (hd : Extends env w d w') (hupserted : Upserted env values w (active.map CardRow.id) winner d)
  (hactive : ∀ row, row ∈ active ↔ row ∈ w.db.cards ∧ inFamily values row ∧
    currentStatus env row.id w.db = .ok "active")

include hsound hclock hd hupserted hactive

/-- Whichever way it ended, the call retired active cards, all but the one that won. -/
theorem retires_of_upserted : ∃ retired, Retires env w w' retired ∧
    ∀ old, old ∈ retired ↔
      (old ∈ active.map CardRow.id ∨ old ∈ d.cards.map CardRow.id) ∧ old ≠ winner := by
  obtain ⟨retired, hretired, -, hchanges⟩ := hupserted.retired
  have hold : ∀ row ∈ w.db.cards, row.id ∉ d.cards.map CardRow.id := by
    intro row hrow hmem
    obtain ⟨new, hnew, hid⟩ := List.mem_map.1 hmem
    exact hupserted.fresh new hnew (hid ▸ List.mem_map_of_mem hrow)
  refine ⟨retired, ⟨⟨d.cards, hd.cards⟩, fun row hrow hmem => ?_, fun row hrow hmem => ?_⟩, hretired⟩
  · have hafter := currentStatus_after hsound hclock hd hupserted.admitted hrow
    rw [hchanges, if_pos hmem] at hafter
    have hgone : currentStatus env row.id w'.db ≠ .ok "active" := by
      intro hstatus
      rw [hafter] at hstatus
      exact absurd (Except.ok.inj hstatus) (by decide)
    refine ⟨?_, hgone⟩
    rcases ((hretired row.id).1 hmem).1 with hbefore | hnew
    · obtain ⟨other, hother, hid⟩ := List.mem_map.1 hbefore
      obtain ⟨hmem', -, hstatus⟩ := (hactive other).1 hother
      rw [← eq_of_same_id hsound.unique hmem' hrow hid]
      exact hstatus
    · exact absurd hnew (hold row hrow)
  · have hafter := currentStatus_after hsound hclock hd hupserted.admitted hrow
    rw [hchanges, if_neg hmem, if_neg (hold row hrow)] at hafter
    exact hafter

/-- Nothing changes if no card is added and none but the winner was active. -/
theorem unchanged_upserted_iff :
    Unchanged env w w' ↔ d.cards = [] ∧ ∀ row ∈ active, row.id = winner := by
  obtain ⟨retired, hretires, hretired⟩ :=
    retires_of_upserted hsound hclock hd hupserted hactive
  rw [hretires.unchanged_iff, hd.cards, List.append_right_eq_self]
  constructor
  · intro h
    refine ⟨h.1, fun row hrow => ?_⟩
    by_contra hne
    exact h.2 row ((hactive row).1 hrow).1
      ((hretired row.id).2 ⟨Or.inl (List.mem_map_of_mem hrow), hne⟩)
  · intro h
    refine ⟨h.1, fun row _ hmem => ?_⟩
    obtain ⟨hbefore, hne⟩ := (hretired row.id).1 hmem
    rw [h.1, List.map_nil, or_iff_left List.not_mem_nil] at hbefore
    obtain ⟨other, hother, hid⟩ := List.mem_map.1 hbefore
    exact hne (hid ▸ h.2 other hother)

end Upserting

omit [Json.PyFloat F] in
/-- Of rows that are all one row, this is the latest. -/
theorem latestRevision_one {rows : List (CardRow F)} {row : CardRow F} {latest : Int}
    (hmem : row ∈ rows) (hone : ∀ other ∈ rows, other = row)
    (hlatest : revisionMoment env row = .ok latest) :
    latestRevision env rows = .ok (some (row, latest)) := by
  obtain ⟨best, hbest⟩ := latestRevision_returns env
    fun other hother => ⟨latest, (hone other hother).symm ▸ hlatest⟩
  obtain ⟨hnone, hsome⟩ := latestRevision_ok hbest
  cases best with
  | none =>
      rw [hnone rfl] at hmem
      cases hmem
  | some best =>
      obtain ⟨htop, hmoment, -⟩ := hsome best.1 best.2 rfl
      rw [hone best.1 htop, hlatest] at hmoment
      rw [hbest, ← hone best.1 htop, Except.ok.inj hmoment]

theorem decide_unchanged_iff {anchor : String} {family : List (FamilyMember F)}
    {values : CardValues F} {sources : List EvidenceSource} {card : MemoryCard F}
    {w w' : MemoryWorld F} (hsound : Sound env w) (hclock : Monotone env.timeNs)
    (hvalues : validateCardInput env values = .ok ())
    (hfamily : readFamily env anchor values w.db = .ok family)
    (h : decideSingleton env anchor family values sources w = (.ok card, w')) :
    Unchanged env w w' ↔ AnchorStands env anchor values w.db := by
  obtain ⟨hread, hall⟩ := readFamily_ok hfamily
  obtain ⟨d, winner, hd, hupserted, -, hdecided⟩ := decideSingleton_ok hvalues hread h rfl
  have hactive := active_iff hread hall
  rw [unchanged_upserted_iff hsound hclock hd hupserted hactive]
  have hcards : w'.db.cards = w.db.cards ↔ d.cards = [] := by
    rw [hd.cards, List.append_right_eq_self]
  constructor
  · rintro ⟨hnone, hone⟩
    have hwinner := hupserted.winner_mem
    rw [hnone, List.map_nil, or_iff_left List.not_mem_nil] at hwinner
    obtain ⟨row, hrow, hid⟩ := List.mem_map.1 hwinner
    have hthis : ∀ other ∈ (family.filter fun m => m.status = "active").map FamilyMember.row,
        other = row := by
      intro other hother
      exact eq_of_same_id hsound.unique ((hactive other).1 hother).1 ((hactive row).1 hrow).1
        ((hone other hother).trans hid.symm)
    obtain ⟨hmem, hin, hstatus⟩ := (hactive row).1 hrow
    refine ⟨row, hmem, hin, fun other hother hotherIn => ⟨fun hotherStatus => ?_, ?_⟩, ?_⟩
    · exact hthis other ((hactive other).2 ⟨hother, hotherIn, hotherStatus⟩)
    · rintro rfl
      exact hstatus
    · cases hdecided with
      | stale htop hincoming hlt hcarries =>
          obtain ⟨htopMem, hmoment, -⟩ := (latestRevision_ok htop).2 _ _ rfl
          have hstale := decideSingleton_stale h htop hincoming hlt hcarries
          obtain ⟨m, hm, hmCarries, -⟩ := (admitStale_cards hstale).1 (hcards.2 hnone)
          obtain ⟨hmMem, hmIn, -, hmRead⟩ := hread m hm
          rw [hthis _ htopMem] at hmoment
          exact Or.inr ⟨_, _, hincoming, hmoment, hlt, m.row, hmMem, hmIn, hmCarries ▸ hmRead⟩
      | replay hcanonical hcarries _ =>
          exact Or.inl (hthis _ hcanonical ▸ hcarries)
      | revise _ hnew _ _ =>
          rw [hnew] at hnone
          cases hnone
  · rintro ⟨row, hmem, hin, honly, hstands⟩
    have hrow := (hactive row).2 ⟨hmem, hin, (honly row hmem hin).2 rfl⟩
    have hthis : ∀ other ∈ (family.filter fun m => m.status = "active").map FamilyMember.row,
        other = row := by
      intro other hother
      obtain ⟨hotherMem, hotherIn, hotherStatus⟩ := (hactive other).1 hother
      exact (honly other hotherMem hotherIn).1 hotherStatus
    cases hdecided with
    | stale htop hincoming hlt hcarries =>
        have htopRow := hthis _ ((latestRevision_ok htop).2 _ _ rfl).1
        refine ⟨hcards.1 ((admitStale_cards
          (decideSingleton_stale h htop hincoming hlt hcarries)).2 ?_), fun other hother => ?_⟩
        · rw [htopRow] at hcarries
          rcases hstands with hcarried | ⟨_, _, -, -, -, other, hother, hotherIn, hcarried⟩
          · rw [hcarries] at hcarried
            cases hcarried
          obtain ⟨m, hm, rfl⟩ := hall other hother hotherIn
          obtain ⟨-, -, hmStatus, hmRead⟩ := hread m hm
          rw [hcarried] at hmRead
          refine ⟨m, hm, (Except.ok.inj hmRead).symm, fun hmActive => ?_⟩
          rw [hmActive] at hmStatus
          rw [(honly m.row hother hotherIn).1 hmStatus, hcarries] at hcarried
          cases hcarried
        · rw [hthis other hother, htopRow]
    | replay hcanonical _ hnone =>
        exact ⟨hnone, fun other hother => by rw [hthis other hother, hthis _ hcanonical]⟩
    | revise _ _ hnone hlatest =>
        rcases hstands with hcarried | ⟨moment, latest, hincoming, hmoment, hlt, -⟩
        · rw [hnone row hrow] at hcarried
          cases hcarried
        · have := hlatest row latest moment (latestRevision_one hrow hthis hmoment) hincoming
          omega

theorem AnchorStands.same {anchor : String} {values : CardValues F} {w w₁ : MemoryWorld F}
    (hcards : w₁.db.cards = w.db.cards) (hevents : w₁.db.cardEvents = w.db.cardEvents) :
    AnchorStands env anchor values w₁.db ↔ AnchorStands env anchor values w.db := by
  have hstatus : ∀ cardId, currentStatus env cardId w₁.db = currentStatus env cardId w.db := by
    intro cardId
    rw [currentStatus, currentStatus, latestEvent, latestEvent, hevents]
  rw [AnchorStands, AnchorStands, hcards]
  simp only [hstatus]

/-- Where a call that returned changed nothing. -/
theorem upsert_unchanged_iff {anchor : String} {values : CardValues F}
    {sources : List EvidenceSource} {card : MemoryCard F} {w w' : MemoryWorld F}
    (hsound : Sound env w) (hclock : Monotone env.timeNs)
    (h : upsertScopedSingleton env anchor values sources w = (.ok card, w')) :
    Unchanged env w w' ↔ AnchorStands env anchor values w.db := by
  obtain ⟨hvalues, w₁, family, hschema, hfamily, hdecide⟩ := upsert_run h
  have hcards : w₁.db.cards = w.db.cards := hschema.cards.trans (List.append_nil _)
  have hevents : w₁.db.cardEvents = w.db.cardEvents := hschema.events.trans (List.append_nil _)
  have hsound₁ := hsound.extends hschema (admitted_of_noCards rfl)
  have hopened := unchanged_of_none hschema
  rw [← AnchorStands.same hcards hevents,
    ← decide_unchanged_iff hsound₁ hclock hvalues hfamily hdecide]
  constructor
  · intro hsame
    refine ⟨hsame.1.trans hcards.symm, fun row hrow => ?_⟩
    rw [hcards] at hrow
    rw [hsame.2 row hrow, hopened.2 row hrow]
  · exact hopened.trans

/-- A call that returned only retired active cards. -/
theorem upsert_retires {anchor : String} {values : CardValues F} {sources : List EvidenceSource}
    {card : MemoryCard F} {w w' : MemoryWorld F} (hsound : Sound env w)
    (hclock : Monotone env.timeNs)
    (h : upsertScopedSingleton env anchor values sources w = (.ok card, w')) :
    ∃ retired, Retires env w w' retired := by
  obtain ⟨family, active, d, winner, hread, hall, rfl, hd, hupserted, -, -, -⟩ :=
    upsertScopedSingleton_ok h
  obtain ⟨retired, hretires, -⟩ :=
    retires_of_upserted hsound hclock hd hupserted (active_iff hread hall)
  exact ⟨retired, hretires⟩

/-- Where no card is added, evidence is for cards of the family. -/
def FamilyEvidence (values : CardValues F) (w w' : MemoryWorld F) : Prop :=
  ∃ more, w'.db.sources = w.db.sources ++ more ∧
    ∀ source ∈ more, ∃ row ∈ w.db.cards, row.id = source.cardId ∧ inFamily values row

/-- Evidence that is added for one card of the family, before or after other cards are
retired. -/
theorem familyEvidence_of {values : CardValues F} {sources : List EvidenceSource} {row : CardRow F}
    {w w' : MemoryWorld F} {d ds : Delta F} (hrow : row ∈ w.db.cards) (hin : inFamily values row)
    (hd : Extends env w d w') (honly : ds.OnlySources row.id sources)
    (hsources : d.sources = ds.sources) : FamilyEvidence values w w' := by
  refine ⟨ds.sources, hsources ▸ hd.sources, fun source hsource => ⟨row, hrow, ?_, hin⟩⟩
  obtain ⟨_, -, hcardId, -⟩ := honly.records source hsource
  exact hcardId.symm

theorem decide_evidence {anchor : String} {family : List (FamilyMember F)}
    {values : CardValues F} {sources : List EvidenceSource} {card : MemoryCard F}
    {w w' : MemoryWorld F} (hvalues : validateCardInput env values = .ok ())
    (hread : ∀ m ∈ family, m.Read env anchor values w.db)
    (h : decideSingleton env anchor family values sources w = (.ok card, w'))
    (hsame : w'.db.cards = w.db.cards) : FamilyEvidence values w w' := by
  unfold decideSingleton at h
  rw [Txn.bind_ok] at h
  obtain ⟨incoming, w, hlift, h⟩ := h
  obtain ⟨-, rfl⟩ := Txn.lift_ok.1 hlift
  rw [Txn.bind_ok] at h
  obtain ⟨newest, w, hlift, h⟩ := h
  obtain ⟨-, rfl⟩ := Txn.lift_ok.1 hlift
  rw [Txn.bind_ok] at h
  obtain ⟨stale, w, hlift, h⟩ := h
  obtain ⟨hstale, rfl⟩ := Txn.lift_ok.1 hlift
  by_cases hcase : stale = true
  · subst hcase
    obtain ⟨top, latest, moment, rfl, rfl, -, -⟩ := staleArrival_true hstale
    obtain ⟨m, hm, hmCarries, hmStatus⟩ := (admitStale_cards h).1 hsame
    unfold admitStale at h
    rw [Txn.bind_ok] at h
    obtain ⟨_, w₁, hretire, h⟩ := h
    obtain ⟨dr, hdr, -, hdrSources, -, -⟩ := retireOthers_ok hretire
    cases hfound : family.find? (fun m => m.carries && m.status ≠ "active") with
    | none => exact absurd (by simp [hmCarries, hmStatus]) (List.find?_eq_none.1 hfound m hm)
    | some historical =>
        rw [hfound] at h
        rw [Txn.bind_ok] at h
        obtain ⟨_, w₂, hsources, h⟩ := h
        obtain ⟨-, rfl⟩ := Txn.lift_ok.1 h
        obtain ⟨ds, hds, honly⟩ := addSources_ok hsources
        obtain ⟨hmem, hin, -, -⟩ := hread historical (List.mem_of_find?_eq_some hfound)
        exact familyEvidence_of hmem hin (hdr.trans hds) honly
          (by rw [Delta.and, hdrSources, List.nil_append])
  · have hfalse : stale = false := Bool.eq_false_of_not_eq_true hcase
    subst hfalse
    simp only [] at h
    rw [Txn.bind_ok] at h
    obtain ⟨exact, w, hlift, h⟩ := h
    obtain ⟨hexact, rfl⟩ := Txn.lift_ok.1 hlift
    rcases exact with _ | ⟨canonical, moment⟩
    · have hold : ∀ row ∈ (family.filter fun m => m.status = "active").map FamilyMember.row,
          row ∈ w.db.cards := by
        intro row hrow
        obtain ⟨m, hm, rfl⟩ := List.mem_map.1 hrow
        exact (hread m (List.mem_filter.1 hm).1).1
      obtain ⟨d, row, hd, -, -, hcards, -⟩ := reviseSingleton_ok hvalues h hold
      rw [hd.cards, hcards] at hsame
      exact absurd (List.append_right_eq_self.1 hsame) (List.cons_ne_nil row [])
    · obtain ⟨m, hm, rfl⟩ := List.mem_map.1 ((latestRevision_ok hexact).2 _ _ rfl).1
      obtain ⟨hmem, hin, -, -⟩ := hread m (List.mem_filter.1 hm).1
      unfold replaySingleton at h
      rw [Txn.bind_ok] at h
      obtain ⟨_, w₁, hsources, h⟩ := h
      rw [Txn.bind_ok] at h
      obtain ⟨_, w₂, hretire, h⟩ := h
      obtain ⟨-, rfl⟩ := Txn.lift_ok.1 h
      obtain ⟨ds, hds, honly⟩ := addSources_ok hsources
      obtain ⟨dr, hdr, -, hdrSources, -, -⟩ := retireOthers_ok hretire
      exact familyEvidence_of hmem hin (hds.trans hdr) honly
        (by rw [Delta.and, hdrSources, List.append_nil])

theorem upsert_evidence {anchor : String} {values : CardValues F}
    {sources : List EvidenceSource} {card : MemoryCard F} {w w' : MemoryWorld F}
    (h : upsertScopedSingleton env anchor values sources w = (.ok card, w'))
    (hsame : w'.db.cards = w.db.cards) : FamilyEvidence values w w' := by
  obtain ⟨hvalues, w₁, family, hschema, hfamily, hdecide⟩ := upsert_run h
  have hcards : w₁.db.cards = w.db.cards := hschema.cards.trans (List.append_nil _)
  have hsources : w₁.db.sources = w.db.sources := hschema.sources.trans (List.append_nil _)
  obtain ⟨more, hmore, hfor⟩ := decide_evidence hvalues (readFamily_ok hfamily).1 hdecide
    (hsame.trans hcards.symm)
  rw [hsources] at hmore
  rw [hcards] at hfor
  exact ⟨more, hmore, hfor⟩

/-! ## The repair again -/

/-- The repairs that are active beside a card's own. -/
def otherRepairs (row : CardRow F) (db : Database F) : List (CardRow F) :=
  (activeRepairs row.scope row.scopeKey db).filter fun other => other.id ≠ row.id

/-- The evidence stands for a repair, and the others leave it room, if there are any. -/
def RepairStands (policy : CapacityPolicy) (evidence : EvidenceReference) (db : Database F) :
    Prop :=
  ∃ row, standingCard db evidence.sourceType evidence.sourceRef "episodic" "verified_repair" =
      some row ∧
    (otherRepairs row db = [] ∨ RoomFor policy row.value.length (otherRepairs row db))

omit [Json.PyFloat F] in
/-- Evidence for cards of another kind does not come between. -/
theorem standingCard_after {db db' : Database F} (hcards : db'.cards = db.cards)
    (hunique : (db.cards.map CardRow.id).Nodup) {more : List SourceRow}
    (hsources : db'.sources = db.sources ++ more) {kind subtype : String}
    (hothers : ∀ source ∈ more, ∃ row ∈ db.cards, row.id = source.cardId ∧
      ¬ (row.kind = kind ∧ row.subtype = subtype)) (sourceType sourceRef : String) :
    standingCard db' sourceType sourceRef kind subtype =
      standingCard db sourceType sourceRef kind subtype := by
  have hsame : cardOfRow db' kind subtype = cardOfRow db kind subtype := by
    funext row
    rw [cardOfRow, cardOfRow, hcards]
  have hnone : ∀ source ∈ more, cardOfRow db kind subtype source = none := by
    intro source hsource
    obtain ⟨row, hrow, hid, hnot⟩ := hothers source hsource
    refine List.find?_eq_none.2 fun other hother hmatch => hnot ?_
    have hmatch := of_decide_eq_true hmatch
    rw [← eq_of_same_id hunique hother hrow (hmatch.1.trans hid.symm)]
    exact hmatch.2
  have hkept : ∀ rows : List SourceRow, rows.filterMap (cardOfRow db kind subtype) =
      (rows.filter fun row => (cardOfRow db kind subtype row).isSome).filterMap
        (cardOfRow db kind subtype) := by
    intro rows
    induction rows with
    | nil => rfl
    | cons row rows ih =>
        cases hrow : cardOfRow db kind subtype row with
        | none =>
            rw [List.filterMap_cons_none hrow, List.filter_cons_of_neg (by simp [hrow]), ih]
        | some card =>
            rw [List.filterMap_cons_some hrow, List.filter_cons_of_pos (by simp [hrow]),
              List.filterMap_cons_some hrow, ih]
  have hmore : ∀ q : SourceRow → Bool,
      more.filter (fun row => (cardOfRow db kind subtype row).isSome && q row) = [] :=
    fun q => List.filter_eq_nil_iff.2 fun source hsource => by simp [hnone source hsource]
  rw [standingCard, standingCard, hsame, hkept, hkept (referenceRows db _ _), referenceRows,
    referenceRows, oldestFirst, oldestFirst, Log.filter_insertionSort, Log.filter_insertionSort,
    List.filter_filter, List.filter_filter, hsources, List.filter_append, hmore, List.append_nil]

/-- Whether a repair is active is read off its status. -/
theorem isActive_currentStatus {w : MemoryWorld F} (hsound : Sound env w) {row : CardRow F}
    (hrow : row ∈ w.db.cards) :
    IsActive w.db row.id ↔ currentStatus env row.id w.db = .ok "active" := by
  obtain ⟨event, hevent⟩ := exists_latestEvent (hsound.covered row hrow)
  rw [IsActive, currentStatus_eq hsound.eventsSigned hevent, hevent, Option.map_some]
  constructor
  · intro h
    rw [Option.some.inj h]
  · intro h
    rw [Except.ok.inj h]

theorem Unchanged.otherRepairs {w w' : MemoryWorld F} (h : Unchanged env w w')
    (hsound : Sound env w) (hsound' : Sound env w') (row : CardRow F) :
    otherRepairs row w'.db = otherRepairs row w.db := by
  rw [MemoryAdmission.otherRepairs, MemoryAdmission.otherRepairs, activeRepairs, activeRepairs,
    h.1]
  refine congrArg (List.filter _) (List.filter_congr fun other hother => ?_)
  have hmem : other ∈ w.db.cards := (List.perm_insertionSort _ _).mem_iff.1 hother
  have hactive : IsActive w'.db other.id ↔ IsActive w.db other.id := by
    rw [isActive_currentStatus hsound hmem, ← h.2 other hmem,
      isActive_currentStatus hsound' (h.1.symm ▸ hmem)]
  simp only [hactive]

/-- A workflow that is formed again without a change is no matter to the repair. -/
theorem RepairStands.after {policy : CapacityPolicy} {evidence : EvidenceReference}
    {values : CardValues F} {w w' : MemoryWorld F} (hsame : Unchanged env w w')
    (hsound : Sound env w) (hsound' : Sound env w') (hevidence : FamilyEvidence values w w')
    (hkind : values.kind = "procedural") :
    RepairStands policy evidence w'.db ↔ RepairStands policy evidence w.db := by
  obtain ⟨more, hmore, hfor⟩ := hevidence
  have hothers : ∀ source ∈ more, ∃ row ∈ w.db.cards, row.id = source.cardId ∧
      ¬ (row.kind = "episodic" ∧ row.subtype = "verified_repair") := by
    intro source hsource
    obtain ⟨row, hrow, hid, hin⟩ := hfor source hsource
    refine ⟨row, hrow, hid, fun hepisodic => ?_⟩
    rw [hin.1, hkind] at hepisodic
    exact absurd hepisodic.1 (by decide)
  rw [RepairStands, RepairStands, standingCard_after hsame.1 hsound.unique hmore hothers]
  simp only [hsame.otherRepairs hsound hsound']

variable {service : AdmissionService F}

/-- The repairs that were given up were active, and are not any more. -/
theorem enforce_retires {incoming : MemoryCard F} {u : Unit} {w w' : MemoryWorld F}
    (hsound : Sound env w) (hclock : Monotone env.timeNs)
    (h : enforceRepairCapacity env service incoming w = (.ok u, w')) :
    ∃ olds : List (CardRow F), Retires env w w' (olds.map CardRow.id) ∧
      w'.db.cards = w.db.cards ∧ (∀ old ∈ olds, old ∈ w.db.cards) ∧
      olds = Greedy.dropped (RoomFor service.policy incoming.value.length)
        ((activeRepairs incoming.scope incoming.scopeKey w.db).filter fun row =>
          row.id ≠ incoming.id) := by
  obtain ⟨d, hd, hcards, hevents⟩ := enforceRepairCapacity_ok h
  refine ⟨_, ?_, by rw [hd.cards, hcards, List.append_nil], ?_, rfl⟩
  · refine ⟨⟨d.cards, hd.cards⟩, fun row hrow hmem => ?_, fun row hrow hmem => ?_⟩
    · have hafter := (status_retired hsound hclock hd hcards hevents hrow).2
      rw [if_pos hmem] at hafter
      refine ⟨?_, fun hactive => ?_⟩
      · obtain ⟨old, hold, hid⟩ := List.mem_map.1 hmem
        have hbefore := (List.mem_filter.1 (Greedy.dropped_subset _ hold)).1
        obtain ⟨holdMem, hpasses⟩ := List.mem_filter.1 ((activeRepairs_perm _ _ _).mem_iff.1 hbefore)
        rw [← hid]
        exact (isActive_currentStatus hsound holdMem).1 (of_decide_eq_true hpasses).2.2.2
      · rw [hafter] at hactive
        exact absurd (Except.ok.inj hactive) (by decide)
    · have hafter := (status_retired hsound hclock hd hcards hevents hrow).2
      rw [if_neg hmem] at hafter
      exact hafter
  · intro old hold
    have hbefore := (List.mem_filter.1 (Greedy.dropped_subset _ hold)).1
    exact (List.mem_filter.1 ((activeRepairs_perm _ _ _).mem_iff.1 hbefore)).1

/-- What came before and retired nothing does not count. -/
theorem Retires.before {w w₁ w' : MemoryWorld F} {retired : List String}
    (h : Retires env w₁ w' retired) {more : List (CardRow F)}
    (hcards : w₁.db.cards = w.db.cards ++ more)
    (hsame : ∀ row ∈ w.db.cards, currentStatus env row.id w₁.db = currentStatus env row.id w.db) :
    Retires env w w' retired := by
  obtain ⟨more', hmore'⟩ := h.cards
  have hmem : ∀ row ∈ w.db.cards, row ∈ w₁.db.cards := by
    intro row hrow
    rw [hcards]
    exact List.mem_append_left _ hrow
  refine ⟨⟨more ++ more', by rw [hmore', hcards, List.append_assoc]⟩, ?_, ?_⟩
  · intro row hrow hretired
    rw [← hsame row hrow]
    exact h.gone row (hmem row hrow) hretired
  · intro row hrow hretired
    rw [← hsame row hrow]
    exact h.kept row (hmem row hrow) hretired

/-- What is shown of a row has the row's text, and the repairs beside it beside itself. -/
theorem card_others {row : CardRow F} {card : MemoryCard F} {w w₁ : MemoryWorld F}
    (hopened : Unchanged env w w₁) (hsound : Sound env w) (hsound₁ : Sound env w₁)
    (hshows : Shows env w.db row card) :
    (activeRepairs card.scope card.scopeKey w₁.db).filter (fun other => other.id ≠ card.id) =
        otherRepairs row w.db ∧ card.value = row.value := by
  have hid := hshows.id
  obtain ⟨-, -, status, -, hread⟩ := hshows
  obtain ⟨-, -, -, hscope, hscopeKey, -, -⟩ := cardFromRow_ok hread
  refine ⟨?_, (cardFromRow_value hread).1⟩
  rw [← hopened.otherRepairs hsound hsound₁, otherRepairs, hscope, hscopeKey, hid]

/-- A call that returned a card: what it retired, and where it changed nothing. -/
theorem repair_unchanged_iff {transactionId : String} {card : MemoryCard F}
    {w w' : MemoryWorld F} (hsound : Sound env w) (hroot : Rooted w.db)
    (hclock : Monotone env.timeNs)
    (h : admitVerifiedRepair env service transactionId w = (.ok (some card), w')) :
    ∃ (experience : VerifiedExperience) (draft : MemoryDraft F),
      verifiedExperience service transactionId = .ok experience ∧
        repair service.factory experience = some draft ∧
        (draft.values.value.length : Int) ≤ service.policy.maxActiveCharsPerScope ∧
        (∃ retired, Retires env w w' retired) ∧
        (Unchanged env w w' ↔ RepairStands service.policy experience.evidence w.db) := by
  obtain ⟨experience, draft, artifact, w₁, hexperience, hdraft, hvalues, hadd, hchars, henforce⟩ :=
    admitVerifiedRepair_ok h
  refine ⟨experience, draft, hexperience, hdraft, by rw [hvalues]; exact hchars, ?_⟩
  obtain ⟨-, hcases⟩ := addCardOnceForSource_cases hsound hroot (repairValues_floats _ _ _) hadd
  rcases hcases with ⟨row, hstanding, hext, hshows⟩ | ⟨d, row, hstanding, hd, hadded, -⟩
  · have hopened := unchanged_of_none hext
    have hsound₁ := hsound.extends hext (admitted_of_noCards rfl)
    obtain ⟨olds, hretires, hcards, holds, hdropped⟩ := enforce_retires hsound₁ hclock henforce
    have hbefore : Retires env w w' (olds.map CardRow.id) :=
      hretires.before (hopened.1.trans (List.append_nil _).symm) hopened.2
    refine ⟨⟨_, hbefore⟩, ?_⟩
    obtain ⟨hothers, hvalue⟩ := card_others hopened hsound hsound₁ hshows
    rw [hothers, hvalue] at hdropped
    have hnil : Unchanged env w w' ↔ olds = [] := by
      rw [hbefore.unchanged_iff]
      refine ⟨fun hnone => ?_, fun hnone => ⟨hcards.trans hopened.1, fun other _ => ?_⟩⟩
      · refine List.eq_nil_iff_forall_not_mem.2 fun old hold => ?_
        exact hnone.2 old (hopened.1 ▸ holds old hold) (List.mem_map_of_mem hold)
      · rw [hnone]
        exact List.not_mem_nil
    rw [hnil, hdropped, Greedy.dropped_eq_nil_iff]
    constructor
    · exact fun hroom => ⟨row, hstanding, hroom⟩
    · rintro ⟨other, hother, hroom⟩
      rw [Option.some.inj (hstanding.symm.trans hother)]
      exact hroom
  · have hsound₁ := hsound.extends hd hadded.admitted
    obtain ⟨olds, hretires, hcards, -, -⟩ := enforce_retires hsound₁ hclock henforce
    have hsame : ∀ other ∈ w.db.cards,
        currentStatus env other.id w₁.db = currentStatus env other.id w.db := by
      intro other hother
      rw [currentStatus, currentStatus, (latestEvent_added hd hadded hother).2]
    refine ⟨⟨_, hretires.before hd.cards hsame⟩, fun hunchanged => ?_, fun hstands => ?_⟩
    · have hgrown := hcards.symm.trans hunchanged.1
      rw [hd.cards, hadded.cards] at hgrown
      exact absurd (List.append_right_eq_self.1 hgrown) (List.cons_ne_nil row [])
    · obtain ⟨other, hother, -⟩ := hstands
      cases hstanding.symm.trans hother

/-! ## Runs with formations -/

/-- The worlds that operations of the store and formations of memories come by. -/
inductive Reachable (env : MemoryEnv F) (service : AdmissionService F) : MemoryWorld F → Prop
  | start : Reachable env service (.start F)
  | operate {w : MemoryWorld F} (h : Reachable env service w) (op : Operation F) :
      Reachable env service (perform env op w)
  | form {w : MemoryWorld F} (h : Reachable env service w) (transactionId : String) :
      Reachable env service (formCommittedTransactionMemories env service transactionId w).2

/-- What operations of the store have come by, they still have. -/
def StaysReached (env : MemoryEnv F) (w w' : MemoryWorld F) : Prop :=
  Reached env anyStep w → Reached env anyStep w'

theorem staysReached_refl (w : MemoryWorld F) : StaysReached env w w := id

theorem staysReached_trans (a b c : MemoryWorld F) (h : StaysReached env a b)
    (h' : StaysReached env b c) : StaysReached env a c := h' ∘ h

theorem staysReached_lift {α : Type} (x : Except PyExc α) :
    Txn.Keeps (StaysReached env) (Txn.lift x : Tx F α) :=
  Txn.keeps_same staysReached_refl fun _ => rfl

theorem staysReached_operation {α : Type} (op : Operation F) {x : Tx F α}
    (hop : operate env op = dropValue x) : Txn.Keeps (StaysReached env) x := by
  intro w hw
  have hstep : Reached env anyStep (perform env op w) := .step hw op trivial
  rwa [perform, hop, dropValue_snd] at hstep

theorem staysReached_workflow (transactionId : String) :
    Txn.Keeps (StaysReached env) (admitVerificationWorkflow env service transactionId) := by
  refine Txn.Keeps.bind staysReached_trans (staysReached_lift _) fun experience =>
    Txn.Keeps.bind staysReached_trans (staysReached_lift _) fun draft => ?_
  cases draft.identityAnchor with
  | none => exact staysReached_lift _
  | some anchor =>
      exact staysReached_operation (.upsertScopedSingleton anchor draft.values _) rfl

theorem staysReached_repair (transactionId : String) :
    Txn.Keeps (StaysReached env) (admitVerifiedRepair env service transactionId) := by
  refine Txn.Keeps.bind staysReached_trans (staysReached_lift _) fun experience => ?_
  cases (repair service.factory experience : Option (MemoryDraft F)) with
  | none => exact Txn.keeps_same staysReached_refl fun _ => rfl
  | some draft =>
      dsimp only
      split
      · exact Txn.keeps_same staysReached_refl fun _ => rfl
      · refine Txn.Keeps.bind staysReached_trans
          (staysReached_operation (.addCardOnceForSource _ draft.values) rfl) fun card =>
            Txn.Keeps.bind staysReached_trans ?_ fun _ =>
              Txn.keeps_same staysReached_refl fun _ => rfl
        refine Txn.Keeps.bind staysReached_trans
          (Txn.keeps_same staysReached_refl fun _ => rfl) fun cards =>
            Txn.Keeps.bind staysReached_trans (staysReached_lift _) fun cardIds =>
              Txn.Keeps.forM staysReached_refl staysReached_trans (fun cardId => ?_) cardIds
        exact fun w hw => .step hw (.transition cardId "stale" (some card.id)) trivial

theorem staysReached_form (transactionId : String) :
    Txn.Keeps (StaysReached env) (formCommittedTransactionMemories env service transactionId) := by
  refine Txn.Keeps.bind staysReached_trans (staysReached_lift _) fun manifest => ?_
  split
  · exact Txn.keeps_same staysReached_refl fun _ => rfl
  · exact Txn.Keeps.bind staysReached_trans (staysReached_lift _) fun _ =>
      Txn.Keeps.bind staysReached_trans (staysReached_workflow transactionId) fun _ =>
        Txn.Keeps.bind staysReached_trans (staysReached_repair transactionId) fun _ =>
          Txn.keeps_same staysReached_refl fun _ => rfl

/-- A formation is made of operations of the store. -/
theorem Reachable.reached {w : MemoryWorld F} (h : Reachable env service w) :
    Reached env anyStep w := by
  induction h with
  | start => exact .start
  | operate _ op ih => exact .step ih op trivial
  | form _ transactionId ih => exact staysReached_form transactionId _ ih

/-! ## Forming memories -/

/-- The transaction has its memory turned off. -/
def MemoryOff (service : AdmissionService F) (transactionId : String) : Prop :=
  ∃ manifest, service.host.load transactionId = .ok manifest ∧
    (manifestField manifest "memory_mode" (.str "off")).pyEq (.str "off")

/-- What the transaction has to say is known already, and there is room for it. -/
def Settled (env : MemoryEnv F) (service : AdmissionService F) (transactionId : String)
    (db : Database F) : Prop :=
  ∀ experience, service.host.resolve transactionId = .ok experience →
    (∀ draft anchor, workflow env.digests experience = .ok draft →
      draft.identityAnchor = some anchor → AnchorStands env anchor draft.values db) ∧
    ∀ draft : MemoryDraft F, repair service.factory experience = some draft →
      (draft.values.value.length : Int) ≤ service.policy.maxActiveCharsPerScope →
        RepairStands service.policy experience.evidence db

theorem reraise_ok {α : Type} {caught : PyExc → Bool} {x : Except PyExc α} {a : α} :
    reraise caught x = .ok a ↔ x = .ok a := by
  cases x with
  | ok b => exact Iff.rfl
  | error exc =>
      rw [reraise]
      split
      · exact ⟨(fun h => nomatch h), fun h => nomatch h⟩
      · exact Iff.rfl

theorem workflow_ok {digests : Digests} {experience : VerifiedExperience} {draft : MemoryDraft F}
    (h : workflow digests experience = .ok draft) :
    draft.values.kind = "procedural" ∧ draft.values.Floats ∧
      ∃ anchor, draft.identityAnchor = some anchor := by
  unfold workflow at h
  obtain ⟨_, -, h⟩ := except_bind_ok.1 h
  obtain ⟨_, -, h⟩ := except_bind_ok.1 h
  cases h
  exact ⟨rfl, ⟨_, _, rfl, rfl⟩, _, rfl⟩

theorem admitVerificationWorkflow_ok {transactionId : String} {card : MemoryCard F}
    {w w' : MemoryWorld F}
    (h : admitVerificationWorkflow env service transactionId w = (.ok card, w')) :
    ∃ (experience : VerifiedExperience) (draft : MemoryDraft F) (anchor : String),
      service.host.resolve transactionId = .ok experience ∧
        workflow env.digests experience = .ok draft ∧ draft.identityAnchor = some anchor ∧
        upsertScopedSingleton env anchor draft.values [sourceOf experience.evidence] w =
          (.ok card, w') := by
  unfold admitVerificationWorkflow at h
  rw [Txn.bind_ok] at h
  obtain ⟨experience, w, hlift, h⟩ := h
  obtain ⟨hexperience, rfl⟩ := Txn.lift_ok.1 hlift
  rw [Txn.bind_ok] at h
  obtain ⟨draft, w, hlift, h⟩ := h
  obtain ⟨hdraft, rfl⟩ := Txn.lift_ok.1 hlift
  cases hanchor : draft.identityAnchor with
  | none =>
      rw [hanchor] at h
      cases (Txn.lift_ok.1 h).1
  | some anchor =>
      rw [hanchor] at h
      exact ⟨experience, draft, anchor, reraise_ok.1 hexperience, reraise_ok.1 hdraft, hanchor, h⟩

/-- A call that raised has written nothing. -/
theorem admitVerificationWorkflow_error {transactionId : String} {e : PyExc}
    {w w' : MemoryWorld F}
    (h : admitVerificationWorkflow env service transactionId w = (.error e, w')) :
    Unchanged env w w' := by
  unfold admitVerificationWorkflow at h
  rcases Txn.bind_error.1 h with hraised | ⟨experience, w₁, hlift, hdrafting⟩
  · rw [← show w = w' from congrArg Prod.snd hraised]
    exact Unchanged.refl w
  obtain ⟨-, rfl⟩ := Txn.lift_ok.1 hlift
  rcases Txn.bind_error.1 hdrafting with hraised | ⟨draft, w₂, hlift, hupserting⟩
  · rw [← show w₁ = w' from congrArg Prod.snd hraised]
    exact Unchanged.refl w₁
  obtain ⟨-, rfl⟩ := Txn.lift_ok.1 hlift
  cases hanchor : draft.identityAnchor with
  | none =>
      rw [hanchor] at hupserting
      rw [← show w₂ = w' from congrArg Prod.snd hupserting]
      exact Unchanged.refl w₂
  | some anchor =>
      rw [hanchor] at hupserting
      have hoperate : operate env (.upsertScopedSingleton anchor draft.values
          [sourceOf experience.evidence]) w₂ = (.error e, w') := Txn.bind_error.2 (Or.inl hupserting)
      exact unchanged_of_none (operate_error hoperate)

/-- A call that returned no card had no repair to keep. -/
theorem repair_absent {transactionId : String} {w w' : MemoryWorld F}
    (h : admitVerifiedRepair env service transactionId w = (.ok none, w')) :
    ∀ experience, service.host.resolve transactionId = .ok experience →
      ∀ draft : MemoryDraft F, repair service.factory experience = some draft →
        ¬ (draft.values.value.length : Int) ≤ service.policy.maxActiveCharsPerScope := by
  intro experience hexperience draft hdraft
  have hresolved : verifiedExperience service transactionId = .ok experience :=
    reraise_ok.2 hexperience
  unfold admitVerifiedRepair at h
  rw [Txn.bind_ok] at h
  obtain ⟨found, w, hlift, h⟩ := h
  obtain ⟨hfound, rfl⟩ := Txn.lift_ok.1 hlift
  rw [hresolved] at hfound
  obtain rfl := Except.ok.inj hfound
  rw [hdraft] at h
  dsimp only at h
  split at h
  · omega
  · rw [Txn.bind_ok] at h
    obtain ⟨card, w₂, -, h⟩ := h
    rw [Txn.bind_ok] at h
    obtain ⟨_, w₃, -, h⟩ := h
    cases (Txn.pure_ok.1 h).1

/-- Where there is room nothing is written, so what raises leaves all as it was. -/
theorem enforceRepairCapacity_error {incoming : MemoryCard F} {e : PyExc} {w w' : MemoryWorld F}
    (hroom : (activeRepairs incoming.scope incoming.scopeKey w.db).filter (fun row =>
        row.id ≠ incoming.id) = [] ∨ RoomFor service.policy incoming.value.length
      ((activeRepairs incoming.scope incoming.scopeKey w.db).filter fun row =>
        row.id ≠ incoming.id))
    (h : enforceRepairCapacity env service incoming w = (.error e, w')) : w' = w := by
  unfold enforceRepairCapacity at h
  rcases Txn.bind_error.1 h with hraised | ⟨cards, w₁, hselect, hselecting⟩
  · exact (congrArg Prod.snd hraised).symm
  obtain ⟨hcards, rfl⟩ := select_ok.1 hselect
  rcases Txn.bind_error.1 hselecting with hraised | ⟨retirements, w₂, hlift, hretiring⟩
  · exact (congrArg Prod.snd hraised).symm
  obtain ⟨hretirements, rfl⟩ := Txn.lift_ok.1 hlift
  rw [selectRetirements_eq hcards, (Greedy.dropped_eq_nil_iff _).2 hroom] at hretirements
  obtain rfl := Except.ok.inj hretirements
  cases hretiring

/-- A repair that stands and has its room: a call that raised has written nothing. -/
theorem admitVerifiedRepair_settled {transactionId : String} {e : PyExc} {w w' : MemoryWorld F}
    (hsound : Sound env w) (hroot : Rooted w.db)
    (hstands : ∀ experience, service.host.resolve transactionId = .ok experience →
      ∀ draft : MemoryDraft F, repair service.factory experience = some draft →
        (draft.values.value.length : Int) ≤ service.policy.maxActiveCharsPerScope →
          RepairStands service.policy experience.evidence w.db)
    (h : admitVerifiedRepair env service transactionId w = (.error e, w')) :
    Unchanged env w w' := by
  unfold admitVerifiedRepair at h
  rcases Txn.bind_error.1 h with hraised | ⟨experience, w₁, hlift, hthen⟩
  · rw [← show w = w' from congrArg Prod.snd hraised]
    exact Unchanged.refl w
  obtain ⟨hexperience, rfl⟩ := Txn.lift_ok.1 hlift
  cases hdraft : (repair service.factory experience : Option (MemoryDraft F)) with
  | none =>
      rw [hdraft] at hthen
      cases hthen
  | some draft =>
      rw [hdraft] at hthen
      obtain ⟨artifact, hvalues⟩ := repair_eq_some hdraft
      dsimp only at hthen
      split at hthen
      · cases hthen
      next hchars =>
      obtain ⟨row, hstanding, hroom⟩ := hstands experience (reraise_ok.1 hexperience) draft hdraft
        (by omega)
      rw [hvalues] at hthen
      rcases Txn.bind_error.1 hthen with hraised | ⟨card, w₂, hadd, hafter⟩
      · exact unchanged_of_none (addCardOnceForSource_error hraised)
      obtain ⟨-, hcases⟩ := addCardOnceForSource_cases hsound hroot (repairValues_floats _ _ _) hadd
      rcases hcases with ⟨found, hfound, hext, hshows⟩ | ⟨_, _, hnone, -, -, -⟩
      · have hopened := unchanged_of_none hext
        have hothers := card_others hopened hsound
          (hsound.extends hext (admitted_of_noCards rfl)) hshows
        rcases Txn.bind_error.1 hafter with hraised | ⟨_, w₃, -, hpure⟩
        · have hsame : found = row := by
            have hfound : standingCard w₁.db experience.evidence.sourceType
                experience.evidence.sourceRef "episodic" "verified_repair" = some found := hfound
            rw [hstanding] at hfound
            exact (Option.some.inj hfound).symm
          rw [hsame] at hothers
          rw [← hothers.1, ← hothers.2] at hroom
          rw [enforceRepairCapacity_error hroom hraised]
          exact hopened
        · cases hpure
      · have hnone : standingCard w₁.db experience.evidence.sourceType
            experience.evidence.sourceRef "episodic" "verified_repair" = none := hnone
        rw [hstanding] at hnone
        cases hnone

/-- What a call that returned has done: nothing, or one admission after the other. -/
theorem form_ok {transactionId : String} {cards : List (MemoryCard F)} {w w' : MemoryWorld F}
    (h : formCommittedTransactionMemories env service transactionId w = (.ok cards, w')) :
    (MemoryOff service transactionId ∧ w' = w) ∨
      (¬ MemoryOff service transactionId ∧ ∃ card w₁ found,
        admitVerificationWorkflow env service transactionId w = (.ok card, w₁) ∧
          admitVerifiedRepair env service transactionId w₁ = (.ok found, w')) := by
  unfold formCommittedTransactionMemories at h
  rw [Txn.bind_ok] at h
  obtain ⟨manifest, w, hlift, h⟩ := h
  obtain ⟨hmanifest, rfl⟩ := Txn.lift_ok.1 hlift
  split at h
  · next hoff => exact Or.inl ⟨⟨manifest, hmanifest, hoff⟩, (Txn.pure_ok.1 h).2⟩
  · next hon =>
      rw [Txn.bind_ok] at h
      obtain ⟨_, w, hlift, h⟩ := h
      obtain ⟨-, rfl⟩ := Txn.lift_ok.1 hlift
      rw [Txn.bind_ok] at h
      obtain ⟨card, w₁, hworkflow, h⟩ := h
      rw [Txn.bind_ok] at h
      obtain ⟨found, w₂, hrepair, h⟩ := h
      obtain ⟨-, rfl⟩ := Txn.pure_ok.1 h
      refine Or.inr ⟨fun hoff => ?_, card, w₁, found, hworkflow, hrepair⟩
      obtain ⟨other, hother, hoff⟩ := hoff
      obtain rfl := Except.ok.inj (hother.symm.trans hmanifest)
      exact hon hoff

theorem form_off {transactionId : String} (h : MemoryOff service transactionId)
    (w : MemoryWorld F) :
    formCommittedTransactionMemories env service transactionId w = (.ok [], w) := by
  obtain ⟨manifest, hmanifest, hoff⟩ := h
  refine Txn.bind_ok.2 ⟨manifest, w, Txn.lift_ok.2 ⟨hmanifest, rfl⟩, ?_⟩
  rw [if_pos hoff]
  exact Txn.pure_ok.2 ⟨rfl, rfl⟩

theorem form_error {transactionId : String} {e : PyExc} {w w' : MemoryWorld F}
    (h : formCommittedTransactionMemories env service transactionId w = (.error e, w')) :
    Unchanged env w w' ∨ ∃ card w₁,
      admitVerificationWorkflow env service transactionId w = (.ok card, w₁) ∧
        admitVerifiedRepair env service transactionId w₁ = (.error e, w') := by
  unfold formCommittedTransactionMemories at h
  rcases Txn.bind_error.1 h with hraised | ⟨manifest, w₁, hlift, hloaded⟩
  · rw [← show w = w' from congrArg Prod.snd hraised]
    exact Or.inl (Unchanged.refl w)
  obtain ⟨-, rfl⟩ := Txn.lift_ok.1 hlift
  split at hloaded
  · cases hloaded
  rcases Txn.bind_error.1 hloaded with hraised | ⟨_, w₂, hlift, hchecked⟩
  · rw [← show w₁ = w' from congrArg Prod.snd hraised]
    exact Or.inl (Unchanged.refl w₁)
  obtain ⟨-, rfl⟩ := Txn.lift_ok.1 hlift
  rcases Txn.bind_error.1 hchecked with hraised | ⟨card, w₃, hworkflow, hrepairing⟩
  · exact Or.inl (admitVerificationWorkflow_error hraised)
  rcases Txn.bind_error.1 hrepairing with hraised | ⟨_, w₄, -, hpure⟩
  · exact Or.inr ⟨card, w₃, hworkflow, hraised⟩
  · cases hpure

section Again

variable {transactionId : String} {w w₁ w' : MemoryWorld F} {card : MemoryCard F}
  (hclock : Monotone env.timeNs) (hw : Reached env anyStep w)
  (hworkflow : admitVerificationWorkflow env service transactionId w = (.ok card, w₁))

include hclock hw hworkflow

/-- The workflow of a transaction is formed: what was retired, where nothing changed, and
that then the repair stands as it did. -/
theorem workflow_again :
    Reached env anyStep w₁ ∧ ∃ (experience : VerifiedExperience) (draft : MemoryDraft F)
      (anchor : String), service.host.resolve transactionId = .ok experience ∧
        workflow env.digests experience = .ok draft ∧ draft.identityAnchor = some anchor ∧
        (∃ retired, Retires env w w₁ retired) ∧
        (Unchanged env w w₁ ↔ AnchorStands env anchor draft.values w.db) ∧
        (Unchanged env w w₁ → (RepairStands service.policy experience.evidence w₁.db ↔
          RepairStands service.policy experience.evidence w.db)) := by
  have hsound := sound_of_reached hw
  have hw₁ : Reached env anyStep w₁ := by
    have hstays : Txn.Keeps (StaysReached env)
        (admitVerificationWorkflow env service transactionId) := staysReached_workflow _
    have hreached := hstays w hw
    rwa [hworkflow] at hreached
  obtain ⟨experience, draft, anchor, hexperience, hdraft, hanchor, hupsert⟩ :=
    admitVerificationWorkflow_ok hworkflow
  exact ⟨hw₁, experience, draft, anchor, hexperience, hdraft, hanchor,
    upsert_retires hsound hclock hupsert, upsert_unchanged_iff hsound hclock hupsert,
    fun hsame => RepairStands.after hsame hsound (sound_of_reached hw₁)
      (upsert_evidence hupsert hsame.1) (workflow_ok hdraft).1⟩

end Again

/-- A settled transaction: whichever way the call ends, nothing changes. -/
theorem form_settled (hclock : Monotone env.timeNs) {transactionId : String}
    {w w' : MemoryWorld F} (hw : Reached env anyStep w) {r : Except PyExc (List (MemoryCard F))}
    (h : formCommittedTransactionMemories env service transactionId w = (r, w'))
    (hsettled : Settled env service transactionId w.db) : Unchanged env w w' := by
  cases r with
  | error e =>
      rcases form_error h with hsame | ⟨card, w₁, hworkflow, hrepair⟩
      · exact hsame
      obtain ⟨hw₁, experience, draft, anchor, hexperience, hdraft, hanchor, -, hanchorStands,
        hrepairStands⟩ := workflow_again hclock hw hworkflow
      have hfirst := hanchorStands.2 ((hsettled experience hexperience).1 draft anchor hdraft hanchor)
      refine hfirst.trans (admitVerifiedRepair_settled (sound_of_reached hw₁)
        (rooted_of_reached hw₁) (fun other hother patch hpatch hchars => ?_) hrepair)
      obtain rfl := Except.ok.inj (hexperience.symm.trans hother)
      exact (hrepairStands hfirst).2 ((hsettled experience hexperience).2 patch hpatch hchars)
  | ok cards =>
      rcases form_ok h with ⟨-, rfl⟩ | ⟨-, card, w₁, found, hworkflow, hrepair⟩
      · exact Unchanged.refl w'
      obtain ⟨hw₁, experience, draft, anchor, hexperience, hdraft, hanchor, -, hanchorStands,
        hrepairStands⟩ := workflow_again hclock hw hworkflow
      have hfirst := hanchorStands.2 ((hsettled experience hexperience).1 draft anchor hdraft hanchor)
      cases found with
      | none =>
          rw [admitVerifiedRepair_none hrepair]
          exact hfirst
      | some repaired =>
          obtain ⟨other, patch, hother, hpatch, hchars, -, hiff⟩ := repair_unchanged_iff
            (sound_of_reached hw₁) (rooted_of_reached hw₁) hclock hrepair
          obtain rfl := Except.ok.inj (hexperience.symm.trans (reraise_ok.1 hother))
          exact hfirst.trans (hiff.2 ((hrepairStands hfirst).2
            ((hsettled experience hexperience).2 patch hpatch hchars)))

/-- Where a call that returned changed nothing, the transaction was settled. -/
theorem settled_of_form (hclock : Monotone env.timeNs) {transactionId : String}
    {w w' : MemoryWorld F} (hw : Reached env anyStep w) {cards : List (MemoryCard F)}
    (h : formCommittedTransactionMemories env service transactionId w = (.ok cards, w'))
    (hsame : Unchanged env w w') :
    MemoryOff service transactionId ∨ Settled env service transactionId w.db := by
  rcases form_ok h with ⟨hoff, -⟩ | ⟨-, card, w₁, found, hworkflow, hrepair⟩
  · exact Or.inl hoff
  obtain ⟨hw₁, experience, draft, anchor, hexperience, hdraft, hanchor, ⟨first, hfirst⟩,
    hanchorStands, hrepairStands⟩ := workflow_again hclock hw hworkflow
  refine Or.inr fun other hother => ?_
  obtain rfl := Except.ok.inj (hexperience.symm.trans hother)
  have hdrafts : ∀ draft' anchor', workflow env.digests experience = .ok draft' →
      draft'.identityAnchor = some anchor' → Unchanged env w w₁ →
        AnchorStands env anchor' draft'.values w.db := by
    intro draft' anchor' hdraft' hanchor' hunchanged
    obtain rfl := Except.ok.inj (hdraft.symm.trans hdraft')
    obtain rfl := Option.some.inj (hanchor.symm.trans hanchor')
    exact hanchorStands.1 hunchanged
  cases found with
  | none =>
      rw [admitVerifiedRepair_none hrepair] at hsame
      refine ⟨fun draft' anchor' hdraft' hanchor' => hdrafts _ _ hdraft' hanchor' hsame,
        fun patch hpatch hchars => ?_⟩
      exact absurd hchars (repair_absent hrepair experience hexperience patch hpatch)
  | some repaired =>
      obtain ⟨found, patch, hfound, -, -, ⟨second, hsecond⟩, hiff⟩ := repair_unchanged_iff
        (sound_of_reached hw₁) (rooted_of_reached hw₁) hclock hrepair
      obtain rfl := Except.ok.inj (hexperience.symm.trans (reraise_ok.1 hfound))
      obtain ⟨hbefore, hafter⟩ := hfirst.unchanged_trans hsecond hsame
      exact ⟨fun draft' anchor' hdraft' hanchor' => hdrafts _ _ hdraft' hanchor' hbefore,
        fun _ _ _ => (hrepairStands hbefore).1 (hiff.1 hafter)⟩

/-- A transaction whose memories are formed again, at any time of a store's life, adds no
card and changes no status exactly if it is settled, or has its memory turned off. -/
theorem formed_again (hclock : Monotone env.timeNs) (service : AdmissionService F)
    {w : MemoryWorld F} (hw : Reachable env service w) (transactionId : String) :
    (∀ r w', formCommittedTransactionMemories env service transactionId w = (r, w') →
      MemoryOff service transactionId ∨ Settled env service transactionId w.db →
        Unchanged env w w') ∧
    ∀ cards w', formCommittedTransactionMemories env service transactionId w = (.ok cards, w') →
      Unchanged env w w' →
        MemoryOff service transactionId ∨ Settled env service transactionId w.db := by
  refine ⟨fun r w' hrun hsettled => ?_, fun cards w' hrun hsame =>
    settled_of_form hclock hw.reached hrun hsame⟩
  rcases hsettled with hoff | hsettled
  · rw [form_off hoff] at hrun
    cases hrun
    exact Unchanged.refl w
  · exact form_settled hclock hw.reached hrun hsettled

/-! ## A workflow that is forgotten -/

/-- The cues are checked apart from the rest. -/
theorem validateCardInput_cues {values : CardValues F}
    (h : validateCardInput env { values with cueAnchors := [] } = .ok ())
    (hcount : values.cueAnchors.length ≤ 100)
    (hcues : ∀ cue ∈ values.cueAnchors, pyStrip cue ≠ "" ∧ cue.length ≤ 500) :
    validateCardInput env values = .ok () := by
  have hlength : (raiseIf (values.cueAnchors.length > 100)
      (valueError "memory cue anchors exceed the count limit") : Except PyExc Unit) = .ok () :=
    (raiseIf_ok (u := ())).2 (by omega)
  have hshort : (raiseIf (∃ cue ∈ values.cueAnchors, pyStrip cue = "" ∨ cue.length > 500)
      (valueError "memory cue anchors must be non-blank short strings") : Except PyExc Unit) =
      .ok () := by
    refine (raiseIf_ok (u := ())).2 fun hbad => ?_
    obtain ⟨cue, hcue, hblank | hlong⟩ := hbad
    · exact (hcues cue hcue).1 hblank
    · exact absurd (hcues cue hcue).2 (by omega)
  unfold validateCardInput at h ⊢
  iterate 7
    obtain ⟨_, hcheck, h⟩ := except_bind_ok.1 h
    rw [hcheck, except_ok_bind]
  obtain ⟨_, -, h⟩ := except_bind_ok.1 h
  obtain ⟨_, -, h⟩ := except_bind_ok.1 h
  rw [hlength, except_ok_bind, hshort, except_ok_bind]
  exact h

namespace ForgottenWorkflow

/-- The first 64 digits. -/
def digits (data : ByteArray) : String := String.ofList ((hexText data).toList.take 64)

theorem isHex_digits (data : ByteArray) : isHex (digits data) = true := by
  have hall := isHex_hexText data
  rw [isHex, List.all_eq_true] at hall
  rw [isHex, digits, String.toList_ofList, List.all_eq_true]
  exact fun c hc => hall c (List.mem_of_mem_take hc)

def storeEnv : MemoryEnv Unit :=
  { machine ticking with
    digests := {
      sha256 := digits
      hmacSha256 := fun key data => digits (key ++ data)
      sha256_hex := isHex_digits
      hmacSha256_hex := fun key data => isHex_digits (key ++ data) } }

theorem obliging : Obliging storeEnv := ⟨countedId_injective, fun ns => ⟨ns / 1000, rfl⟩⟩

theorem monotone : Monotone storeEnv.timeNs := ticking_monotone

def experience : VerifiedExperience :=
  { FirstRepair.experience with
    checks := [⟨"tests", "e3b0c44298fc1c149afbf4c8996fb92427ae41e4649b934ca495991b7852b855"⟩]
    artifactText := none }

/-- A committed transaction without a patch to keep. -/
def admission : AdmissionService Unit where
  host := ⟨fun _ => .ok experience, fun _ =>
    .ok [("memory_mode", .str "local"), ("status", .str "committed")]⟩
  factory := .standard (fun _ => false) id
  policy := .standard

def anchor : String := workflowAnchor (F := Unit) storeEnv.digests experience

theorem length_anchor : anchor.length ≤ 500 := by
  have hdigits : ∀ data, (digits data).length ≤ 64 := by
    intro data
    rw [digits, String.length_ofList, List.length_take]
    omega
  have hstart : "workflow-sha256:".length = 16 := by decide
  obtain ⟨data, hanchor⟩ : ∃ data, anchor = "workflow-sha256:" ++ digits data := ⟨_, rfl⟩
  have := hdigits data
  rw [hanchor, String.length_append, hstart]
  omega

/-- It has no space in it. -/
theorem pyStrip_anchor : pyStrip anchor = anchor := by
  obtain ⟨data, hanchor⟩ : ∃ data, anchor = "workflow-sha256:" ++ digits data := ⟨_, rfl⟩
  refine pyStrip_of_plain fun c hc => ?_
  rw [hanchor, String.toList_append] at hc
  rcases List.mem_append.1 hc with hstart | hdigit
  · have hplain : ("workflow-sha256:".toList.all fun c => !pyIsSpace c) = true := rfl
    simpa using List.all_eq_true.1 hplain c hstart
  · have hall := isHex_digits data
    rw [isHex, List.all_eq_true] at hall
    exact pyIsSpace_of_isHexDigit (hall c hdigit)

theorem anchor_ne_empty : anchor ≠ "" := by
  obtain ⟨data, hanchor⟩ : ∃ data, anchor = "workflow-sha256:" ++ digits data := ⟨_, rfl⟩
  intro hempty
  rw [hanchor, String.append_eq_empty_iff] at hempty
  exact absurd hempty.1 (by decide)

theorem checkNames_experience : checkNames [] experience.checks = .ok ["tests"] := by
  rfl

theorem workflow_experience : ∃ draft : MemoryDraft Unit,
    workflow storeEnv.digests experience = .ok draft ∧ draft.identityAnchor = some anchor ∧
      draft.values.cueAnchors = ["run_tests", "verification workflow", "tests", anchor] ∧
      validateCardInput storeEnv { draft.values with cueAnchors := [] } = .ok () := by
  unfold workflow
  rw [(raiseIf_ok (u := ())).2 (by decide), except_ok_bind, checkNames_experience, except_ok_bind]
  exact ⟨_, rfl, rfl, rfl, by decide +kernel⟩

theorem consistent_start : Consistent [sourceOf experience.evidence] (MemoryWorld.start Unit) where
  checked source hsource := by
    rw [List.mem_singleton.1 hsource]
    rfl
  stored _ hrow := absurd hrow List.not_mem_nil
  given source hsource other hother _ _ := by
    rw [List.mem_singleton.1 hsource, List.mem_singleton.1 hother]
    exact ⟨rfl, rfl⟩

/-- The workflow is all that is formed. -/
theorem form_returns {w : MemoryWorld Unit} (h : Healthy storeEnv w)
    (hconsistent : Consistent [sourceOf experience.evidence] w) :
    ∃ (draft : MemoryDraft Unit) (card : MemoryCard Unit) (w' : MemoryWorld Unit),
      workflow storeEnv.digests experience = .ok draft ∧ draft.identityAnchor = some anchor ∧
      upsertScopedSingleton storeEnv anchor draft.values [sourceOf experience.evidence] w =
        (.ok card, w') ∧
      formCommittedTransactionMemories storeEnv admission "first" w = (.ok [card], w') := by
  obtain ⟨draft, hdraft, hanchor, hcues, hplain⟩ := workflow_experience
  have hvalues : validateCardInput storeEnv draft.values = .ok () := by
    refine validateCardInput_cues hplain (by rw [hcues]; decide) fun cue hcue => ?_
    rw [hcues] at hcue
    simp only [List.mem_cons, List.not_mem_nil, or_false] at hcue
    rcases hcue with rfl | rfl | rfl | rfl
    · decide
    · decide
    · decide
    · exact ⟨pyStrip_anchor.symm ▸ anchor_ne_empty, length_anchor⟩
  obtain ⟨card, w', hupsert⟩ := upsertScopedSingleton_returns h obliging anchor hvalues
    (workflow_ok hdraft).2.1 ⟨pyStrip_anchor.symm ▸ anchor_ne_empty, by rw [hcues]; simp⟩ (List.cons_ne_nil _ _) hconsistent
  refine ⟨draft, card, w', hdraft, hanchor, hupsert, ?_⟩
  have hworkflow : admitVerificationWorkflow storeEnv admission "first" w = (.ok card, w') := by
    refine Txn.bind_ok.2 ⟨experience, w, rfl, Txn.bind_ok.2 ⟨draft, w,
      Txn.lift_ok.2 ⟨reraise_ok.2 hdraft, rfl⟩, ?_⟩⟩
    rw [hanchor]
    exact hupsert
  refine Txn.bind_ok.2 ⟨_, w, rfl, ?_⟩
  rw [if_neg (by decide)]
  refine Txn.bind_ok.2 ⟨(), w, liftRaise_ok.2 ⟨by decide, rfl⟩, ?_⟩
  exact Txn.bind_ok.2 ⟨card, w', hworkflow, Txn.bind_ok.2 ⟨none, w', rfl, rfl⟩⟩

/-- The store after the workflow was formed for the first time. -/
structure FirstFormed (draft : MemoryDraft Unit) (w : MemoryWorld Unit) (row : CardRow Unit) :
    Prop where
  drafted : workflow storeEnv.digests experience = .ok draft
  anchored : draft.identityAnchor = some anchor
  reachable : Reachable storeEnv admission w
  healthy : Healthy storeEnv w
  consistent : Consistent [sourceOf experience.evidence] w
  one : OneActive storeEnv draft.values (.start Unit) w row
  carries : carriesAnchor anchor row = .ok true

theorem firstFormed : ∃ draft cards w row,
    formCommittedTransactionMemories storeEnv admission "first" (.start Unit) = (.ok cards, w) ∧
      FirstFormed draft w row := by
  have hhealthy : Healthy storeEnv (.start Unit) := healthy_start
  obtain ⟨draft, card, w, hdraft, hanchor, hupsert, hform⟩ := form_returns hhealthy consistent_start
  obtain ⟨family, active, d, winner, hread, hall, rfl, hd, hupserted, hrecorded, hdecided, hcue⟩ :=
    upsertScopedSingleton_ok hupsert
  have hactive := active_iff hread hall
  have hempty : ∀ row, row ∉ (family.filter fun m => m.status = "active").map FamilyMember.row :=
    fun row hrow => absurd ((hactive row).1 hrow).1 List.not_mem_nil
  have hsound : Sound storeEnv (.start Unit) := sound_start
  obtain ⟨row, hid, hone⟩ := oneActive_of_upserted hsound (hsound.extends hd hupserted.admitted)
    monotone hd hupserted hactive
  refine ⟨draft, [card], w, row, hform, hdraft, hanchor, ?_, ?_, ?_, hone, ?_⟩
  · have hreachable : Reachable storeEnv admission _ := .form .start "first"
    rwa [hform] at hreachable
  · exact hhealthy.extends hd hupserted.admitted fun new hnew =>
      ⟨draft.values, (workflow_ok hdraft).2.1, hupserted.made new hnew⟩
  · exact consistent_start.extends hd hrecorded
  · cases hdecided with
    | stale htop _ _ _ => exact absurd ((latestRevision_ok htop).2 _ _ rfl).1 (hempty _)
    | replay hcanonical _ _ => exact absurd hcanonical (hempty _)
    | revise hrow hcards _ _ =>
        have hmem := hone.mem
        rw [hd.cards, hcards] at hmem
        rw [List.mem_singleton.1 hmem, hrow, carriesAnchor_newCardRow]
        refine congrArg Except.ok (decide_eq_true ?_)
        exact List.mem_map.2 ⟨anchor, hcue, pyStrip_anchor⟩

theorem FirstFormed.settled {draft : MemoryDraft Unit} {w : MemoryWorld Unit} {row : CardRow Unit}
    (h : FirstFormed draft w row) : Settled storeEnv admission "first" w.db := by
  intro other hother
  obtain rfl := Except.ok.inj hother
  refine ⟨fun draft' anchor' hdraft' hanchor' => ?_, fun patch hpatch _ => by cases hpatch⟩
  obtain rfl := Except.ok.inj (h.drafted.symm.trans hdraft')
  obtain rfl := Option.some.inj (h.anchored.symm.trans hanchor')
  refine ⟨row, h.one.mem, h.one.family, fun card hcard hin => ⟨h.one.only card hcard hin, ?_⟩,
    Or.inl h.carries⟩
  rintro rfl
  exact h.one.active

/-- Its card forgotten, the family has no active card. -/
theorem FirstFormed.forgotten {draft : MemoryDraft Unit} {w w' : MemoryWorld Unit}
    {row : CardRow Unit} (h : FirstFormed draft w row) {event : EventRow}
    (hext : Extends storeEnv w (.event event) w') (hcard : event.cardId = row.id)
    (htype : event.eventType = "tombstoned") : ¬ AnchorStands storeEnv anchor draft.values w'.db := by
  rintro ⟨other, hmem, hin, honly, -⟩
  have hactive := (honly other hmem hin).2 rfl
  rw [hext.cards] at hmem
  have hmem : other ∈ w.db.cards := (List.append_nil w.db.cards) ▸ hmem
  have hafter := currentStatus_after h.healthy.sound monotone hext (admitted_of_noCards rfl) hmem
  have hlast : lastChange (Delta.event event : Delta Unit).events other.id =
      if event.cardId = other.id then some "tombstoned" else none := by
    rw [← htype]
    exact lastChange_singleton _ _
  rw [hlast, hactive] at hafter
  by_cases hsame : event.cardId = other.id
  · rw [if_pos hsame] at hafter
    exact absurd (Except.ok.inj hafter) (by decide)
  · rw [if_neg hsame] at hafter
    rw [h.one.only other hmem hin hafter.symm] at hsame
    exact hsame hcard

end ForgottenWorkflow

/-- The workflow is formed again while its card is active. -/
theorem formed_again_sample : ∃ w r w',
    Reachable ForgottenWorkflow.storeEnv ForgottenWorkflow.admission w ∧ w.db.cards ≠ [] ∧
      formCommittedTransactionMemories ForgottenWorkflow.storeEnv ForgottenWorkflow.admission
        "first" w = (r, w') ∧ Unchanged ForgottenWorkflow.storeEnv w w' := by
  obtain ⟨draft, cards, w, row, -, hformed⟩ := ForgottenWorkflow.firstFormed
  cases hrun : formCommittedTransactionMemories ForgottenWorkflow.storeEnv
      ForgottenWorkflow.admission "first" w with
  | mk r w' =>
      exact ⟨w, r, w', hformed.reachable, List.ne_nil_of_mem hformed.one.mem, hrun,
        (formed_again ForgottenWorkflow.monotone ForgottenWorkflow.admission hformed.reachable
          "first").1 r w' hrun (Or.inr hformed.settled)⟩

/-- The workflow is formed, its card is forgotten, and it is formed again: a second card. -/
theorem formed_again_adds : ¬ ∀ w₀ cards w₁ w r w',
    Reachable ForgottenWorkflow.storeEnv ForgottenWorkflow.admission w₀ →
    formCommittedTransactionMemories ForgottenWorkflow.storeEnv ForgottenWorkflow.admission
      "first" w₀ = (.ok cards, w₁) →
    Relation.ReflTransGen (fun a b => ∃ op, b = perform ForgottenWorkflow.storeEnv op a) w₁ w →
    formCommittedTransactionMemories ForgottenWorkflow.storeEnv ForgottenWorkflow.admission
      "first" w = (r, w') →
    Unchanged ForgottenWorkflow.storeEnv w w' := by
  intro hall
  obtain ⟨draft, cards, w₁, row, hform, hformed⟩ := ForgottenWorkflow.firstFormed
  have hnone : ∀ other ∈ (none : Option (CardRow Unit)), other ∈ w₁.db.cards := by
    intro other hother
    cases hother
  obtain ⟨u, w, htransition⟩ : Txn.Returns (transition ForgottenWorkflow.storeEnv row.id
      "tombstoned" none) w₁ := transition_returns hformed.healthy ForgottenWorkflow.obliging
    "tombstoned" (by decide) (by decide) hformed.one.mem hnone
  obtain ⟨event, hext, hcard, htype, -, -⟩ := transition_ok htransition
  have hhealthy : Healthy ForgottenWorkflow.storeEnv w := hformed.healthy.extends hext
    (admitted_of_noCards rfl) fun _ hrow => absurd hrow List.not_mem_nil
  obtain ⟨draft', card, w', hdraft', -, hupsert, hform'⟩ := ForgottenWorkflow.form_returns hhealthy
    (hformed.consistent.extends hext (recorded_of_none rfl))
  obtain rfl := Except.ok.inj (hformed.drafted.symm.trans hdraft')
  have hstep : w = perform ForgottenWorkflow.storeEnv (.transition row.id "tombstoned" none) w₁ := by
    rw [perform, operate, htransition]
  have hsame := hall _ cards w₁ w _ w' .start hform (.single ⟨_, hstep⟩) hform'
  exact hformed.forgotten hext hcard htype
    ((upsert_unchanged_iff hhealthy.sound ForgottenWorkflow.monotone hupsert).1 hsame)

end MemoryAdmission

end MiniCodeAgent
