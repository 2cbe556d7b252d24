import MiniCodeAgent.Proofs.MemorySingleton

/-!
# Revisions and the order they arrive in

Revisions of one singleton are passed to `upsert_scoped_singleton` in some
order, on a store that starts empty. Of the revisions that have arrived one is
standing: its card is the active one. `standing` says which, from the revisions
alone. A later arrival takes its place unless the standing revision carries its
anchor or is dated later.

In the second of these cases the arrival is older, and the order does not
matter. In the first it need not be: the standing card keeps the time it was
created with, though it now stands for a newer revision, and a third one dated
between the two displaces it. So the order does matter, and what the active
card carries in the end is what `standing` carries.
-/

namespace MiniCodeAgent

namespace MemoryStore

variable {F : Type} [Json.PyFloat F] {env : MemoryEnv F}

/-- The arguments of one call. -/
structure Revision (F : Type) where
  anchor : String
  values : CardValues F
  sources : List EvidenceSource

/-- Its card carries the anchor. -/
def Revision.Carries (r : Revision F) (anchor : String) : Prop :=
  anchor ∈ r.values.cueAnchors.map pyStrip

instance (r : Revision F) (anchor : String) : Decidable (r.Carries anchor) :=
  inferInstanceAs (Decidable (_ ∈ _))

/-- An arrival takes the standing revision's place if that one does not carry
its anchor and is not dated later. -/
def Displaces (moment : Revision F → Int) (r standing : Revision F) : Prop :=
  ¬ standing.Carries r.anchor ∧ moment standing ≤ moment r

instance (moment : Revision F → Int) (r standing : Revision F) :
    Decidable (Displaces moment r standing) := inferInstanceAs (Decidable (_ ∧ _))

/-- The revision standing after these arrivals. -/
def standing (moment : Revision F → Int) (first : Revision F) (arrivals : List (Revision F)) :
    Revision F :=
  arrivals.foldl (fun s r => if Displaces moment r s then r else s) first

/-- The calls, one after the other, all of which return. -/
inductive Arrive (env : MemoryEnv F) : List (Revision F) → MemoryWorld F → MemoryWorld F → Prop
  | nil (w : MemoryWorld F) : Arrive env [] w w
  | cons {r : Revision F} {rs : List (Revision F)} {card : MemoryCard F} {w w₁ w' : MemoryWorld F}
      (h : upsertScopedSingleton env r.anchor r.values r.sources w = (.ok card, w₁))
      (hrest : Arrive env rs w₁ w') : Arrive env (r :: rs) w w'

/-! ## The standing revision's card -/

/-- The card of the revision is the only active one of the family. -/
structure StandsFor (env : MemoryEnv F) (family : CardValues F) (r : Revision F)
    (w : MemoryWorld F) (row : CardRow F) : Prop where
  mem : row ∈ w.db.cards
  of : row.Of env r.values
  active : currentStatus env row.id w.db = .ok "active"
  only : ∀ other ∈ w.db.cards, inFamily family other →
    currentStatus env other.id w.db = .ok "active" → other = row

/-- The calls are about one singleton and say when their revisions are from. -/
structure Revises (env : MemoryEnv F) (moment : Revision F → Int) (family : CardValues F)
    (r : Revision F) : Prop where
  dated : parseTimestamp env r.values.validFrom "valid_from" = .ok (some (moment r))
  kind : r.values.kind = family.kind
  subtype : r.values.subtype = family.subtype
  scope : r.values.scope = family.scope
  scopeKey : r.values.scopeKey = family.scopeKey

section Arrivals

variable {moment : Revision F → Int} {family : CardValues F} {r s : Revision F}

omit [Json.PyFloat F] in
theorem Revises.inFamily_iff (h : Revises env moment family r) (row : CardRow F) :
    inFamily r.values row ↔ inFamily family row := by
  rw [inFamily, inFamily, h.kind, h.subtype, h.scope, h.scopeKey]

theorem revisionMoment_of (h : Revises env moment family r) {row : CardRow F}
    (hof : row.Of env r.values) : revisionMoment env row = .ok (moment r) := by
  obtain ⟨-, cardId, t, rfl⟩ := hof
  show (parseTimestamp env r.values.validFrom "valid_from" >>= _) = _
  rw [h.dated]
  rfl

theorem carriesAnchor_of {row : CardRow F} (hof : row.Of env r.values) (anchor : String) :
    carriesAnchor anchor row = .ok (decide (r.Carries anchor)) := by
  obtain ⟨-, cardId, t, rfl⟩ := hof
  exact carriesAnchor_newCardRow anchor cardId r.values t

theorem OneActive.standsFor {w w' : MemoryWorld F} {row : CardRow F}
    (hr : Revises env moment family r) (hone : OneActive env r.values w w' row)
    (hof : row.Of env s.values) : StandsFor env family s w' row where
  mem := hone.mem
  of := hof
  active := hone.active
  only other hother hin hactive := hone.only other hother ((hr.inFamily_iff other).2 hin) hactive

/-- The first arrival stands. -/
theorem standsFor_first (hclock : Monotone env.timeNs) (hr : Revises env moment family r)
    {card : MemoryCard F} {w' : MemoryWorld F}
    (h : upsertScopedSingleton env r.anchor r.values r.sources (.start F) = (.ok card, w')) :
    Sound env w' ∧ ∃ row, StandsFor env family r w' row := by
  obtain ⟨members, active, d, winner, hread, hall, hactive, hd, hupserted, -, hdecided, -⟩ :=
    upsertScopedSingleton_ok h
  have hact : ∀ x, x ∈ active ↔ x ∈ (MemoryWorld.start F).db.cards ∧ inFamily r.values x ∧
      currentStatus env x.id (MemoryWorld.start F).db = .ok "active" := by
    rw [hactive]
    exact active_iff hread hall
  have hnone : ∀ x, x ∉ active := fun x hx => absurd ((hact x).1 hx).1 List.not_mem_nil
  have hsound' := sound_start.extends hd hupserted.admitted
  obtain ⟨row', hid, hone⟩ := oneActive_of_upserted sound_start hsound' hclock hd hupserted hact
  refine ⟨hsound', ?_⟩
  cases hdecided with
  | stale htop => exact absurd ((latestRevision_ok htop).2 _ _ rfl).1 (hnone _)
  | replay hmem => exact absurd hmem (hnone _)
  | revise hrow hcards =>
      refine ⟨row', hone.standsFor hr ?_⟩
      have hmem' := hone.mem
      rw [hd.cards] at hmem'
      exact hupserted.made row' ((List.mem_append.1 hmem').resolve_left List.not_mem_nil)

/-- The next arrival displaces the standing revision or leaves it. -/
theorem standsFor_next (hclock : Monotone env.timeNs) {w : MemoryWorld F} (hsound : Sound env w)
    (hs : Revises env moment family s) (hr : Revises env moment family r) {row : CardRow F}
    (hstands : StandsFor env family s w row) {card : MemoryCard F} {w' : MemoryWorld F}
    (h : upsertScopedSingleton env r.anchor r.values r.sources w = (.ok card, w')) :
    Sound env w' ∧ ∃ row', StandsFor env family (if Displaces moment r s then r else s) w' row' := by
  obtain ⟨members, active, d, winner, hread, hall, hactive, hd, hupserted, -, hdecided, -⟩ :=
    upsertScopedSingleton_ok h
  have hact : ∀ x, x ∈ active ↔ x ∈ w.db.cards ∧ inFamily r.values x ∧
      currentStatus env x.id w.db = .ok "active" := by
    rw [hactive]
    exact active_iff hread hall
  have hsound' := hsound.extends hd hupserted.admitted
  obtain ⟨row', hid, hone⟩ := oneActive_of_upserted hsound hsound' hclock hd hupserted hact
  refine ⟨hsound', ?_⟩
  have honly : ∀ x ∈ active, x = row := by
    intro x hx
    obtain ⟨hmem, hin, hstatus⟩ := (hact x).1 hx
    exact hstands.only x hmem ((hr.inFamily_iff x).1 hin) hstatus
  have hrowFamily : inFamily family row := by
    rw [← hs.inFamily_iff]
    obtain ⟨-, cardId, t, hrow⟩ := hstands.of
    rw [hrow]
    exact ⟨rfl, rfl, rfl, rfl⟩
  have hrowActive : row ∈ active :=
    (hact row).2 ⟨hstands.mem, (hr.inFamily_iff row).2 hrowFamily, hstands.active⟩
  -- the standing card stays where it wins
  have hstays : row.id = winner → ∃ row', StandsFor env family s w' row' := by
    intro hwinner
    have hmem : row ∈ w'.db.cards := by
      rw [hd.cards]
      exact List.mem_append_left _ hstands.mem
    have hsame : row' = row := eq_of_same_id hsound'.unique hone.mem hmem (hid.trans hwinner.symm)
    rw [hsame] at hone
    exact ⟨row, hone.standsFor hr hstands.of⟩
  cases hdecided with
  | stale htop hincoming hlt hcarries =>
      obtain ⟨hmem, hmoment, -⟩ := (latestRevision_ok htop).2 _ _ rfl
      have hsame := honly _ hmem
      rw [hsame, revisionMoment_of hs hstands.of] at hmoment
      injection hmoment with hmoment
      rw [hr.dated] at hincoming
      injection hincoming with hincoming
      injection hincoming with hincoming
      have hnot : ¬ Displaces moment r s := by
        rintro ⟨-, hle⟩
        omega
      rw [if_neg hnot]
      exact hstays (congrArg CardRow.id hsame.symm)
  | replay hmem hcarries hcards =>
      have hsame := honly _ hmem
      rw [hsame, carriesAnchor_of hstands.of] at hcarries
      injection hcarries with hcarries
      have hnot : ¬ Displaces moment r s := fun hdisplaces =>
        hdisplaces.1 (of_decide_eq_true hcarries)
      rw [if_neg hnot]
      exact hstays (congrArg CardRow.id hsame.symm)
  | @revise new _ cardId t hrow hcards hnone hlatest =>
      have hcarries := hnone row hrowActive
      rw [carriesAnchor_of hstands.of] at hcarries
      injection hcarries with hcarries
      obtain ⟨best, hbest⟩ := latestRevision_returns env
        (fun x (hx : x ∈ active) =>
          ⟨moment s, by rw [honly x hx]; exact revisionMoment_of hs hstands.of⟩)
      have hle : moment s ≤ moment r := by
        cases best with
        | none =>
            rw [(latestRevision_ok hbest).1 rfl] at hrowActive
            cases hrowActive
        | some best =>
            obtain ⟨hmem, hmoment, -⟩ := (latestRevision_ok hbest).2 best.1 best.2 rfl
            rw [honly _ hmem, revisionMoment_of hs hstands.of] at hmoment
            injection hmoment with hmoment
            rw [hmoment]
            exact hlatest best.1 best.2 (moment r) hbest hr.dated
      rw [if_pos ⟨of_decide_eq_false hcarries, hle⟩]
      have hnew : new ∈ w'.db.cards := by
        rw [hd.cards, hcards]
        exact List.mem_append_right _ (List.mem_singleton_self new)
      have hsame : row' = new := eq_of_same_id hsound'.unique hone.mem hnew hid
      refine ⟨row', hone.standsFor hr ?_⟩
      rw [hsame]
      refine hupserted.made new ?_
      rw [hcards]
      exact List.mem_singleton_self new

end Arrivals

/-- After any arrivals, the standing revision's card is the active one. -/
theorem standsFor_arrive (moment : Revision F → Int) (family : CardValues F)
    (hclock : Monotone env.timeNs) {first : Revision F} {rs : List (Revision F)}
    (hrevises : ∀ r ∈ first :: rs, Revises env moment family r) {w' : MemoryWorld F}
    (h : Arrive env (first :: rs) (.start F) w') :
    ∃ row, StandsFor env family (standing moment first rs) w' row := by
  have hrest : ∀ (rs : List (Revision F)) (s : Revision F) (w : MemoryWorld F),
      (∀ r ∈ s :: rs, Revises env moment family r) → Sound env w →
      (∃ row, StandsFor env family s w row) → Arrive env rs w w' →
      ∃ row, StandsFor env family (standing moment s rs) w' row := by
    intro rs
    induction rs with
    | nil =>
        intro s w _ _ hstands hrun
        cases hrun
        exact hstands
    | cons r rs ih =>
        intro s w hrevises hsound hstands hrun
        obtain ⟨row, hstands⟩ := hstands
        cases hrun with
        | cons hcall hrest =>
            have hs := hrevises s List.mem_cons_self
            have hr := hrevises r (List.mem_cons_of_mem _ List.mem_cons_self)
            obtain ⟨hsound₁, hstands₁⟩ := standsFor_next hclock hsound hs hr hstands hcall
            refine ih (if Displaces moment r s then r else s) _ (fun r' hr' => ?_) hsound₁ hstands₁
              hrest
            rcases List.mem_cons.1 hr' with heq | hmem
            · rw [heq]
              split
              · exact hr
              · exact hs
            · exact hrevises r' (List.mem_cons_of_mem _ (List.mem_cons_of_mem _ hmem))
  cases h with
  | cons hcall hrun =>
      obtain ⟨hsound₁, hstands₁⟩ :=
        standsFor_first hclock (hrevises first List.mem_cons_self) hcall
      exact hrest rs first _ hrevises hsound₁ hstands₁ hrun

/-! ## What stands in the end -/

omit [Json.PyFloat F] in
/-- Where no revision carries another's anchor, the latest one stands, whatever
the order. -/
theorem standing_of_distinct (moment : Revision F → Int) {first : Revision F}
    {rs : List (Revision F)}
    (hdistinct : (first :: rs).Pairwise fun a b => ¬ a.Carries b.anchor ∧ ¬ b.Carries a.anchor) :
    standing moment first rs ∈ first :: rs ∧
      ∀ r ∈ first :: rs, moment r ≤ moment (standing moment first rs) := by
  induction rs using List.reverseRecOn with
  | nil =>
      refine ⟨List.mem_singleton_self first, fun r hr => ?_⟩
      rw [List.mem_singleton.1 hr]
      exact le_refl _
  | append_singleton rs r ih =>
      rw [← List.cons_append] at hdistinct ⊢
      obtain ⟨hbefore, -, hlast⟩ := List.pairwise_append.1 hdistinct
      obtain ⟨hmem, hle⟩ := ih hbefore
      have hfold : standing moment first (rs ++ [r]) =
          if Displaces moment r (standing moment first rs) then r
          else standing moment first rs := by
        rw [standing, List.foldl_append]
        rfl
      have hnot := (hlast _ hmem r (List.mem_singleton_self r)).1
      rw [hfold]
      by_cases hdisplaces : Displaces moment r (standing moment first rs)
      · rw [if_pos hdisplaces]
        refine ⟨List.mem_append_right _ (List.mem_singleton_self r), fun r' hr' => ?_⟩
        rcases List.mem_append.1 hr' with hr' | hr'
        · exact le_trans (hle r' hr') hdisplaces.2
        · rw [List.mem_singleton.1 hr']
      · rw [if_neg hdisplaces]
        refine ⟨List.mem_append_left _ hmem, fun r' hr' => ?_⟩
        rcases List.mem_append.1 hr' with hr' | hr'
        · exact hle r' hr'
        · rw [List.mem_singleton.1 hr']
          by_contra hlt
          exact hdisplaces ⟨hnot, le_of_lt (not_le.1 hlt)⟩

/-- A call that returned was given its anchor as a cue. -/
theorem anchor_mem_of_arrive {rs : List (Revision F)} {w w' : MemoryWorld F}
    (h : Arrive env rs w w') {r : Revision F} (hr : r ∈ rs) : r.Carries (pyStrip r.anchor) := by
  induction h with
  | nil => cases hr
  | cons hcall _ ih =>
      rcases List.mem_cons.1 hr with heq | hr
      · obtain ⟨_, _, _, _, _, _, _, _, _, _, _, hanchor⟩ := upsertScopedSingleton_ok hcall
        rw [heq]
        exact List.mem_map_of_mem hanchor
      · exact ih hr

/-- Whatever revisions arrived and in whatever order, one card is active in the
end. It carries the anchor of the latest revision if and only if the standing
revision does, which it does if no two revisions share an anchor. -/
theorem revisions_active (env : MemoryEnv F) (hclock : Monotone env.timeNs)
    (moment : Revision F → Int) (family : CardValues F) (first : Revision F)
    (rs : List (Revision F)) (hrevises : ∀ r ∈ first :: rs, Revises env moment family r)
    (hmoments : ((first :: rs).map moment).Nodup) (latest : Revision F)
    (hmem : latest ∈ first :: rs) (hlatest : ∀ r ∈ first :: rs, moment r ≤ moment latest)
    (w' : MemoryWorld F) (hrun : Arrive env (first :: rs) (.start F) w') :
    (∃ row ∈ w'.db.cards, currentStatus env row.id w'.db = .ok "active" ∧
      (∀ other ∈ w'.db.cards, inFamily family other →
        currentStatus env other.id w'.db = .ok "active" → other = row) ∧
      (carriesAnchor (pyStrip latest.anchor) row = .ok true ↔
        (standing moment first rs).Carries (pyStrip latest.anchor))) ∧
    (((first :: rs).Pairwise fun a b => ¬ a.Carries b.anchor ∧ ¬ b.Carries a.anchor) →
      (standing moment first rs).Carries (pyStrip latest.anchor)) := by
  constructor
  · obtain ⟨row, hstands⟩ := standsFor_arrive moment family hclock hrevises hrun
    refine ⟨row, hstands.mem, hstands.active, hstands.only, ?_⟩
    rw [carriesAnchor_of hstands.of, Except.ok.injEq, decide_eq_true_eq]
  · intro hdistinct
    obtain ⟨hstanding, hle⟩ := standing_of_distinct moment hdistinct
    have hsame : standing moment first rs = latest :=
      List.inj_on_of_nodup_map hmoments hstanding hmem
        (le_antisymm (hlatest _ hstanding) (hle latest hmem))
    rw [hsame]
    exact anchor_mem_of_arrive hrun hmem

/-! ## An anchor that is renewed -/

/-- A revision of the editor setting, from one of three days. -/
def revision (value anchor day : String) : Revision Unit :=
  ⟨anchor, setting value anchor "inform" (some day), [evidence "first"]⟩

def dayMoment (r : Revision Unit) : Int := (dates.get? (r.values.validFrom.getD "")).getD 0

/-- Calls with the same evidence all return. -/
theorem arrive_returns {rs : List (Revision Unit)}
    (hvalid : ∀ r ∈ rs, validateCardInput (machine ticking) r.values = .ok () ∧ r.values.Floats ∧
      (pyStrip r.anchor ≠ "" ∧ r.anchor ∈ r.values.cueAnchors) ∧ r.sources = [evidence "first"])
    {w : MemoryWorld Unit} (hhealthy : Healthy (machine ticking) w)
    (hconsistent : Consistent [evidence "first"] w) : ∃ w', Arrive (machine ticking) rs w w' := by
  induction rs generalizing w with
  | nil => exact ⟨w, .nil w⟩
  | cons r rs ih =>
      obtain ⟨hvalues, hfloats, hanchor, hsources⟩ := hvalid r List.mem_cons_self
      obtain ⟨card, w₁, hcall⟩ := upsertScopedSingleton_returns hhealthy (machine_obliging ticking)
        r.anchor hvalues hfloats hanchor (List.cons_ne_nil (evidence "first") []) hconsistent
      obtain ⟨_, _, d, _, -, -, -, hd, hupserted, hrecorded, -⟩ := upsertScopedSingleton_ok hcall
      have hhealthy₁ := hhealthy.extends hd hupserted.admitted
        fun row hrow => ⟨r.values, hfloats, hupserted.made row hrow⟩
      obtain ⟨w', hrest⟩ := ih (fun r' hr' => hvalid r' (List.mem_cons_of_mem _ hr')) hhealthy₁
        (hconsistent.extends hd hrecorded)
      rw [← hsources] at hcall
      exact ⟨w', .cons hcall hrest⟩

def vimFirst : Revision Unit := revision "vim" "modal" "2025-01-01T00:00:00+00:00"

def nanoSecond : Revision Unit := revision "nano" "plain" "2025-01-02T00:00:00+00:00"

def vimThird : Revision Unit := revision "vim" "modal" "2025-01-03T00:00:00+00:00"

theorem editors_valid : ∀ r ∈ [vimFirst, nanoSecond, vimThird],
    validateCardInput (machine ticking) r.values = .ok () ∧ r.values.Floats ∧
      (pyStrip r.anchor ≠ "" ∧ r.anchor ∈ r.values.cueAnchors) ∧ r.sources = [evidence "first"] := by
  intro r hr
  rcases List.mem_cons.1 hr with rfl | hr
  · exact ⟨rfl, setting_floats _ _ _ _, ⟨by decide, List.mem_cons_self⟩, rfl⟩
  rcases List.mem_cons.1 hr with rfl | hr
  · exact ⟨rfl, setting_floats _ _ _ _, ⟨by decide, List.mem_cons_self⟩, rfl⟩
  · rw [List.mem_singleton.1 hr]
    exact ⟨rfl, setting_floats _ _ _ _, ⟨by decide, List.mem_cons_self⟩, rfl⟩

theorem editors_revise : ∀ r ∈ [vimFirst, nanoSecond, vimThird],
    Revises (machine ticking) dayMoment (setting "vim" "modal" "inform" none) r := by
  intro r hr
  rcases List.mem_cons.1 hr with rfl | hr
  · exact ⟨rfl, rfl, rfl, rfl, rfl⟩
  rcases List.mem_cons.1 hr with rfl | hr
  · exact ⟨rfl, rfl, rfl, rfl, rfl⟩
  · rw [List.mem_singleton.1 hr]
    exact ⟨rfl, rfl, rfl, rfl, rfl⟩

theorem editors_arrive {rs : List (Revision Unit)}
    (hrs : ∀ r ∈ rs, r ∈ [vimFirst, nanoSecond, vimThird]) :
    ∃ w', Arrive (machine ticking) rs (.start Unit) w' :=
  arrive_returns (fun r hr => editors_valid r (hrs r hr)) (consistent_start ticking).2
    (consistent_start ticking).1

/-- Two revisions, the newer one first. -/
theorem revisions_active_sample :
    ∃ w', Arrive (machine ticking) [nanoSecond, vimFirst] (.start Unit) w' ∧
      ∃ row ∈ w'.db.cards, currentStatus (machine ticking) row.id w'.db = .ok "active" ∧
        carriesAnchor (pyStrip "plain") row = .ok true := by
  have hrs : ∀ r ∈ [nanoSecond, vimFirst], r ∈ [vimFirst, nanoSecond, vimThird] := by simp
  obtain ⟨w', hrun⟩ := editors_arrive hrs
  obtain ⟨⟨row, hrow, hactive, -, hcarries⟩, hdistinct⟩ := revisions_active (machine ticking)
    ticking_monotone dayMoment (setting "vim" "modal" "inform" none) nanoSecond [vimFirst]
    (fun r hr => editors_revise r (hrs r hr)) (by decide) nanoSecond List.mem_cons_self (by decide)
    w' hrun
  exact ⟨w', hrun, row, hrow, hactive, hcarries.2 (hdistinct (by decide))⟩

/-- The third arrival is older than the second, and displaces it. -/
theorem renewed_revision_displaced :
    ∃ w', Arrive (machine ticking) [vimFirst, vimThird, nanoSecond] (.start Unit) w' ∧
      ¬ ∃ row ∈ w'.db.cards, inFamily (setting "vim" "modal" "inform" none) row ∧
        currentStatus (machine ticking) row.id w'.db = .ok "active" ∧
        carriesAnchor (pyStrip "modal") row = .ok true := by
  have hrs : ∀ r ∈ [vimFirst, vimThird, nanoSecond], r ∈ [vimFirst, nanoSecond, vimThird] := by
    simp
  obtain ⟨w', hrun⟩ := editors_arrive hrs
  obtain ⟨row, hstands⟩ := standsFor_arrive dayMoment
    (setting "vim" "modal" "inform" none) ticking_monotone (fun r hr => editors_revise r (hrs r hr)) hrun
  refine ⟨w', hrun, ?_⟩
  rintro ⟨other, hother, hin, hactive, hcarries⟩
  rw [hstands.only other hother hin hactive, carriesAnchor_of hstands.of] at hcarries
  injection hcarries with hcarries
  exact absurd (of_decide_eq_true hcarries) (by decide)

end MemoryStore

end MiniCodeAgent
