import MiniCodeAgent.Proofs.MemoryProgress

/-!
# Authority along a derivation

A card is accepted with an authority its origin allows, and neither ever
changes. A `derived_from` edge is checked where `add_card` makes it: the new
card's authority is at most that of every card it names. `add_edge` makes the
same kind of edge between cards that exist already and compares nothing, so
what it may do is up to its callers: a run keeps authority from rising along
derivations exactly as far as its `add_edge` calls do.
-/

namespace MiniCodeAgent

namespace MemoryStore

variable {F : Type} [Json.PyFloat F] {env : MemoryEnv F}

/-- No card has more authority than a card it is derived from. -/
def DerivationsBounded (db : Database F) : Prop :=
  ∀ edge ∈ db.edges, edge.relation = "derived_from" → ∀ a ∈ db.cards, a.id = edge.sourceId →
    ∀ b ∈ db.cards, b.id = edge.targetId → AuthorityLE a.authority b.authority

/-- A `derived_from` edge is only asked for where it does not raise authority. -/
def RespectsAuthority (w : MemoryWorld F) (op : Operation F) : Prop :=
  ∀ sourceId targetId, op = .addEdge sourceId targetId "derived_from" →
    ∀ a ∈ w.db.cards, a.id = sourceId → ∀ b ∈ w.db.cards, b.id = targetId →
      AuthorityLE a.authority b.authority

omit [Json.PyFloat F] in
theorem link_mem {edges : List EdgeRow} {links : List (String × String × String)}
    (h : edges.map EdgeRow.link = links) {edge : EdgeRow} (hedge : edge ∈ edges) :
    (edge.sourceId, edge.targetId, edge.relation) ∈ links := by
  rw [← h]
  exact List.mem_map_of_mem (f := EdgeRow.link) hedge

omit [Json.PyFloat F] in
theorem not_derived_of_supersedes {edges : List EdgeRow} {winner : String} (olds : List String)
    (h : edges.map EdgeRow.link = olds.map fun old => (winner, old, "supersedes"))
    {edge : EdgeRow} (hedge : edge ∈ edges) : edge.relation ≠ "derived_from" := by
  obtain ⟨old, -, heq⟩ := List.mem_map.1 (link_mem h hedge)
  have hrelation : "supersedes" = edge.relation := congrArg (fun link => link.2.2) heq
  rw [← hrelation]
  decide

/-- The derivations a call that returned added. -/
theorem operate_derivations {op : Operation F} {w w' : MemoryWorld F} {u : Unit}
    (hsound : Sound env w) (hop : RespectsAuthority w op) (h : operate env op w = (.ok u, w')) :
    ∃ d, Extends env w d w' ∧ d.Admitted ∧ ∀ edge ∈ d.edges, edge.relation = "derived_from" →
      ∀ a ∈ w'.db.cards, a.id = edge.sourceId → ∀ b ∈ w'.db.cards, b.id = edge.targetId →
        AuthorityLE a.authority b.authority := by
  cases op with
  | addCard values sources derivedFrom =>
      obtain ⟨card, h⟩ := dropValue_ok.1 h
      obtain ⟨d, row, hd, hadmitted, hcards, -, hof, -, -, -, hlinks, htargets, -⟩ := addCard_ok h
      refine ⟨d, hd, hadmitted, fun edge hedge _ a ha haid b hb hbid => ?_⟩
      have hunique := hd.unique hsound.unique
      obtain ⟨target, htarget, heq⟩ := List.mem_map.1 (link_mem hlinks hedge)
      have hsourceId : row.id = edge.sourceId := congrArg Prod.fst heq
      have htargetId : target = edge.targetId := congrArg (fun link => link.2.1) heq
      obtain ⟨other, hother, hotherId, hle⟩ := htargets target htarget
      have hrow : row ∈ w'.db.cards := by
        rw [hd.cards, hcards]
        exact List.mem_append_right _ (List.mem_singleton_self row)
      have hauthority : row.authority = values.authority := by
        obtain ⟨-, cardId, recordedAtNs, rfl⟩ := hof
        rfl
      have hother : other ∈ w'.db.cards := by
        rw [hd.cards]
        exact List.mem_append_left _ hother
      rw [eq_of_same_id hunique ha hrow (haid.trans hsourceId.symm),
        eq_of_same_id hunique hb hother (hbid.trans (htargetId.symm.trans hotherId.symm)),
        hauthority]
      exact hle
  | addCardOnceForSource source values =>
      obtain ⟨card, h⟩ := dropValue_ok.1 h
      obtain ⟨d, hd, hadmitted, hadded⟩ := addCardOnceForSource_ok h
      refine ⟨d, hd, hadmitted, fun edge hedge => ?_⟩
      rcases hadded with ⟨rfl, -⟩ | ⟨row, event, sourceRow, rfl, -⟩
      · cases hedge
      · cases hedge
  | upsertScopedSingleton anchor values sources =>
      obtain ⟨card, h⟩ := dropValue_ok.1 h
      obtain ⟨_, _, d, _, _, _, _, hd, hupserted, _⟩ := upsertScopedSingleton_ok h
      obtain ⟨retired, -, hlinks, -⟩ := hupserted.retired
      exact ⟨d, hd, hupserted.admitted, fun edge hedge hrelation =>
        absurd hrelation (not_derived_of_supersedes _ hlinks hedge)⟩
  | supersede oldCardId values sources =>
      obtain ⟨card, h⟩ := dropValue_ok.1 h
      obtain ⟨d, row, hd, hadmitted, -, -, -, -, -, -, hlinks, -⟩ := supersede_ok h
      exact ⟨d, hd, hadmitted, fun edge hedge hrelation =>
        absurd hrelation (not_derived_of_supersedes [oldCardId] hlinks hedge)⟩
  | transition cardId status related =>
      obtain ⟨event, hd, -⟩ := transition_ok h
      exact ⟨_, hd, admitted_of_noCards rfl, fun edge hedge => absurd hedge List.not_mem_nil⟩
  | addEdge sourceId targetId relation =>
      obtain ⟨made, h⟩ := dropValue_ok.1 h
      obtain ⟨row, hlink, hd⟩ := addEdge_ok h
      refine ⟨_, hd, admitted_of_noCards rfl, fun edge hedge hrelation a ha haid b hb hbid => ?_⟩
      have hcards : w'.db.cards = w.db.cards := by
        rw [hd.cards]
        exact List.append_nil _
      rw [List.mem_singleton.1 hedge] at hrelation haid hbid
      have hsourceId : row.sourceId = sourceId := congrArg Prod.fst hlink
      have htargetId : row.targetId = targetId := congrArg (fun link => link.2.1) hlink
      have hrel : row.relation = relation := congrArg (fun link => link.2.2) hlink
      rw [hcards] at ha hb
      exact hop sourceId targetId (by rw [← hrelation, hrel]) a ha (haid.trans hsourceId) b hb
        (hbid.trans htargetId)
  | addSource cardId source =>
      obtain ⟨made, h⟩ := dropValue_ok.1 h
      obtain ⟨d, hd, hcards, hedges, -⟩ := addSource_ok h
      refine ⟨d, hd, admitted_of_noCards hcards, fun edge hedge => ?_⟩
      rw [hedges] at hedge
      cases hedge
  | recordMemoryDecision =>
      exact ⟨.none, recordMemoryDecision_ok h, admitted_of_noCards rfl,
        fun edge hedge => absurd hedge List.not_mem_nil⟩
  | recordMemoryOutcome =>
      exact ⟨.none, recordMemoryOutcome_ok h, admitted_of_noCards rfl,
        fun edge hedge => absurd hedge List.not_mem_nil⟩

/-- Cards do not change, so old derivations stay bounded as long as the new
ones are. -/
theorem DerivationsBounded.extends {w w' : MemoryWorld F} {d : Delta F} (hsound : Sound env w)
    (hd : Extends env w d w') (h : DerivationsBounded w.db)
    (hnew : ∀ edge ∈ d.edges, edge.relation = "derived_from" →
      ∀ a ∈ w'.db.cards, a.id = edge.sourceId → ∀ b ∈ w'.db.cards, b.id = edge.targetId →
        AuthorityLE a.authority b.authority) : DerivationsBounded w'.db := by
  intro edge hedge hrelation a ha haid b hb hbid
  have hunique := hd.unique hsound.unique
  have hknown : ∀ cardId ∈ w.db.cards.map CardRow.id, ∀ c ∈ w'.db.cards, c.id = cardId →
      c ∈ w.db.cards := by
    intro cardId hmem c hc hcid
    obtain ⟨old, hold, holdId⟩ := List.mem_map.1 hmem
    have hold' : old ∈ w'.db.cards := by
      rw [hd.cards]
      exact List.mem_append_left _ hold
    rw [eq_of_same_id hunique hc hold' (hcid.trans holdId.symm)]
    exact hold
  rw [hd.edges] at hedge
  rcases List.mem_append.1 hedge with hedge | hedge
  · obtain ⟨hsource, htarget⟩ := hsound.linked edge hedge
    exact h edge hedge hrelation a (hknown _ hsource a ha haid) haid b
      (hknown _ htarget b hb hbid) hbid
  · exact hnew edge hedge hrelation a ha haid b hb hbid

theorem derivationsBounded_perform {op : Operation F} {w : MemoryWorld F} (hsound : Sound env w)
    (hop : RespectsAuthority w op) (h : DerivationsBounded w.db) :
    DerivationsBounded (perform env op w).db := by
  unfold perform
  cases hrun : operate env op w with
  | mk r w' =>
      cases r with
      | ok u =>
          obtain ⟨d, hd, -, hnew⟩ := operate_derivations hsound hop hrun
          exact DerivationsBounded.extends hsound hd h hnew
      | error e =>
          exact DerivationsBounded.extends hsound (operate_error hrun) h
            fun edge hedge => absurd hedge List.not_mem_nil

/-- Every card has an authority its origin allows, in every run; and authority
does not rise along derivations in any run whose `add_edge` calls respect it. -/
theorem authority_bounded (env : MemoryEnv F) :
    (∀ w, Reached env anyStep w → ∀ row ∈ w.db.cards, row.Authorized) ∧
      ∀ w, Reached env RespectsAuthority w → DerivationsBounded w.db := by
  refine ⟨fun w hw => (sound_of_reached hw).authorized, fun w hw => ?_⟩
  induction hw with
  | start => exact fun edge hedge => absurd hedge List.not_mem_nil
  | step hw op hop ih => exact derivationsBounded_perform (sound_of_reached hw) hop ih

/-! ## An edge nobody checks -/

/-- `add_edge` derives a card from another, whatever their authorities. -/
theorem addEdge_derives {w : MemoryWorld Unit} (h : Healthy (machine ticking) w)
    {a b : CardRow Unit} (ha : a ∈ w.db.cards) (hb : b ∈ w.db.cards) :
    ∃ edge ∈ (perform (machine ticking) (.addEdge a.id b.id "derived_from") w).db.edges,
      edge.relation = "derived_from" ∧ edge.sourceId = a.id ∧ edge.targetId = b.id ∧
      (perform (machine ticking) (.addEdge a.id b.id "derived_from") w).db.cards = w.db.cards := by
  obtain ⟨made, w', hrun⟩ := addEdge_returns h (machine_obliging ticking)
    "derived_from" (by decide) ha hb
  obtain ⟨edge, hlink, hd⟩ := addEdge_ok hrun
  rw [perform_dropValue rfl hrun]
  refine ⟨edge, ?_, congrArg (fun link => link.2.2) hlink, congrArg Prod.fst hlink,
    congrArg (fun link => link.2.1) hlink, ?_⟩
  · rw [hd.edges]
    exact List.mem_append_right _ (List.mem_singleton_self edge)
  · rw [hd.cards]
    exact List.append_nil _

theorem authority_bounded_sample :
    ∃ w, Reached (machine ticking) RespectsAuthority w ∧
      (∃ edge ∈ w.db.edges, edge.relation = "derived_from") ∧
      (∀ row ∈ w.db.cards, row.Authorized) ∧ DerivationsBounded w.db := by
  obtain ⟨w, a, b, hreached, hhealthy, -, ha, hb, hauthority, hauthority'⟩ :=
    two_cards RespectsAuthority "none" "inform"
      (fun w values sources sourceId targetId hop => nomatch hop) rfl rfl
  obtain ⟨edge, hedge, hrelation, -, -, -⟩ := addEdge_derives hhealthy ha hb
  have hunique := hhealthy.sound.unique
  have hstep : RespectsAuthority w (.addEdge a.id b.id "derived_from") := by
    intro sourceId targetId hop c hc hcid c' hc' hcid'
    cases hop
    rw [eq_of_same_id hunique hc ha hcid, eq_of_same_id hunique hc' hb hcid', hauthority,
      hauthority']
    exact ⟨0, 1, rfl, rfl, by decide⟩
  have hreached' := hreached.step _ hstep
  exact ⟨_, hreached', ⟨edge, hedge, hrelation⟩,
    (authority_bounded (machine ticking)).1 _ hreached'.any,
    (authority_bounded (machine ticking)).2 _ hreached'⟩

/-- A card of no authority and, derived from it through `add_edge`, one that may
act. -/
theorem derivations_unbounded :
    ¬ ∀ w, Reached (machine ticking) anyStep w → DerivationsBounded w.db := by
  intro hall
  obtain ⟨w, a, b, hreached, hhealthy, -, ha, hb, hauthority, hauthority'⟩ :=
    two_cards anyStep "act" "none"
      (fun _ _ _ => trivial) rfl rfl
  obtain ⟨edge, hedge, hrelation, hsource, htarget, hcards⟩ := addEdge_derives hhealthy ha hb
  have hbounded := hall _ (hreached.step (.addEdge a.id b.id "derived_from") trivial) edge hedge
    hrelation a (by rw [hcards]; exact ha) hsource.symm b (by rw [hcards]; exact hb) htarget.symm
  obtain ⟨ra, rb, hra, hrb, hle⟩ := hbounded
  rw [hauthority] at hra
  rw [hauthority'] at hrb
  cases hra
  cases hrb
  exact absurd hle (by decide)

end MemoryStore

end MiniCodeAgent
