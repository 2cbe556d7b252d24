import MiniCodeAgent.Proofs.MemoryProgress

/-!
# Evidence keeps its provenance

A card's evidence may be cited again, and then it has to be the same evidence:
`_add_source_in_connection` compares a source with the card's row of that type
and reference. A new card's own sources go through `_insert_source` instead,
which compares nothing, so `add_card` and `supersede` accept two sources of one
reference that differ. Every other way to a source row keeps the rows agreeing,
and so do these two exactly when the list they are given agrees with itself.
-/

namespace MiniCodeAgent

namespace MemoryStore

variable {F : Type}

/-! ## Agreement -/

/-- Two rows of one card and one reference have one digest and one origin. -/
def SourceRow.Agrees (a b : SourceRow) : Prop :=
  a.cardId = b.cardId → a.sourceType = b.sourceType → a.sourceRef = b.sourceRef →
    a.sourceSha256 = b.sourceSha256 ∧ a.origin = b.origin

instance (a b : SourceRow) : Decidable (a.Agrees b) :=
  inferInstanceAs (Decidable (_ → _))

/-- No card has two sources of one type and reference that differ. -/
def ProvenanceConsistent (rows : List SourceRow) : Prop := ∀ a ∈ rows, ∀ b ∈ rows, a.Agrees b

/-- A list of evidence that agrees with itself; digests are compared in lower case. -/
def Coherent (sources : List EvidenceSource) : Prop :=
  ∀ a ∈ sources, ∀ b ∈ sources, a.sourceType = b.sourceType → a.sourceRef = b.sourceRef →
    pyLower a.sourceSha256 = pyLower b.sourceSha256 ∧ a.origin = b.origin

/-- The evidence for a new card, which nothing compares, is coherent. -/
def Operation.CoherentEvidence : Operation F → Prop
  | .addCard _ sources _ => Coherent sources
  | .supersede _ _ sources => Coherent sources
  | _ => True

/-- What the tables hold: sources of known cards, and no two that differ. -/
structure Traceable (db : Database F) : Prop where
  rooted : ∀ row ∈ db.sources, row.cardId ∈ db.cards.map CardRow.id
  consistent : ProvenanceConsistent db.sources

theorem SourceRow.Agrees.symm {a b : SourceRow} (h : a.Agrees b) : b.Agrees a := by
  intro hcard htype href
  obtain ⟨hsha, horigin⟩ := h hcard.symm htype.symm href.symm
  exact ⟨hsha.symm, horigin.symm⟩

theorem agrees_of_card_ne {a b : SourceRow} (h : a.cardId ≠ b.cardId) : a.Agrees b :=
  fun hcard => absurd hcard h

theorem provenanceConsistent_append {old new : List SourceRow} :
    ProvenanceConsistent (old ++ new) ↔ ProvenanceConsistent old ∧ ProvenanceConsistent new ∧
      ∀ a ∈ old, ∀ b ∈ new, a.Agrees b := by
  constructor
  · intro h
    refine ⟨fun a ha b hb => ?_, fun a ha b hb => ?_, fun a ha b hb => ?_⟩
    · exact h a (List.mem_append_left _ ha) b (List.mem_append_left _ hb)
    · exact h a (List.mem_append_right _ ha) b (List.mem_append_right _ hb)
    · exact h a (List.mem_append_left _ ha) b (List.mem_append_right _ hb)
  · rintro ⟨hold, hnew, hcross⟩ a ha b hb
    rcases List.mem_append.1 ha with ha | ha
    · rcases List.mem_append.1 hb with hb | hb
      · exact hold a ha b hb
      · exact hcross a ha b hb
    · rcases List.mem_append.1 hb with hb | hb
      · exact (hcross b hb a ha).symm
      · exact hnew a ha b hb

/-- The rows of one card's evidence agree when the evidence does. -/
theorem consistent_of_records {cardId : String} {sources : List EvidenceSource}
    {rows : List SourceRow} (h : rows.map SourceRow.record = sources.map (recordOf cardId)) :
    ProvenanceConsistent rows ↔ Coherent sources := by
  constructor
  · intro hrows a ha b hb htype href
    have hrow : ∀ source ∈ sources, ∃ row ∈ rows, row.record = recordOf cardId source := by
      intro source hsource
      have hmem := List.mem_map_of_mem (f := recordOf cardId) hsource
      rw [← h] at hmem
      exact List.mem_map.1 hmem
    obtain ⟨ra, hra, hrecordA⟩ := hrow a ha
    obtain ⟨rb, hrb, hrecordB⟩ := hrow b hb
    simp only [SourceRow.record, recordOf, Prod.mk.injEq] at hrecordA hrecordB
    obtain ⟨hcardA, htypeA, hrefA, hshaA, horiginA⟩ := hrecordA
    obtain ⟨hcardB, htypeB, hrefB, hshaB, horiginB⟩ := hrecordB
    rw [← hshaA, ← hshaB, ← horiginA, ← horiginB]
    exact hrows ra hra rb hrb (by rw [hcardA, hcardB]) (by rw [htypeA, htypeB, htype])
      (by rw [hrefA, hrefB, href])
  · intro hcoherent a ha b hb _ htype href
    have hsource : ∀ row ∈ rows, ∃ source ∈ sources, recordOf cardId source = row.record := by
      intro row hrow
      have hmem := List.mem_map_of_mem (f := SourceRow.record) hrow
      rw [h] at hmem
      exact List.mem_map.1 hmem
    obtain ⟨sa, hsa, hrecordA⟩ := hsource a ha
    obtain ⟨sb, hsb, hrecordB⟩ := hsource b hb
    simp only [SourceRow.record, recordOf, Prod.mk.injEq] at hrecordA hrecordB
    obtain ⟨-, htypeA, hrefA, hshaA, horiginA⟩ := hrecordA
    obtain ⟨-, htypeB, hrefB, hshaB, horiginB⟩ := hrecordB
    rw [← hshaA, ← hshaB, ← horiginA, ← horiginB]
    exact hcoherent sa hsa sb hsb (by rw [htypeA, htypeB, htype]) (by rw [hrefA, hrefB, href])

/-! ## A new card -/

variable [Json.PyFloat F] {env : MemoryEnv F}

theorem Extends.cards_subset {w w' : MemoryWorld F} {d : Delta F} (hd : Extends env w d w') :
    w.db.cards.map CardRow.id ⊆ w'.db.cards.map CardRow.id := by
  rw [hd.cards, List.map_append]
  exact List.subset_append_left _ _

theorem Traceable.of_noSources {w w' : MemoryWorld F} {d : Delta F} (h : Traceable w.db)
    (hd : Extends env w d w') (hsources : d.sources = []) : Traceable w'.db := by
  have hsame : w'.db.sources = w.db.sources := by
    rw [hd.sources, hsources, List.append_nil]
  refine ⟨fun row hrow => ?_, ?_⟩
  · rw [hsame] at hrow
    exact hd.cards_subset (h.rooted row hrow)
  · rw [hsame]
    exact h.consistent

/-- A new card's sources leave the tables consistent exactly when they are
coherent: no row there is about this card yet. -/
theorem traceable_newCard {w w' : MemoryWorld F} {d : Delta F} {row : CardRow F}
    {sources : List EvidenceSource} (h : Traceable w.db) (hd : Extends env w d w')
    (hcards : d.cards = [row]) (hfresh : row.id ∉ w.db.cards.map CardRow.id)
    (hrecords : d.sources.map SourceRow.record = sources.map (recordOf row.id)) :
    (∀ source ∈ w'.db.sources, source.cardId ∈ w'.db.cards.map CardRow.id) ∧
      (ProvenanceConsistent w'.db.sources ↔ Coherent sources) := by
  have hcard : ∀ source ∈ d.sources, source.cardId = row.id := by
    intro source hsource
    have hmem := List.mem_map_of_mem (f := SourceRow.record) hsource
    rw [hrecords] at hmem
    obtain ⟨given, -, hgiven⟩ := List.mem_map.1 hmem
    exact (congrArg Prod.fst hgiven).symm
  have hcross : ∀ a ∈ w.db.sources, ∀ b ∈ d.sources, a.Agrees b := by
    intro a ha b hb
    refine agrees_of_card_ne fun heq => hfresh ?_
    rw [← hcard b hb, ← heq]
    exact h.rooted a ha
  constructor
  · intro source hsource
    rw [hd.sources] at hsource
    rcases List.mem_append.1 hsource with hsource | hsource
    · exact hd.cards_subset (h.rooted source hsource)
    · rw [hcard source hsource, hd.cards, hcards, List.map_append]
      exact List.mem_append_right _ (List.mem_singleton_self _)
  · rw [hd.sources, provenanceConsistent_append, ← consistent_of_records hrecords]
    exact ⟨fun hall => hall.2.1, fun hnew => ⟨h.consistent, hnew, hcross⟩⟩

/-! ## Evidence for a card that is there -/

/-- Evidence that is recorded was not there before, or the row there agrees with it. -/
theorem traceable_addSource {cardId : String} {source made : EvidenceSource}
    {w w' : MemoryWorld F} (h : Traceable w.db)
    (hadd : addSourceInConnection env cardId source w = (.ok made, w')) : Traceable w'.db := by
  unfold addSourceInConnection at hadd
  rw [Txn.bind_ok] at hadd
  obtain ⟨card, w₁, hselect, hadd⟩ := hadd
  obtain ⟨hcard, rfl⟩ := select_ok.1 hselect
  obtain ⟨hmem, hid, -⟩ := requireAuthenticatedCard_ok hcard
  rw [Txn.bind_ok] at hadd
  obtain ⟨rows, w₂, hquery, hadd⟩ := hadd
  obtain ⟨hrows, rfl⟩ := Txn.query_ok.1 hquery
  cases rows with
  | cons found rows =>
      obtain ⟨-, rfl⟩ := Txn.lift_ok.1 hadd
      exact h
  | nil =>
      have hext := (insertSource_ok hadd).2
      have hnone : ∀ row ∈ w₂.db.sources, ¬ (row.cardId = cardId ∧
          row.sourceType = source.sourceType ∧ row.sourceRef = source.sourceRef) := by
        intro row hrow hmatch
        have hfound : row ∈ oldestFirst (w₂.db.sources.filter fun row => row.cardId = cardId ∧
            row.sourceType = source.sourceType ∧ row.sourceRef = source.sourceRef) :=
          (List.perm_insertionSort _ _).mem_iff.2
            (List.mem_filter.2 ⟨hrow, decide_eq_true hmatch⟩)
        rw [← hrows] at hfound
        cases hfound
      refine ⟨fun row hrow => ?_, ?_⟩
      · rw [hext.sources] at hrow
        rcases List.mem_append.1 hrow with hrow | hrow
        · exact hext.cards_subset (h.rooted row hrow)
        · rw [List.mem_singleton.1 hrow]
          exact hext.cards_subset (List.mem_map.2 ⟨card, hmem, hid⟩)
      · rw [hext.sources, provenanceConsistent_append]
        refine ⟨h.consistent, fun a ha b hb => ?_, fun a ha b hb => ?_⟩
        · rw [List.mem_singleton.1 ha, List.mem_singleton.1 hb]
          exact fun _ _ _ => ⟨rfl, rfl⟩
        · rw [List.mem_singleton.1 hb]
          exact fun hcardId htype href => absurd ⟨hcardId, htype, href⟩ (hnone a ha)

omit [Json.PyFloat F] in
theorem insertInto_error {violated : Database F → Option String} {add : Database F → Database F}
    {e : PyExc} {w w' : MemoryWorld F} (h : insertInto violated add w = (.error e, w')) :
    w' = w := by
  rcases Txn.bind_error.1 h with hraised | ⟨_, _, _, hraised⟩
  · exact (congrArg Prod.snd hraised).symm
  · cases hraised

/-- Evidence that is not recorded leaves the tables alone. -/
theorem insertSource_error {cardId : String} {source : EvidenceSource} {e : PyExc}
    {w w' : MemoryWorld F} (h : insertSource env cardId source w = (.error e, w')) :
    w'.db = w.db := by
  unfold insertSource at h
  rcases Txn.bind_error.1 h with hraised | ⟨_, w₁, hlift, hrest⟩
  · rw [← show w = w' from congrArg Prod.snd hraised]
  · obtain ⟨-, rfl⟩ := Txn.lift_ok.1 hlift
    rcases Txn.bind_error.1 hrest with hraised | ⟨_, w₂, huuid, hdrawn⟩
    · cases hraised
    · obtain ⟨-, rfl⟩ := uuid4_ok.1 huuid
      rcases Txn.bind_error.1 hdrawn with hraised | ⟨_, w₃, htime, hinsert⟩
      · cases hraised
      · obtain ⟨-, rfl⟩ := timeNs_ok.1 htime
        rcases Txn.bind_error.1 hinsert with hraised | ⟨_, w₄, -, hraised⟩
        · rw [insertInto_error hraised]
        · cases hraised

theorem addSourceInConnection_error {cardId : String} {source : EvidenceSource} {e : PyExc}
    {w w' : MemoryWorld F} (h : addSourceInConnection env cardId source w = (.error e, w')) :
    w'.db = w.db := by
  unfold addSourceInConnection at h
  rcases Txn.bind_error.1 h with hraised | ⟨_, w₁, hselect, hrest⟩
  · rw [← show w = w' from congrArg Prod.snd hraised]
  · obtain ⟨-, rfl⟩ := select_ok.1 hselect
    rcases Txn.bind_error.1 hrest with hraised | ⟨rows, w₂, hquery, hnext⟩
    · cases hraised
    · obtain ⟨-, rfl⟩ := Txn.query_ok.1 hquery
      cases rows with
      | nil => exact insertSource_error hnext
      | cons row rows => rw [← show w₂ = w' from congrArg Prod.snd hnext]

/-! ## Singletons -/

/-- No source comes or goes, and no card goes. -/
def SourcesStay (w w' : MemoryWorld F) : Prop :=
  w'.db.sources = w.db.sources ∧ w.db.cards.map CardRow.id ⊆ w'.db.cards.map CardRow.id

/-- The tables stay traceable. -/
def StaysTraceable (w w' : MemoryWorld F) : Prop := Traceable w.db → Traceable w'.db

omit [Json.PyFloat F] in
theorem sourcesStay_refl (w : MemoryWorld F) : SourcesStay w w := ⟨rfl, List.Subset.refl _⟩

omit [Json.PyFloat F] in
theorem sourcesStay_trans (a b c : MemoryWorld F) (h : SourcesStay a b) (h' : SourcesStay b c) :
    SourcesStay a c := ⟨h'.1.trans h.1, List.Subset.trans h.2 h'.2⟩

omit [Json.PyFloat F] in
theorem SourcesStay.traceable {w w' : MemoryWorld F} (h : SourcesStay w w') :
    StaysTraceable w w' := by
  intro htrace
  refine ⟨fun row hrow => ?_, ?_⟩
  · rw [h.1] at hrow
    exact h.2 (htrace.rooted row hrow)
  · rw [h.1]
    exact htrace.consistent

section Stay

omit [Json.PyFloat F] in
theorem sourcesStay_lift {α : Type} (x : Except PyExc α) :
    Txn.Keeps SourcesStay (Txn.lift x : Tx F α) :=
  Txn.keeps_same sourcesStay_refl fun _ => rfl

omit [Json.PyFloat F] in
theorem sourcesStay_select {α : Type} (f : Database F → Except PyExc α) :
    Txn.Keeps SourcesStay (select f : Tx F α) :=
  Txn.keeps_same sourcesStay_refl fun _ => rfl

omit [Json.PyFloat F] in
theorem sourcesStay_insertInto (violated : Database F → Option String)
    {add : Database F → Database F} (hsources : ∀ db, (add db).sources = db.sources)
    (hcards : ∀ db, db.cards.map CardRow.id ⊆ (add db).cards.map CardRow.id) :
    Txn.Keeps SourcesStay (insertInto violated add) :=
  Txn.Keeps.bind sourcesStay_trans (sourcesStay_select _) fun _ w =>
    ⟨hsources w.db, hcards w.db⟩

variable (env)

omit [Json.PyFloat F] in
theorem sourcesStay_drawn {α : Type} {x : String → Int → Tx F α}
    (hx : ∀ id stamp, Txn.Keeps SourcesStay (x id stamp)) :
    Txn.Keeps SourcesStay (do
      let id ← uuid4 env
      let recordedAtNs ← timeNs env
      x id recordedAtNs) :=
  Txn.Keeps.bind sourcesStay_trans (fun w => sourcesStay_refl w) fun _ =>
    Txn.Keeps.bind sourcesStay_trans (fun w => sourcesStay_refl w) fun _ => hx _ _

theorem sourcesStay_insertEvent (cardId eventType : String) (related : Option String) :
    Txn.Keeps SourcesStay (insertEvent env cardId eventType related) :=
  Txn.Keeps.bind sourcesStay_trans (sourcesStay_lift _) fun _ => sourcesStay_drawn env fun _ _ =>
    sourcesStay_insertInto _ (fun _ => rfl) fun _ => List.Subset.refl _

theorem sourcesStay_insertCard (values : CardValues F) :
    Txn.Keeps SourcesStay (insertCard env values) := by
  refine sourcesStay_drawn env fun cardId recordedAtNs => ?_
  refine Txn.Keeps.bind sourcesStay_trans (sourcesStay_insertInto _ (fun _ => rfl) fun db => ?_)
    fun _ => Txn.Keeps.bind sourcesStay_trans (sourcesStay_insertEvent env _ _ _) fun _ =>
      Txn.Keeps.bind sourcesStay_trans (sourcesStay_select _) fun ftsEnabled => ?_
  · rw [List.map_append]
    exact List.subset_append_left _ _
  · refine Txn.Keeps.bind sourcesStay_trans ?_ fun _ =>
      Txn.Keeps.bind sourcesStay_trans (sourcesStay_select _) fun _ => sourcesStay_lift _
    unfold indexCard
    split
    · exact fun w => sourcesStay_refl w
    · exact fun w => sourcesStay_refl w

theorem sourcesStay_retire (winner old : String) :
    Txn.Keeps SourcesStay (retire env winner old) := by
  refine Txn.Keeps.bind sourcesStay_trans ?_ fun _ => sourcesStay_insertEvent env _ _ _
  refine Txn.Keeps.bind sourcesStay_trans (sourcesStay_lift _) fun _ =>
    Txn.Keeps.bind sourcesStay_trans (sourcesStay_select _) fun _ =>
      Txn.Keeps.bind sourcesStay_trans (sourcesStay_select _) fun _ =>
        sourcesStay_drawn env fun _ _ => Txn.Keeps.bind sourcesStay_trans ?_ fun _ w =>
          sourcesStay_refl w
  exact sourcesStay_insertInto _ (fun _ => rfl) fun _ => List.Subset.refl _

theorem staysTraceable_addSources (cardId : String) (sources : List EvidenceSource) :
    Txn.Keeps StaysTraceable (addSources env cardId sources) := by
  have htrans : ∀ a b c : MemoryWorld F, StaysTraceable a b → StaysTraceable b c →
      StaysTraceable a c := fun _ _ _ h h' htrace => h' (h htrace)
  refine Txn.Keeps.forM (fun _ => id) htrans (fun source => ?_) sources
  refine Txn.Keeps.bind htrans (fun w htrace => ?_) fun _ _ => id
  cases hadd : addSourceInConnection env cardId source w with
  | mk r w' =>
      cases r with
      | ok made => exact traceable_addSource htrace hadd
      | error e =>
          have hsame := addSourceInConnection_error hadd
          show Traceable w'.db
          rw [hsame]
          exact htrace

theorem staysTraceable_decideSingleton (anchor : String) (family : List (FamilyMember F))
    (values : CardValues F) (sources : List EvidenceSource) :
    Txn.Keeps StaysTraceable (decideSingleton env anchor family values sources) :=
  keeps_decideSingleton (fun _ => id) (fun _ _ _ h h' htrace => h' (h htrace))
    (fun values w => (sourcesStay_insertCard env values w).traceable)
    (staysTraceable_addSources env)
    (fun winner old w => (sourcesStay_retire env winner old w).traceable) anchor family values
    sources

end Stay

/-! ## Operations -/

theorem coherent_singleton (source : EvidenceSource) : Coherent [source] := by
  intro a ha b hb _ _
  rw [List.mem_singleton.1 ha, List.mem_singleton.1 hb]
  exact ⟨rfl, rfl⟩

/-- An operation that returned left the tables consistent exactly when what it
was given for a new card is coherent. -/
theorem operate_provenance {op : Operation F} {u : Unit} {w w' : MemoryWorld F}
    (h : Traceable w.db) (hrun : operate env op w = (.ok u, w')) :
    (∀ row ∈ w'.db.sources, row.cardId ∈ w'.db.cards.map CardRow.id) ∧
      (ProvenanceConsistent w'.db.sources ↔ op.CoherentEvidence) := by
  have hkept : Traceable w'.db → op.CoherentEvidence →
      (∀ row ∈ w'.db.sources, row.cardId ∈ w'.db.cards.map CardRow.id) ∧
        (ProvenanceConsistent w'.db.sources ↔ op.CoherentEvidence) :=
    fun htrace hop => ⟨htrace.rooted, fun _ => hop, fun _ => htrace.consistent⟩
  cases op with
  | addCard values sources derivedFrom =>
      obtain ⟨card, hadd⟩ := dropValue_ok.1 hrun
      obtain ⟨d, row, hd, -, hcards, -, -, hfresh, -, -, -, -, hrecords⟩ := addCard_ok hadd
      exact traceable_newCard h hd hcards hfresh hrecords
  | addCardOnceForSource source values =>
      obtain ⟨card, hadd⟩ := dropValue_ok.1 hrun
      obtain ⟨d, hd, -, hadded⟩ := addCardOnceForSource_ok hadd
      rcases hadded with ⟨rfl, -⟩ | ⟨row, event, sourceRow, rfl, hid, -, hfresh, hrecords, -⟩
      · exact hkept (h.of_noSources hd rfl) trivial
      · have hrecord : [sourceRow].map SourceRow.record = [source].map (recordOf row.id) := by
          obtain ⟨hcard, htype, href, hsha, horigin⟩ := hrecords
          simp [SourceRow.record, recordOf, hcard, htype, href, hsha, horigin, hid]
        obtain ⟨hrooted, hiff⟩ := traceable_newCard h hd rfl hfresh hrecord
        exact ⟨hrooted, fun _ => trivial, fun _ => hiff.2 (coherent_singleton source)⟩
  | upsertScopedSingleton anchor values sources =>
      obtain ⟨card, hupsert⟩ := dropValue_ok.1 hrun
      unfold upsertScopedSingleton at hupsert
      rw [Txn.bind_ok] at hupsert
      obtain ⟨_, w₁, hlift, hupsert⟩ := hupsert
      obtain ⟨-, rfl⟩ := Txn.lift_ok.1 hlift
      rw [Txn.bind_ok] at hupsert
      obtain ⟨_, w₁, hlift, hupsert⟩ := hupsert
      obtain ⟨-, rfl⟩ := Txn.lift_ok.1 hlift
      rw [Txn.bind_ok] at hupsert
      obtain ⟨_, w₁, hlift, hupsert⟩ := hupsert
      obtain ⟨-, rfl⟩ := Txn.lift_ok.1 hlift
      obtain ⟨w₂, hschema, hupsert⟩ := writeTransaction_ok hupsert
      rw [Txn.bind_ok] at hupsert
      obtain ⟨family, w₃, hselect, hdecide⟩ := hupsert
      obtain ⟨-, rfl⟩ := select_ok.1 hselect
      have hstays := staysTraceable_decideSingleton env anchor family values sources w₃
        (h.of_noSources hschema rfl)
      rw [hdecide] at hstays
      exact hkept hstays trivial
  | supersede oldCardId values sources =>
      obtain ⟨card, hsupersede⟩ := dropValue_ok.1 hrun
      obtain ⟨d, row, hd, -, hcards, -, -, hfresh, -, -, -, -, hrecords⟩ := supersede_ok hsupersede
      exact traceable_newCard h hd hcards hfresh hrecords
  | transition cardId status related =>
      obtain ⟨event, hd, -⟩ := transition_ok hrun
      exact hkept (h.of_noSources hd rfl) trivial
  | addEdge sourceId targetId relation =>
      obtain ⟨edge, hadd⟩ := dropValue_ok.1 hrun
      obtain ⟨row, -, hd⟩ := addEdge_ok hadd
      exact hkept (h.of_noSources hd rfl) trivial
  | addSource cardId source =>
      obtain ⟨made, hadd⟩ := dropValue_ok.1 hrun
      obtain ⟨w₁, hschema, hadd⟩ := writeTransaction_ok hadd
      exact hkept (traceable_addSource (h.of_noSources hschema rfl) hadd) trivial
  | recordMemoryDecision => exact hkept (h.of_noSources (recordMemoryDecision_ok hrun) rfl) trivial
  | recordMemoryOutcome => exact hkept (h.of_noSources (recordMemoryOutcome_ok hrun) rfl) trivial

/-! ### Refused -/

/-- The same rows in every table; the schema may have been created. -/
def Database.SameRows (db db' : Database F) : Prop :=
  db' = { db with initialized := db'.initialized, metas := db'.metas }

/-- Code that, if it raises, leaves every row as it was. -/
def RefusesWhole {α : Type} (x : Tx F α) : Prop :=
  ∀ e w w', x w = (.error e, w') → w.db.SameRows w'.db

omit [Json.PyFloat F] in
theorem RefusesWhole.afterCheck {α β : Type} {check : Except PyExc α} {x : α → Tx F β}
    (hx : ∀ a, RefusesWhole (x a)) : RefusesWhole (Txn.lift check >>= x) := by
  intro e w w' h
  rcases Txn.bind_error.1 h with hraised | ⟨a, w₁, hcheck, hraised⟩
  · rw [← show w = w' from congrArg Prod.snd hraised]
    rfl
  · obtain ⟨-, rfl⟩ := Txn.lift_ok.1 hcheck
    exact hx a e _ _ hraised

omit [Json.PyFloat F] in
theorem RefusesWhole.dropValue {α : Type} {x : Tx F α} (hx : RefusesWhole x) :
    RefusesWhole (dropValue x) := by
  intro e w w' h
  rcases Txn.bind_error.1 h with hraised | ⟨a, w₁, -, hraised⟩
  · exact hx e w w' hraised
  · cases hraised

theorem sameRows_createSchema :
    Txn.Keeps (fun w w' : MemoryWorld F => w.db.SameRows w'.db) (createSchema env) := by
  have htrans : ∀ a b c : MemoryWorld F, a.db.SameRows b.db → b.db.SameRows c.db →
      a.db.SameRows c.db := by
    intro a b c h h'
    unfold Database.SameRows at h h' ⊢
    rw [h'] at *
    rw [h]
  refine Txn.Keeps.bind htrans ?_ fun _ => Txn.Keeps.bind htrans ?_ fun _ =>
    Txn.Keeps.bind htrans ?_ fun _ => Txn.Keeps.bind htrans ?_ fun _ => ?_
  · exact fun w => rfl
  · exact fun w => rfl
  · exact fun w => rfl
  · exact fun w => rfl
  · exact fun w => rfl

theorem refusesWhole_writeTransaction {α : Type} (body : Tx F α) :
    RefusesWhole (writeTransaction env body) := by
  intro e w w' h
  unfold writeTransaction at h
  rcases Txn.bind_error.1 h with hraised | ⟨_, w₁, hschema, hraised⟩
  · have hsame : w.db.SameRows (createSchema env w).2.db := sameRows_createSchema w
    rw [hraised] at hsame
    exact hsame
  · have hsame : w.db.SameRows (createSchema env w).2.db := sameRows_createSchema w
    rw [hschema] at hsame
    obtain ⟨w₂, -, rfl⟩ := Txn.atomically_error.1 hraised
    exact hsame

theorem operate_refused {op : Operation F} {e : PyExc} {w w' : MemoryWorld F}
    (h : operate env op w = (.error e, w')) : w.db.SameRows w'.db := by
  refine (?_ : RefusesWhole (operate env op)) e w w' h
  cases op with
  | addCard | supersede =>
      exact (RefusesWhole.afterCheck fun _ => RefusesWhole.afterCheck fun _ =>
        refusesWhole_writeTransaction _).dropValue
  | addCardOnceForSource =>
      exact (RefusesWhole.afterCheck fun _ => refusesWhole_writeTransaction _).dropValue
  | upsertScopedSingleton =>
      exact (RefusesWhole.afterCheck fun _ => RefusesWhole.afterCheck fun _ =>
        RefusesWhole.afterCheck fun _ => refusesWhole_writeTransaction _).dropValue
  | addEdge | addSource => exact (refusesWhole_writeTransaction _).dropValue
  | transition | recordMemoryDecision | recordMemoryOutcome =>
      exact RefusesWhole.afterCheck fun _ => refusesWhole_writeTransaction _

/-- Evidence that differs from the card's own is not accepted. -/
theorem addSource_refuses {cardId : String} {source : EvidenceSource} {row : SourceRow}
    {w : MemoryWorld F} (h : Traceable w.db) (hrow : row ∈ w.db.sources)
    (hcard : row.cardId = cardId) (htype : row.sourceType = source.sourceType)
    (href : row.sourceRef = source.sourceRef) (hchanged : changedProvenance row source) :
    ∃ e w', operate env (.addSource cardId source) w = (.error e, w') := by
  cases hrun : operate env (.addSource cardId source) w with
  | mk r w' =>
      cases r with
      | error e => exact ⟨e, w', rfl⟩
      | ok u =>
          exfalso
          obtain ⟨made, hadd⟩ := dropValue_ok.1 hrun
          obtain ⟨w₁, hschema, hadd⟩ := writeTransaction_ok hadd
          have hsources : w₁.db.sources = w.db.sources := by
            rw [hschema.sources]
            exact List.append_nil _
          unfold addSourceInConnection at hadd
          rw [Txn.bind_ok] at hadd
          obtain ⟨_, w₂, hselect, hadd⟩ := hadd
          obtain ⟨-, rfl⟩ := select_ok.1 hselect
          rw [Txn.bind_ok] at hadd
          obtain ⟨rows, w₃, hquery, hadd⟩ := hadd
          obtain ⟨hrows, rfl⟩ := Txn.query_ok.1 hquery
          have hmem : ∀ other, other ∈ rows ↔ other ∈ w.db.sources ∧ other.cardId = cardId ∧
              other.sourceType = source.sourceType ∧ other.sourceRef = source.sourceRef := by
            intro other
            rw [hrows, oldestFirst, (List.perm_insertionSort _ _).mem_iff, List.mem_filter,
              hsources, decide_eq_true_iff]
          cases rows with
          | nil => exact absurd ((hmem row).2 ⟨hrow, hcard, htype, href⟩) List.not_mem_nil
          | cons found rows =>
              obtain ⟨hfound, hfoundCard, hfoundType, hfoundRef⟩ :=
                (hmem found).1 List.mem_cons_self
              obtain ⟨hsha, horigin⟩ := h.consistent row hrow found hfound
                (by rw [hcard, hfoundCard]) (by rw [htype, hfoundType]) (by rw [href, hfoundRef])
              obtain ⟨hchecked, -⟩ := Txn.lift_ok.1 hadd
              obtain ⟨_, -, hchecked⟩ := except_bind_ok.1 hchecked
              obtain ⟨_, hunchanged, -⟩ := except_bind_ok.1 hchecked
              refine raiseIf_ok.1 hunchanged ?_
              rw [changedProvenance, ← hsha, ← horigin]
              exact hchanged

/-! ## Runs -/

omit [Json.PyFloat F] in
theorem traceable_start : Traceable (Database.absent F) where
  rooted _ h := absurd h List.not_mem_nil
  consistent _ h := absurd h List.not_mem_nil

theorem traceable_of_reached {w : MemoryWorld F}
    (h : Reached env (fun _ op => op.CoherentEvidence) w) : Traceable w.db := by
  induction h with
  | start => exact traceable_start
  | @step w _ op hop ih =>
      unfold perform
      cases hrun : operate env op w with
      | mk r w' =>
          cases r with
          | ok u =>
              obtain ⟨hrooted, hiff⟩ := operate_provenance ih hrun
              exact ⟨hrooted, hiff.2 hop⟩
          | error e => exact ih.of_noSources (operate_error hrun) rfl

/-- Where the evidence for new cards is coherent, no card ever has two sources
of one reference that differ. An operation that is accepted keeps it so exactly
then; one that is refused leaves every row; and evidence that differs from the
card's own is refused. -/
theorem provenance_consistent (env : MemoryEnv F) {w : MemoryWorld F}
    (h : Reached env (fun _ op => op.CoherentEvidence) w) :
    ProvenanceConsistent w.db.sources ∧
      (∀ op u w', operate env op w = (.ok u, w') →
        (ProvenanceConsistent w'.db.sources ↔ op.CoherentEvidence)) ∧
      (∀ op e w', operate env op w = (.error e, w') → w.db.SameRows w'.db) ∧
      ∀ source, ∀ row ∈ w.db.sources, row.sourceType = source.sourceType →
        row.sourceRef = source.sourceRef → changedProvenance row source →
        ∃ e w', operate env (.addSource row.cardId source) w = (.error e, w') := by
  have htrace := traceable_of_reached h
  refine ⟨htrace.consistent, fun op u w' hrun => (operate_provenance htrace hrun).2,
    fun op e w' hrun => operate_refused hrun, ?_⟩
  intro source row hrow htype href hchanged
  exact addSource_refuses htrace hrow rfl htype href hchanged

/-! ## Two digests for one reference -/

/-- The same reference with another digest. -/
def altered : EvidenceSource :=
  { evidence "first" with
    sourceSha256 := "9f86d081884c7d659a2feaa0c55ad015a3bf4f1b2b0b822cd15d6c15b0f00a08" }

/-- An editor setting that was added with this evidence. -/
theorem setting_added (sources : List EvidenceSource) (hne : sources ≠ [])
    (hsources : ∀ source ∈ sources, checkSource source = .ok ()) :
    ∃ cardId w', operate (machine ticking)
        (.addCard (setting "vim" "editor" "inform" none) sources []) (.start Unit) =
      (.ok (), w') ∧ w'.db.sources.map SourceRow.record = sources.map (recordOf cardId) := by
  have hvalid : validateCardInput (machine ticking) (setting "vim" "editor" "inform" none) =
      .ok () := rfl
  obtain ⟨card, w', hadd⟩ := addCard_returns healthy_start (machine_obliging ticking) hvalid
    (setting_floats "vim" "editor" "inform" none) hne hsources
  obtain ⟨d, row, hd, -, -, -, -, -, -, -, -, -, hrecords⟩ := addCard_ok hadd
  refine ⟨row.id, w', dropValue_ok.2 ⟨card, hadd⟩, ?_⟩
  rw [hd.sources]
  exact hrecords

/-- One setting with one piece of evidence: another digest for it is refused. -/
theorem provenance_consistent_sample :
    ∃ w, Reached (machine ticking) (fun _ op => op.CoherentEvidence) w ∧
      ProvenanceConsistent w.db.sources ∧
      ∃ cardId e w', operate (machine ticking) (.addSource cardId altered) w = (.error e, w') ∧
        w.db.SameRows w'.db := by
  obtain ⟨cardId, w, hrun, hrecords⟩ := setting_added [evidence "first"] (List.cons_ne_nil _ _)
    fun source hsource => by
      rw [List.mem_singleton.1 hsource]
      exact checkSource_evidence
  have hreached : Reached (machine ticking) (fun _ op => op.CoherentEvidence) w := by
    rw [← perform_eq hrun]
    exact .step .start _ (coherent_singleton _)
  obtain ⟨row, hrow, hrecord⟩ : ∃ row ∈ w.db.sources,
      row.record = recordOf cardId (evidence "first") := by
    refine List.mem_map.1 ?_
    rw [hrecords]
    exact List.mem_singleton_self _
  simp only [SourceRow.record, recordOf, Prod.mk.injEq] at hrecord
  obtain ⟨-, htype, href, hsha, -⟩ := hrecord
  obtain ⟨hconsistent, -, hunchanged, hrefuses⟩ := provenance_consistent (machine ticking) hreached
  obtain ⟨e, w', herror⟩ := hrefuses altered row hrow htype href
    (Or.inl (by rw [hsha]; decide +kernel))
  exact ⟨w, hreached, hconsistent, row.cardId, e, w', herror, hunchanged _ e w' herror⟩

/-- One card with two digests of one event. -/
theorem provenance_inconsistent :
    ¬ ∀ w, Reached (machine ticking) anyStep w → ProvenanceConsistent w.db.sources := by
  intro hall
  obtain ⟨-, w, hrun, -⟩ := setting_added [evidence "first", altered] (List.cons_ne_nil _ _)
    fun source hsource => by
      rcases List.mem_cons.1 hsource with rfl | hsource
      · exact checkSource_evidence
      · rw [List.mem_singleton.1 hsource]
        decide +kernel
  have hreached : Reached (machine ticking) anyStep w := by
    rw [← perform_eq hrun]
    exact .step .start _ trivial
  have hcoherent := (operate_provenance traceable_start hrun).2.1 (hall w hreached)
  obtain ⟨hsha, -⟩ := hcoherent (evidence "first") List.mem_cons_self altered
    (List.mem_cons_of_mem _ List.mem_cons_self) rfl rfl
  exact absurd hsha (by decide +kernel)

end MemoryStore

end MiniCodeAgent
