import MiniCodeAgent.Proofs.MemoryRuns

/-!
# When the operations of the store return

What the store wrote itself it reads back: a card whose numbers were passed as
floats carries the digest and the signature its columns give, and evidence,
edges and status events always do. So in a world a run has come by, on a
machine whose identifiers do not repeat, a transaction raises only for what its
arguments are. `Steady` is what the insertions of one transaction need of each
other, and holds again after each of them.
-/

namespace MiniCodeAgent

namespace MemoryStore

variable {F : Type} [Json.PyFloat F] {env : MemoryEnv F}

/-! ## A card reads back -/

/-- The numbers are floats, as the columns hold them. -/
def CardValues.Floats (values : CardValues F) : Prop :=
  ∃ confidence importance, values.confidence = .float confidence ∧
    values.importance = .float importance

omit [Json.PyFloat F] in
theorem wf_texts (texts : List String) : (Json.arr (texts.map Json.str) : Json F).WF := by
  rw [Json.wf_arr]
  intro x hx
  obtain ⟨text, -, rfl⟩ := List.mem_map.1 hx
  exact Json.WF.str text

theorem loadsText_texts (texts : List String) :
    loadsText (Json.dumps .compact (.arr (texts.map .str) : Json F)) =
      .ok (.arr (texts.map .str) : Json F) := by
  rw [loadsText, Json.loads_dumps Json.Style.compact_ok (wf_texts texts)]

theorem cardPayload_newCardRow (values : CardValues F) (cardId : String) (recordedAtNs : Int) :
    cardPayload (newCardRow env cardId values recordedAtNs) =
      .ok (cardFields (newCardRow env cardId values recordedAtNs)
        (.arr ((values.cueAnchors.map pyStrip).map .str))) := by
  rw [cardPayload, newCardRow, loadsText_texts]
  rfl

omit [Json.PyFloat F] in
theorem nodup_cardFields (row : CardRow F) (cueAnchors : Json F) :
    (Dict.keys (cardFields row cueAnchors)).Nodup := by
  show ["id", "kind", "subtype", "scope", "scope_key", "value", "abstraction", "origin",
    "authority", "confidence", "importance", "valid_from", "valid_to", "cue_anchors",
    "recorded_at_ns", "content_sha256"].Nodup
  decide

variable (env) in
/-- What the columns of a new row give is what was signed, in another order. -/
theorem cardFields_perm {values : CardValues F} (hfloats : values.Floats) (cardId : String)
    (recordedAtNs : Int) :
    (cardFields (newCardRow env cardId values recordedAtNs)
        (.arr ((values.cueAnchors.map pyStrip).map .str))).Perm
      (cardContent cardId values (values.cueAnchors.map pyStrip) recordedAtNs ++
        [("content_sha256", .str (newCardRow env cardId values recordedAtNs).contentSha256)]) := by
  obtain ⟨confidence, importance, hconfidence, himportance⟩ := hfloats
  rw [cardFields, cardContent, newCardRow, hconfidence, himportance]
  exact List.Perm.cons _ (List.Perm.append_right _ (@List.perm_append_comm _ [_, _, _, _] [_, _]))

variable (env) in
theorem digestJson_perm {payload payload' : Dict (Json F)} (h : payload.Perm payload')
    (hk : (Dict.keys payload).Nodup) :
    digestJson env.digests (.obj payload) = digestJson env.digests (.obj payload') := by
  rw [digestJson, digestJson, canonicalJson, canonicalJson, Json.canonical, Json.canonical,
    Json.sortKeys_eq_of_perm h hk]

variable (env) in
theorem sign_perm {payload payload' : Dict (Json F)} (h : payload.Perm payload')
    (hk : (Dict.keys payload).Nodup) : sign env payload = sign env payload' := by
  rw [sign, sign, canonicalJson, canonicalJson, Json.canonical, Json.canonical,
    Json.sortKeys_eq_of_perm h hk]

theorem verifyCard_newCardRow {values : CardValues F} (hfloats : values.Floats)
    (cardId : String) (recordedAtNs : Int) :
    verifyCard env (newCardRow env cardId values recordedAtNs) = .ok () := by
  have hperm := cardFields_perm env hfloats cardId recordedAtNs
  have hcontent : verifyContent env cardId (cardFields (newCardRow env cardId values recordedAtNs)
      (.arr ((values.cueAnchors.map pyStrip).map .str))) = .ok () := by
    have hdigest := digestJson_perm env
      (hperm.filter fun kv => kv.1 ≠ "content_sha256")
      ((List.filter_sublist.map Prod.fst).nodup (nodup_cardFields _ _))
    show (compareDigest (newCardRow env cardId values recordedAtNs).contentSha256
      (digestJson env.digests (.obj (Dict.pop _ "content_sha256"))) >>= _) = _
    have hcontent : (cardContent cardId values (values.cueAnchors.map pyStrip) recordedAtNs ++
        [("content_sha256", Json.str (newCardRow env cardId values recordedAtNs).contentSha256)]
          ).filter (fun kv => kv.1 ≠ "content_sha256") =
        cardContent cardId values (values.cueAnchors.map pyStrip) recordedAtNs := rfl
    rw [Dict.pop, hdigest, hcontent]
    show (compareDigest (env.digests.sha256 _) (env.digests.sha256 _) >>= _) = _
    rw [compareDigest_self (env.digests.sha256_hex _)]
    rfl
  have hsign := sign_perm env hperm (nodup_cardFields _ _)
  have hsigned : (newCardRow env cardId values recordedAtNs).signature =
      sign env (cardContent cardId values (values.cueAnchors.map pyStrip) recordedAtNs ++
        [("content_sha256",
          Json.str (newCardRow env cardId values recordedAtNs).contentSha256)]) := rfl
  have hsignature : verifySignature env "card" cardId
      (newCardRow env cardId values recordedAtNs).signature
      (cardFields (newCardRow env cardId values recordedAtNs)
        (.arr ((values.cueAnchors.map pyStrip).map .str))) = .ok () := by
    rw [verifySignature, hsign, hsigned, compareDigest_self (isHex_sign env _)]
    rfl
  rw [verifyCard, cardPayload_newCardRow]
  show (verifyContent env cardId _ >>= _) = _
  rw [hcontent]
  exact hsignature

theorem cardFromRow_made {row : CardRow F} (h : row.Made env) (status : String) :
    ∃ card, cardFromRow row status = .ok card := by
  obtain ⟨cardId, values, recordedAtNs, rfl⟩ := h
  show ∃ card, (loadsText _ >>= _) = .ok card
  rw [newCardRow, loadsText_texts]
  exact ⟨_, rfl⟩

theorem carriesAnchor_newCardRow (anchor cardId : String) (values : CardValues F)
    (recordedAtNs : Int) :
    carriesAnchor anchor (newCardRow env cardId values recordedAtNs) =
      .ok (decide (anchor ∈ values.cueAnchors.map pyStrip)) := by
  rw [carriesAnchor]
  show (loadsText _ >>= _) = _
  rw [newCardRow, loadsText_texts]
  show pyIn anchor (Json.arr ((values.cueAnchors.map pyStrip).map Json.str) : Json F) = _
  rw [pyIn]
  congr 1
  rw [Bool.eq_iff_iff, List.any_eq_true, decide_eq_true_eq]
  constructor
  · rintro ⟨x, hx, heq⟩
    obtain ⟨cue, hcue, rfl⟩ := List.mem_map.1 hx
    rw [Json.pyEq_str_right] at heq
    cases heq
    exact hcue
  · intro hmem
    exact ⟨.str anchor, List.mem_map_of_mem hmem, by rw [Json.pyEq_str_right]⟩

/-! ## What insertions need -/

/-- A machine whose identifiers do not repeat and whose clock readings are
moments. -/
structure Obliging (env : MemoryEnv F) : Prop where
  uuid4_injective : Function.Injective env.uuid4
  fromtimestamp_ok : ∀ ns, ∃ moment, env.fromtimestamp ns = .ok moment

/-- The tables in the middle of a transaction. -/
structure Steady (env : MemoryEnv F) (w : MemoryWorld F) : Prop where
  ready : Ready env w.db
  unique : (w.db.cards.map CardRow.id).Nodup
  made : ∀ row ∈ w.db.cards, row.Made env
  verified : ∀ row ∈ w.db.cards, verifyCard env row = .ok ()
  sourcesSigned : ∀ row ∈ w.db.sources, row.Signed env
  ids : ∀ id ∈ w.db.history.ids, DrawnId env 0 w.uuids id

theorem Steady.extends {w w' : MemoryWorld F} {d : Delta F} (h : Steady env w)
    (hd : Extends env w d w') (hverified : ∀ row ∈ d.cards, verifyCard env row = .ok ()) :
    Steady env w' where
  ready := by
    rcases hd.opens (Or.inr h.ready.2) with ⟨hinit, hmetas⟩ | hready
    · exact ⟨hinit.trans h.ready.1, hmetas.trans h.ready.2⟩
    · exact hready
  unique := hd.unique h.unique
  made row hrow := by
    rw [hd.cards] at hrow
    exact (List.mem_append.1 hrow).elim (h.made row) (hd.made row)
  verified row hrow := by
    rw [hd.cards] at hrow
    exact (List.mem_append.1 hrow).elim (h.verified row) (hverified row)
  sourcesSigned row hrow := by
    rw [hd.sources] at hrow
    exact (List.mem_append.1 hrow).elim (h.sourcesSigned row) (hd.sourcesSigned row)
  ids id hid := by
    rw [hd.history] at hid
    rcases Delta.mem_ids_and.1 hid with hid | hid
    · exact (h.ids id hid).mono (le_refl _) hd.uuids
    · exact (hd.ids id hid).mono (Nat.zero_le _) (le_refl _)

/-- The next identifier is no row's. -/
theorem Steady.fresh {w : MemoryWorld F} (h : Steady env w) (hobliging : Obliging env) {n : Nat}
    (hn : w.uuids ≤ n) : env.uuid4 n ∉ w.db.history.ids := by
  intro hmem
  obtain ⟨m, -, hm, heq⟩ := h.ids _ hmem
  have := hobliging.uuid4_injective heq
  omega

theorem Steady.noRow {w : MemoryWorld F} (h : Steady env w) (hobliging : Obliging env) {n : Nat}
    (hn : w.uuids ≤ n) {ρ : Type} {rows : List ρ} {id : ρ → String}
    (hrows : rows.map id ⊆ w.db.history.ids) :
    (rows.any fun other => id other = env.uuid4 n) = false := by
  rw [List.any_eq_false]
  intro other hother heq
  refine h.fresh hobliging hn ?_
  rw [← of_decide_eq_true heq]
  exact hrows (List.mem_map_of_mem hother)

omit [Json.PyFloat F] in
theorem cards_ids (db : Database F) : db.cards.map CardRow.id ⊆ db.history.ids := fun _ h =>
  List.mem_append_left _ (List.mem_append_left _ (List.mem_append_left _ h))

omit [Json.PyFloat F] in
theorem sources_ids (db : Database F) : db.sources.map SourceRow.id ⊆ db.history.ids := fun _ h =>
  List.mem_append_left _ (List.mem_append_left _ (List.mem_append_right _ h))

omit [Json.PyFloat F] in
theorem edges_ids (db : Database F) : db.edges.map EdgeRow.id ⊆ db.history.ids := fun _ h =>
  List.mem_append_left _ (List.mem_append_right _ h)

omit [Json.PyFloat F] in
theorem events_ids (db : Database F) : db.cardEvents.map EventRow.id ⊆ db.history.ids := fun _ h =>
  List.mem_append_right _ h

/-! ## The insertions return -/

theorem insertEvent_returns {w : MemoryWorld F} (h : Steady env w) (hobliging : Obliging env)
    {status : String} (hstatus : status ∈ memoryStatuses) (cardId : String)
    (related : Option String) : Txn.Returns (insertEvent env cardId status related) w :=
  ⟨(), _, insertEvent_ok.2 ⟨hstatus, h.noRow hobliging (le_refl _) (events_ids w.db), rfl⟩⟩

theorem requireAuthenticatedCard_mem {w : MemoryWorld F} (h : Steady env w) {row : CardRow F}
    (hrow : row ∈ w.db.cards) : requireAuthenticatedCard env row.id w.db = .ok row := by
  rw [requireAuthenticatedCard, requireCard_of_mem h.unique hrow]
  show (verifyCard env row >>= _) = _
  rw [h.verified row hrow]
  rfl

theorem insertSource_returns {w : MemoryWorld F} (h : Steady env w) (hobliging : Obliging env)
    (cardId : String) {source : EvidenceSource} (hsource : checkSource source = .ok ()) :
    Txn.Returns (insertSource env cardId source) w := by
  refine (Txn.returns_lift hsource w).bind fun _ w₁ hlift => ?_
  obtain ⟨-, rfl⟩ := Txn.lift_ok.1 hlift
  refine Txn.Returns.bind ⟨_, _, uuid4_ok.2 ⟨rfl, rfl⟩⟩ fun id w₂ huuid => ?_
  obtain ⟨rfl, rfl⟩ := uuid4_ok.1 huuid
  refine Txn.Returns.bind ⟨_, _, timeNs_ok.2 ⟨rfl, rfl⟩⟩ fun t w₃ htime => ?_
  obtain ⟨rfl, rfl⟩ := timeNs_ok.1 htime
  refine Txn.Returns.bind ⟨(), _, insertInto_ok.2 ⟨?_, rfl⟩⟩ fun _ w₄ _ => Txn.returns_pure _ w₄
  rw [h.noRow hobliging (le_refl _) (sources_ids w₁.db)]
  rfl

theorem insertEdge_returns {w : MemoryWorld F} (h : Steady env w) (hobliging : Obliging env)
    {relation : String} (hrelation : relation ∈ memoryRelations) {source target : CardRow F}
    (hsource : source ∈ w.db.cards) (htarget : target ∈ w.db.cards) :
    Txn.Returns (insertEdge env source.id target.id relation) w := by
  refine Txn.Returns.bind ⟨(), _, liftRaise_ok.2 ⟨not_not.2 hrelation, rfl⟩⟩ fun _ w₁ hlift => ?_
  obtain ⟨-, rfl⟩ := liftRaise_ok.1 hlift
  refine Txn.Returns.bind (Txn.returns_reads (requireAuthenticatedCard_mem h hsource))
    fun _ w₂ hselect => ?_
  obtain ⟨-, rfl⟩ := select_ok.1 hselect
  refine Txn.Returns.bind (Txn.returns_reads (requireAuthenticatedCard_mem h htarget))
    fun _ w₃ hselect => ?_
  obtain ⟨-, rfl⟩ := select_ok.1 hselect
  refine Txn.Returns.bind ⟨_, _, uuid4_ok.2 ⟨rfl, rfl⟩⟩ fun id w₄ huuid => ?_
  obtain ⟨rfl, rfl⟩ := uuid4_ok.1 huuid
  refine Txn.Returns.bind ⟨_, _, timeNs_ok.2 ⟨rfl, rfl⟩⟩ fun t w₅ htime => ?_
  obtain ⟨rfl, rfl⟩ := timeNs_ok.1 htime
  refine Txn.Returns.bind ⟨(), _, insertInto_ok.2 ⟨?_, rfl⟩⟩ fun _ w₆ _ => Txn.returns_pure _ w₆
  rw [h.noRow hobliging (le_refl _) (edges_ids _)]
  rfl

theorem retire_returns {w : MemoryWorld F} (h : Steady env w) (hobliging : Obliging env)
    {winner old : CardRow F} (hwinner : winner ∈ w.db.cards) (hold : old ∈ w.db.cards) :
    Txn.Returns (retire env winner.id old.id) w := by
  refine (insertEdge_returns h hobliging (by decide) hwinner hold).bind fun _ w₁ hedge => ?_
  obtain ⟨-, -, -, hext⟩ := insertEdge_ok hedge
  exact insertEvent_returns (h.extends hext fun row hrow => absurd hrow List.not_mem_nil) hobliging
    (by decide) _ _

theorem insertCard_returns {w : MemoryWorld F} (h : Steady env w) (hobliging : Obliging env)
    (values : CardValues F) : Txn.Returns (insertCard env values) w := by
  refine Txn.Returns.bind ⟨_, _, uuid4_ok.2 ⟨rfl, rfl⟩⟩ fun cardId w₁ huuid => ?_
  obtain ⟨hcardId, hw₁⟩ := uuid4_ok.1 huuid
  refine Txn.Returns.bind ⟨_, _, timeNs_ok.2 ⟨rfl, rfl⟩⟩ fun t w₂ htime => ?_
  obtain ⟨-, hw₂⟩ := timeNs_ok.1 htime
  have hdb : w₂.db = w.db := by rw [hw₂, hw₁]
  have huuids : w₂.uuids = w.uuids + 1 := by rw [hw₂, hw₁]
  have hnone : (w₂.db.cards.any fun other => other.id = cardId) = false := by
    rw [hdb, hcardId]
    exact h.noRow hobliging (le_refl _) (cards_ids w.db)
  refine Txn.Returns.bind ⟨(), _, insertInto_ok.2 ⟨by rw [hnone]; rfl, rfl⟩⟩
    fun _ w₃ hinsert => ?_
  obtain ⟨-, hw₃⟩ := insertInto_ok.1 hinsert
  have hcards : w₃.db.cards = w.db.cards ++ [newCardRow env cardId values t] := by
    rw [hw₃, ← hdb]
  have hevents : w₃.db.cardEvents = w.db.cardEvents := by
    rw [hw₃, ← hdb]
  have hmetas : w₃.db.metas = readyMetas env := by
    rw [← h.ready.2, ← hdb, hw₃]
  have huuids : w₃.uuids = w.uuids + 1 := by
    rw [hw₃]
    exact huuids
  have hnoEvent : (w₃.db.cardEvents.any fun other => other.id = env.uuid4 w₃.uuids) = false := by
    rw [hevents, huuids]
    exact h.noRow hobliging (Nat.le_succ _) (events_ids w.db)
  refine Txn.Returns.bind ⟨(), _, insertEvent_ok.2 ⟨by decide, hnoEvent, rfl⟩⟩
    fun _ w₄ hevent => ?_
  obtain ⟨-, -, hw₄⟩ := insertEvent_ok.1 hevent
  have hmeta : getMeta env "fts_enabled" w₄.db = .ok (some (if env.fts5 then "1" else "0")) := by
    refine (getMeta_ready ?_).2
    rw [hw₄]
    exact hmetas
  refine Txn.Returns.bind (Txn.returns_reads hmeta) fun fts w₅ hselect => ?_
  obtain ⟨-, rfl⟩ := select_ok.1 hselect
  have hindexReturns : Txn.Returns (indexCard fts
      ⟨cardId, values.abstraction, " ".intercalate (values.cueAnchors.map pyStrip)⟩) w₅ := by
    unfold indexCard
    split
    · exact ⟨(), _, execute_ok.2 rfl⟩
    · exact Txn.returns_pure () w₅
  refine hindexReturns.bind fun _ w₆ hindex => ?_
  have hrow : requireCard cardId w₆.db = .ok (newCardRow env cardId values t) := by
    have hcards₆ : w₆.db.cards = w.db.cards ++ [newCardRow env cardId values t] := by
      rw [(indexCard_extends env hindex).cards, hw₄]
      show w₃.db.cards ++ [] = _
      rw [List.append_nil, hcards]
    have hunique : (w₆.db.cards.map CardRow.id).Nodup := by
      rw [hcards₆, List.map_append]
      refine List.nodup_append.2 ⟨h.unique, List.nodup_singleton _, ?_⟩
      intro a ha b hb heq
      rw [List.mem_singleton.1 hb] at heq
      refine h.fresh hobliging (le_refl _) ?_
      rw [← hcardId, show cardId = a from heq.symm]
      exact cards_ids w.db ha
    have hmem : newCardRow env cardId values t ∈ w₆.db.cards := by
      rw [hcards₆]
      exact List.mem_append_right _ (List.mem_singleton_self _)
    exact requireCard_of_mem hunique hmem
  refine Txn.Returns.bind (Txn.returns_reads hrow) fun row w₇ hselect => ?_
  obtain ⟨hfound, rfl⟩ := select_ok.1 hselect
  rw [hrow] at hfound
  cases hfound
  have hmade : (newCardRow env cardId values t).Made env := ⟨cardId, values, t, rfl⟩
  obtain ⟨card, hcard⟩ := cardFromRow_made hmade "active"
  exact Txn.returns_lift hcard w₇

/-- A card that was just created is in the tables, and they are steady again. -/
theorem insertCard_steady {w w' : MemoryWorld F} (h : Steady env w) {values : CardValues F}
    (hfloats : values.Floats) {card : MemoryCard F}
    (hcard : insertCard env values w = (.ok card, w')) :
    Steady env w' ∧ ∃ row ∈ w'.db.cards, row.id = card.id := by
  obtain ⟨row, event, hrow, -, -, -, hext, -, hid⟩ := insertCard_ok hcard
  refine ⟨h.extends hext fun r hr => ?_, row, ?_, hid.symm⟩
  · rw [List.mem_singleton.1 hr, hrow]
    exact verifyCard_newCardRow hfloats _ _
  · rw [hext.cards]
    exact List.mem_append_right _ (List.mem_singleton_self row)

theorem Steady.unchanged {w w' : MemoryWorld F} {d : Delta F} (h : Steady env w)
    (hd : Extends env w d w') (hcards : d.cards = []) : Steady env w' := by
  refine h.extends hd fun row hrow => ?_
  rw [hcards] at hrow
  cases hrow

theorem insertSources_returns {w : MemoryWorld F} (h : Steady env w) (hobliging : Obliging env)
    (cardId : String) {sources : List EvidenceSource}
    (hsources : ∀ source ∈ sources, checkSource source = .ok ()) :
    Txn.Returns (sources.forM fun source => (do
      let _ ← insertSource env cardId source : Tx F PUnit)) w := by
  refine Txn.Returns.forM (P := Steady env) h (fun source hsource s hs => ?_)
    fun source hsource s s' v hs hrun => ?_
  · exact (insertSource_returns hs hobliging cardId (hsources source hsource)).bind
      fun _ s₁ _ => Txn.returns_pure _ s₁
  · rw [Txn.bind_ok] at hrun
    obtain ⟨_, s₁, hinsert, hrun⟩ := hrun
    obtain ⟨-, rfl⟩ := Txn.pure_ok.1 hrun
    exact hs.unchanged (insertSource_ok hinsert).2 rfl

/-- Evidence with one reference has one provenance, here and in the tables. -/
structure Consistent (sources : List EvidenceSource) (w : MemoryWorld F) : Prop where
  checked : ∀ source ∈ sources, checkSource source = .ok ()
  stored : ∀ row ∈ w.db.sources, ∀ source ∈ sources, row.sourceType = source.sourceType →
    row.sourceRef = source.sourceRef → ¬ changedProvenance row source
  given : ∀ source ∈ sources, ∀ other ∈ sources, other.sourceType = source.sourceType →
    other.sourceRef = source.sourceRef → pyLower other.sourceSha256 = pyLower source.sourceSha256 ∧
      other.origin = source.origin

theorem Consistent.extends {sources : List EvidenceSource} {w w' : MemoryWorld F} {d : Delta F}
    (h : Consistent sources w) (hd : Extends env w d w') (hrecorded : d.Recorded sources) :
    Consistent sources w' where
  checked := h.checked
  given := h.given
  stored row hrow source hsource htype href := by
    rw [hd.sources] at hrow
    rcases List.mem_append.1 hrow with hrow | hrow
    · exact h.stored row hrow source hsource htype href
    · obtain ⟨cardId, other, hother, -, htype', href', hsha, horigin⟩ := hrecorded row hrow
      obtain ⟨hsha', horigin'⟩ := h.given source hsource other hother (htype'.symm.trans htype)
        (href'.symm.trans href)
      rw [changedProvenance, hsha, hsha', horigin, horigin']
      simp

theorem addSourceInConnection_returns {w : MemoryWorld F} (h : Steady env w)
    (hobliging : Obliging env) {row : CardRow F} (hrow : row ∈ w.db.cards)
    {sources : List EvidenceSource} (hconsistent : Consistent sources w) {source : EvidenceSource}
    (hsource : source ∈ sources) :
    Txn.Returns (addSourceInConnection env row.id source) w := by
  refine Txn.Returns.bind (Txn.returns_reads (requireAuthenticatedCard_mem h hrow))
    fun _ w₁ hselect => ?_
  obtain ⟨-, rfl⟩ := select_ok.1 hselect
  refine Txn.Returns.bind ⟨_, _, Txn.query_ok.2 ⟨rfl, rfl⟩⟩ fun rows w₂ hquery => ?_
  obtain ⟨hrows, rfl⟩ := Txn.query_ok.1 hquery
  cases rows with
  | nil => exact insertSource_returns h hobliging row.id (hconsistent.checked source hsource)
  | cons found rows =>
      have hfound : found ∈ oldestFirst (w₂.db.sources.filter fun row' =>
          row'.cardId = row.id ∧ row'.sourceType = source.sourceType ∧
            row'.sourceRef = source.sourceRef) := by
        rw [← hrows]
        exact List.mem_cons_self
      obtain ⟨hmem, hmatch⟩ := List.mem_filter.1 ((List.perm_insertionSort _ _).mem_iff.1 hfound)
      obtain ⟨-, htype, href⟩ := of_decide_eq_true hmatch
      refine Txn.returns_lift (a := sourceFromRow found) ?_ w₂
      rw [verifySource_signed env (h.sourcesSigned found hmem)]
      show (raiseIf _ _ >>= _) = _
      rw [(raiseIf_ok (u := ())).2 (hconsistent.stored found hmem source hsource htype href)]
      rfl

theorem addSources_returns {w : MemoryWorld F} (h : Steady env w) (hobliging : Obliging env)
    {row : CardRow F} (hrow : row ∈ w.db.cards) {sources : List EvidenceSource}
    (hconsistent : Consistent sources w) : Txn.Returns (addSources env row.id sources) w := by
  refine Txn.Returns.forM (P := fun w => Steady env w ∧ row ∈ w.db.cards ∧ Consistent sources w)
    ⟨h, hrow, hconsistent⟩ (fun source hsource s hs => ?_) fun source hsource s s' v hs hrun => ?_
  · exact (addSourceInConnection_returns hs.1 hobliging hs.2.1 hs.2.2 hsource).bind
      fun _ s₁ _ => Txn.returns_pure _ s₁
  · rw [Txn.bind_ok] at hrun
    obtain ⟨_, s₁, hadd, hrun⟩ := hrun
    obtain ⟨-, rfl⟩ := Txn.pure_ok.1 hrun
    obtain ⟨d, hd, honly⟩ := addSourceInConnection_ok hsource hadd
    refine ⟨hs.1.unchanged hd honly.cards, ?_, hs.2.2.extends hd honly.recorded⟩
    rw [hd.cards]
    exact List.mem_append_left _ hs.2.1

/-- Retiring cards one after the other. -/
theorem retireEach_returns {f : CardRow F → Tx F PUnit} (winner : CardRow F)
    {olds : List (CardRow F)} {w : MemoryWorld F} (h : Steady env w) (hobliging : Obliging env)
    (hwinner : winner ∈ w.db.cards) (holds : ∀ old ∈ olds, old ∈ w.db.cards)
    (hf : ∀ old, f old = pure () ∨ f old = retire env winner.id old.id) :
    Txn.Returns (olds.forM f) w := by
  refine Txn.Returns.forM (P := fun w => Steady env w ∧ winner ∈ w.db.cards ∧
    ∀ old ∈ olds, old ∈ w.db.cards) ⟨h, hwinner, holds⟩ (fun old hold s hs => ?_)
    fun old hold s s' v hs hrun => ?_
  · rcases hf old with hpure | hretire
    · rw [hpure]
      exact Txn.returns_pure () s
    · rw [hretire]
      exact retire_returns hs.1 hobliging hs.2.1 (hs.2.2 old hold)
  · rcases hf old with hpure | hretire
    · rw [hpure] at hrun
      rw [(Txn.pure_ok.1 hrun).2]
      exact hs
    · rw [hretire] at hrun
      obtain ⟨d, hd, hcards, -⟩ := retire_ok hrun
      have hsame : s'.db.cards = s.db.cards := by
        rw [hd.cards, hcards, List.append_nil]
      rw [hsame]
      exact ⟨hs.1.unchanged hd hcards, hs.2⟩

/-! ## The operations return -/

/-- What runs leave, if the cards' numbers were passed as floats. -/
structure Healthy (env : MemoryEnv F) (w : MemoryWorld F) : Prop where
  sound : Sound env w
  verified : ∀ row ∈ w.db.cards, verifyCard env row = .ok ()
  dated : ∀ row ∈ w.db.cards, ∃ parsed, parseTimestamp env row.validFrom "valid_from" = .ok parsed

/-- The numbers of a new card are floats. -/
def Operation.Floats (op : Operation F) : Prop :=
  ∀ values, op.values? = some values → values.Floats

theorem validateCardInput_dated {values : CardValues F}
    (h : validateCardInput env values = .ok ()) :
    ∃ parsed, parseTimestamp env values.validFrom "valid_from" = .ok parsed := by
  unfold validateCardInput at h
  iterate 11 obtain ⟨_, -, h⟩ := except_bind_ok.1 h
  obtain ⟨parsed, hparsed, -⟩ := except_bind_ok.1 h
  exact ⟨parsed, hparsed⟩

theorem Healthy.extends {w w' : MemoryWorld F} {d : Delta F} (h : Healthy env w)
    (hd : Extends env w d w') (hadmitted : d.Admitted)
    (hof : ∀ row ∈ d.cards, ∃ values : CardValues F, values.Floats ∧ row.Of env values) :
    Healthy env w' where
  sound := h.sound.extends hd hadmitted
  verified row hrow := by
    rw [hd.cards] at hrow
    rcases List.mem_append.1 hrow with hrow | hrow
    · exact h.verified row hrow
    · obtain ⟨values, hfloats, -, cardId, t, rfl⟩ := hof row hrow
      exact verifyCard_newCardRow hfloats cardId t
  dated row hrow := by
    rw [hd.cards] at hrow
    rcases List.mem_append.1 hrow with hrow | hrow
    · exact h.dated row hrow
    · obtain ⟨values, -, hvalues, cardId, t, rfl⟩ := hof row hrow
      exact validateCardInput_dated hvalues

theorem healthy_start : Healthy env (.start F) where
  sound := sound_start
  verified _ h := absurd h List.not_mem_nil
  dated _ h := absurd h List.not_mem_nil

theorem Healthy.perform {w : MemoryWorld F} (h : Healthy env w) {op : Operation F}
    (hop : op.Floats) : Healthy env (perform env op w) := by
  obtain ⟨d, hd, hadmitted, hmade⟩ := perform_extends env op w
  refine h.extends hd hadmitted fun row hrow => ?_
  obtain ⟨values, hvalues, hof⟩ := hmade row hrow
  exact ⟨values, hop values hvalues, hof⟩

/-- Every run of such operations. -/
theorem healthy_of_reached {w : MemoryWorld F}
    (h : Reached env (fun _ op => op.Floats) w) : Healthy env w := by
  induction h with
  | start => exact healthy_start
  | step _ op hop ih => exact ih.perform hop

/-- The schema is there and the tables are steady when the body starts. -/
theorem Healthy.schema {w : MemoryWorld F} (h : Healthy env w) :
    ∃ w₁, createSchema env w = (.ok (), w₁) ∧ Steady env w₁ ∧ w₁.db.cards = w.db.cards ∧
      w₁.db.cardEvents = w.db.cardEvents ∧ w₁.db.sources = w.db.sources :=
  ⟨_, createSchema_run h.sound.metas, {
    ready := ⟨rfl, rfl⟩
    unique := h.sound.unique
    made := h.sound.made
    verified := h.verified
    sourcesSigned := h.sound.sourcesSigned
    ids := h.sound.ids }, rfl, rfl, rfl⟩

theorem writeTransaction_returns {α : Type} {body : Tx F α} {w : MemoryWorld F}
    (h : Healthy env w) (hbody : ∀ w₁, Steady env w₁ → w₁.db.cards = w.db.cards →
      w₁.db.cardEvents = w.db.cardEvents → w₁.db.sources = w.db.sources → Txn.Returns body w₁) :
    Txn.Returns (writeTransaction env body) w := by
  obtain ⟨w₁, hrun, hsteady, hcards, hevents, hsources⟩ := h.schema
  refine Txn.Returns.bind ⟨(), w₁, hrun⟩ fun _ w₂ hschema => ?_
  rw [hrun] at hschema
  cases hschema
  exact (hbody w₁ hsteady hcards hevents hsources).atomically

theorem addCard_returns {w : MemoryWorld F} (h : Healthy env w) (hobliging : Obliging env)
    {values : CardValues F} (hvalues : validateCardInput env values = .ok ())
    (hfloats : values.Floats) {sources : List EvidenceSource} (hne : sources ≠ [])
    (hsources : ∀ source ∈ sources, checkSource source = .ok ()) :
    Txn.Returns (addCard env values sources []) w := by
  refine (Txn.returns_lift hvalues w).bind fun _ w₁ hlift => ?_
  obtain ⟨-, rfl⟩ := Txn.lift_ok.1 hlift
  refine (Txn.returns_lift ((raiseIf_ok (u := ())).2 hne) w₁).bind fun _ w₂ hlift => ?_
  obtain ⟨-, rfl⟩ := Txn.lift_ok.1 hlift
  refine writeTransaction_returns h fun w₃ hsteady _ _ _ => ?_
  refine Txn.Returns.bind (Txn.returns_reads (a := []) rfl) fun authorities w₄ hselect => ?_
  obtain ⟨hauthorities, rfl⟩ := select_ok.1 hselect
  cases hauthorities
  refine (Txn.returns_lift (a := ()) rfl w₄).bind fun _ w₅ hlift => ?_
  obtain ⟨-, rfl⟩ := Txn.lift_ok.1 hlift
  refine (insertCard_returns hsteady hobliging values).bind fun card w₆ hcard => ?_
  obtain ⟨hsteady₆, -⟩ := insertCard_steady hsteady hfloats hcard
  refine (insertSources_returns hsteady₆ hobliging card.id hsources).bind fun _ w₇ _ => ?_
  exact Txn.returns_pure card w₇

theorem supersede_returns {w : MemoryWorld F} (h : Healthy env w) (hobliging : Obliging env)
    {values : CardValues F} (hvalues : validateCardInput env values = .ok ())
    (hfloats : values.Floats) {sources : List EvidenceSource} (hne : sources ≠ [])
    (hsources : ∀ source ∈ sources, checkSource source = .ok ()) {old : CardRow F}
    (hold : old ∈ w.db.cards)
    (hauthority : validateDerivedAuthority values.authority [old.authority] = .ok ()) :
    Txn.Returns (supersede env old.id values sources) w := by
  refine (Txn.returns_lift hvalues w).bind fun _ w₁ hlift => ?_
  obtain ⟨-, rfl⟩ := Txn.lift_ok.1 hlift
  refine (Txn.returns_lift ((raiseIf_ok (u := ())).2 hne) w₁).bind fun _ w₂ hlift => ?_
  obtain ⟨-, rfl⟩ := Txn.lift_ok.1 hlift
  refine writeTransaction_returns h fun w₃ hsteady hcards _ _ => ?_
  rw [← hcards] at hold
  have hread : cardAuthority env old.id w₃.db = .ok old.authority := by
    rw [cardAuthority, requireAuthenticatedCard_mem hsteady hold]
    rfl
  refine Txn.Returns.bind (Txn.returns_reads hread) fun authority w₄ hselect => ?_
  obtain ⟨hauthority', rfl⟩ := select_ok.1 hselect
  rw [hread] at hauthority'
  cases hauthority'
  refine (Txn.returns_lift hauthority w₄).bind fun _ w₅ hlift => ?_
  obtain ⟨-, rfl⟩ := Txn.lift_ok.1 hlift
  refine (insertCard_returns hsteady hobliging values).bind fun card w₆ hcard => ?_
  obtain ⟨hsteady₆, row, hrow, hid⟩ := insertCard_steady hsteady hfloats hcard
  obtain ⟨_, _, -, -, -, -, hext, -, -⟩ := insertCard_ok hcard
  have hold₆ : old ∈ w₆.db.cards := by
    rw [hext.cards]
    exact List.mem_append_left _ hold
  refine (insertSources_returns hsteady₆ hobliging card.id hsources).bind fun _ w₇ hinsert => ?_
  obtain ⟨d, hd, honly, -⟩ := insertSources_ok hinsert
  have hcards₇ : w₇.db.cards = w₆.db.cards := by
    rw [hd.cards, honly.cards, List.append_nil]
  rw [← hcards₇] at hrow hold₆
  rw [← hid]
  refine (retire_returns (hsteady₆.unchanged hd honly.cards) hobliging hrow hold₆).bind
    fun _ w₈ _ => Txn.returns_pure card w₈

theorem transition_returns {w : MemoryWorld F} (h : Healthy env w) (hobliging : Obliging env)
    (status : String) (hstatus : status ∈ memoryStatuses) (hretires : status ≠ "active")
    {row : CardRow F} (hrow : row ∈ w.db.cards) {related : Option (CardRow F)}
    (hrelated : ∀ other ∈ related, other ∈ w.db.cards) :
    Txn.Returns (transition env row.id status (related.map CardRow.id)) w := by
  refine Txn.Returns.bind ⟨(), _, liftRaise_ok.2 ⟨?_, rfl⟩⟩ fun _ w₁ hlift => ?_
  · rintro (hno | hactive)
    · exact hno hstatus
    · exact hretires hactive
  obtain ⟨-, rfl⟩ := liftRaise_ok.1 hlift
  refine writeTransaction_returns h fun w₂ hsteady hcards _ _ => ?_
  rw [← hcards] at hrow
  refine Txn.Returns.bind (Txn.returns_reads (requireAuthenticatedCard_mem hsteady hrow))
    fun _ w₃ hselect => ?_
  obtain ⟨-, rfl⟩ := select_ok.1 hselect
  have hrequire : requireRelated env (related.map CardRow.id) w₃.db = .ok () := by
    cases related with
    | none => rfl
    | some other =>
        have hother := hrelated other rfl
        rw [← hcards] at hother
        rw [Option.map_some, requireRelated, requireAuthenticatedCard_mem hsteady hother]
        rfl
  refine Txn.Returns.bind (Txn.returns_reads hrequire) fun _ w₄ hselect => ?_
  obtain ⟨-, rfl⟩ := select_ok.1 hselect
  exact insertEvent_returns hsteady hobliging hstatus row.id _

theorem addEdge_returns {w : MemoryWorld F} (h : Healthy env w) (hobliging : Obliging env)
    (relation : String) (hrelation : relation ∈ memoryRelations) {source target : CardRow F}
    (hsource : source ∈ w.db.cards) (htarget : target ∈ w.db.cards) :
    Txn.Returns (addEdge env source.id target.id relation) w := by
  refine writeTransaction_returns h fun w₁ hsteady hcards _ _ => ?_
  rw [← hcards] at hsource htarget
  exact insertEdge_returns hsteady hobliging hrelation hsource htarget

/-! ## A singleton is revised -/

/-- The newest event of a card the store created is one the store signed. -/
theorem currentStatus_returns {w : MemoryWorld F} (h : Sound env w) {row : CardRow F}
    (hrow : row ∈ w.db.cards) : ∃ status, currentStatus env row.id w.db = .ok status := by
  unfold currentStatus
  cases hlatest : latestEvent row.id w.db with
  | none =>
      have hempty := Log.newest_eq_none.1 hlatest
      obtain ⟨event, hevent, hid⟩ := h.covered row hrow
      have hmem : event ∈ w.db.cardEvents.filter fun e => e.cardId = row.id :=
        List.mem_filter.2 ⟨hevent, decide_eq_true hid⟩
      rw [hempty] at hmem
      cases hmem
  | some event =>
      have hmem := (Log.newest_eq_some.1 hlatest).mem
      have hsigned := h.eventsSigned event (List.mem_filter.1 hmem).1
      refine ⟨event.eventType, ?_⟩
      show (verifyEvent env event >>= _) = _
      rw [verifyEvent_signed env hsigned]
      rfl

theorem carriesAnchor_made {row : CardRow F} (h : row.Made env) (anchor : String) :
    ∃ carries, carriesAnchor anchor row = .ok carries := by
  obtain ⟨cardId, values, t, rfl⟩ := h
  exact ⟨_, carriesAnchor_newCardRow anchor cardId values t⟩

theorem readFamily_returns {w w₁ : MemoryWorld F} (h : Healthy env w) (anchor : String)
    (values : CardValues F) (hcards : w₁.db.cards = w.db.cards)
    (hevents : w₁.db.cardEvents = w.db.cardEvents) :
    ∃ family, readFamily env anchor values w₁.db = .ok family := by
  refine except_mapM_returns fun row hrow => ?_
  have hrow := (List.mem_filter.1 (Log.mem_newestFirst.1 hrow)).1
  rw [hcards] at hrow
  obtain ⟨status, hstatus⟩ := currentStatus_returns h.sound hrow
  obtain ⟨carries, hcarries⟩ := carriesAnchor_made (h.sound.made row hrow) anchor
  have hsame : currentStatus env row.id w₁.db = .ok status := by
    rw [currentStatus, latestEvent, hevents]
    exact hstatus
  exact ⟨⟨row, status, carries⟩, except_bind_ok.2 ⟨(), h.verified row hrow,
    except_bind_ok.2 ⟨status, hsame, except_bind_ok.2 ⟨carries, hcarries, rfl⟩⟩⟩⟩

omit [Json.PyFloat F] in
theorem revisionMoment_returns (hobliging : Obliging env) {row : CardRow F}
    (h : ∃ parsed, parseTimestamp env row.validFrom "valid_from" = .ok parsed) :
    ∃ moment, revisionMoment env row = .ok moment := by
  obtain ⟨parsed, hparsed⟩ := h
  rw [revisionMoment, hparsed]
  cases parsed with
  | none => exact hobliging.fromtimestamp_ok row.recordedAtNs
  | some moment => exact ⟨moment, rfl⟩

omit [Json.PyFloat F] in
variable (env) in
theorem latestRevision_returns {rows : List (CardRow F)}
    (h : ∀ row ∈ rows, ∃ moment, revisionMoment env row = .ok moment) :
    ∃ best, latestRevision env rows = .ok best := by
  refine except_foldlM_returns (fun row hrow best => ?_) none
  obtain ⟨moment, hmoment⟩ := h row hrow
  rw [hmoment, except_ok_bind]
  cases best with
  | none => exact ⟨_, rfl⟩
  | some best =>
      show ∃ b', (if best.2 < moment then _ else _) = _
      split
      · exact ⟨_, rfl⟩
      · exact ⟨_, rfl⟩

theorem insertCard_extends {values : CardValues F} {card : MemoryCard F} {w w' : MemoryWorld F}
    (h : insertCard env values w = (.ok card, w')) :
    ∃ d, Extends env w d w' ∧ d.sources = [] := by
  obtain ⟨row, event, -, -, -, -, hext, -, -⟩ := insertCard_ok h
  exact ⟨_, hext, rfl⟩

section Deciding

variable {sources : List EvidenceSource} {w : MemoryWorld F} (hsteady : Steady env w)
  (hobliging : Obliging env) (hconsistent : Consistent sources w)

include hsteady hobliging hconsistent

theorem reviseSingleton_returns {values : CardValues F} (hfloats : values.Floats)
    {active : List (CardRow F)} (hactive : ∀ old ∈ active, old ∈ w.db.cards) :
    Txn.Returns (reviseSingleton env active values sources) w := by
  refine (insertCard_returns hsteady hobliging values).bind fun card w₁ hcard => ?_
  obtain ⟨hsteady₁, row, hrow, hid⟩ := insertCard_steady hsteady hfloats hcard
  obtain ⟨d, hd, hnoSources⟩ := insertCard_extends hcard
  have hconsistent₁ := hconsistent.extends hd (recorded_of_none hnoSources)
  rw [← hid]
  refine (addSources_returns hsteady₁ hobliging hrow hconsistent₁).bind fun _ w₂ hadd => ?_
  obtain ⟨d', hd', honly⟩ := addSources_ok hadd
  have hcards₂ : w₂.db.cards = w.db.cards ++ d.cards := by
    rw [hd'.cards, honly.cards, List.append_nil, hd.cards]
  refine (retireEach_returns row (hsteady₁.unchanged hd' honly.cards) hobliging ?_ ?_
    fun old => Or.inr rfl).bind fun _ w₃ _ => Txn.returns_pure card w₃
  · rw [hd'.cards, honly.cards, List.append_nil]
    exact hrow
  · intro old hold
    rw [hcards₂]
    exact List.mem_append_left _ (hactive old hold)

theorem replaySingleton_returns {canonical : CardRow F} (hcanonical : canonical ∈ w.db.cards)
    {active : List (CardRow F)} (hactive : ∀ old ∈ active, old ∈ w.db.cards) :
    Txn.Returns (replaySingleton env canonical active sources) w := by
  refine (addSources_returns hsteady hobliging hcanonical hconsistent).bind fun _ w₁ hadd => ?_
  obtain ⟨d, hd, honly⟩ := addSources_ok hadd
  have hcards₁ : w₁.db.cards = w.db.cards := by
    rw [hd.cards, honly.cards, List.append_nil]
  rw [← hcards₁] at hcanonical hactive
  refine (retireEach_returns _ (hsteady.unchanged hd honly.cards) hobliging hcanonical hactive
    fun old => ?_).bind fun _ w₂ _ => ?_
  · by_cases hsame : old.id = canonical.id
    · exact Or.inl (if_pos hsame)
    · exact Or.inr (if_neg hsame)
  · rw [hcards₁] at hcanonical
    obtain ⟨card, hcard⟩ := cardFromRow_made (hsteady.made canonical hcanonical) "active"
    exact Txn.returns_lift hcard w₂

theorem admitStale_returns {newest : CardRow F} (hnewest : newest ∈ w.db.cards)
    {family : List (FamilyMember F)} (hfamily : ∀ m ∈ family, m.row ∈ w.db.cards)
    {values : CardValues F} (hfloats : values.Floats) :
    Txn.Returns (admitStale env newest family values sources) w := by
  have hactive : ∀ old ∈ (family.filter fun m => m.status = "active").map FamilyMember.row,
      old ∈ w.db.cards := by
    intro old hold
    obtain ⟨m, hm, rfl⟩ := List.mem_map.1 hold
    exact hfamily m (List.mem_filter.1 hm).1
  have hretire : ∀ old : CardRow F, (if old.id = newest.id then pure ()
      else retire env newest.id old.id : Tx F PUnit) = pure () ∨
      (if old.id = newest.id then pure () else retire env newest.id old.id : Tx F PUnit) =
        retire env newest.id old.id := by
    intro old
    by_cases hsame : old.id = newest.id
    · exact Or.inl (if_pos hsame)
    · exact Or.inr (if_neg hsame)
  refine (retireEach_returns _ hsteady hobliging hnewest hactive hretire).bind fun _ w₁ hrun => ?_
  obtain ⟨d, hd, hcards, hsources, -, -⟩ := retireOthers_ok hrun
  have hcards₁ : w₁.db.cards = w.db.cards := by
    rw [hd.cards, hcards, List.append_nil]
  have hsteady₁ := hsteady.unchanged hd hcards
  have hconsistent₁ := hconsistent.extends hd (recorded_of_none hsources)
  rw [← hcards₁] at hnewest hfamily
  cases hfound : family.find? fun m => m.carries && m.status ≠ "active" with
  | some historical =>
      have hhistorical := hfamily historical (List.mem_of_find?_eq_some hfound)
      refine (addSources_returns hsteady₁ hobliging hhistorical hconsistent₁).bind
        fun _ w₂ _ => ?_
      obtain ⟨card, hcard⟩ := cardFromRow_made (hsteady₁.made _ hhistorical) historical.status
      exact Txn.returns_lift hcard w₂
  | none =>
      refine (insertCard_returns hsteady₁ hobliging values).bind fun card w₂ hcard => ?_
      obtain ⟨hsteady₂, row, hrow, hid⟩ := insertCard_steady hsteady₁ hfloats hcard
      obtain ⟨d₂, hd₂, hnoSources⟩ := insertCard_extends hcard
      have hconsistent₂ := hconsistent₁.extends hd₂ (recorded_of_none hnoSources)
      rw [← hid]
      refine (addSources_returns hsteady₂ hobliging hrow hconsistent₂).bind fun _ w₃ hadd => ?_
      obtain ⟨d₃, hd₃, honly⟩ := addSources_ok hadd
      have hcards₃ : w₃.db.cards = w₂.db.cards := by
        rw [hd₃.cards, honly.cards, List.append_nil]
      have hsteady₃ := hsteady₂.unchanged hd₃ honly.cards
      have hnewest₃ : newest ∈ w₃.db.cards := by
        rw [hcards₃, hd₂.cards]
        exact List.mem_append_left _ hnewest
      have hrow₃ : row ∈ w₃.db.cards := by
        rw [hcards₃]
        exact hrow
      refine (retire_returns hsteady₃ hobliging hnewest₃ hrow₃).bind fun _ w₄ hretired => ?_
      obtain ⟨d₄, hd₄, hcards₄, -⟩ := retire_ok hretired
      have hsteady₄ := hsteady₃.unchanged hd₄ hcards₄
      have hrow₄ : row ∈ w₄.db.cards := by
        rw [hd₄.cards]
        exact List.mem_append_left _ hrow₃
      refine Txn.Returns.bind (Txn.returns_reads (requireCard_of_mem hsteady₄.unique hrow₄))
        fun found w₅ hselect => ?_
      obtain ⟨hread, rfl⟩ := select_ok.1 hselect
      rw [requireCard_of_mem hsteady₄.unique hrow₄] at hread
      cases hread
      obtain ⟨made, hmade⟩ := cardFromRow_made (hsteady₄.made row hrow₄) "superseded"
      exact Txn.returns_lift hmade w₅

theorem decideSingleton_returns {anchor : String} {family : List (FamilyMember F)}
    (hfamily : ∀ m ∈ family, m.row ∈ w.db.cards)
    (hdated : ∀ row ∈ w.db.cards,
      ∃ parsed, parseTimestamp env row.validFrom "valid_from" = .ok parsed)
    {values : CardValues F} (hvalues : validateCardInput env values = .ok ())
    (hfloats : values.Floats) :
    Txn.Returns (decideSingleton env anchor family values sources) w := by
  have hrows : ∀ (p : FamilyMember F → Bool), ∀ row ∈ (family.filter p).map FamilyMember.row,
      row ∈ w.db.cards := by
    intro p row hrow
    obtain ⟨m, hm, rfl⟩ := List.mem_map.1 hrow
    exact hfamily m (List.mem_filter.1 hm).1
  have hactive := hrows fun m => m.status = "active"
  obtain ⟨incoming, hincoming⟩ := validateCardInput_dated hvalues
  obtain ⟨newest, hnewest⟩ := latestRevision_returns env
    fun row hrow => revisionMoment_returns hobliging (hdated row (hactive row hrow))
  obtain ⟨exact, hexact⟩ := latestRevision_returns env fun row hrow => revisionMoment_returns hobliging
    (hdated row (hrows (fun m => m.carries && m.status = "active") row hrow))
  have hstale : ∃ stale, staleArrival anchor incoming newest = .ok stale := by
    rcases newest with _ | ⟨top, latest⟩
    · exact ⟨false, rfl⟩
    · rcases incoming with _ | moment
      · exact ⟨false, rfl⟩
      · have htop := ((latestRevision_ok hnewest).2 top latest rfl).1
        obtain ⟨carries, hcarries⟩ := carriesAnchor_made (hsteady.made top (hactive top htop)) anchor
        rw [staleArrival]
        split
        · rw [hcarries]
          exact ⟨_, rfl⟩
        · exact ⟨false, rfl⟩
  obtain ⟨stale, hstale⟩ := hstale
  have hother : ∀ (active : List (CardRow F))
      (next : Option (CardRow F × Int) → Tx F (MemoryCard F)),
      (∀ canonical moment,
        next (some (canonical, moment)) = replaySingleton env canonical active sources) →
      next none = reviseSingleton env active values sources →
      (∀ old ∈ active, old ∈ w.db.cards) →
      Txn.Returns (Txn.lift (latestRevision env
        ((family.filter fun m => m.carries && m.status = "active").map FamilyMember.row)) >>=
          next) w := by
    intro active next hreplay hrevise hactive
    refine (Txn.returns_lift hexact w).bind fun found w₁ hlift => ?_
    obtain ⟨hfound, rfl⟩ := Txn.lift_ok.1 hlift
    rcases found with _ | ⟨canonical, moment⟩
    · rw [hrevise]
      exact reviseSingleton_returns hsteady hobliging hconsistent hfloats hactive
    · have hmem := ((latestRevision_ok hfound).2 canonical moment rfl).1
      rw [hreplay]
      exact replaySingleton_returns hsteady hobliging hconsistent
        (hrows (fun m => m.carries && m.status = "active") canonical hmem) hactive
  refine (Txn.returns_lift hincoming w).bind fun _ w₁ hlift => ?_
  obtain ⟨heq, rfl⟩ := Txn.lift_ok.1 hlift
  rw [hincoming] at heq
  cases heq
  refine (Txn.returns_lift hnewest w₁).bind fun _ w₂ hlift => ?_
  obtain ⟨heq, rfl⟩ := Txn.lift_ok.1 hlift
  rw [hnewest] at heq
  cases heq
  refine (Txn.returns_lift hstale w₂).bind fun _ w₃ hlift => ?_
  obtain ⟨heq, rfl⟩ := Txn.lift_ok.1 hlift
  rw [hstale] at heq
  cases heq
  cases stale with
  | false => exact hother _ _ (fun _ _ => rfl) rfl hactive
  | true =>
      rcases newest with _ | ⟨top, latest⟩
      · exact hother _ _ (fun _ _ => rfl) rfl hactive
      · have htop := ((latestRevision_ok hnewest).2 top latest rfl).1
        exact admitStale_returns hsteady hobliging hconsistent (hactive top htop) hfamily hfloats

end Deciding

theorem upsertScopedSingleton_returns {w : MemoryWorld F} (h : Healthy env w)
    (hobliging : Obliging env) (anchor : String) {values : CardValues F}
    {sources : List EvidenceSource} (hvalues : validateCardInput env values = .ok ())
    (hfloats : values.Floats) (hanchor : pyStrip anchor ≠ "" ∧ anchor ∈ values.cueAnchors)
    (hne : sources ≠ []) (hconsistent : Consistent sources w) :
    Txn.Returns (upsertScopedSingleton env anchor values sources) w := by
  refine (Txn.returns_lift hvalues w).bind fun _ w₁ hlift => ?_
  obtain ⟨-, rfl⟩ := Txn.lift_ok.1 hlift
  refine Txn.Returns.bind ⟨(), _, liftRaise_ok.2 ⟨?_, rfl⟩⟩ fun _ w₂ hlift => ?_
  · rintro (hblank | habsent)
    · exact hanchor.1 hblank
    · exact habsent hanchor.2
  obtain ⟨-, rfl⟩ := liftRaise_ok.1 hlift
  refine (Txn.returns_lift ((raiseIf_ok (u := ())).2 hne) w₂).bind fun _ w₃ hlift => ?_
  obtain ⟨-, rfl⟩ := Txn.lift_ok.1 hlift
  refine writeTransaction_returns h fun w₄ hsteady hcards hevents hsources => ?_
  obtain ⟨family, hfamily⟩ := readFamily_returns h anchor values hcards hevents
  refine Txn.Returns.bind (Txn.returns_reads hfamily) fun found w₅ hselect => ?_
  obtain ⟨hfound, rfl⟩ := select_ok.1 hselect
  have hread := (readFamily_ok hfound).1
  have hstored : Consistent sources w₅ := {
    checked := hconsistent.checked
    given := hconsistent.given
    stored := by rw [hsources]; exact hconsistent.stored }
  refine decideSingleton_returns hsteady hobliging hstored (fun m hm => (hread m hm).1) ?_ hvalues
    hfloats
  rw [hcards]
  exact h.dated

/-! ## A machine

Digests that never collide, identifiers of 32 digits that count up, a few
dates, and whatever clock. -/

def countedId (n : Nat) : String := String.ofList (Nat.toDigits 10 (10 ^ 31 + n))

theorem isHex_countedId (n : Nat) : isHex (countedId n) = true := by
  rw [isHex, countedId, String.toList_ofList, List.all_eq_true]
  intro c hc
  rw [isHexDigit, Nat.isDigit_of_mem_toDigits (by decide) (by decide) hc]
  rfl

theorem countedId_injective : Function.Injective countedId := by
  intro m n h
  have hvalue := congrArg (Nat.ofDigitChars 10 · 0) (String.ofList_injective h)
  simp only [Nat.ofDigitChars_toDigits (b := 10) (by decide) (by decide)] at hvalue
  omega

/-- Three days, in microseconds. -/
def dates : Dict Int :=
  [("2025-01-01T00:00:00+00:00", 1735689600000000), ("2025-01-02T00:00:00+00:00", 1735776000000000),
    ("2025-01-03T00:00:00+00:00", 1735862400000000)]

def machine (clock : Nat → Int) : MemoryEnv Unit where
  digests := hexDigests
  key := ⟨(List.replicate 32 7).toArray⟩
  uuid4 := countedId
  uuid4_hex := isHex_countedId
  timeNs := clock
  fromisoformat text := (dates.get? text).map fun moment => ⟨true, moment⟩
  fromtimestamp ns := .ok (ns / 1000)
  fts5 := true
  repr _ := "{}"

theorem machine_obliging (clock : Nat → Int) : Obliging (machine clock) where
  uuid4_injective := countedId_injective
  fromtimestamp_ok ns := ⟨ns / 1000, rfl⟩

/-- A clock that moves on with every reading. -/
def ticking (n : Nat) : Int := 1735900000000000000 + n

theorem ticking_monotone : Monotone ticking := by
  intro m n h
  unfold ticking
  omega

/-- An editor setting. -/
def setting (value anchor authority : String) (validFrom : Option String) : CardValues Unit where
  value := value
  abstraction := "editor"
  cueAnchors := [anchor]
  kind := "state"
  subtype := "setting"
  scope := "user"
  scopeKey := ""
  origin := "user"
  authority := authority
  confidence := .float ()
  importance := .float ()
  validFrom := validFrom
  validTo := none

theorem setting_floats (value anchor authority : String) (validFrom : Option String) :
    (setting value anchor authority validFrom).Floats := ⟨(), (), rfl, rfl⟩

def evidence (sourceRef : String) : EvidenceSource where
  sourceType := "event"
  sourceRef := sourceRef
  sourceSha256 := "e3b0c44298fc1c149afbf4c8996fb92427ae41e4649b934ca495991b7852b855"
  origin := "user"
  id := ""
  cardId := ""
  recordedAtNs := 0

theorem checkSource_evidence : checkSource (evidence "first") = .ok () := by rfl

theorem consistent_start (clock : Nat → Int) :
    Consistent [evidence "first"] (.start Unit) ∧ Healthy (machine clock) (.start Unit) := by
  refine ⟨⟨fun source hsource => ?_, fun row hrow => absurd hrow List.not_mem_nil,
    fun source hsource other hother _ _ => ?_⟩, healthy_start⟩
  · rw [List.mem_singleton.1 hsource]
    exact checkSource_evidence
  · rw [List.mem_singleton.1 hsource, List.mem_singleton.1 hother]
    exact ⟨rfl, rfl⟩

/-- Two cards of one family that were added one after the other. -/
theorem two_cards (meets : MemoryWorld Unit → Operation Unit → Prop) (first second : String)
    (hmeets : ∀ w values sources, meets w (.addCard values sources []))
    (hfirst : validateCardInput (machine ticking) (setting "vim" "editor" first none) = .ok ())
    (hsecond : validateCardInput (machine ticking) (setting "nano" "editor" second none) = .ok ()) :
    ∃ w a b, Reached (machine ticking) meets w ∧ Healthy (machine ticking) w ∧
      Consistent [evidence "first"] w ∧ a ∈ w.db.cards ∧ b ∈ w.db.cards ∧ a.authority = first ∧
      b.authority = second := by
  have hadd : ∀ {w : MemoryWorld Unit} {value authority : String},
      Reached (machine ticking) meets w → Consistent [evidence "first"] w →
      Healthy (machine ticking) w →
      validateCardInput (machine ticking) (setting value "editor" authority none) = .ok () →
      ∃ row w', row.authority = authority ∧ Reached (machine ticking) meets w' ∧
        Consistent [evidence "first"] w' ∧ Healthy (machine ticking) w' ∧
        w'.db.cards = w.db.cards ++ [row] := by
    intro w value authority hreached hconsistent h hvalues
    have hfloats := setting_floats value "editor" authority none
    obtain ⟨card, w', hrun⟩ := addCard_returns h (machine_obliging ticking) hvalues hfloats
      (List.cons_ne_nil (evidence "first") []) hconsistent.checked
    obtain ⟨d, row, hd, hadmitted, hcards, -, hof, -, hrecorded, -⟩ := addCard_ok hrun
    refine ⟨row, w', ?_, ?_, hconsistent.extends hd hrecorded,
      h.extends hd hadmitted fun r hr => ?_, by rw [hd.cards, hcards]⟩
    · obtain ⟨-, cardId, t, rfl⟩ := hof
      rfl
    · have hstep := hreached.step _ (hmeets w (setting value "editor" authority none)
        [evidence "first"])
      rw [perform_dropValue rfl hrun] at hstep
      exact hstep
    · rw [hcards] at hr
      rw [List.mem_singleton.1 hr]
      exact ⟨_, hfloats, hof⟩
  obtain ⟨hconsistent, hhealthy⟩ := consistent_start ticking
  obtain ⟨a, w₁, ha, hreached₁, hconsistent₁, hhealthy₁, hcards₁⟩ :=
    hadd .start hconsistent hhealthy hfirst
  obtain ⟨b, w₂, hb, hreached₂, hconsistent₂, hhealthy₂, hcards₂⟩ :=
    hadd hreached₁ hconsistent₁ hhealthy₁ hsecond
  refine ⟨w₂, a, b, hreached₂, hhealthy₂, hconsistent₂, ?_, ?_, ha, hb⟩
  · rw [hcards₂, hcards₁]
    exact List.mem_append_left _ (List.mem_append_right _ (List.mem_singleton_self a))
  · rw [hcards₂]
    exact List.mem_append_right _ (List.mem_singleton_self b)

end MemoryStore

end MiniCodeAgent
