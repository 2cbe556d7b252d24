import MiniCodeAgent.Proofs.Feedback
import MiniCodeAgent.Proofs.Untouched
import MiniCodeAgent.Proofs.MemoryProgress
import MiniCodeAgent.Proofs.RetrievalFilter

/-!
# Feedback over every run of the store

`Recorded` is what every run keeps true of the two control tables: decisions and
outcomes read back, an outcome is of a recorded decision, and no reward is out of
range. On such tables the statistics are always computed, and one more outcome is
one more use of the cards its decision selected.
-/

namespace MiniCodeAgent

variable {F : Type} [Json.PyFloat F]

open Json.PyFloat (val)
open MemoryStore

/-! ## The statistics -/

section Stats

variable {env : RetrievalEnv F}

theorem memoryUtilityStats_ok (hexact : env.floats.Exact) {requested : List String}
    {db : Database F} {stats : List (MemoryUtilityStats F)}
    (h : memoryUtilityStats env requested db = .ok stats) :
    ∃ decisions outcomes, memoryDecisions env db = .ok decisions ∧
      memoryOutcomes env db = .ok outcomes ∧
      (∀ stat ∈ stats, stat.uses = stat.successes + stat.failures) ∧
      ∀ cardId, Reflects (feedbackOf env stats cardId)
        (outcomes.flatMap (usesOf requested decisions cardId)) := by
  unfold memoryUtilityStats at h
  obtain ⟨decisions, hdecisions, h⟩ := except_bind_ok.1 h
  obtain ⟨outcomes, houtcomes, h⟩ := except_bind_ok.1 h
  obtain ⟨aggregates, haggregates, h⟩ := except_bind_ok.1 h
  cases h
  have htallies : Tallies env (fun cardId => outcomes.flatMap (usesOf requested decisions cardId))
      aggregates := by
    refine except_foldlM_ok (P := fun done aggregates => Tallies env
      (fun cardId => done.flatMap (usesOf requested decisions cardId)) aggregates) haggregates
      (tallies_start hexact requested) fun {before x c c'} _ hc hx => ?_
    simp only [List.flatMap_append, List.flatMap_singleton]
    split at hx
    · cases hx
    · next decision hdecision =>
        simp only [usesOf, hdecision]
        split at hx
        · next hshadow =>
            cases hx
            simp only [hshadow, if_true, List.append_nil]
            exact hc
        · next hshadow =>
            simp only [hshadow, Bool.false_eq_true, if_false]
            exact hc.addDecision hexact hx
  refine ⟨decisions, outcomes, hdecisions, houtcomes, fun stat hstat => ?_, fun cardId => ?_⟩
  · have hreflects := htallies.reflects stat.cardId
    rw [htallies.get?_of_mem hstat] at hreflects
    exact hreflects.total
  · rw [htallies.feedbackOf]
    exact htallies.reflects cardId

omit [Json.PyFloat F] in
theorem except_bind_returns {α β : Type} {x : Except PyExc α} {f : α → Except PyExc β}
    (hx : ∃ a, x = .ok a) (hf : ∀ a, ∃ b, f a = .ok b) : ∃ b, (x >>= f) = .ok b := by
  obtain ⟨a, ha⟩ := hx
  obtain ⟨b, hb⟩ := hf a
  exact ⟨b, except_bind_ok.2 ⟨a, ha, hb⟩⟩

/-- The aggregation raises only over a card id that is no text or an outcome of no decision. -/
theorem memoryUtilityStats_returns (requested : List String) {db : Database F}
    {decisions : List (MemoryDecisionRecord F)} {outcomes : List (OutcomeRow F)}
    (hdecisions : memoryDecisions env db = .ok decisions)
    (houtcomes : memoryOutcomes env db = .ok outcomes)
    (htexts : ∀ decision ∈ decisions, ∃ ids : List String, decision.selectedCardIds = ids.map .str)
    (hof : ∀ outcome ∈ outcomes, ∃ decision ∈ decisions, decision.id = outcome.decisionId) :
    ∃ stats, memoryUtilityStats env requested db = .ok stats := by
  unfold memoryUtilityStats
  rw [hdecisions, except_ok_bind, houtcomes, except_ok_bind]
  have hselected : ∀ (outcome : OutcomeRow F) (decision : MemoryDecisionRecord F),
      decision ∈ decisions → ∀ aggregates, ∃ added,
        decision.selectedCardIds.foldlM (addOutcomeOf env requested outcome) aggregates =
          .ok added := by
    intro outcome decision hdecision
    obtain ⟨ids, hids⟩ := htexts decision hdecision
    refine except_foldlM_returns fun selected hselected aggregates => ?_
    rw [hids] at hselected
    obtain ⟨id, -, rfl⟩ := List.mem_map.1 hselected
    by_cases hskip : requested ≠ [] ∧ id ∉ requested
    · exact ⟨_, if_pos hskip⟩
    · exact ⟨_, if_neg hskip⟩
  refine except_bind_returns (except_foldlM_returns (fun outcome houtcome aggregates => ?_) _)
    fun aggregates => ⟨_, rfl⟩
  obtain ⟨decision, hdecision, hid⟩ := hof outcome houtcome
  cases hfind : decisions.reverse.find? fun record => record.id = outcome.decisionId with
  | none =>
      have hnone := List.find?_eq_none.1 hfind decision (List.mem_reverse.2 hdecision)
      simp [hid] at hnone
  | some found =>
      by_cases hshadow : found.shadow = true
      · exact ⟨aggregates, if_pos hshadow⟩
      · obtain ⟨added, hadded⟩ := hselected outcome found
          (List.mem_reverse.1 (List.mem_of_find?_eq_some hfind)) aggregates
        exact ⟨added, (if_neg hshadow).trans hadded⟩

end Stats

/-! ## The control tables -/

namespace MemoryStore

variable {env : MemoryEnv F}

/-- The row authenticates and the cards it selected are read back as texts. -/
structure DecisionRow.Readable (env : MemoryEnv F) (row : DecisionRow F) : Prop where
  verified : verifyDecision env row = .ok ()
  texts : ∃ ids : List String,
    loadsText row.selectedCardIdsJson = .ok (.arr (ids.map .str) : Json F)

structure Recorded (env : MemoryEnv F) (db : Database F) : Prop where
  ready : db.memoryDecisions = [] ∨ Ready env db
  readable : ∀ row ∈ db.memoryDecisions, row.Readable env
  verified : ∀ row ∈ db.memoryOutcomes, verifyOutcome env row = .ok ()
  decided : ∀ row ∈ db.memoryOutcomes, row.decisionId ∈ db.memoryDecisions.map DecisionRow.id
  rewarded : ∀ row ∈ db.memoryOutcomes, Rewarded row

/-- The two tables as a reader of them has them. -/
def controlReading (db : Database F) : List (DecisionRow F) × List (OutcomeRow F) :=
  (db.memoryDecisions, db.memoryOutcomes)

omit [Json.PyFloat F] in
theorem controlReading_ignores : IgnoresCards (controlReading (F := F)) where
  initialized _ _ := rfl
  metas _ _ := rfl
  sources _ _ := rfl
  edges _ _ := rfl
  cardEvents _ _ := rfl
  cards _ _ := rfl
  memoryFts _ _ := rfl

theorem loadsText_ids (ids : List String) :
    loadsText (Json.dumps .compact (.arr (ids.map .str) : Json F)) =
      .ok (.arr (ids.map .str) : Json F) := by
  have hwf : (.arr (ids.map .str) : Json F).WF := by
    refine Json.WF.arr fun x hx => ?_
    obtain ⟨id, -, rfl⟩ := List.mem_map.1 hx
    exact Json.WF.str id
  rw [loadsText, Json.loads_dumps Json.Style.compact_ok hwf]

/-- The row a decision is recorded in. -/
def newDecisionRow (env : MemoryEnv F) (querySha256 stage operation : String)
    (cardIds : List String) (expectedUtility : F) (reason : String) (shadow : Bool)
    (w : MemoryWorld F) : DecisionRow F where
  id := env.uuid4 w.uuids
  querySha256 := querySha256
  stage := stage
  operation := operation
  selectedCardIdsJson := Json.dumps .compact (.arr (cardIds.map .str) : Json F)
  expectedUtility := expectedUtility
  reason := reason
  shadow := if shadow then 1 else 0
  recordedAtNs := env.timeNs w.ticks
  signature := sign env [("id", .str (env.uuid4 w.uuids)), ("query_sha256", .str querySha256),
    ("stage", .str stage), ("operation", .str operation),
    ("selected_card_ids", .arr (cardIds.map .str)), ("expected_utility", .float expectedUtility),
    ("reason", .str reason), ("shadow", .bool shadow), ("recorded_at_ns", .int (env.timeNs w.ticks))]

theorem newDecisionRow_readable (querySha256 stage operation : String) (cardIds : List String)
    (expectedUtility : F) (reason : String) (shadow : Bool) (w : MemoryWorld F) :
    (newDecisionRow env querySha256 stage operation cardIds expectedUtility reason shadow
      w).Readable env where
  texts := ⟨cardIds, loadsText_ids cardIds⟩
  verified := by
    have hshadow : decide ((if shadow then (1 : Int) else 0) ≠ 0) = shadow := by
      cases shadow with
      | false => rfl
      | true => rfl
    unfold verifyDecision decisionPayload newDecisionRow
    dsimp only
    rw [loadsText_ids, except_ok_bind, hshadow]
    exact verifySignature_sign env _ _ _

/-- What a recorded decision has become. -/
theorem recordMemoryDecision_row {querySha256 stage operation : String}
    {selectedCardIds : List String} {expectedUtility : PyNumber F} {reason : String}
    {shadow : Bool} {u : Unit} {w w' : MemoryWorld F} (hkept : MetasKept env w.db)
    (h : recordMemoryDecision env querySha256 stage operation selectedCardIds expectedUtility
      reason shadow w = (.ok u, w')) :
    ∃ row : DecisionRow F, row.Readable env ∧
      controlReading w'.db = (w.db.memoryDecisions ++ [row], w.db.memoryOutcomes) ∧
      Ready env w'.db := by
  unfold recordMemoryDecision at h
  rw [Txn.bind_ok] at h
  obtain ⟨_, w, hlift, h⟩ := h
  obtain ⟨-, rfl⟩ := Txn.lift_ok.1 hlift
  obtain ⟨w₁, hsame, hready, h⟩ := writeTransaction_reads controlReading_ignores.toIgnores hkept h
  rw [Txn.bind_ok] at h
  obtain ⟨_, w₂, hrequire, h⟩ := h
  have hunchanged : w₂ = w₁ := by
    refine Txn.forM_ok (P := fun _ w₂ => w₂ = w₁) hrequire rfl ?_
    intro before cardId after w₃ w₄ v _ hP hx
    rw [Txn.bind_ok] at hx
    obtain ⟨_, w₅, hselect, hx⟩ := hx
    rw [(Txn.pure_ok.1 hx).2, (select_ok.1 hselect).2, hP]
  subst hunchanged
  rw [Txn.bind_ok] at h
  obtain ⟨_, w₃, huuid, h⟩ := h
  obtain ⟨rfl, rfl⟩ := uuid4_ok.1 huuid
  rw [Txn.bind_ok] at h
  obtain ⟨_, w₄, htime, h⟩ := h
  obtain ⟨rfl, rfl⟩ := timeNs_ok.1 htime
  obtain ⟨-, rfl⟩ := insertInto_ok.1 h
  have hdecisions : w₂.db.memoryDecisions = w.db.memoryDecisions := congrArg Prod.fst hsame
  have houtcomes : w₂.db.memoryOutcomes = w.db.memoryOutcomes := congrArg Prod.snd hsame
  refine ⟨newDecisionRow env (pyLower querySha256) (pyStrip stage) operation
    (dictFromkeys selectedCardIds) expectedUtility.real (pyStrip reason) shadow w₂,
    newDecisionRow_readable _ _ _ _ _ _ _ _, ?_, hready⟩
  rw [← hdecisions, ← houtcomes]
  rfl

/-- The row an outcome is recorded in, before it is signed. -/
def newOutcomeRow (env : MemoryEnv F) (decisionId : String) (success : Bool) (reward : F)
    (harmful : Bool) (tokenCost : Int) (evidence : EvidenceSource) (w : MemoryWorld F) :
    OutcomeRow F where
  id := env.uuid4 w.uuids
  decisionId := decisionId
  success := if success then 1 else 0
  reward := reward
  harmful := if harmful then 1 else 0
  tokenCost := tokenCost
  evidenceType := evidence.sourceType
  evidenceRef := evidence.sourceRef
  evidenceSha256 := pyLower evidence.sourceSha256
  evidenceOrigin := evidence.origin
  recordedAtNs := env.timeNs w.ticks
  signature := ""

def OutcomeRow.signed (env : MemoryEnv F) (row : OutcomeRow F) : OutcomeRow F :=
  { row with signature := sign env (outcomePayload row) }

theorem verifyOutcome_signed (row : OutcomeRow F) : verifyOutcome env (row.signed env) = .ok () := by
  have hpayload : outcomePayload (row.signed env) = outcomePayload row := rfl
  rw [verifyOutcome, hpayload]
  exact verifySignature_sign env _ _ _

/-- What a recorded outcome has become. -/
structure OutcomeAdded (env : MemoryEnv F) (decisionId : String) (success : Bool)
    (reward : PyNumber F) (harmful : Bool) (row : OutcomeRow F) : Prop where
  of : row.decisionId = decisionId
  succeeded : row.success = if success then 1 else 0
  rewarded : row.reward = reward.real
  harmed : row.harmful = if harmful then 1 else 0
  verified : verifyOutcome env row = .ok ()
  span : -1 ≤ reward.val ∧ reward.val ≤ 1

theorem recordMemoryOutcome_row {decisionId : String} {success : Bool} {reward : PyNumber F}
    {harmful : Bool} {tokenCost : Int} {evidence : EvidenceSource} {u : Unit}
    {w w' : MemoryWorld F} (hkept : MetasKept env w.db)
    (h : recordMemoryOutcome env decisionId success reward harmful tokenCost evidence w =
      (.ok u, w')) :
    ∃ row : OutcomeRow F, OutcomeAdded env decisionId success reward harmful row ∧
      controlReading w'.db = (w.db.memoryDecisions, w.db.memoryOutcomes ++ [row]) ∧
      Ready env w'.db ∧ decisionId ∈ w.db.memoryDecisions.map DecisionRow.id := by
  unfold recordMemoryOutcome at h
  rw [Txn.bind_ok] at h
  obtain ⟨_, w, hlift, h⟩ := h
  obtain ⟨hchecks, rfl⟩ := Txn.lift_ok.1 hlift
  obtain ⟨_, hspan, -⟩ := except_bind_ok.1 hchecks
  obtain ⟨w₁, hsame, hready, h⟩ := writeTransaction_reads controlReading_ignores.toIgnores hkept h
  rw [Txn.bind_ok] at h
  obtain ⟨_, w₁, hselect, h⟩ := h
  obtain ⟨hrequire, rfl⟩ := select_ok.1 hselect
  rw [Txn.bind_ok] at h
  obtain ⟨_, w₃, huuid, h⟩ := h
  obtain ⟨rfl, rfl⟩ := uuid4_ok.1 huuid
  rw [Txn.bind_ok] at h
  obtain ⟨_, w₄, htime, h⟩ := h
  obtain ⟨rfl, rfl⟩ := timeNs_ok.1 htime
  obtain ⟨-, rfl⟩ := insertInto_ok.1 h
  have hdecisions : w₁.db.memoryDecisions = w.db.memoryDecisions := congrArg Prod.fst hsame
  have houtcomes : w₁.db.memoryOutcomes = w.db.memoryOutcomes := congrArg Prod.snd hsame
  refine ⟨(newOutcomeRow env decisionId success reward.real harmful tokenCost evidence w₁).signed
    env, ⟨rfl, rfl, rfl, rfl, verifyOutcome_signed _, ?_⟩, ?_, hready, ?_⟩
  · exact not_not.1 (raiseIf_ok.1 hspan)
  · rw [← hdecisions, ← houtcomes]
    rfl
  · rw [← hdecisions]
    unfold requireDecision at hrequire
    split at hrequire
    · cases hrequire
    · next row hfind =>
        have hid : row.id = decisionId := by simpa using List.find?_some hfind
        exact List.mem_map.2 ⟨row, List.mem_of_find?_eq_some hfind, hid⟩

/-! ## Every run -/

/-- A call that raised has left both tables alone. -/
theorem checkedTransaction_sameReading {check : Except PyExc Unit} {body : Tx F Unit} {e : PyExc}
    {w w' : MemoryWorld F}
    (h : (Txn.lift check >>= fun _ => writeTransaction env body) w = (.error e, w')) :
    SameReading controlReading w w' := by
  rcases Txn.bind_error.1 h with hcheck | ⟨_, w₁, hcheck, hbody⟩
  · exact congrArg (fun p => controlReading p.2.db) hcheck.symm
  · obtain ⟨-, rfl⟩ := Txn.lift_ok.1 hcheck
    exact writeTransaction_sameReading controlReading_ignores.toIgnores hbody

theorem Recorded.same {w w' : MemoryWorld F} (h : Recorded env w.db)
    (hsame : SameReading controlReading w w') (hready : Ready env w.db → Ready env w'.db) :
    Recorded env w'.db := by
  have hdecisions : w'.db.memoryDecisions = w.db.memoryDecisions := congrArg Prod.fst hsame
  have houtcomes : w'.db.memoryOutcomes = w.db.memoryOutcomes := congrArg Prod.snd hsame
  obtain ⟨hopened, hreadable, hverified, hdecided, hrewarded⟩ := h
  constructor
  · rw [hdecisions]
    exact hopened.imp_right hready
  · rw [hdecisions]
    exact hreadable
  · rw [houtcomes]
    exact hverified
  · rw [hdecisions, houtcomes]
    exact hdecided
  · rw [houtcomes]
    exact hrewarded

theorem Recorded.addDecision {w w' : MemoryWorld F} (h : Recorded env w.db) {row : DecisionRow F}
    (hrow : row.Readable env)
    (hadded : controlReading w'.db = (w.db.memoryDecisions ++ [row], w.db.memoryOutcomes))
    (hready : Ready env w'.db) : Recorded env w'.db := by
  have hdecisions : w'.db.memoryDecisions = w.db.memoryDecisions ++ [row] := congrArg Prod.fst hadded
  have houtcomes : w'.db.memoryOutcomes = w.db.memoryOutcomes := congrArg Prod.snd hadded
  refine ⟨Or.inr hready, fun other hother => ?_, ?_, fun other hother => ?_, ?_⟩
  · rw [hdecisions] at hother
    rcases List.mem_append.1 hother with hother | hother
    · exact h.readable other hother
    · rw [List.mem_singleton.1 hother]
      exact hrow
  · rw [houtcomes]
    exact h.verified
  · rw [houtcomes] at hother
    rw [hdecisions, List.map_append]
    exact List.mem_append_left _ (h.decided other hother)
  · rw [houtcomes]
    exact h.rewarded

theorem OutcomeAdded.inRange (hint : ∀ i : Int, val (Json.PyFloat.ofText (Json.dumpInt i) : F) = i)
    {decisionId : String} {success : Bool} {reward : PyNumber F} {harmful : Bool}
    {row : OutcomeRow F} (h : OutcomeAdded env decisionId success reward harmful row) :
    val row.reward = reward.val := by
  rw [h.rewarded]
  cases reward with
  | int i => exact hint i
  | float f => rfl

theorem Recorded.addOutcome (hint : ∀ i : Int, val (Json.PyFloat.ofText (Json.dumpInt i) : F) = i)
    {w w' : MemoryWorld F} (h : Recorded env w.db) {decisionId : String} {success : Bool}
    {reward : PyNumber F} {harmful : Bool} {row : OutcomeRow F}
    (hrow : OutcomeAdded env decisionId success reward harmful row)
    (hadded : controlReading w'.db = (w.db.memoryDecisions, w.db.memoryOutcomes ++ [row]))
    (hready : Ready env w'.db) (hdecision : decisionId ∈ w.db.memoryDecisions.map DecisionRow.id) :
    Recorded env w'.db := by
  have hdecisions : w'.db.memoryDecisions = w.db.memoryDecisions := congrArg Prod.fst hadded
  have houtcomes : w'.db.memoryOutcomes = w.db.memoryOutcomes ++ [row] := congrArg Prod.snd hadded
  have hold : ∀ other ∈ w'.db.memoryOutcomes, other ∈ w.db.memoryOutcomes ∨ other = row := by
    intro other hother
    rw [houtcomes] at hother
    exact (List.mem_append.1 hother).imp_right List.mem_singleton.1
  refine ⟨Or.inr hready, ?_, fun other hother => ?_, fun other hother => ?_,
    fun other hother => ?_⟩
  · rw [hdecisions]
    exact h.readable
  · rcases hold other hother with hother | rfl
    · exact h.verified other hother
    · exact hrow.verified
  · rw [hdecisions]
    rcases hold other hother with hother | rfl
    · exact h.decided other hother
    · rw [hrow.of]
      exact hdecision
  · rcases hold other hother with hother | rfl
    · exact h.rewarded other hother
    · rw [Rewarded, hrow.inRange hint]
      exact hrow.span

/-- One operation, whichever way it ended. -/
theorem Recorded.perform (hint : ∀ i : Int, val (Json.PyFloat.ofText (Json.dumpInt i) : F) = i)
    {w : MemoryWorld F} (h : Recorded env w.db) (hsound : Sound env w) (op : Operation F) :
    Recorded env (MemoryStore.perform env op w).db := by
  obtain ⟨d, hd, -, -⟩ := perform_extends env op w
  have hsame : SameReading controlReading w (MemoryStore.perform env op w) →
      Recorded env (MemoryStore.perform env op w).db := fun hsame => h.same hsame hd.ready
  cases hrun : operate env op w with
  | mk r w' =>
  have hw' : MemoryStore.perform env op w = w' := congrArg Prod.snd hrun
  cases op with
  | recordMemoryDecision querySha256 stage operation selectedCardIds expectedUtility reason shadow =>
      cases r with
      | error e =>
          rw [hw'] at hsame ⊢
          exact hsame (checkedTransaction_sameReading hrun)
      | ok u =>
          obtain ⟨row, hrow, hadded, hready⟩ := recordMemoryDecision_row hsound.metas hrun
          rw [hw']
          exact h.addDecision hrow hadded hready
  | recordMemoryOutcome decisionId success reward harmful tokenCost evidence =>
      cases r with
      | error e =>
          rw [hw'] at hsame ⊢
          exact hsame (checkedTransaction_sameReading hrun)
      | ok u =>
          obtain ⟨row, hrow, hadded, hready, hdecision⟩ := recordMemoryOutcome_row hsound.metas hrun
          rw [hw']
          exact h.addOutcome hint hrow hadded hready hdecision
  | _ =>
      refine hsame (sameReading_operate controlReading_ignores _ ?_ ?_ w)
      · simp
      · simp

theorem recorded_of_reached (hint : ∀ i : Int, val (Json.PyFloat.ofText (Json.dumpInt i) : F) = i)
    {meets : MemoryWorld F → Operation F → Prop} {w : MemoryWorld F} (h : Reached env meets w) :
    Recorded env w.db := by
  induction h with
  | start =>
      refine ⟨Or.inl rfl, ?_, ?_, ?_, ?_⟩
      all_goals exact fun _ hrow => absurd hrow List.not_mem_nil
  | step hreached op _ ih => exact ih.perform hint (sound_of_reached hreached) op

end MemoryStore

/-! ## Reading the tables back -/

section Reading

variable {env : RetrievalEnv F}

theorem schemaVersion_ready {db : Database F} (h : Ready env.store db) :
    schemaVersion env.store db = .ok 2 := by
  unfold schemaVersion
  rw [(getMeta_ready h.2).1, except_ok_bind]
  rfl

theorem memoryOutcomes_ready {db : Database F} (hready : Ready env.store db)
    (hverified : ∀ row ∈ db.memoryOutcomes, verifyOutcome env.store row = .ok ()) :
    memoryOutcomes env db =
      .ok (db.memoryOutcomes.insertionSort fun a b => a.recordedAtNs ≤ b.recordedAtNs) := by
  have hmap : ∀ rows : List (OutcomeRow F), (∀ row ∈ rows, verifyOutcome env.store row = .ok ()) →
      (rows.mapM fun row => do
        verifyOutcome env.store row
        return row) = (.ok rows : Except PyExc (List (OutcomeRow F))) := by
    intro rows hrows
    induction rows with
    | nil => rfl
    | cons row rows ih =>
        rw [List.mapM_cons, hrows row List.mem_cons_self, except_ok_bind,
          ih fun other hother => hrows other (List.mem_cons_of_mem _ hother)]
        rfl
  unfold memoryOutcomes connect
  rw [hready.1, schemaVersion_ready hready]
  exact hmap _ fun row hrow => hverified row ((List.mem_insertionSort _).1 hrow)

/-- The decisions are read off their table alone. -/
theorem memoryDecisions_readable {db : Database F}
    (hreadable : ∀ row ∈ db.memoryDecisions, row.Readable env.store) :
    ∃ decisions : List (MemoryDecisionRecord F), (∀ db' : Database F, Ready env.store db' →
        db'.memoryDecisions = db.memoryDecisions → memoryDecisions env db' = .ok decisions) ∧
      (∀ decision ∈ decisions, ∃ ids : List String, decision.selectedCardIds = ids.map .str) ∧
      (∀ row ∈ db.memoryDecisions, ∃ decision ∈ decisions, decision.id = row.id) ∧
      ∀ decision ∈ decisions, ∃ row ∈ db.memoryDecisions, row.id = decision.id ∧
        (decision.shadow = true ↔ row.shadow ≠ 0) := by
  have hrow : ∀ row ∈ db.memoryDecisions, ∃ ids : List String, (do
      verifyDecision env.store row
      let parsed ← loadsText row.selectedCardIdsJson
      let selected ← pyList parsed
      return ⟨row.id, selected, row.shadow ≠ 0⟩ : Except PyExc (MemoryDecisionRecord F)) =
        .ok ⟨row.id, ids.map .str, row.shadow ≠ 0⟩ := by
    intro row hrow
    obtain ⟨hverified, ids, hids⟩ := hreadable row hrow
    refine ⟨ids, ?_⟩
    rw [hverified, except_ok_bind, hids, except_ok_bind]
    rfl
  have hsorted : ∀ row ∈ db.memoryDecisions.insertionSort fun a b =>
      a.recordedAtNs ≤ b.recordedAtNs, ∃ decision : MemoryDecisionRecord F, (do
        verifyDecision env.store row
        let parsed ← loadsText row.selectedCardIdsJson
        let selected ← pyList parsed
        return ⟨row.id, selected, row.shadow ≠ 0⟩ : Except PyExc (MemoryDecisionRecord F)) =
          .ok decision :=
    fun row hmem => (hrow row ((List.mem_insertionSort _).1 hmem)).imp' _ fun _ h => h
  obtain ⟨decisions, hdecisions⟩ := except_mapM_returns hsorted
  refine ⟨decisions, fun db' hready' hsame => ?_, fun decision hdecision => ?_,
    fun row hmem => ?_, fun decision hdecision => ?_⟩
  · unfold memoryDecisions connect
    rw [hready'.1, schemaVersion_ready hready', hsame]
    exact hdecisions
  · obtain ⟨row, hmem, hread⟩ := except_mapM_mem_result hdecisions hdecision
    obtain ⟨ids, hids⟩ := hrow row ((List.mem_insertionSort _).1 hmem)
    exact ⟨ids, by rw [← Except.ok.inj (hids.symm.trans hread)]⟩
  · obtain ⟨decision, hdecision, hread⟩ := except_mapM_mem hdecisions
      ((List.mem_insertionSort _).2 hmem)
    obtain ⟨ids, hids⟩ := hrow row hmem
    exact ⟨decision, hdecision, by rw [← Except.ok.inj (hids.symm.trans hread)]⟩
  · obtain ⟨row, hmem, hread⟩ := except_mapM_mem_result hdecisions hdecision
    have hmem := (List.mem_insertionSort _).1 hmem
    obtain ⟨ids, hids⟩ := hrow row hmem
    rw [← Except.ok.inj (hids.symm.trans hread)]
    exact ⟨row, hmem, rfl, decide_eq_true_iff⟩

/-- On such tables the feedback of every card is that of its uses. -/
theorem memoryUtilityStats_recorded (hexact : env.floats.Exact) {db : Database F}
    (hrecorded : Recorded env.store db) :
    ∃ decisions : List (MemoryDecisionRecord F),
      (∀ decision ∈ decisions, ∃ row ∈ db.memoryDecisions, row.id = decision.id ∧
        (decision.shadow = true ↔ row.shadow ≠ 0)) ∧
      ∀ (requested : List String) (db' : Database F), Ready env.store db' →
        Recorded env.store db' → db'.memoryDecisions = db.memoryDecisions →
        ∃ stats, memoryUtilityStats env requested db' = .ok stats ∧
          ∀ cardId, Reflects (feedbackOf env stats cardId)
            (db'.memoryOutcomes.flatMap (usesOf requested decisions cardId)) := by
  obtain ⟨decisions, hread, htexts, hfound, hrows⟩ :=
    memoryDecisions_readable hrecorded.readable
  refine ⟨decisions, hrows, fun requested db' hready' hrecorded' hsame => ?_⟩
  have houtcomes := memoryOutcomes_ready hready' hrecorded'.verified
  obtain ⟨stats, hstats⟩ := memoryUtilityStats_returns requested (hread db' hready' hsame) houtcomes
    htexts fun outcome houtcome => by
      obtain ⟨row, hrow, hid⟩ := List.mem_map.1
        (hrecorded'.decided outcome ((List.mem_insertionSort _).1 houtcome))
      rw [hsame] at hrow
      obtain ⟨decision, hdecision, hdecided⟩ := hfound row hrow
      exact ⟨decision, hdecision, hdecided.trans hid⟩
  obtain ⟨_, _, hdecisions', houtcomes', -, hreflects⟩ := memoryUtilityStats_ok hexact hstats
  cases (hread db' hready' hsame).symm.trans hdecisions'
  cases houtcomes.symm.trans houtcomes'
  refine ⟨stats, hstats, fun cardId => (hreflects cardId).perm ?_⟩
  exact (List.perm_insertionSort _ _).flatMap_right _

omit [Json.PyFloat F] in
/-- The uses an outcome is of are that outcome. -/
theorem eq_of_mem_usesOf {requested : List String} {decisions : List (MemoryDecisionRecord F)}
    {cardId : String} {outcome used : OutcomeRow F}
    (h : used ∈ usesOf requested decisions cardId outcome) : used = outcome := by
  unfold usesOf at h
  split at h
  · cases h
  · next decision hdecision =>
      split at h
      · cases h
      · obtain ⟨selected, -, hused⟩ := List.mem_flatMap.1 h
        unfold usesIn at hused
        split at hused
        · split at hused
          · exact List.mem_singleton.1 hused
          · cases hused
        · cases hused

theorem MemoryStore.Recorded.used {db : Database F} (h : Recorded env.store db)
    (requested : List String) (decisions : List (MemoryDecisionRecord F)) (cardId : String) :
    ∀ used ∈ db.memoryOutcomes.flatMap (usesOf requested decisions cardId), Rewarded used := by
  intro used hused
  obtain ⟨outcome, houtcome, hused⟩ := List.mem_flatMap.1 hused
  rw [eq_of_mem_usesOf hused]
  exact h.rewarded outcome houtcome

omit [Json.PyFloat F] in
/-- An outcome of a shadow decision is no use of a card. -/
theorem usesOf_shadow {db : Database F} {decisions : List (MemoryDecisionRecord F)}
    (hrows : ∀ decision ∈ decisions, ∃ row ∈ db.memoryDecisions, row.id = decision.id ∧
      (decision.shadow = true ↔ row.shadow ≠ 0)) {outcome : OutcomeRow F}
    (hshadow : ∀ row ∈ db.memoryDecisions, row.id = outcome.decisionId → row.shadow ≠ 0)
    (requested : List String) (cardId : String) :
    usesOf requested decisions cardId outcome = [] := by
  unfold usesOf
  split
  · rfl
  · next decision hdecision =>
      obtain ⟨row, hrow, hid, hiff⟩ := hrows decision
        (List.mem_reverse.1 (List.mem_of_find?_eq_some hdecision))
      have hdecided : decision.id = outcome.decisionId := by simpa using List.find?_some hdecision
      rw [if_pos (hiff.2 (hshadow row hrow (hid.trans hdecided)))]

end Reading

/-! ## One more outcome -/

/-- In every history of decisions and outcomes, for whichever cards the feedback is asked. -/
theorem expectedUtility_feedback {env : RetrievalEnv F} (hexact : env.floats.Exact)
    {w : MemoryWorld F} (hreached : Reached env.store anyStep w) (requested : List String) :
    (∀ stats, memoryUtilityStats env requested w.db = .ok stats →
      ∀ stat ∈ stats, stat.uses = stat.successes + stat.failures) ∧
    ∀ {decisionId : String} {success : Bool} {reward : PyNumber F} {harmful : Bool}
      {tokenCost : Int} {evidence : EvidenceSource} {w' : MemoryWorld F},
      recordMemoryOutcome env.store decisionId success reward harmful tokenCost evidence w =
        (.ok (), w') →
      ∃ stats stats', memoryUtilityStats env requested w.db = .ok stats ∧
        memoryUtilityStats env requested w'.db = .ok stats' ∧
        ∀ (item : MemoryContextItem F) (role : String) (context : MemoryControlContext),
          let before :=
            val (expectedUtility env item (feedbackOf env stats item.cardId) role context)
          let after :=
            val (expectedUtility env item (feedbackOf env stats' item.cardId) role context)
          (success = false → harmful = true → reward.val = -1 → after ≤ before) ∧
          (success = true → harmful = false → reward.val = 1 → before ≤ after) ∧
          ((∀ row ∈ w.db.memoryDecisions, row.id = decisionId → row.shadow ≠ 0) →
            after = before) := by
  refine ⟨fun stats hstats => ?_, ?_⟩
  · obtain ⟨_, _, -, -, htotal, -⟩ := memoryUtilityStats_ok hexact hstats
    exact htotal
  intro decisionId success reward harmful tokenCost evidence w' hrecord
  have hrecorded := recorded_of_reached hexact.val_ofInt hreached
  have hsound := sound_of_reached hreached
  obtain ⟨row, hrow, hadded, hready', hdecision⟩ := recordMemoryOutcome_row hsound.metas hrecord
  have hrecorded' := hrecorded.addOutcome hexact.val_ofInt hrow hadded hready' hdecision
  have hready : Ready env.store w.db := by
    refine hrecorded.ready.resolve_left fun hnone => ?_
    rw [hnone] at hdecision
    cases hdecision
  have hdecisions : w'.db.memoryDecisions = w.db.memoryDecisions := congrArg Prod.fst hadded
  have houtcomes : w'.db.memoryOutcomes = w.db.memoryOutcomes ++ [row] := congrArg Prod.snd hadded
  obtain ⟨decisions, hrows, hstats⟩ := memoryUtilityStats_recorded hexact hrecorded
  obtain ⟨stats, hrun, hreflects⟩ := hstats requested w.db hready hrecorded rfl
  obtain ⟨stats', hrun', hreflects'⟩ := hstats requested w'.db hready' hrecorded' hdecisions
  refine ⟨stats, stats', hrun, hrun', fun item role context => ?_⟩
  have hweight := (hreflects item.cardId).weight
  have hweight' := (hreflects' item.cardId).weight
  rw [houtcomes, List.flatMap_append, List.flatMap_singleton] at hweight'
  have hused := hrecorded.used requested decisions item.cardId
  have hmore : ∀ used ∈ usesOf requested decisions item.cardId row, used = row :=
    fun used hused => eq_of_mem_usesOf hused
  have hreward := hrow.inRange hexact.val_ofInt
  have hrewarded : Rewarded row := by
    rw [Rewarded, hreward]
    exact hrow.span
  refine ⟨fun hfailed hharmful hleast => ?_, fun hsucceeded hharmless hmost => ?_, fun hshadow => ?_⟩
  · have hharmed : Harmed row := by
      rw [Harmed, hrow.succeeded, hrow.harmed, hreward, hfailed, hharmful, hleast]
      exact ⟨rfl, by decide, rfl⟩
    refine expectedUtility_mono hexact ?_ item role context
    rw [hweight, hweight']
    exact usesWeight_append (P := fun outcome => outcome = row) (R := fun a b => b ≤ a) le_refl
      (fun a b c hab hbc => le_trans hbc hab) (fun outcome h => h ▸ hrewarded)
      (fun h _ hall => h ▸ usesWeight_harmed hharmed hall) hmore hused
  · have hhelped : Helped row := by
      rw [Helped, hrow.succeeded, hrow.harmed, hreward, hsucceeded, hharmless, hmost]
      exact ⟨by decide, rfl, rfl⟩
    refine expectedUtility_mono hexact ?_ item role context
    rw [hweight, hweight']
    exact usesWeight_append (P := fun outcome => outcome = row) (R := fun a b => a ≤ b) le_refl
      (fun _ _ _ hab hbc => le_trans hab hbc) (fun outcome h => h ▸ hrewarded)
      (fun h _ hall => h ▸ usesWeight_helped hhelped hall) hmore hused
  · have hdecided : ∀ other ∈ w.db.memoryDecisions, other.id = row.decisionId →
        other.shadow ≠ 0 := fun other hother hid => hshadow other hother (hid.trans hrow.of)
    have hnone := usesOf_shadow hrows hdecided requested item.cardId
    rw [hnone, List.append_nil] at hweight'
    have hsame := hweight.trans hweight'.symm
    exact le_antisymm (expectedUtility_mono hexact (le_of_eq hsame.symm) item role context)
      (expectedUtility_mono hexact (le_of_eq hsame) item role context)

/-! ## Exact rationals

A rational is written as its numerator and, for a fraction, its denominator. -/

namespace ExactSample

def numText (q : Rat) : Json.NumText :=
  ⟨if q.num < 0 then ['-'] else [], Nat.toDigits 10 q.num.natAbs, '.' :: Nat.toDigits 10 q.den, []⟩

/-- The value of digits that may go on with a denominator. -/
def ofDigits (negative : Bool) (cs : List Char) : Rat :=
  let whole : Int := Nat.ofDigitChars 10 (cs.takeWhile Char.isDigit) 0
  let den := match cs.dropWhile Char.isDigit with
    | '.' :: ds => Nat.ofDigitChars 10 ds 0
    | _ => 1
  mkRat (if negative then -whole else whole) den

def ofText : List Char → Rat
  | '-' :: cs => ofDigits true cs
  | cs => ofDigits false cs

theorem isDigit_toDigits (n : Nat) : ∀ c ∈ Nat.toDigits 10 n, c.isDigit = true :=
  fun _ hc => Nat.isDigit_of_mem_toDigits (by decide) (by decide) hc

theorem ofText_digits (n : Nat) (rest : List Char) :
    ofText (Nat.toDigits 10 n ++ rest) = ofDigits false (Nat.toDigits 10 n ++ rest) := by
  unfold ofText
  split
  · next cs h =>
      obtain ⟨c, ds, hc⟩ := List.exists_cons_of_ne_nil (Nat.toDigits_ne_nil (n := n) (b := 10))
      rw [hc] at h
      cases h
      exact absurd (isDigit_toDigits n '-' (by rw [hc]; exact List.mem_cons_self)) (by decide)
  · rfl

theorem ofDigits_plain (negative : Bool) (n : Nat) :
    ofDigits negative (Nat.toDigits 10 n) = if negative then -(n : Rat) else n := by
  unfold ofDigits
  rw [← List.append_nil (Nat.toDigits 10 n), List.takeWhile_append_of_pos (isDigit_toDigits n),
    List.dropWhile_append_of_pos (isDigit_toDigits n), List.takeWhile_nil, List.append_nil,
    Nat.ofDigitChars_ten_toDigits]
  cases negative with
  | false => simp [Rat.mkRat_one]
  | true => simp [Rat.mkRat_one]

theorem ofDigits_fraction (negative : Bool) (n d : Nat) :
    ofDigits negative (Nat.toDigits 10 n ++ '.' :: Nat.toDigits 10 d) =
      mkRat (if negative then -(n : Int) else n) d := by
  unfold ofDigits
  rw [List.takeWhile_append_of_pos (isDigit_toDigits n),
    List.dropWhile_append_of_pos (isDigit_toDigits n)]
  simp [Nat.ofDigitChars_ten_toDigits]

instance rationals : Json.PyFloat Rat where
  val q := q
  repr := numText
  ofText := ofText
  repr_ok q := by
    refine ⟨?_, Json.toDigits_whole _, Or.inr ?_, Or.inl rfl⟩
    · unfold numText
      split
      · exact Or.inr rfl
      · exact Or.inl rfl
    · obtain ⟨d, ds, hd⟩ := List.exists_cons_of_ne_nil
        (Nat.toDigits_ne_nil (n := q.den) (b := 10))
      exact ⟨d, ds, congrArg ('.' :: ·) hd, hd ▸ isDigit_toDigits q.den⟩
  repr_isFloat q := Or.inl (List.cons_ne_nil _ _)
  ofText_repr q := by
    unfold numText Json.NumText.text
    dsimp only
    rw [List.append_nil]
    by_cases h : q.num < 0
    · rw [if_pos h]
      show ofDigits true (Nat.toDigits 10 q.num.natAbs ++ '.' :: Nat.toDigits 10 q.den) = q
      rw [ofDigits_fraction, if_pos rfl, show -(q.num.natAbs : Int) = q.num by omega,
        Rat.mkRat_self]
    · rw [if_neg h]
      show ofText (Nat.toDigits 10 q.num.natAbs ++ '.' :: Nat.toDigits 10 q.den) = q
      rw [ofText_digits, ofDigits_fraction, if_neg (by decide),
        show (q.num.natAbs : Int) = q.num by omega, Rat.mkRat_self]

theorem ofText_dumpInt (i : Int) : ofText (Json.dumpInt i) = i := by
  unfold Json.dumpInt
  split
  · next h =>
      show ofDigits true _ = _
      rw [ofDigits_plain, if_pos rfl]
      have hi : i = -(i.natAbs : Int) := by omega
      rw [hi]
      simp
  · next h =>
      have hplain := ofText_digits i.natAbs []
      rw [List.append_nil] at hplain
      rw [hplain, ofDigits_plain, if_neg (by decide)]
      have hi : i = (i.natAbs : Int) := by omega
      rw [hi]
      simp

/-- A root and a logarithm are not rational, and no utility asks for one. -/
def deployment : RetrievalEnv Rat where
  store := {
    digests := zeroDigests
    key := .empty
    uuid4 := countedId
    uuid4_hex := isHex_countedId
    timeNs := ticking
    fromisoformat := fun _ => none
    fromtimestamp := fun ns => .ok (ns / 1000)
    fts5 := true
    repr := fun _ => "{}" }
  nfkcCasefold text := text
  isWordChar c := c.isAlphanum
  setOrder texts := texts
  now := 1735900000000000
  floats := ⟨fun q => q, Rat.add, Rat.sub, Rat.mul, Rat.div, id, id, id⟩

theorem exact : deployment.floats.Exact where
  val_lit _ := rfl
  val_add _ _ := rfl
  val_sub _ _ := rfl
  val_mul _ _ := rfl
  val_div _ _ := rfl
  val_ofInt := ofText_dumpInt

open MemoryStore

def values : CardValues Rat where
  value := "vim"
  abstraction := "editor"
  cueAnchors := ["editor"]
  kind := "state"
  subtype := "setting"
  scope := "user"
  scopeKey := ""
  origin := "user"
  authority := "inform"
  confidence := .int 1
  importance := .int 1
  validFrom := none
  validTo := none

def added : MemoryWorld Rat :=
  perform deployment.store (.addCard values [evidence "first"] []) (.start Rat)

/-- The card has been selected. -/
def selected : MemoryWorld Rat :=
  perform deployment.store (.recordMemoryDecision (String.ofList (List.replicate 64 'a')) "working"
    "retrieve" [countedId 0] (.int 0) "positive_expected_utility" false) added

theorem reached : Reached deployment.store anyStep selected := .step (.step .start _ trivial) _ trivial

/-- It has done harm. -/
theorem harmed : ∃ w', recordMemoryOutcome deployment.store (countedId 3) false (.int (-1)) true 0
    (evidence "first") selected = (.ok (), w') := by
  have hreturned : (recordMemoryOutcome deployment.store (countedId 3) false (.int (-1)) true 0
      (evidence "first") selected).1.toOption = some () := by decide +kernel
  generalize recordMemoryOutcome deployment.store (countedId 3) false (.int (-1)) true 0
    (evidence "first") selected = x at hreturned ⊢
  exact ⟨x.2, Prod.ext (except_ok_of_toOption hreturned) rfl⟩

def item : MemoryContextItem Rat :=
  ⟨countedId 0, "vim", "editor", "state", "setting", "user", "", "inform", 1, "00", 1, [], []⟩

def context : MemoryControlContext :=
  ⟨⟨"editor", [], none, "none", 3⟩, "working", 0, 1200, false, false⟩

end ExactSample

open ExactSample in
/-- A card that has done harm is worth no more than before. -/
theorem expectedUtility_feedback_sample :
    ∃ w' stats stats', recordMemoryOutcome deployment.store (countedId 3) false (.int (-1)) true 0
        (evidence "first") selected = (.ok (), w') ∧
      memoryUtilityStats deployment [] selected.db = .ok stats ∧
      memoryUtilityStats deployment [] w'.db = .ok stats' ∧
      expectedUtility deployment item (feedbackOf deployment stats' item.cardId) "support" context ≤
        expectedUtility deployment item (feedbackOf deployment stats item.cardId) "support"
          context := by
  obtain ⟨w', hw'⟩ := harmed
  obtain ⟨stats, stats', hstats, hstats', hutility⟩ :=
    (expectedUtility_feedback exact reached []).2 hw'
  exact ⟨w', stats, stats', hw', hstats, hstats', (hutility item "support" context).1 rfl rfl rfl⟩

end MiniCodeAgent
