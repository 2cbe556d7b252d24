import MiniCodeAgent.Proofs.MemoryUpsert

/-!
# Runs of the memory store

A run starts where there is no database and performs one operation after
another, with any arguments; an operation that raises is a step like any other.
`Reached` may ask a condition of every step, and a property of all reached
worlds is then an induction on it.

What every operation leaves true of the tables is in `Sound`: ids are unique,
every row is one the store wrote and signed, every card has a status event and
an authority its origin allows, and the events are stamped in the order they
were appended in.
-/

namespace MiniCodeAgent

namespace MemoryStore

variable {F : Type} [Json.PyFloat F]

/-- A call of one of the writing operations. -/
inductive Operation (F : Type) where
  | addCard (values : CardValues F) (sources : List EvidenceSource) (derivedFrom : List String)
  | addCardOnceForSource (source : EvidenceSource) (values : CardValues F)
  | upsertScopedSingleton (anchor : String) (values : CardValues F)
      (sources : List EvidenceSource)
  | supersede (oldCardId : String) (values : CardValues F) (sources : List EvidenceSource)
  | transition (cardId status : String) (relatedCardId : Option String)
  | addEdge (sourceId targetId relation : String)
  | addSource (cardId : String) (source : EvidenceSource)
  | recordMemoryDecision (querySha256 stage operation : String) (selectedCardIds : List String)
      (expectedUtility : PyNumber F) (reason : String) (shadow : Bool)
  | recordMemoryOutcome (decisionId : String) (success : Bool) (reward : PyNumber F)
      (harmful : Bool) (tokenCost : Int) (evidence : EvidenceSource)

/-- What the card it may create is asked to hold. -/
def Operation.values? : Operation F → Option (CardValues F)
  | .addCard values _ _ => some values
  | .addCardOnceForSource _ values => some values
  | .upsertScopedSingleton _ values _ => some values
  | .supersede _ values _ => some values
  | _ => none

/-- The operation, its value dropped. -/
def dropValue {α : Type} (x : Tx F α) : Tx F Unit := do
  let _ ← x
  return ()

def operate (env : MemoryEnv F) : Operation F → Tx F Unit
  | .addCard values sources derivedFrom => dropValue (addCard env values sources derivedFrom)
  | .addCardOnceForSource source values => dropValue (addCardOnceForSource env source values)
  | .upsertScopedSingleton anchor values sources =>
    dropValue (upsertScopedSingleton env anchor values sources)
  | .supersede oldCardId values sources => dropValue (supersede env oldCardId values sources)
  | .transition cardId status relatedCardId => transition env cardId status relatedCardId
  | .addEdge sourceId targetId relation => dropValue (addEdge env sourceId targetId relation)
  | .addSource cardId source => dropValue (addSource env cardId source)
  | .recordMemoryDecision querySha256 stage operation selectedCardIds expectedUtility reason
      shadow =>
    recordMemoryDecision env querySha256 stage operation selectedCardIds expectedUtility reason
      shadow
  | .recordMemoryOutcome decisionId success reward harmful tokenCost evidence =>
    recordMemoryOutcome env decisionId success reward harmful tokenCost evidence

/-- The world an operation leaves, whether it returned or raised. -/
def perform (env : MemoryEnv F) (op : Operation F) (w : MemoryWorld F) : MemoryWorld F :=
  (operate env op w).2

def MemoryWorld.start (F : Type) : MemoryWorld F := ⟨Database.absent F, 0, 0⟩

/-- The worlds runs come by whose steps all meet the condition. -/
inductive Reached (env : MemoryEnv F) (meets : MemoryWorld F → Operation F → Prop) :
    MemoryWorld F → Prop
  | start : Reached env meets (.start F)
  | step {w : MemoryWorld F} (h : Reached env meets w) (op : Operation F) (hop : meets w op) :
      Reached env meets (perform env op w)

/-- No condition on the steps. -/
def anyStep (_ : MemoryWorld F) (_ : Operation F) : Prop := True

theorem Reached.mono {env : MemoryEnv F} {meets meets' : MemoryWorld F → Operation F → Prop}
    (hmeets : ∀ w op, meets w op → meets' w op) {w : MemoryWorld F} (h : Reached env meets w) :
    Reached env meets' w := by
  induction h with
  | start => exact .start
  | step _ op hop ih => exact .step ih op (hmeets _ _ hop)

theorem Reached.any {env : MemoryEnv F} {meets : MemoryWorld F → Operation F → Prop}
    {w : MemoryWorld F} (h : Reached env meets w) : Reached env anyStep w :=
  h.mono fun _ _ _ => trivial

/-! ## One step -/

variable {env : MemoryEnv F}

omit [Json.PyFloat F] in
theorem dropValue_ok {α : Type} {x : Tx F α} {u : Unit} {w w' : MemoryWorld F} :
    dropValue x w = (.ok u, w') ↔ ∃ a, x w = (.ok a, w') := by
  rw [dropValue, Txn.bind_ok]
  constructor
  · rintro ⟨a, w₁, hx, h⟩
    obtain ⟨-, rfl⟩ := Txn.pure_ok.1 h
    exact ⟨a, hx⟩
  · rintro ⟨a, hx⟩
    exact ⟨a, w', hx, Txn.pure_ok.2 ⟨rfl, rfl⟩⟩

omit [Json.PyFloat F] in
/-- Whether its value is dropped or not, the world it leaves is the same. -/
theorem dropValue_snd {α : Type} (x : Tx F α) (w : MemoryWorld F) :
    (dropValue x w).2 = (x w).2 := by
  cases hx : x w with
  | mk r w' =>
      cases r with
      | ok a => rw [show dropValue x w = (.ok (), w') from Txn.bind_ok.2 ⟨a, w', hx, rfl⟩]
      | error e => rw [show dropValue x w = (.error e, w') from Txn.bind_error.2 (Or.inl hx)]

theorem perform_eq {op : Operation F} {u : Unit} {w w' : MemoryWorld F}
    (h : operate env op w = (.ok u, w')) : perform env op w = w' := by
  rw [perform, h]

theorem perform_dropValue {op : Operation F} {α : Type} {x : Tx F α} (hop : operate env op = dropValue x)
    {a : α} {w w' : MemoryWorld F} (h : x w = (.ok a, w')) : perform env op w = w' := by
  refine perform_eq (u := ()) ?_
  rw [hop]
  exact dropValue_ok.2 ⟨a, h⟩

/-- The new cards hold what the operation was asked for. -/
def Delta.MadeBy (env : MemoryEnv F) (op : Operation F) (d : Delta F) : Prop :=
  ∀ row ∈ d.cards, ∃ values, op.values? = some values ∧ row.Of env values

theorem madeBy_of_noCards {op : Operation F} {d : Delta F} (h : d.cards = []) :
    d.MadeBy env op := by
  intro row hrow
  rw [h] at hrow
  cases hrow

theorem madeBy_of_card {op : Operation F} {d : Delta F} {row : CardRow F} {values : CardValues F}
    (h : d.cards = [row]) (hvalues : op.values? = some values) (hrow : row.Of env values) :
    d.MadeBy env op := by
  intro r hr
  rw [h] at hr
  rw [List.mem_singleton.1 hr]
  exact ⟨values, hvalues, hrow⟩

/-- An operation that returned appended rows of its own making. -/
theorem operate_ok {op : Operation F} {u : Unit} {w w' : MemoryWorld F}
    (h : operate env op w = (.ok u, w')) :
    ∃ d, Extends env w d w' ∧ d.Admitted ∧ d.MadeBy env op := by
  cases op with
  | addCard values sources derivedFrom =>
      obtain ⟨card, h⟩ := dropValue_ok.1 h
      obtain ⟨d, row, hd, hadmitted, hcards, -, hof, -⟩ := addCard_ok h
      exact ⟨d, hd, hadmitted, madeBy_of_card hcards rfl hof⟩
  | addCardOnceForSource source values =>
      obtain ⟨card, h⟩ := dropValue_ok.1 h
      obtain ⟨d, hd, hadmitted, hadded⟩ := addCardOnceForSource_ok h
      refine ⟨d, hd, hadmitted, ?_⟩
      rcases hadded with ⟨rfl, -⟩ | ⟨row, event, sourceRow, rfl, -, hof, -⟩
      · exact madeBy_of_noCards rfl
      · exact madeBy_of_card rfl rfl hof
  | upsertScopedSingleton anchor values sources =>
      obtain ⟨card, h⟩ := dropValue_ok.1 h
      obtain ⟨_, _, d, _, _, _, _, hd, hupserted, _⟩ := upsertScopedSingleton_ok h
      exact ⟨d, hd, hupserted.admitted, fun row hrow => ⟨values, rfl, hupserted.made row hrow⟩⟩
  | supersede oldCardId values sources =>
      obtain ⟨card, h⟩ := dropValue_ok.1 h
      obtain ⟨d, row, hd, hadmitted, hcards, -, hof, -⟩ := supersede_ok h
      exact ⟨d, hd, hadmitted, madeBy_of_card hcards rfl hof⟩
  | transition cardId status related =>
      obtain ⟨event, hd, -⟩ := transition_ok h
      exact ⟨_, hd, admitted_of_noCards rfl, madeBy_of_noCards rfl⟩
  | addEdge sourceId targetId relation =>
      obtain ⟨edge, h⟩ := dropValue_ok.1 h
      obtain ⟨row, -, hd⟩ := addEdge_ok h
      exact ⟨_, hd, admitted_of_noCards rfl, madeBy_of_noCards rfl⟩
  | addSource cardId source =>
      obtain ⟨made, h⟩ := dropValue_ok.1 h
      obtain ⟨d, hd, hcards, -⟩ := addSource_ok h
      exact ⟨d, hd, admitted_of_noCards hcards, madeBy_of_noCards hcards⟩
  | recordMemoryDecision =>
      exact ⟨.none, recordMemoryDecision_ok h, admitted_of_noCards rfl, madeBy_of_noCards rfl⟩
  | recordMemoryOutcome =>
      exact ⟨.none, recordMemoryOutcome_ok h, admitted_of_noCards rfl, madeBy_of_noCards rfl⟩

/-- Code that, if it raises, has appended nothing. -/
def RaisesClean (env : MemoryEnv F) {α : Type} (x : Tx F α) : Prop :=
  ∀ e w w', x w = (.error e, w') → Extends env w .none w'

theorem RaisesClean.afterCheck {α β : Type} {check : Except PyExc α} {x : α → Tx F β}
    (hx : ∀ a, RaisesClean env (x a)) : RaisesClean env (Txn.lift check >>= x) := by
  intro e w w' h
  rcases Txn.bind_error.1 h with hraised | ⟨a, w, hcheck, hraised⟩
  · rw [← show w = w' from congrArg Prod.snd hraised]
    exact extends_refl w
  · obtain ⟨-, rfl⟩ := Txn.lift_ok.1 hcheck
    exact hx a e _ _ hraised

theorem RaisesClean.dropValue {α : Type} {x : Tx F α} (hx : RaisesClean env x) :
    RaisesClean env (dropValue x) := by
  intro e w w' h
  rcases Txn.bind_error.1 h with hraised | ⟨a, w₁, -, hraised⟩
  · exact hx e w w' hraised
  · cases hraised

theorem raisesClean_writeTransaction {α : Type} {body : Tx F α} (hbody : Txn.Keeps Later body) :
    RaisesClean env (writeTransaction env body) := fun _ _ _ h => writeTransaction_error hbody h

/-- A singleton is decided by inserting cards, adding evidence and retiring cards. -/
theorem keeps_decideSingleton {R : MemoryWorld F → MemoryWorld F → Prop} (hrefl : ∀ w, R w w)
    (htrans : ∀ a b c, R a b → R b c → R a c)
    (hinsert : ∀ values, Txn.Keeps R (insertCard env values))
    (hsources : ∀ cardId sources, Txn.Keeps R (addSources env cardId sources))
    (hretire : ∀ winner old, Txn.Keeps R (retire env winner old)) (anchor : String)
    (family : List (FamilyMember F)) (values : CardValues F) (sources : List EvidenceSource) :
    Txn.Keeps R (decideSingleton env anchor family values sources) := by
  have hlift : ∀ {α : Type} (x : Except PyExc α), Txn.Keeps R (Txn.lift x : Tx F α) :=
    fun _ => Txn.keeps_same hrefl fun _ => rfl
  have hothers : ∀ winner active, Txn.Keeps R (retireOthers env winner active) := by
    intro winner active
    refine Txn.Keeps.forM hrefl htrans (fun old => ?_) active
    split
    · exact Txn.keeps_same hrefl fun _ => rfl
    · exact hretire winner old.id
  have hstale : ∀ top, Txn.Keeps R (admitStale env top family values sources) := by
    intro top
    refine Txn.Keeps.bind htrans (hothers _ _) fun _ => ?_
    generalize family.find? (fun m => m.carries && m.status ≠ "active") = found
    rcases found with _ | historical
    · exact Txn.Keeps.bind htrans (hinsert _) fun _ => Txn.Keeps.bind htrans (hsources _ _)
        fun _ => Txn.Keeps.bind htrans (hretire _ _) fun _ =>
          Txn.Keeps.bind htrans (Txn.keeps_same hrefl fun _ => rfl) fun _ => hlift _
    · exact Txn.Keeps.bind htrans (hsources _ _) fun _ => hlift _
  have hother : ∀ (active carrying : List (CardRow F))
      (next : Option (CardRow F × Int) → Tx F (MemoryCard F)),
      (∀ canonical moment,
        next (some (canonical, moment)) = replaySingleton env canonical active sources) →
      next none = reviseSingleton env active values sources →
      Txn.Keeps R (Txn.lift (latestRevision env carrying) >>= next) := by
    intro active carrying next hreplay hrevise
    refine Txn.Keeps.bind htrans (hlift _) fun exact => ?_
    rcases exact with _ | ⟨canonical, moment⟩
    · rw [hrevise]
      exact Txn.Keeps.bind htrans (hinsert _) fun _ => Txn.Keeps.bind htrans (hsources _ _)
        fun _ => Txn.Keeps.bind htrans (Txn.Keeps.forM hrefl htrans (fun _ => hretire _ _) _)
          fun _ => Txn.keeps_same hrefl fun _ => rfl
    · rw [hreplay]
      exact Txn.Keeps.bind htrans (hsources _ _) fun _ =>
        Txn.Keeps.bind htrans (hothers _ _) fun _ => hlift _
  refine Txn.Keeps.bind htrans (hlift _) fun incoming =>
    Txn.Keeps.bind htrans (hlift _) fun newest => Txn.Keeps.bind htrans (hlift _) fun stale => ?_
  rcases stale with _ | _
  · exact hother _ _ _ (fun _ _ => rfl) rfl
  · rcases newest with _ | ⟨top, latest⟩
    · exact hother _ _ _ (fun _ _ => rfl) rfl
    · exact hstale top

/-- An operation that raised appended nothing. -/
theorem operate_error {op : Operation F} {e : PyExc} {w w' : MemoryWorld F}
    (h : operate env op w = (.error e, w')) : Extends env w .none w' := by
  refine (?_ : RaisesClean env (operate env op)) e w w' h
  cases op with
  | addCard values sources derivedFrom =>
      refine (RaisesClean.afterCheck fun _ => RaisesClean.afterCheck fun _ =>
        raisesClean_writeTransaction ?_).dropValue
      exact Keeps.then (keeps_select _) fun _ => Keeps.then (keeps_lift _) fun _ =>
        Keeps.then (keeps_insertCard env _) fun _ => Keeps.then (keeps_insertSources env _ _)
        fun _ => Keeps.then (keeps_forM (fun _ => Keeps.then (keeps_insertEdge env _ _ _)
        fun _ => keeps_pure _) _) fun _ => keeps_pure _
  | addCardOnceForSource source values =>
      refine (RaisesClean.afterCheck fun _ => raisesClean_writeTransaction ?_).dropValue
      refine Keeps.then (keeps_select _) fun replayed => ?_
      rcases replayed with _ | card
      · exact Keeps.then (keeps_insertCard env _) fun _ =>
          Keeps.then (keeps_insertSource env _ _) fun _ => keeps_pure _
      · exact keeps_pure card
  | upsertScopedSingleton anchor values sources =>
      refine (RaisesClean.afterCheck fun _ => RaisesClean.afterCheck fun _ =>
        RaisesClean.afterCheck fun _ => raisesClean_writeTransaction ?_).dropValue
      exact Keeps.then (keeps_select _) fun _ => keeps_decideSingleton later_refl later_trans
        (keeps_insertCard env) (keeps_addSources env) (keeps_retire env) _ _ _ _
  | supersede oldCardId values sources =>
      refine (RaisesClean.afterCheck fun _ => RaisesClean.afterCheck fun _ =>
        raisesClean_writeTransaction ?_).dropValue
      exact Keeps.then (keeps_select _) fun _ => Keeps.then (keeps_lift _) fun _ =>
        Keeps.then (keeps_insertCard env _) fun _ => Keeps.then (keeps_insertSources env _ _)
        fun _ => Keeps.then (keeps_retire env _ _) fun _ => keeps_pure _
  | transition cardId status related =>
      refine RaisesClean.afterCheck fun _ => raisesClean_writeTransaction ?_
      exact Keeps.then (keeps_select _) fun _ => Keeps.then (keeps_select _) fun _ =>
        keeps_insertEvent env _ _ _
  | addEdge sourceId targetId relation =>
      exact (raisesClean_writeTransaction (keeps_insertEdge env _ _ _)).dropValue
  | addSource cardId source =>
      exact (raisesClean_writeTransaction (keeps_addSourceInConnection env _ _)).dropValue
  | recordMemoryDecision =>
      refine RaisesClean.afterCheck fun _ => raisesClean_writeTransaction ?_
      exact Keeps.then (keeps_forM (fun _ => Keeps.then (keeps_select _) fun _ => keeps_pure _) _)
        fun _ => Keeps.then (keeps_uuid4 env) fun _ => Keeps.then (keeps_timeNs env)
        fun _ => keeps_insertInto _ _
  | recordMemoryOutcome =>
      refine RaisesClean.afterCheck fun _ => raisesClean_writeTransaction ?_
      exact Keeps.then (keeps_select _) fun _ => Keeps.then (keeps_uuid4 env) fun _ =>
        Keeps.then (keeps_timeNs env) fun _ => keeps_insertInto _ _

variable (env) in
/-- One operation, whichever way it ended. -/
theorem perform_extends (op : Operation F) (w : MemoryWorld F) :
    ∃ d, Extends env w d (perform env op w) ∧ d.Admitted ∧ d.MadeBy env op := by
  unfold perform
  cases h : operate env op w with
  | mk r w' =>
      cases r with
      | ok u => exact operate_ok h
      | error e =>
          exact ⟨.none, operate_error h, admitted_of_noCards rfl, madeBy_of_noCards rfl⟩

/-! ## Every run -/

/-- All rows of a card's history so far. -/
def Database.history (db : Database F) : Delta F :=
  ⟨db.cards, db.sources, db.edges, db.cardEvents⟩

theorem Extends.history {w w' : MemoryWorld F} {d : Delta F} (h : Extends env w d w') :
    w'.db.history = w.db.history.and d := by
  unfold Database.history
  rw [h.cards, h.sources, h.edges, h.events]
  rfl

/-- What is true of the tables whatever the store has been asked to do. -/
structure Sound (env : MemoryEnv F) (w : MemoryWorld F) : Prop where
  unique : (w.db.cards.map CardRow.id).Nodup
  made : ∀ row ∈ w.db.cards, row.Made env
  authorized : ∀ row ∈ w.db.cards, row.Authorized
  covered : ∀ row ∈ w.db.cards, ∃ event ∈ w.db.cardEvents, event.cardId = row.id
  sourcesSigned : ∀ row ∈ w.db.sources, row.Signed env
  edgesSigned : ∀ row ∈ w.db.edges, row.Signed env
  eventsSigned : ∀ row ∈ w.db.cardEvents, row.Signed env
  linked : ∀ row ∈ w.db.edges, row.sourceId ∈ w.db.cards.map CardRow.id ∧
    row.targetId ∈ w.db.cards.map CardRow.id
  drawn : Log.Drawn EventRow.recordedAtNs env.timeNs 0 w.db.cardEvents w.ticks
  ids : ∀ id ∈ w.db.history.ids, DrawnId env 0 w.uuids id
  metas : MetasKept env w.db

theorem sound_start : Sound env (.start F) where
  unique := List.nodup_nil
  made _ h := absurd h List.not_mem_nil
  authorized _ h := absurd h List.not_mem_nil
  covered _ h := absurd h List.not_mem_nil
  sourcesSigned _ h := absurd h List.not_mem_nil
  edgesSigned _ h := absurd h List.not_mem_nil
  eventsSigned _ h := absurd h List.not_mem_nil
  linked _ h := absurd h List.not_mem_nil
  drawn := le_refl _
  ids _ h := absurd h List.not_mem_nil
  metas := Or.inl rfl

theorem Sound.extends {w w' : MemoryWorld F} {d : Delta F} (h : Sound env w)
    (hd : Extends env w d w') (hadmitted : d.Admitted) : Sound env w' where
  unique := hd.unique h.unique
  made row hrow := by
    rw [hd.cards] at hrow
    exact (List.mem_append.1 hrow).elim (h.made row) (hd.made row)
  authorized row hrow := by
    rw [hd.cards] at hrow
    exact (List.mem_append.1 hrow).elim (h.authorized row) (hadmitted.authorized row)
  covered row hrow := by
    rw [hd.cards] at hrow
    rw [hd.events]
    rcases List.mem_append.1 hrow with hrow | hrow
    · obtain ⟨event, hevent, hid⟩ := h.covered row hrow
      exact ⟨event, List.mem_append_left _ hevent, hid⟩
    · obtain ⟨event, hevent, hid⟩ := hadmitted.covered row hrow
      exact ⟨event, List.mem_append_right _ hevent, hid⟩
  sourcesSigned row hrow := by
    rw [hd.sources] at hrow
    exact (List.mem_append.1 hrow).elim (h.sourcesSigned row) (hd.sourcesSigned row)
  edgesSigned row hrow := by
    rw [hd.edges] at hrow
    exact (List.mem_append.1 hrow).elim (h.edgesSigned row) (hd.edgesSigned row)
  eventsSigned row hrow := by
    rw [hd.events] at hrow
    exact (List.mem_append.1 hrow).elim (h.eventsSigned row) (hd.eventsSigned row)
  linked row hrow := by
    rw [hd.edges] at hrow
    rcases List.mem_append.1 hrow with hrow | hrow
    · rw [hd.cards, List.map_append]
      obtain ⟨hsource, htarget⟩ := h.linked row hrow
      exact ⟨List.mem_append_left _ hsource, List.mem_append_left _ htarget⟩
    · exact hd.linked row hrow
  drawn := by
    rw [hd.events]
    exact h.drawn.append hd.drawn
  ids id hid := by
    rw [hd.history] at hid
    rcases Delta.mem_ids_and.1 hid with hid | hid
    · exact (h.ids id hid).mono (le_refl _) hd.uuids
    · exact (hd.ids id hid).mono (Nat.zero_le _) (le_refl _)
  metas := (hd.opens h.metas).kept h.metas

theorem sound_of_reached {meets : MemoryWorld F → Operation F → Prop} {w : MemoryWorld F}
    (h : Reached env meets w) : Sound env w := by
  induction h with
  | start => exact sound_start
  | step _ op _ ih =>
      obtain ⟨d, hd, hadmitted, -⟩ := perform_extends env op _
      exact ih.extends hd hadmitted

end MemoryStore

end MiniCodeAgent
