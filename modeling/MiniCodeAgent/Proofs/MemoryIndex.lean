import MiniCodeAgent.Proofs.StandingCards
import MiniCodeAgent.Proofs.Untouched

/-!
# The full-text index of the memory store

Only the insertion of a card adds a row to the index, and only of that card, so
the index holds a row for a card at most once: `Indexed` is kept by every
operation, also by one that raised.
-/

namespace MiniCodeAgent

namespace MemoryStore

variable {F : Type} [Json.PyFloat F] {env : MemoryEnv F}

/-! ## What leaves it alone -/

section Same

omit [Json.PyFloat F]

/-- Neither a card nor a row of the index has been added. -/
def SameIndex (w w' : MemoryWorld F) : Prop :=
  w'.db.cards = w.db.cards ∧ w'.db.memoryFts = w.db.memoryFts

theorem sameIndex_refl (w : MemoryWorld F) : SameIndex w w := ⟨rfl, rfl⟩

theorem sameIndex_trans (a b c : MemoryWorld F) (h : SameIndex a b) (h' : SameIndex b c) :
    SameIndex a c := ⟨h'.1.trans h.1, h'.2.trans h.2⟩

theorem SameIndex.then {α β : Type} {x : Tx F α} {f : α → Tx F β} (hx : Txn.Keeps SameIndex x)
    (hf : ∀ a, Txn.Keeps SameIndex (f a)) : Txn.Keeps SameIndex (x >>= f) :=
  hx.bind sameIndex_trans hf

theorem sameIndex_of_eq {α : Type} {x : Tx F α} (hx : ∀ w, (x w).2.db = w.db) :
    Txn.Keeps SameIndex x := by
  intro w
  rw [SameIndex, hx w]
  exact ⟨rfl, rfl⟩

/-- An insertion that violates its constraint writes nothing. -/
theorem insertInto_unwritten {violated : Database F → Option String} {add : Database F → Database F}
    {e : PyExc} {w w' : MemoryWorld F} (h : insertInto violated add w = (.error e, w')) :
    w' = w := by
  rcases Txn.bind_error.1 h with h | ⟨_, _, -, h⟩
  · exact (congrArg Prod.snd h).symm
  · cases h

end Same

/-- The two tables as a reader of them has them. -/
def indexReading (db : Database F) : List (CardRow F) × List FtsRow := (db.cards, db.memoryFts)

omit [Json.PyFloat F] in
theorem indexReading_ignores : Ignores (indexReading (F := F)) where
  initialized _ _ := rfl
  metas _ _ := rfl
  sources _ _ := rfl
  edges _ _ := rfl
  cardEvents _ _ := rfl

omit [Json.PyFloat F] in
theorem sameIndex_of_reading {α : Type} {x : Tx F α}
    (h : Txn.Keeps (SameReading indexReading) x) : Txn.Keeps SameIndex x :=
  fun w => ⟨congrArg Prod.fst (h w), congrArg Prod.snd (h w)⟩

theorem sameIndex_insertEvent (cardId eventType : String) (related : Option String) :
    Txn.Keeps SameIndex (insertEvent env cardId eventType related) :=
  sameIndex_of_reading (sameReading_insertEvent indexReading_ignores _ _ _)

theorem sameIndex_insertSource (cardId : String) (source : EvidenceSource) :
    Txn.Keeps SameIndex (insertSource env cardId source) :=
  sameIndex_of_reading (sameReading_insertSource indexReading_ignores _ _)

theorem sameIndex_insertEdge (sourceId targetId relation : String) :
    Txn.Keeps SameIndex (insertEdge env sourceId targetId relation) :=
  sameIndex_of_reading (sameReading_insertEdge indexReading_ignores _ _ _)

theorem sameIndex_addSourceInConnection (cardId : String) (source : EvidenceSource) :
    Txn.Keeps SameIndex (addSourceInConnection env cardId source) :=
  sameIndex_of_reading (sameReading_addSourceInConnection indexReading_ignores _ _)

theorem sameIndex_retire (winner old : String) : Txn.Keeps SameIndex (retire env winner old) :=
  sameIndex_of_reading (sameReading_retire indexReading_ignores _ _)

theorem sameIndex_addSources (cardId : String) (sources : List EvidenceSource) :
    Txn.Keeps SameIndex (addSources env cardId sources) :=
  sameIndex_of_reading (sameReading_addSources indexReading_ignores _ _)

theorem sameIndex_insertSources (cardId : String) (sources : List EvidenceSource) :
    Txn.Keeps SameIndex (sources.forM fun source => do
      let _ ← insertSource env cardId source) :=
  sameIndex_of_reading (sameReading_insertSources indexReading_ignores _ _)

theorem sameIndex_createSchema : Txn.Keeps SameIndex (createSchema env) :=
  sameIndex_of_reading (sameReading_createSchema indexReading_ignores)

omit [Json.PyFloat F] in
theorem sameIndex_insertInto (violated : Database F → Option String)
    {add : Database F → Database F} (hadd : ∀ db, indexReading (add db) = indexReading db) :
    Txn.Keeps SameIndex (insertInto violated add) :=
  sameIndex_of_reading (sameReading_insertInto violated hadd)

/-! ## Cards and their rows -/

/-- Every row of the index is of a card of its own. -/
def Indexed (db : Database F) : Prop :=
  (db.memoryFts.map FtsRow.cardId).Sublist (db.cards.map CardRow.id)

def Indexes (w w' : MemoryWorld F) : Prop := Indexed w.db → Indexed w'.db

omit [Json.PyFloat F] in
theorem indexes_trans (a b c : MemoryWorld F) (h : Indexes a b) (h' : Indexes b c) :
    Indexes a c := fun hindexed => h' (h hindexed)

omit [Json.PyFloat F] in
theorem SameIndex.indexes {w w' : MemoryWorld F} (h : SameIndex w w') : Indexes w w' := by
  intro hindexed
  rw [Indexed, h.1, h.2]
  exact hindexed

omit [Json.PyFloat F] in
theorem indexes_of_same {α : Type} {x : Tx F α} (h : Txn.Keeps SameIndex x) :
    Txn.Keeps Indexes x := fun w => (h w).indexes

omit [Json.PyFloat F] in
theorem Indexes.then {α β : Type} {x : Tx F α} {f : α → Tx F β} (hx : Txn.Keeps Indexes x)
    (hf : ∀ a, Txn.Keeps Indexes (f a)) : Txn.Keeps Indexes (x >>= f) :=
  hx.bind indexes_trans hf

omit [Json.PyFloat F] in
/-- The card with this id is the last, and the index has no row of it. -/
def Unindexed (cardId : String) (db : Database F) : Prop :=
  ∃ ids, db.cards.map CardRow.id = ids ++ [cardId] ∧
    (db.memoryFts.map FtsRow.cardId).Sublist ids

omit [Json.PyFloat F] in
theorem Unindexed.indexed {cardId : String} {db : Database F} (h : Unindexed cardId db) :
    Indexed db := by
  obtain ⟨ids, hcards, hfts⟩ := h
  rw [Indexed, hcards]
  exact hfts.trans (List.sublist_append_left _ _)

omit [Json.PyFloat F] in
theorem Unindexed.same {cardId : String} {w w' : MemoryWorld F} (h : Unindexed cardId w.db)
    (hsame : SameIndex w w') : Unindexed cardId w'.db := by
  rw [Unindexed, hsame.1, hsame.2]
  exact h

omit [Json.PyFloat F] in
theorem Unindexed.indexCard {row : FtsRow} {w : MemoryWorld F} (h : Unindexed row.cardId w.db)
    (ftsEnabled : Option String) : Indexed (indexCard ftsEnabled row w).2.db := by
  obtain ⟨ids, hcards, hfts⟩ := h
  unfold MemoryStore.indexCard
  split
  · show ((w.db.memoryFts ++ [row]).map FtsRow.cardId).Sublist (w.db.cards.map CardRow.id)
    rw [List.map_append, List.map_singleton, hcards]
    exact List.Sublist.append hfts (List.Sublist.refl _)
  · exact Unindexed.indexed ⟨ids, hcards, hfts⟩

/-- From the insertion of the card to its row of the index. -/
def Fills (cardId : String) (w w' : MemoryWorld F) : Prop :=
  Unindexed cardId w.db → Indexed w'.db

omit [Json.PyFloat F] in
theorem Fills.after {cardId : String} {α β : Type} {x : Tx F α} {f : α → Tx F β}
    (hx : Txn.Keeps SameIndex x) (hf : ∀ a, Txn.Keeps (Fills cardId) (f a)) :
    Txn.Keeps (Fills cardId) (x >>= f) := by
  refine Txn.keeps_bind (fun a w w₁ hrun hadded => ?_) fun e w w₁ hrun hadded => ?_
  · have hsame := hx w
    rw [hrun] at hsame
    exact hf a w₁ (hadded.same hsame)
  · have hsame := hx w
    rw [hrun] at hsame
    exact (hadded.same hsame).indexed

omit [Json.PyFloat F] in
theorem Fills.before {cardId : String} {α β : Type} {x : Tx F α} {f : α → Tx F β}
    (hx : Txn.Keeps (Fills cardId) x) (hf : ∀ a, Txn.Keeps SameIndex (f a)) :
    Txn.Keeps (Fills cardId) (x >>= f) := by
  refine Txn.keeps_bind (fun a w w₁ hrun hadded => ?_) fun e w w₁ hrun hadded => ?_
  · have hfilled := hx w hadded
    rw [hrun] at hfilled
    exact (hf a w₁).indexes hfilled
  · have hfilled := hx w hadded
    rw [hrun] at hfilled
    exact hfilled

omit [Json.PyFloat F] in
theorem fills_indexCard (ftsEnabled : Option String) (row : FtsRow) :
    Txn.Keeps (Fills row.cardId) (indexCard ftsEnabled row : Tx F Unit) := by
  intro w hadded
  obtain ⟨ids, hcards, hfts⟩ := hadded
  unfold indexCard
  split
  · show ((w.db.memoryFts ++ [row]).map FtsRow.cardId).Sublist (w.db.cards.map CardRow.id)
    rw [List.map_append, List.map_singleton, hcards]
    exact List.Sublist.append hfts (List.Sublist.refl _)
  · exact Unindexed.indexed ⟨ids, hcards, hfts⟩

/-- The card's row comes first, and then at most one row of the index, of this card. -/
theorem indexes_insertCard (values : CardValues F) :
    Txn.Keeps Indexes (insertCard env values) := by
  refine Indexes.then (indexes_of_same (sameIndex_of_eq fun _ => rfl)) fun cardId =>
    Indexes.then (indexes_of_same (sameIndex_of_eq fun _ => rfl)) fun recordedAtNs => ?_
  have hrest : Txn.Keeps (Fills cardId) (do
      insertEvent env cardId "active" none
      let ftsEnabled ← select (getMeta env "fts_enabled")
      indexCard ftsEnabled
        ⟨cardId, values.abstraction, " ".intercalate (values.cueAnchors.map pyStrip)⟩
      let row ← select (requireCard cardId)
      Txn.lift (cardFromRow row "active") : Tx F (MemoryCard F)) :=
    Fills.after (sameIndex_insertEvent _ _ _) fun _ =>
      Fills.after (sameIndex_of_eq fun _ => rfl) fun ftsEnabled =>
        Fills.before (fills_indexCard ftsEnabled ⟨cardId, _, _⟩) fun _ =>
          SameIndex.then (sameIndex_of_eq fun _ => rfl) fun _ => sameIndex_of_eq fun _ => rfl
  refine Txn.keeps_bind (fun _ w w₁ hinsert hindexed => ?_) fun _ w w₁ hinsert => ?_
  · obtain ⟨-, hw₁⟩ := insertInto_ok.1 hinsert
    refine hrest w₁ ⟨w.db.cards.map CardRow.id, ?_, ?_⟩
    · rw [hw₁]
      exact List.map_append
    · rw [hw₁]
      exact hindexed
  · rw [insertInto_unwritten hinsert]
    exact fun hindexed => hindexed

theorem indexes_writeTransaction {α : Type} {body : Tx F α} (h : Txn.Keeps Indexes body) :
    Txn.Keeps Indexes (writeTransaction env body) :=
  Indexes.then (indexes_of_same sameIndex_createSchema) fun _ =>
    Txn.Keeps.atomically (fun _ _ _ hindexed => hindexed) h

omit [Json.PyFloat F] in
theorem indexes_dropValue {α : Type} {x : Tx F α} (h : Txn.Keeps Indexes x) :
    Txn.Keeps Indexes (dropValue x) :=
  Indexes.then h fun _ => indexes_of_same (sameIndex_of_eq fun _ => rfl)

omit [Json.PyFloat F] in
theorem indexes_of_eq {α : Type} {x : Tx F α} (hx : ∀ w, (x w).2.db = w.db) :
    Txn.Keeps Indexes x := indexes_of_same (sameIndex_of_eq hx)

/-- Every operation, also one that raises. -/
theorem indexes_operate (op : Operation F) : Txn.Keeps Indexes (operate env op) := by
  cases op with
  | addCard values sources derivedFrom =>
      refine indexes_dropValue (Indexes.then (indexes_of_eq fun _ => rfl) fun _ =>
        Indexes.then (indexes_of_eq fun _ => rfl) fun _ => indexes_writeTransaction ?_)
      exact Indexes.then (indexes_of_eq fun _ => rfl) fun _ =>
        Indexes.then (indexes_of_eq fun _ => rfl) fun _ =>
          Indexes.then (indexes_insertCard values) fun _ =>
            Indexes.then (indexes_of_same (sameIndex_insertSources _ _)) fun _ =>
              Indexes.then (indexes_of_same (Txn.Keeps.forM sameIndex_refl sameIndex_trans
                (fun _ => SameIndex.then (sameIndex_insertEdge _ _ _) fun _ =>
                  sameIndex_of_eq fun _ => rfl) _)) fun _ => indexes_of_eq fun _ => rfl
  | addCardOnceForSource source values =>
      refine indexes_dropValue (Indexes.then (indexes_of_eq fun _ => rfl) fun _ =>
        indexes_writeTransaction (Indexes.then (indexes_of_eq fun _ => rfl) fun replayed => ?_))
      rcases replayed with _ | card
      · exact Indexes.then (indexes_insertCard values) fun _ =>
          Indexes.then (indexes_of_same (sameIndex_insertSource _ _)) fun _ =>
            indexes_of_eq fun _ => rfl
      · exact indexes_of_eq fun _ => rfl
  | upsertScopedSingleton anchor values sources =>
      refine indexes_dropValue (Indexes.then (indexes_of_eq fun _ => rfl) fun _ =>
        Indexes.then (indexes_of_eq fun _ => rfl) fun _ =>
          Indexes.then (indexes_of_eq fun _ => rfl) fun _ => indexes_writeTransaction ?_)
      exact Indexes.then (indexes_of_eq fun _ => rfl) fun _ =>
        keeps_decideSingleton (fun _ hindexed => hindexed) indexes_trans indexes_insertCard
          (fun _ _ => indexes_of_same (sameIndex_addSources _ _))
          (fun _ _ => indexes_of_same (sameIndex_retire _ _)) _ _ _ _
  | supersede oldCardId values sources =>
      refine indexes_dropValue (Indexes.then (indexes_of_eq fun _ => rfl) fun _ =>
        Indexes.then (indexes_of_eq fun _ => rfl) fun _ => indexes_writeTransaction ?_)
      exact Indexes.then (indexes_of_eq fun _ => rfl) fun _ =>
        Indexes.then (indexes_of_eq fun _ => rfl) fun _ =>
          Indexes.then (indexes_insertCard values) fun _ =>
            Indexes.then (indexes_of_same (sameIndex_insertSources _ _)) fun _ =>
              Indexes.then (indexes_of_same (sameIndex_retire _ _)) fun _ =>
                indexes_of_eq fun _ => rfl
  | transition cardId status related =>
      exact Indexes.then (indexes_of_eq fun _ => rfl) fun _ => indexes_writeTransaction
        (Indexes.then (indexes_of_eq fun _ => rfl) fun _ =>
          Indexes.then (indexes_of_eq fun _ => rfl) fun _ =>
            indexes_of_same (sameIndex_insertEvent _ _ _))
  | addEdge sourceId targetId relation =>
      exact indexes_dropValue
        (indexes_writeTransaction (indexes_of_same (sameIndex_insertEdge _ _ _)))
  | addSource cardId source =>
      exact indexes_dropValue
        (indexes_writeTransaction (indexes_of_same (sameIndex_addSourceInConnection _ _)))
  | recordMemoryDecision =>
      refine Indexes.then (indexes_of_eq fun _ => rfl) fun _ => indexes_writeTransaction
        (indexes_of_same ?_)
      exact SameIndex.then (Txn.Keeps.forM sameIndex_refl sameIndex_trans
        (fun _ => SameIndex.then (sameIndex_of_eq fun _ => rfl) fun _ =>
          sameIndex_of_eq fun _ => rfl) _) fun _ =>
          SameIndex.then (sameIndex_of_eq fun _ => rfl) fun _ =>
            SameIndex.then (sameIndex_of_eq fun _ => rfl) fun _ =>
              sameIndex_insertInto _ fun _ => rfl
  | recordMemoryOutcome =>
      exact Indexes.then (indexes_of_eq fun _ => rfl) fun _ => indexes_writeTransaction
        (indexes_of_same (SameIndex.then (sameIndex_of_eq fun _ => rfl) fun _ =>
          SameIndex.then (sameIndex_of_eq fun _ => rfl) fun _ =>
            SameIndex.then (sameIndex_of_eq fun _ => rfl) fun _ =>
              sameIndex_insertInto _ fun _ => rfl))

/-- The index of every store a run comes by. -/
theorem indexed_of_reached {meets : MemoryWorld F → Operation F → Prop} {w : MemoryWorld F}
    (h : Reached env meets w) : Indexed w.db := by
  induction h with
  | start => exact List.Sublist.refl _
  | step _ op _ ih => exact indexes_operate op _ ih

/-! ## New cards are in the index -/

/-- The card has been added, and its row of the index with it. -/
def AddedRow (cardId : String) (w w' : MemoryWorld F) : Prop :=
  w'.db.memoryFts.map FtsRow.cardId = w.db.memoryFts.map FtsRow.cardId ++ [cardId]

omit [Json.PyFloat F] in
theorem AddedRow.same {cardId : String} {w₁ w₂ w₃ w₄ : MemoryWorld F}
    (hbefore : SameIndex w₁ w₂) (h : AddedRow cardId w₂ w₃) (hafter : SameIndex w₃ w₄) :
    AddedRow cardId w₁ w₄ := by
  rw [AddedRow, hafter.2, h, hbefore.2]

theorem insertCard_addedRow (hfts5 : env.fts5 = true) {values : CardValues F} {card : MemoryCard F}
    {w w' : MemoryWorld F} (hready : Ready env w.db)
    (h : insertCard env values w = (.ok card, w')) : AddedRow card.id w w' := by
  unfold insertCard at h
  rw [Txn.bind_ok] at h
  obtain ⟨_, w₁, huuid, h⟩ := h
  obtain ⟨rfl, rfl⟩ := uuid4_ok.1 huuid
  rw [Txn.bind_ok] at h
  obtain ⟨_, w₂, htime, h⟩ := h
  obtain ⟨rfl, rfl⟩ := timeNs_ok.1 htime
  rw [Txn.bind_ok] at h
  obtain ⟨_, w₃, hinsert, h⟩ := h
  obtain ⟨-, rfl⟩ := insertInto_ok.1 hinsert
  rw [Txn.bind_ok] at h
  obtain ⟨_, w₄, hevent, h⟩ := h
  obtain ⟨-, -, rfl⟩ := insertEvent_ok.1 hevent
  rw [Txn.bind_ok] at h
  obtain ⟨ftsEnabled, w₅, hselect, h⟩ := h
  obtain ⟨hmeta, rfl⟩ := select_ok.1 hselect
  have hread := hmeta.symm.trans (getMeta_ready (by exact hready.2)).2
  injection hread with hread
  rw [Txn.bind_ok] at h
  obtain ⟨_, w₆, hindex, h⟩ := h
  rw [Txn.bind_ok] at h
  obtain ⟨row, w₇, hrequire, h⟩ := h
  obtain ⟨hrow, rfl⟩ := select_ok.1 hrequire
  obtain ⟨hcard, rfl⟩ := Txn.lift_ok.1 h
  have hid : card.id = env.uuid4 w.uuids :=
    (cardFromRow_ok hcard).1.trans (requireCard_ok hrow).2
  rw [indexCard, if_pos (by rw [hread, hfts5]; rfl)] at hindex
  rw [AddedRow, execute_ok.1 hindex, hid]
  exact List.map_append

omit [Json.PyFloat F] in
theorem SameIndex.of_ok {α : Type} {x : Tx F α} (hx : Txn.Keeps SameIndex x) {a : α}
    {w w' : MemoryWorld F} (h : x w = (.ok a, w')) : SameIndex w w' := by
  have hsame := hx w
  rw [h] at hsame
  exact hsame

/-- A transaction that returned found the schema in place. -/
theorem writeTransaction_index {α : Type} {body : Tx F α} {a : α} {w w' : MemoryWorld F}
    (hkept : MetasKept env w.db) (h : writeTransaction env body w = (.ok a, w')) :
    ∃ w₁, SameIndex w w₁ ∧ Ready env w₁.db ∧ body w₁ = (.ok a, w') := by
  obtain ⟨w₁, hsame, hready, hbody⟩ := writeTransaction_reads indexReading_ignores hkept h
  exact ⟨w₁, ⟨congrArg Prod.fst hsame, congrArg Prod.snd hsame⟩, hready, hbody⟩

theorem addCard_added (hfts5 : env.fts5 = true) {values : CardValues F}
    {sources : List EvidenceSource} {card : MemoryCard F} {w w' : MemoryWorld F}
    (hkept : MetasKept env w.db) (h : addCard env values sources [] w = (.ok card, w')) :
    AddedRow card.id w w' ∧ Ready env w'.db := by
  unfold addCard at h
  rw [Txn.bind_ok] at h
  obtain ⟨_, w, hlift, h⟩ := h
  obtain ⟨-, rfl⟩ := Txn.lift_ok.1 hlift
  rw [Txn.bind_ok] at h
  obtain ⟨_, w, hlift, h⟩ := h
  obtain ⟨-, rfl⟩ := Txn.lift_ok.1 hlift
  obtain ⟨w₁, hopened, hready, h⟩ := writeTransaction_index hkept h
  rw [Txn.bind_ok] at h
  obtain ⟨_, w₁, hselect, h⟩ := h
  obtain ⟨-, rfl⟩ := select_ok.1 hselect
  rw [Txn.bind_ok] at h
  obtain ⟨_, w₁, hlift, h⟩ := h
  obtain ⟨-, rfl⟩ := Txn.lift_ok.1 hlift
  rw [Txn.bind_ok] at h
  obtain ⟨made, w₂, hcard, h⟩ := h
  rw [Txn.bind_ok] at h
  obtain ⟨_, w₃, hsources, h⟩ := h
  rw [Txn.bind_ok] at h
  obtain ⟨_, w₄, hedges, h⟩ := h
  obtain ⟨-, rfl⟩ := Txn.pure_ok.1 hedges
  obtain ⟨rfl, rfl⟩ := Txn.pure_ok.1 h
  obtain ⟨_, _, -, -, -, -, hext, -⟩ := insertCard_ok hcard
  obtain ⟨_, hrecorded, -⟩ := insertSources_ok hsources
  exact ⟨(insertCard_addedRow hfts5 hready hcard).same hopened
    (SameIndex.of_ok (sameIndex_insertSources _ _) hsources), hrecorded.ready (hext.ready hready)⟩

theorem supersede_added (hfts5 : env.fts5 = true) {oldCardId : String} {values : CardValues F}
    {sources : List EvidenceSource} {card : MemoryCard F} {w w' : MemoryWorld F}
    (hkept : MetasKept env w.db) (h : supersede env oldCardId values sources w = (.ok card, w')) :
    AddedRow card.id w w' ∧ Ready env w'.db := by
  unfold supersede at h
  rw [Txn.bind_ok] at h
  obtain ⟨_, w, hlift, h⟩ := h
  obtain ⟨-, rfl⟩ := Txn.lift_ok.1 hlift
  rw [Txn.bind_ok] at h
  obtain ⟨_, w, hlift, h⟩ := h
  obtain ⟨-, rfl⟩ := Txn.lift_ok.1 hlift
  obtain ⟨w₁, hopened, hready, h⟩ := writeTransaction_index hkept h
  rw [Txn.bind_ok] at h
  obtain ⟨_, w₁, hselect, h⟩ := h
  obtain ⟨-, rfl⟩ := select_ok.1 hselect
  rw [Txn.bind_ok] at h
  obtain ⟨_, w₁, hlift, h⟩ := h
  obtain ⟨-, rfl⟩ := Txn.lift_ok.1 hlift
  rw [Txn.bind_ok] at h
  obtain ⟨made, w₂, hcard, h⟩ := h
  rw [Txn.bind_ok] at h
  obtain ⟨_, w₃, hsources, h⟩ := h
  rw [Txn.bind_ok] at h
  obtain ⟨_, w₄, hretire, h⟩ := h
  obtain ⟨rfl, rfl⟩ := Txn.pure_ok.1 h
  obtain ⟨_, _, -, -, -, -, hext, -⟩ := insertCard_ok hcard
  obtain ⟨_, hrecorded, -⟩ := insertSources_ok hsources
  obtain ⟨_, hretired, -⟩ := retire_ok hretire
  exact ⟨(insertCard_addedRow hfts5 hready hcard).same hopened (sameIndex_trans _ _ _
    (SameIndex.of_ok (sameIndex_insertSources _ _) hsources)
    (SameIndex.of_ok (sameIndex_retire _ _) hretire)),
    hretired.ready (hrecorded.ready (hext.ready hready))⟩

end MemoryStore

end MiniCodeAgent
