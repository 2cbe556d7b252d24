import MiniCodeAgent.Proofs.MemoryRuns

/-!
# What the operations leave alone

`read` is what a reader takes from the tables. A row of evidence, an edge or an
event is nothing to a reader that looks at other tables, and what such a reader
answers is then the same before and after whatever the store has appended. The
control tables are read this way: only their own two operations add to them.
-/

namespace MiniCodeAgent

namespace MemoryStore

variable {F : Type} [Json.PyFloat F] {env : MemoryEnv F} {β : Type} {read : Database F → β}

section Same

omit [Json.PyFloat F]

/-- The reader takes nothing from the metadata and from what hangs on a card. -/
structure Ignores (read : Database F → β) : Prop where
  initialized : ∀ db initialized, read { db with initialized := initialized } = read db
  metas : ∀ db metas, read { db with metas := metas } = read db
  sources : ∀ db sources, read { db with sources := sources } = read db
  edges : ∀ db edges, read { db with edges := edges } = read db
  cardEvents : ∀ db cardEvents, read { db with cardEvents := cardEvents } = read db

/-- Nor from the cards and their index. -/
structure IgnoresCards (read : Database F → β) : Prop extends Ignores read where
  cards : ∀ db cards, read { db with cards := cards } = read db
  memoryFts : ∀ db memoryFts, read { db with memoryFts := memoryFts } = read db

/-- The reader's answer is the one before. -/
def SameReading (read : Database F → β) (w w' : MemoryWorld F) : Prop := read w'.db = read w.db

theorem sameReading_refl (w : MemoryWorld F) : SameReading read w w := rfl

theorem sameReading_trans (a b c : MemoryWorld F) (h : SameReading read a b)
    (h' : SameReading read b c) : SameReading read a c := Eq.trans h' h

theorem SameReading.then {α γ : Type} {x : Tx F α} {f : α → Tx F γ}
    (hx : Txn.Keeps (SameReading read) x) (hf : ∀ a, Txn.Keeps (SameReading read) (f a)) :
    Txn.Keeps (SameReading read) (x >>= f) := hx.bind sameReading_trans hf

theorem sameReading_of_eq {α : Type} {x : Tx F α} (hx : ∀ w, (x w).2.db = w.db) :
    Txn.Keeps (SameReading read) x := by
  intro w
  rw [SameReading, hx w]

theorem sameReading_select {α : Type} (f : Database F → Except PyExc α) :
    Txn.Keeps (SameReading read) (select f) := sameReading_of_eq fun _ => rfl

theorem sameReading_insertInto (violated : Database F → Option String)
    {add : Database F → Database F} (hadd : ∀ db, read (add db) = read db) :
    Txn.Keeps (SameReading read) (insertInto violated add) :=
  SameReading.then (sameReading_of_eq fun _ => rfl) fun _ w => hadd w.db

theorem SameReading.forM {α : Type} {f : α → Tx F PUnit}
    (hf : ∀ x, Txn.Keeps (SameReading read) (f x)) (xs : List α) :
    Txn.Keeps (SameReading read) (xs.forM f) :=
  Txn.Keeps.forM sameReading_refl sameReading_trans hf xs

end Same

section Ignored

variable (h : Ignores read)
include h

theorem sameReading_insertEvent (cardId eventType : String) (related : Option String) :
    Txn.Keeps (SameReading read) (insertEvent env cardId eventType related) :=
  SameReading.then (sameReading_of_eq fun _ => rfl) fun _ =>
    SameReading.then (sameReading_of_eq fun _ => rfl) fun _ =>
      SameReading.then (sameReading_of_eq fun _ => rfl) fun _ =>
        sameReading_insertInto _ fun db => h.cardEvents db _

theorem sameReading_insertSource (cardId : String) (source : EvidenceSource) :
    Txn.Keeps (SameReading read) (insertSource env cardId source) :=
  SameReading.then (sameReading_of_eq fun _ => rfl) fun _ =>
    SameReading.then (sameReading_of_eq fun _ => rfl) fun _ =>
      SameReading.then (sameReading_of_eq fun _ => rfl) fun _ =>
        SameReading.then (sameReading_insertInto _ fun db => h.sources db _) fun _ =>
          sameReading_of_eq fun _ => rfl

theorem sameReading_insertEdge (sourceId targetId relation : String) :
    Txn.Keeps (SameReading read) (insertEdge env sourceId targetId relation) :=
  SameReading.then (sameReading_of_eq fun _ => rfl) fun _ =>
    SameReading.then (sameReading_of_eq fun _ => rfl) fun _ =>
      SameReading.then (sameReading_of_eq fun _ => rfl) fun _ =>
        SameReading.then (sameReading_of_eq fun _ => rfl) fun _ =>
          SameReading.then (sameReading_of_eq fun _ => rfl) fun _ =>
            SameReading.then (sameReading_insertInto _ fun db => h.edges db _) fun _ =>
              sameReading_of_eq fun _ => rfl

theorem sameReading_addSourceInConnection (cardId : String) (source : EvidenceSource) :
    Txn.Keeps (SameReading read) (addSourceInConnection env cardId source) := by
  refine SameReading.then (sameReading_of_eq fun _ => rfl) fun _ =>
    SameReading.then (sameReading_of_eq fun _ => rfl) fun rows => ?_
  cases rows with
  | nil => exact sameReading_insertSource h cardId source
  | cons row rows => exact sameReading_of_eq fun _ => rfl

theorem sameReading_retire (winner old : String) :
    Txn.Keeps (SameReading read) (retire env winner old) :=
  SameReading.then (sameReading_insertEdge h _ _ _) fun _ => sameReading_insertEvent h _ _ _

theorem sameReading_addSources (cardId : String) (sources : List EvidenceSource) :
    Txn.Keeps (SameReading read) (addSources env cardId sources) :=
  SameReading.forM (fun source => SameReading.then (sameReading_addSourceInConnection h cardId
    source) fun _ => sameReading_of_eq fun _ => rfl) sources

theorem sameReading_insertSources (cardId : String) (sources : List EvidenceSource) :
    Txn.Keeps (SameReading read) (sources.forM fun source => do
      let _ ← insertSource env cardId source) :=
  SameReading.forM (fun source => SameReading.then (sameReading_insertSource h cardId source)
    fun _ => sameReading_of_eq fun _ => rfl) sources

theorem sameReading_createSchema : Txn.Keeps (SameReading read) (createSchema env) :=
  SameReading.then (fun w => h.initialized w.db true) fun _ =>
    SameReading.then (sameReading_select _) fun _ =>
      SameReading.then (sameReading_of_eq fun _ => rfl) fun _ =>
        SameReading.then (fun w => h.metas w.db _) fun _ => fun w => h.metas w.db _

theorem sameReading_writeTransaction {α : Type} {body : Tx F α}
    (hbody : Txn.Keeps (SameReading read) body) :
    Txn.Keeps (SameReading read) (writeTransaction env body) := by
  refine SameReading.then (sameReading_createSchema h) fun _ =>
    Txn.Keeps.atomically (fun w w' _ => ?_) hbody
  show read w.db = read w.db
  rfl

/-- A transaction that raised is the creation of the schema and nothing else. -/
theorem writeTransaction_sameReading {α : Type} {body : Tx F α} {e : PyExc} {w w' : MemoryWorld F}
    (hraised : writeTransaction env body w = (.error e, w')) : SameReading read w w' := by
  have hschema : SameReading read w (createSchema env w).2 := sameReading_createSchema h w
  rcases Txn.bind_error.1 hraised with hcreate | ⟨_, w₁, hcreate, hbody⟩
  · rw [hcreate] at hschema
    exact hschema
  · rw [hcreate] at hschema
    obtain ⟨_, -, rfl⟩ := Txn.atomically_error.1 hbody
    exact hschema

/-- A transaction that returned found the schema in place. -/
theorem writeTransaction_reads {α : Type} {body : Tx F α} {a : α} {w w' : MemoryWorld F}
    (hkept : MetasKept env w.db) (hok : writeTransaction env body w = (.ok a, w')) :
    ∃ w₁, SameReading read w w₁ ∧ Ready env w₁.db ∧ body w₁ = (.ok a, w') := by
  unfold writeTransaction at hok
  rw [Txn.bind_ok] at hok
  obtain ⟨_, w₁, hschema, hbody⟩ := hok
  have hsame : SameReading read w (createSchema env w).2 := sameReading_createSchema h w
  rw [hschema] at hsame
  refine ⟨w₁, hsame, ?_, Txn.atomically_ok.1 hbody⟩
  rw [createSchema_run hkept] at hschema
  cases hschema
  exact ⟨rfl, rfl⟩

end Ignored

theorem Extends.ready {w w' : MemoryWorld F} {d : Delta F} (hd : Extends env w d w')
    (hready : Ready env w.db) : Ready env w'.db := by
  rcases hd.opens (Or.inr hready.2) with ⟨hinit, hmetas⟩ | h
  · exact ⟨hinit.trans hready.1, hmetas.trans hready.2⟩
  · exact h

section Cards

variable (h : IgnoresCards read)
include h

omit [Json.PyFloat F] in
theorem sameReading_indexCard (ftsEnabled : Option String) (row : FtsRow) :
    Txn.Keeps (SameReading read) (indexCard ftsEnabled row : Tx F Unit) := by
  intro w
  unfold indexCard
  split
  · exact h.memoryFts w.db _
  · exact sameReading_refl w

theorem sameReading_insertCard (values : CardValues F) :
    Txn.Keeps (SameReading read) (insertCard env values) :=
  SameReading.then (sameReading_of_eq fun _ => rfl) fun _ =>
    SameReading.then (sameReading_of_eq fun _ => rfl) fun _ =>
      SameReading.then (sameReading_insertInto _ fun db => h.cards db _) fun _ =>
        SameReading.then (sameReading_insertEvent h.toIgnores _ _ _) fun _ =>
          SameReading.then (sameReading_select _) fun ftsEnabled =>
            SameReading.then (sameReading_indexCard h ftsEnabled _) fun _ =>
              SameReading.then (sameReading_select _) fun _ => sameReading_of_eq fun _ => rfl

/-- Every operation on cards, also one that raised. -/
theorem sameReading_operate (op : Operation F)
    (hdecision : ∀ querySha256 stage operation selectedCardIds expectedUtility reason shadow,
      op ≠ .recordMemoryDecision querySha256 stage operation selectedCardIds expectedUtility reason
        shadow)
    (houtcome : ∀ decisionId success reward harmful tokenCost evidence,
      op ≠ .recordMemoryOutcome decisionId success reward harmful tokenCost evidence) :
    Txn.Keeps (SameReading read) (operate env op) := by
  have hdrop : ∀ {α : Type} {x : Tx F α}, Txn.Keeps (SameReading read) x →
      Txn.Keeps (SameReading read) (dropValue x) := fun hx =>
    SameReading.then hx fun _ => sameReading_of_eq fun _ => rfl
  have hlift : ∀ {α : Type} (x : Except PyExc α),
      Txn.Keeps (SameReading read) (Txn.lift x : Tx F α) := fun _ => sameReading_of_eq fun _ => rfl
  cases op with
  | addCard values sources derivedFrom =>
      refine hdrop (SameReading.then (hlift _) fun _ => SameReading.then (hlift _) fun _ =>
        sameReading_writeTransaction h.toIgnores ?_)
      exact SameReading.then (sameReading_select _) fun _ => SameReading.then (hlift _) fun _ =>
        SameReading.then (sameReading_insertCard h values) fun _ =>
          SameReading.then (sameReading_insertSources h.toIgnores _ _) fun _ =>
            SameReading.then (SameReading.forM (fun _ => SameReading.then
              (sameReading_insertEdge h.toIgnores _ _ _) fun _ => sameReading_of_eq fun _ => rfl) _)
              fun _ => sameReading_of_eq fun _ => rfl
  | addCardOnceForSource source values =>
      refine hdrop (SameReading.then (hlift _) fun _ => sameReading_writeTransaction h.toIgnores
        (SameReading.then (sameReading_select _) fun replayed => ?_))
      cases replayed with
      | none =>
          exact SameReading.then (sameReading_insertCard h values) fun _ =>
            SameReading.then (sameReading_insertSource h.toIgnores _ _) fun _ =>
              sameReading_of_eq fun _ => rfl
      | some card => exact sameReading_of_eq fun _ => rfl
  | upsertScopedSingleton anchor values sources =>
      refine hdrop (SameReading.then (hlift _) fun _ => SameReading.then (hlift _) fun _ =>
        SameReading.then (hlift _) fun _ => sameReading_writeTransaction h.toIgnores ?_)
      exact SameReading.then (sameReading_select _) fun _ =>
        keeps_decideSingleton sameReading_refl sameReading_trans (sameReading_insertCard h)
          (sameReading_addSources h.toIgnores) (sameReading_retire h.toIgnores) _ _ _ _
  | supersede oldCardId values sources =>
      refine hdrop (SameReading.then (hlift _) fun _ => SameReading.then (hlift _) fun _ =>
        sameReading_writeTransaction h.toIgnores ?_)
      exact SameReading.then (sameReading_select _) fun _ => SameReading.then (hlift _) fun _ =>
        SameReading.then (sameReading_insertCard h values) fun _ =>
          SameReading.then (sameReading_insertSources h.toIgnores _ _) fun _ =>
            SameReading.then (sameReading_retire h.toIgnores _ _) fun _ =>
              sameReading_of_eq fun _ => rfl
  | transition cardId status related =>
      exact SameReading.then (hlift _) fun _ => sameReading_writeTransaction h.toIgnores
        (SameReading.then (sameReading_select _) fun _ => SameReading.then (sameReading_select _)
          fun _ => sameReading_insertEvent h.toIgnores _ _ _)
  | addEdge sourceId targetId relation =>
      exact hdrop (sameReading_writeTransaction h.toIgnores
        (sameReading_insertEdge h.toIgnores _ _ _))
  | addSource cardId source =>
      exact hdrop (sameReading_writeTransaction h.toIgnores
        (sameReading_addSourceInConnection h.toIgnores _ _))
  | recordMemoryDecision => exact absurd rfl (hdecision _ _ _ _ _ _ _)
  | recordMemoryOutcome => exact absurd rfl (houtcome _ _ _ _ _ _)

end Cards

end MemoryStore

end MiniCodeAgent
