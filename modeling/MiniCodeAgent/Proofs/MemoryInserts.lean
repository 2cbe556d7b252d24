import MiniCodeAgent.Json.RoundTrip
import MiniCodeAgent.MemoryOperations

/-!
# What the operations of the store write

Every table only ever grows. `Extends` says by what: the rows an operation
appended, with the stamps of its status events drawn from the clock in order,
each row signed as the store signs and each card a row `_insert_card` builds.
It holds of every insertion, it composes, and a transaction that raised extends
by nothing. What an invariant of the tables needs of an operation is then which
rows they were.
-/

namespace MiniCodeAgent

namespace MemoryStore

variable {F : Type} [Json.PyFloat F] (env : MemoryEnv F)

/-! ## Counters -/

/-- Identifiers and clock readings are used up in any case. -/
def Later (w w' : MemoryWorld F) : Prop := w.uuids ≤ w'.uuids ∧ w.ticks ≤ w'.ticks

omit [Json.PyFloat F] in
theorem later_refl (w : MemoryWorld F) : Later w w := ⟨le_refl _, le_refl _⟩

omit [Json.PyFloat F] in
theorem later_trans (a b c : MemoryWorld F) (h : Later a b) (h' : Later b c) : Later a c :=
  ⟨le_trans h.1 h'.1, le_trans h.2 h'.2⟩

omit [Json.PyFloat F] in
theorem Keeps.then {α β : Type} {x : Tx F α} {f : α → Tx F β} (hx : Txn.Keeps Later x)
    (hf : ∀ a, Txn.Keeps Later (f a)) : Txn.Keeps Later (x >>= f) := hx.bind later_trans hf

omit [Json.PyFloat F] in
theorem keeps_lift {α : Type} (x : Except PyExc α) :
    Txn.Keeps Later (Txn.lift x : Tx F α) := Txn.keeps_same later_refl fun _ => rfl

omit [Json.PyFloat F] in
theorem keeps_pure {α : Type} (a : α) : Txn.Keeps Later (pure a : Tx F α) :=
  Txn.keeps_same later_refl fun _ => rfl

omit [Json.PyFloat F] in
theorem keeps_select {α : Type} (f : Database F → Except PyExc α) :
    Txn.Keeps Later (select f : Tx F α) := Txn.keeps_same later_refl fun _ => rfl

omit [Json.PyFloat F] in
theorem keeps_query {α : Type} (f : MemoryWorld F → α) :
    Txn.Keeps Later (Txn.query f : Tx F α) := Txn.keeps_same later_refl fun _ => rfl

omit [Json.PyFloat F] in
theorem keeps_execute (f : Database F → Database F) : Txn.Keeps Later (execute f) :=
  fun _ => ⟨le_refl _, le_refl _⟩

omit [Json.PyFloat F] in
theorem keeps_uuid4 : Txn.Keeps Later (uuid4 env) := fun _ => ⟨Nat.le_succ _, le_refl _⟩

omit [Json.PyFloat F] in
theorem keeps_timeNs : Txn.Keeps Later (timeNs env) := fun _ => ⟨le_refl _, Nat.le_succ _⟩

omit [Json.PyFloat F] in
theorem keeps_insertInto (violated : Database F → Option String) (add : Database F → Database F) :
    Txn.Keeps Later (insertInto violated add) :=
  Keeps.then (keeps_select _) fun _ => keeps_execute add

omit [Json.PyFloat F] in
theorem keeps_forM {α : Type} {f : α → Tx F PUnit} (hf : ∀ x, Txn.Keeps Later (f x))
    (xs : List α) : Txn.Keeps Later (xs.forM f) :=
  Txn.Keeps.forM later_refl later_trans hf xs

theorem keeps_insertEvent (cardId eventType : String) (related : Option String) :
    Txn.Keeps Later (insertEvent env cardId eventType related) :=
  Keeps.then (keeps_lift _) fun _ => Keeps.then (keeps_uuid4 env) fun _ =>
    Keeps.then (keeps_timeNs env) fun _ => keeps_insertInto _ _

omit [Json.PyFloat F] in
theorem keeps_indexCard (ftsEnabled : Option String) (row : FtsRow) :
    Txn.Keeps Later (indexCard ftsEnabled row : Tx F Unit) := by
  unfold indexCard
  split
  · exact keeps_execute _
  · exact keeps_pure ()

theorem keeps_insertCard (values : CardValues F) : Txn.Keeps Later (insertCard env values) :=
  Keeps.then (keeps_uuid4 env) fun _ => Keeps.then (keeps_timeNs env) fun _ =>
    Keeps.then (keeps_insertInto _ _) fun _ => Keeps.then (keeps_insertEvent env _ _ _) fun _ =>
      Keeps.then (keeps_select _) fun _ => Keeps.then (keeps_indexCard _ _) fun _ =>
        Keeps.then (keeps_select _) fun _ => keeps_lift _

theorem keeps_insertSource (cardId : String) (source : EvidenceSource) :
    Txn.Keeps Later (insertSource env cardId source) :=
  Keeps.then (keeps_lift _) fun _ => Keeps.then (keeps_uuid4 env) fun _ =>
    Keeps.then (keeps_timeNs env) fun _ => Keeps.then (keeps_insertInto _ _) fun _ => keeps_pure _

theorem keeps_insertEdge (sourceId targetId relation : String) :
    Txn.Keeps Later (insertEdge env sourceId targetId relation) :=
  Keeps.then (keeps_lift _) fun _ => Keeps.then (keeps_select _) fun _ =>
    Keeps.then (keeps_select _) fun _ => Keeps.then (keeps_uuid4 env) fun _ =>
      Keeps.then (keeps_timeNs env) fun _ => Keeps.then (keeps_insertInto _ _) fun _ =>
        keeps_pure _

theorem keeps_addSourceInConnection (cardId : String) (source : EvidenceSource) :
    Txn.Keeps Later (addSourceInConnection env cardId source) := by
  refine Keeps.then (keeps_select _) fun _ => Keeps.then (keeps_query _) fun rows => ?_
  cases rows with
  | nil => exact keeps_insertSource env cardId source
  | cons row rows => exact keeps_lift _

theorem keeps_retire (winner old : String) : Txn.Keeps Later (retire env winner old) :=
  Keeps.then (keeps_insertEdge env _ _ _) fun _ => keeps_insertEvent env _ _ _

theorem keeps_addSources (cardId : String) (sources : List EvidenceSource) :
    Txn.Keeps Later (addSources env cardId sources) :=
  keeps_forM (fun source => Keeps.then (keeps_addSourceInConnection env cardId source)
    fun _ => keeps_pure _) sources

theorem keeps_insertSources (cardId : String) (sources : List EvidenceSource) :
    Txn.Keeps Later (sources.forM fun source => do
      let _ ← insertSource env cardId source) :=
  keeps_forM (fun source => Keeps.then (keeps_insertSource env cardId source)
    fun _ => keeps_pure _) sources

theorem keeps_createSchema : Txn.Keeps Later (createSchema env) :=
  Keeps.then (keeps_execute _) fun _ => Keeps.then (keeps_select _) fun _ =>
    Keeps.then (keeps_lift _) fun _ => Keeps.then (keeps_execute _) fun _ => keeps_execute _

theorem keeps_writeTransaction {α : Type} {body : Tx F α} (h : Txn.Keeps Later body) :
    Txn.Keeps Later (writeTransaction env body) :=
  Keeps.then (keeps_createSchema env) fun _ => by
    refine Txn.Keeps.atomically ?_ h
    exact fun _ _ hlater => hlater

/-! ## Rows as the store writes them -/

def SourceRow.Signed (row : SourceRow) : Prop := row.signature = sign env (sourcePayload row)

def EdgeRow.Signed (row : EdgeRow) : Prop := row.signature = sign env (edgePayload row)

def EventRow.Signed (row : EventRow) : Prop := row.signature = sign env (eventPayload row)

/-- A row `_insert_card` builds. -/
def CardRow.Made (row : CardRow F) : Prop :=
  ∃ cardId values recordedAtNs, row = newCardRow env cardId values recordedAtNs

/-- The row of a card with these values, which are valid. -/
def CardRow.Of (values : CardValues F) (row : CardRow F) : Prop :=
  validateCardInput env values = .ok () ∧
    ∃ cardId recordedAtNs, row = newCardRow env cardId values recordedAtNs

theorem compareDigest_self {text : String} (h : isHex text = true) :
    compareDigest text text = .ok true := by
  rw [compareDigest, if_pos (by rw [isAscii_of_isHex h]; rfl), beq_self_eq_true]

theorem isHex_sign (payload : Dict (Json F)) : isHex (sign env payload) = true :=
  env.digests.hmacSha256_hex _ _

theorem verifySignature_sign (label id : String) (payload : Dict (Json F)) :
    verifySignature env label id (sign env payload) payload = .ok () := by
  rw [verifySignature, compareDigest_self (isHex_sign env payload)]
  rfl

theorem verifySource_signed {row : SourceRow} (h : row.Signed env) :
    verifySource env row = .ok () := by
  rw [verifySource, h]
  exact verifySignature_sign env _ _ _

theorem verifyEdge_signed {row : EdgeRow} (h : row.Signed env) : verifyEdge env row = .ok () := by
  rw [verifyEdge, h]
  exact verifySignature_sign env _ _ _

theorem verifyEvent_signed {row : EventRow} (h : row.Signed env) :
    verifyEvent env row = .ok () := by
  rw [verifyEvent, h]
  exact verifySignature_sign env _ _ _

/-! ## What was appended -/

structure Delta (F : Type) where
  cards : List (CardRow F)
  sources : List SourceRow
  edges : List EdgeRow
  events : List EventRow

namespace Delta

omit [Json.PyFloat F]

def none : Delta F := ⟨[], [], [], []⟩

def card (row : CardRow F) : Delta F := ⟨[row], [], [], []⟩

def source (row : SourceRow) : Delta F := ⟨[], [row], [], []⟩

def edge (row : EdgeRow) : Delta F := ⟨[], [], [row], []⟩

def event (row : EventRow) : Delta F := ⟨[], [], [], [row]⟩

/-- First the one and then the other. -/
def and (d d' : Delta F) : Delta F :=
  ⟨d.cards ++ d'.cards, d.sources ++ d'.sources, d.edges ++ d'.edges, d.events ++ d'.events⟩

def ids (d : Delta F) : List String :=
  d.cards.map CardRow.id ++ d.sources.map SourceRow.id ++ d.edges.map EdgeRow.id ++
    d.events.map EventRow.id

theorem mem_ids_and {d d' : Delta F} {id : String} :
    id ∈ (d.and d').ids ↔ id ∈ d.ids ∨ id ∈ d'.ids := by
  simp only [ids, and, List.map_append, List.mem_append]
  tauto

end Delta

/-- An identifier drawn from the `lo`-th on and before the `hi`-th. -/
def DrawnId (lo hi : Nat) (id : String) : Prop := ∃ n, lo ≤ n ∧ n < hi ∧ id = env.uuid4 n

/-- The metadata `_create_schema` writes. -/
def readyMetas : List MetaRow :=
  let schemaVersion : Dict (Json F) := metaPayload "schema_version" "2"
  let ftsEnabled := if env.fts5 then "1" else "0"
  [⟨"schema_version", "2", sign env schemaVersion⟩,
    ⟨"fts_enabled", ftsEnabled, sign env (metaPayload "fts_enabled" ftsEnabled)⟩]

def Ready (db : Database F) : Prop := db.initialized = true ∧ db.metas = readyMetas env

/-- The metadata is what it was, or the schema has been created. -/
def Opens (db db' : Database F) : Prop :=
  (db'.initialized = db.initialized ∧ db'.metas = db.metas) ∨ Ready env db'

/-- No other metadata than the store's own. -/
def MetasKept (db : Database F) : Prop := db.metas = [] ∨ db.metas = readyMetas env

structure Extends (w : MemoryWorld F) (d : Delta F) (w' : MemoryWorld F) : Prop where
  cards : w'.db.cards = w.db.cards ++ d.cards
  sources : w'.db.sources = w.db.sources ++ d.sources
  edges : w'.db.edges = w.db.edges ++ d.edges
  events : w'.db.cardEvents = w.db.cardEvents ++ d.events
  drawn : Log.Drawn EventRow.recordedAtNs env.timeNs w.ticks d.events w'.ticks
  made : ∀ row ∈ d.cards, row.Made env
  sourcesSigned : ∀ row ∈ d.sources, row.Signed env
  edgesSigned : ∀ row ∈ d.edges, row.Signed env
  eventsSigned : ∀ row ∈ d.events, row.Signed env
  linked : ∀ row ∈ d.edges, row.sourceId ∈ w'.db.cards.map CardRow.id ∧
    row.targetId ∈ w'.db.cards.map CardRow.id
  unique : (w.db.cards.map CardRow.id).Nodup → (w'.db.cards.map CardRow.id).Nodup
  uuids : w.uuids ≤ w'.uuids
  ids : ∀ id ∈ d.ids, DrawnId env w.uuids w'.uuids id
  opens : MetasKept env w.db → Opens env w.db w'.db

variable {env}

omit [Json.PyFloat F] in
theorem DrawnId.mono {lo lo' hi hi' : Nat} {id : String} (h : DrawnId env lo hi id)
    (hlo : lo' ≤ lo) (hhi : hi ≤ hi') : DrawnId env lo' hi' id := by
  obtain ⟨n, hn, hn', heq⟩ := h
  exact ⟨n, le_trans hlo hn, lt_of_lt_of_le hn' hhi, heq⟩

theorem opens_refl (db : Database F) : Opens env db db := Or.inl ⟨rfl, rfl⟩

theorem Opens.kept {db db' : Database F} (h : Opens env db db') (hkept : MetasKept env db) :
    MetasKept env db' := by
  rcases h with ⟨-, hmetas⟩ | ⟨-, hmetas⟩
  · rw [MetasKept, hmetas]
    exact hkept
  · exact Or.inr hmetas

theorem Opens.trans {db₁ db₂ db₃ : Database F} (h : Opens env db₁ db₂)
    (h' : Opens env db₂ db₃) : Opens env db₁ db₃ := by
  rcases h' with ⟨hinit', hmetas'⟩ | hready'
  · rcases h with ⟨hinit, hmetas⟩ | ⟨hinit, hmetas⟩
    · exact Or.inl ⟨hinit'.trans hinit, hmetas'.trans hmetas⟩
    · exact Or.inr ⟨hinit'.trans hinit, hmetas'.trans hmetas⟩
  · exact Or.inr hready'

theorem extends_of_eq {w w' : MemoryWorld F} (hcards : w'.db.cards = w.db.cards)
    (hsources : w'.db.sources = w.db.sources) (hedges : w'.db.edges = w.db.edges)
    (hevents : w'.db.cardEvents = w.db.cardEvents) (hlater : Later w w')
    (hopens : MetasKept env w.db → Opens env w.db w'.db) : Extends env w .none w' where
  cards := by rw [hcards]; exact (List.append_nil _).symm
  sources := by rw [hsources]; exact (List.append_nil _).symm
  edges := by rw [hedges]; exact (List.append_nil _).symm
  events := by rw [hevents]; exact (List.append_nil _).symm
  drawn := hlater.2
  made _ h := absurd h List.not_mem_nil
  sourcesSigned _ h := absurd h List.not_mem_nil
  edgesSigned _ h := absurd h List.not_mem_nil
  eventsSigned _ h := absurd h List.not_mem_nil
  linked _ h := absurd h List.not_mem_nil
  unique h := by rw [hcards]; exact h
  uuids := hlater.1
  ids _ h := absurd h List.not_mem_nil
  opens := hopens

theorem extends_refl (w : MemoryWorld F) : Extends env w .none w :=
  extends_of_eq rfl rfl rfl rfl (later_refl w) fun _ => opens_refl w.db

theorem Extends.trans {w w₁ w₂ : MemoryWorld F} {d d' : Delta F} (h : Extends env w d w₁)
    (h' : Extends env w₁ d' w₂) : Extends env w (d.and d') w₂ where
  cards := by rw [h'.cards, h.cards]; exact List.append_assoc _ _ _
  sources := by rw [h'.sources, h.sources]; exact List.append_assoc _ _ _
  edges := by rw [h'.edges, h.edges]; exact List.append_assoc _ _ _
  events := by rw [h'.events, h.events]; exact List.append_assoc _ _ _
  drawn := h.drawn.append h'.drawn
  made row hrow := (List.mem_append.1 hrow).elim (h.made row) (h'.made row)
  sourcesSigned row hrow :=
    (List.mem_append.1 hrow).elim (h.sourcesSigned row) (h'.sourcesSigned row)
  edgesSigned row hrow := (List.mem_append.1 hrow).elim (h.edgesSigned row) (h'.edgesSigned row)
  eventsSigned row hrow :=
    (List.mem_append.1 hrow).elim (h.eventsSigned row) (h'.eventsSigned row)
  linked row hrow := by
    rcases List.mem_append.1 hrow with hrow | hrow
    · have hcards : w₁.db.cards.map CardRow.id ⊆ w₂.db.cards.map CardRow.id := by
        rw [h'.cards, List.map_append]
        exact List.subset_append_left _ _
      exact ⟨hcards (h.linked row hrow).1, hcards (h.linked row hrow).2⟩
    · exact h'.linked row hrow
  unique hnodup := h'.unique (h.unique hnodup)
  uuids := le_trans h.uuids h'.uuids
  ids id hid := (Delta.mem_ids_and.1 hid).elim
    (fun hid => (h.ids id hid).mono (le_refl _) h'.uuids)
    fun hid => (h'.ids id hid).mono h.uuids (le_refl _)
  opens hkept := (h.opens hkept).trans (h'.opens ((h.opens hkept).kept hkept))

/-! ## The insertions -/

omit [Json.PyFloat F] in
theorem select_ok {α : Type} {f : Database F → Except PyExc α} {a : α} {w w' : MemoryWorld F} :
    select f w = (.ok a, w') ↔ f w.db = .ok a ∧ w' = w := Txn.reads_ok

omit [Json.PyFloat F] in
theorem execute_ok {f : Database F → Database F} {u : Unit} {w w' : MemoryWorld F} :
    execute f w = (.ok u, w') ↔ w' = { w with db := f w.db } := Txn.modify_ok

omit [Json.PyFloat F] in
theorem insertInto_ok {violated : Database F → Option String} {add : Database F → Database F}
    {u : Unit} {w w' : MemoryWorld F} :
    insertInto violated add w = (.ok u, w') ↔
      violated w.db = none ∧ w' = { w with db := add w.db } := by
  rw [insertInto, Txn.bind_ok]
  constructor
  · rintro ⟨_, w₁, hcheck, hadd⟩
    obtain ⟨hcheck, rfl⟩ := select_ok.1 hcheck
    refine ⟨?_, execute_ok.1 hadd⟩
    split at hcheck
    · cases hcheck
    · next h => exact h
  · rintro ⟨hnone, hw'⟩
    exact ⟨(), w, select_ok.2 ⟨by rw [hnone], rfl⟩, execute_ok.2 hw'⟩

omit [Json.PyFloat F] in
theorem uuid4_ok {id : String} {w w' : MemoryWorld F} :
    uuid4 env w = (.ok id, w') ↔
      id = env.uuid4 w.uuids ∧ w' = { w with uuids := w.uuids + 1 } := by
  constructor
  · rintro ⟨⟩
    exact ⟨rfl, rfl⟩
  · rintro ⟨rfl, rfl⟩
    rfl

omit [Json.PyFloat F] in
theorem timeNs_ok {t : Int} {w w' : MemoryWorld F} :
    timeNs env w = (.ok t, w') ↔
      t = env.timeNs w.ticks ∧ w' = { w with ticks := w.ticks + 1 } := by
  constructor
  · rintro ⟨⟩
    exact ⟨rfl, rfl⟩
  · rintro ⟨rfl, rfl⟩
    rfl

omit [Json.PyFloat F] in
theorem liftRaise_ok {cond : Prop} [Decidable cond] {exc : PyExc} {u : Unit}
    {w w' : MemoryWorld F} :
    Txn.lift (raiseIf cond exc) w = (.ok u, w') ↔ ¬ cond ∧ w' = w := by
  rw [Txn.lift_ok, raiseIf_ok]

/-- The row of a new status event. -/
def newEventRow (env : MemoryEnv F) (cardId eventType : String) (related : Option String)
    (w : MemoryWorld F) : EventRow :=
  let row : EventRow :=
    ⟨env.uuid4 w.uuids, cardId, eventType, related, env.timeNs w.ticks, ""⟩
  { row with signature := sign env (eventPayload row) }

theorem insertEvent_ok {cardId eventType : String} {related : Option String} {u : Unit}
    {w w' : MemoryWorld F} :
    insertEvent env cardId eventType related w = (.ok u, w') ↔
      eventType ∈ memoryStatuses ∧
        (w.db.cardEvents.any fun other => other.id = env.uuid4 w.uuids) = false ∧
        w' = { db := { w.db with cardEvents :=
                w.db.cardEvents ++ [newEventRow env cardId eventType related w] }
               uuids := w.uuids + 1, ticks := w.ticks + 1 } := by
  rw [insertEvent, Txn.bind_ok]
  constructor
  · rintro ⟨_, w₁, hcheck, h⟩
    obtain ⟨hmem, rfl⟩ := liftRaise_ok.1 hcheck
    obtain ⟨_, w₂, huuid, h⟩ := Txn.bind_ok.1 h
    obtain ⟨rfl, rfl⟩ := uuid4_ok.1 huuid
    obtain ⟨_, w₃, htime, h⟩ := Txn.bind_ok.1 h
    obtain ⟨rfl, rfl⟩ := timeNs_ok.1 htime
    obtain ⟨hunique, rfl⟩ := insertInto_ok.1 h
    refine ⟨not_not.1 hmem, ?_, rfl⟩
    by_contra hdup
    rw [if_pos (Bool.eq_true_of_not_eq_false hdup)] at hunique
    cases hunique
  · rintro ⟨hmem, hunique, rfl⟩
    refine ⟨(), w, liftRaise_ok.2 ⟨not_not.2 hmem, rfl⟩, ?_⟩
    refine Txn.bind_ok.2 ⟨_, _, uuid4_ok.2 ⟨rfl, rfl⟩, ?_⟩
    refine Txn.bind_ok.2 ⟨_, _, timeNs_ok.2 ⟨rfl, rfl⟩, ?_⟩
    refine insertInto_ok.2 ⟨?_, rfl⟩
    rw [if_neg]
    rw [hunique]
    decide

theorem insertEvent_extends {cardId eventType : String} {related : Option String} {u : Unit}
    {w w' : MemoryWorld F} (h : insertEvent env cardId eventType related w = (.ok u, w')) :
    Extends env w (.event (newEventRow env cardId eventType related w)) w' := by
  obtain ⟨-, -, rfl⟩ := insertEvent_ok.1 h
  exact {
    cards := (List.append_nil _).symm
    sources := (List.append_nil _).symm
    edges := (List.append_nil _).symm
    events := rfl
    drawn := Log.Drawn.singleton rfl (le_refl _) (Nat.lt_succ_self _)
    made := fun _ hrow => absurd hrow List.not_mem_nil
    sourcesSigned := fun _ hrow => absurd hrow List.not_mem_nil
    edgesSigned := fun _ hrow => absurd hrow List.not_mem_nil
    eventsSigned := fun row hrow => by
      rw [List.mem_singleton.1 hrow]
      rfl
    linked := fun _ hrow => absurd hrow List.not_mem_nil
    unique := id
    uuids := Nat.le_succ _
    ids := fun id hid => by
      rw [List.mem_singleton.1 hid]
      exact ⟨_, le_refl _, Nat.lt_succ_self _, rfl⟩
    opens := fun _ => opens_refl _ }

variable (env) in
theorem indexCard_extends {ftsEnabled : Option String} {row : FtsRow} {u : Unit}
    {w w' : MemoryWorld F} (h : indexCard ftsEnabled row w = (.ok u, w')) :
    Extends env w .none w' := by
  unfold indexCard at h
  split at h
  · rw [execute_ok.1 h]
    exact extends_of_eq rfl rfl rfl rfl (later_refl w) fun _ => opens_refl w.db
  · rw [(Txn.pure_ok.1 h).2]
    exact extends_refl w

omit [Json.PyFloat F] in
theorem requireCard_ok {cardId : String} {db : Database F} {row : CardRow F}
    (h : requireCard cardId db = .ok row) : row ∈ db.cards ∧ row.id = cardId := by
  unfold requireCard at h
  split at h
  · next row' hfind =>
      cases h
      exact ⟨List.mem_of_find?_eq_some hfind, by simpa using List.find?_some hfind⟩
  · cases h

omit [Json.PyFloat F] in
/-- With unique ids, the card found under an id is the one that has it. -/
theorem requireCard_of_mem {db : Database F} (hunique : (db.cards.map CardRow.id).Nodup)
    {row : CardRow F} (hrow : row ∈ db.cards) : requireCard row.id db = .ok row := by
  have hfind : db.cards.find? (fun other => other.id = row.id) = some row := by
    cases hf : db.cards.find? (fun other => other.id = row.id) with
    | none =>
        have := List.find?_eq_none.1 hf row hrow
        simp at this
    | some other =>
        have hmem := List.mem_of_find?_eq_some hf
        have hid : other.id = row.id := by simpa using List.find?_some hf
        rw [List.inj_on_of_nodup_map hunique hmem hrow hid]
  rw [requireCard, hfind]

omit [Json.PyFloat F] in
theorem eq_of_same_id {db : Database F} (hunique : (db.cards.map CardRow.id).Nodup)
    {a b : CardRow F} (ha : a ∈ db.cards) (hb : b ∈ db.cards) (hid : a.id = b.id) : a = b :=
  List.inj_on_of_nodup_map hunique ha hb hid

theorem cardFromRow_ok {row : CardRow F} {status : String} {card : MemoryCard F}
    (h : cardFromRow row status = .ok card) :
    card.id = row.id ∧ card.kind = row.kind ∧ card.subtype = row.subtype ∧
      card.scope = row.scope ∧ card.scopeKey = row.scopeKey ∧ card.authority = row.authority ∧
      card.status = status := by
  unfold cardFromRow at h
  obtain ⟨_, -, h⟩ := except_bind_ok.1 h
  obtain ⟨_, -, h⟩ := except_bind_ok.1 h
  cases h
  exact ⟨rfl, rfl, rfl, rfl, rfl, rfl, rfl⟩

/-- The new card's row and its first event, and the card that is handed out. -/
theorem insertCard_ok {values : CardValues F} {card : MemoryCard F} {w w' : MemoryWorld F}
    (h : insertCard env values w = (.ok card, w')) :
    ∃ row event, row = newCardRow env (env.uuid4 w.uuids) values (env.timeNs w.ticks) ∧
      event.cardId = row.id ∧ event.eventType = "active" ∧ event.relatedCardId = none ∧
      Extends env w ((Delta.card row).and (.event event)) w' ∧
      row.id ∉ w.db.cards.map CardRow.id ∧ card.id = row.id := by
  unfold insertCard at h
  rw [Txn.bind_ok] at h
  obtain ⟨_, w₁, huuid, h⟩ := h
  obtain ⟨rfl, rfl⟩ := uuid4_ok.1 huuid
  rw [Txn.bind_ok] at h
  obtain ⟨_, w₂, htime, h⟩ := h
  obtain ⟨rfl, rfl⟩ := timeNs_ok.1 htime
  rw [Txn.bind_ok] at h
  obtain ⟨_, w₃, hinsert, h⟩ := h
  obtain ⟨hunique, hw₃⟩ := insertInto_ok.1 hinsert
  rw [Txn.bind_ok] at h
  obtain ⟨_, w₄, hevent, h⟩ := h
  rw [Txn.bind_ok] at h
  obtain ⟨fts, w₅, hmeta, h⟩ := h
  obtain ⟨-, rfl⟩ := select_ok.1 hmeta
  rw [Txn.bind_ok] at h
  obtain ⟨_, w₆, hindex, h⟩ := h
  rw [Txn.bind_ok] at h
  obtain ⟨found, w₇, hselect, h⟩ := h
  obtain ⟨hfound, rfl⟩ := select_ok.1 hselect
  obtain ⟨hcard, rfl⟩ := Txn.lift_ok.1 h
  have hfresh : (newCardRow env (env.uuid4 w.uuids) values (env.timeNs w.ticks)).id ∉
      w.db.cards.map CardRow.id := by
    intro hmem
    obtain ⟨other, hother, hid⟩ := List.mem_map.1 hmem
    have hany : (w.db.cards.any fun other => other.id = env.uuid4 w.uuids) = true :=
      List.any_eq_true.2 ⟨other, hother, decide_eq_true hid⟩
    rw [if_pos hany] at hunique
    cases hunique
  have hinsert : Extends env w
      (.card (newCardRow env (env.uuid4 w.uuids) values (env.timeNs w.ticks))) w₃ := by
    rw [hw₃]
    exact {
      cards := rfl
      sources := (List.append_nil _).symm
      edges := (List.append_nil _).symm
      events := (List.append_nil _).symm
      drawn := Nat.le_succ _
      made := fun row hrow => by
        rw [List.mem_singleton.1 hrow]
        exact ⟨_, values, _, rfl⟩
      sourcesSigned := fun _ hrow => absurd hrow List.not_mem_nil
      edgesSigned := fun _ hrow => absurd hrow List.not_mem_nil
      eventsSigned := fun _ hrow => absurd hrow List.not_mem_nil
      linked := fun _ hrow => absurd hrow List.not_mem_nil
      unique := fun hnodup => by
        rw [List.map_append]
        refine List.nodup_append.2 ⟨hnodup, List.nodup_singleton _, ?_⟩
        intro a ha b hb
        rw [List.mem_singleton.1 hb]
        rintro rfl
        exact hfresh ha
      uuids := Nat.le_succ _
      ids := fun id hid => by
        rw [List.mem_singleton.1 hid]
        exact ⟨_, le_refl _, Nat.lt_succ_self _, rfl⟩
      opens := fun _ => opens_refl _ }
  have hall := (hinsert.trans (insertEvent_extends hevent)).trans (indexCard_extends env hindex)
  refine ⟨_, newEventRow env (env.uuid4 w.uuids) "active" none w₃, rfl, rfl, rfl, rfl, ?_,
    hfresh, ?_⟩
  · have hd : ∀ d : Delta F, d.and .none = d := fun d => by simp [Delta.and, Delta.none]
    rw [hd] at hall
    exact hall
  · exact (cardFromRow_ok hcard).1.trans (requireCard_ok hfound).2

theorem requireAuthenticatedCard_ok {cardId : String} {db : Database F} {row : CardRow F}
    (h : requireAuthenticatedCard env cardId db = .ok row) :
    row ∈ db.cards ∧ row.id = cardId ∧ verifyCard env row = .ok () := by
  unfold requireAuthenticatedCard at h
  obtain ⟨found, hfound, h⟩ := except_bind_ok.1 h
  obtain ⟨_, hverify, h⟩ := except_bind_ok.1 h
  cases h
  exact ⟨(requireCard_ok hfound).1, (requireCard_ok hfound).2, hverify⟩

/-- The row of a new source. -/
def newSourceRow (env : MemoryEnv F) (cardId : String) (source : EvidenceSource)
    (w : MemoryWorld F) : SourceRow :=
  let row : SourceRow := ⟨env.uuid4 w.uuids, cardId, source.sourceType, source.sourceRef,
    pyLower source.sourceSha256, source.origin, env.timeNs w.ticks, ""⟩
  { row with signature := sign env (sourcePayload row) }

theorem insertSource_ok {cardId : String} {source made : EvidenceSource} {w w' : MemoryWorld F}
    (h : insertSource env cardId source w = (.ok made, w')) :
    checkSource source = .ok () ∧ Extends env w (.source (newSourceRow env cardId source w)) w' := by
  unfold insertSource at h
  rw [Txn.bind_ok] at h
  obtain ⟨_, w₁, hlift, h⟩ := h
  obtain ⟨hcheck, rfl⟩ := Txn.lift_ok.1 hlift
  rw [Txn.bind_ok] at h
  obtain ⟨_, w₂, huuid, h⟩ := h
  obtain ⟨rfl, rfl⟩ := uuid4_ok.1 huuid
  rw [Txn.bind_ok] at h
  obtain ⟨_, w₃, htime, h⟩ := h
  obtain ⟨rfl, rfl⟩ := timeNs_ok.1 htime
  rw [Txn.bind_ok] at h
  obtain ⟨_, w₄, hinsert, h⟩ := h
  obtain ⟨-, rfl⟩ := insertInto_ok.1 hinsert
  obtain ⟨-, rfl⟩ := Txn.pure_ok.1 h
  refine ⟨hcheck, ?_⟩
  exact {
    cards := (List.append_nil _).symm
    sources := rfl
    edges := (List.append_nil _).symm
    events := (List.append_nil _).symm
    drawn := Nat.le_succ _
    made := fun _ hrow => absurd hrow List.not_mem_nil
    sourcesSigned := fun row hrow => by
      rw [List.mem_singleton.1 hrow]
      rfl
    edgesSigned := fun _ hrow => absurd hrow List.not_mem_nil
    eventsSigned := fun _ hrow => absurd hrow List.not_mem_nil
    linked := fun _ hrow => absurd hrow List.not_mem_nil
    unique := id
    uuids := Nat.le_succ _
    ids := fun id hid => by
      rw [List.mem_singleton.1 hid]
      exact ⟨_, le_refl _, Nat.lt_succ_self _, rfl⟩
    opens := fun _ => opens_refl _ }

/-- What an edge says. -/
def EdgeRow.link (row : EdgeRow) : String × String × String :=
  (row.sourceId, row.targetId, row.relation)

/-- What a status event says. -/
def EventRow.change (row : EventRow) : String × String × Option String :=
  (row.cardId, row.eventType, row.relatedCardId)

/-- The row of a new edge. -/
def newEdgeRow (env : MemoryEnv F) (sourceId targetId relation : String) (w : MemoryWorld F) :
    EdgeRow :=
  let row : EdgeRow :=
    ⟨env.uuid4 w.uuids, sourceId, targetId, relation, env.timeNs w.ticks, ""⟩
  { row with signature := sign env (edgePayload row) }

theorem insertEdge_ok {sourceId targetId relation : String} {edge : MemoryEdge}
    {w w' : MemoryWorld F} (h : insertEdge env sourceId targetId relation w = (.ok edge, w')) :
    relation ∈ memoryRelations ∧
      (∃ source, requireAuthenticatedCard env sourceId w.db = .ok source) ∧
      (∃ target, requireAuthenticatedCard env targetId w.db = .ok target) ∧
      Extends env w (.edge (newEdgeRow env sourceId targetId relation w)) w' := by
  unfold insertEdge at h
  rw [Txn.bind_ok] at h
  obtain ⟨_, w₁, hcheck, h⟩ := h
  obtain ⟨hmem, rfl⟩ := liftRaise_ok.1 hcheck
  rw [Txn.bind_ok] at h
  obtain ⟨source, w₂, hselect, h⟩ := h
  obtain ⟨hsource, rfl⟩ := select_ok.1 hselect
  rw [Txn.bind_ok] at h
  obtain ⟨target, w₃, hselect, h⟩ := h
  obtain ⟨htarget, rfl⟩ := select_ok.1 hselect
  rw [Txn.bind_ok] at h
  obtain ⟨_, w₄, huuid, h⟩ := h
  obtain ⟨rfl, rfl⟩ := uuid4_ok.1 huuid
  rw [Txn.bind_ok] at h
  obtain ⟨_, w₅, htime, h⟩ := h
  obtain ⟨rfl, rfl⟩ := timeNs_ok.1 htime
  rw [Txn.bind_ok] at h
  obtain ⟨_, w₆, hinsert, h⟩ := h
  obtain ⟨-, rfl⟩ := insertInto_ok.1 hinsert
  obtain ⟨-, rfl⟩ := Txn.pure_ok.1 h
  refine ⟨not_not.1 hmem, ⟨source, hsource⟩, ⟨target, htarget⟩, ?_⟩
  exact {
    cards := (List.append_nil _).symm
    sources := (List.append_nil _).symm
    edges := rfl
    events := (List.append_nil _).symm
    drawn := Nat.le_succ _
    made := fun _ hrow => absurd hrow List.not_mem_nil
    sourcesSigned := fun _ hrow => absurd hrow List.not_mem_nil
    edgesSigned := fun row hrow => by
      rw [List.mem_singleton.1 hrow]
      rfl
    eventsSigned := fun _ hrow => absurd hrow List.not_mem_nil
    linked := fun row hrow => by
      rw [List.mem_singleton.1 hrow]
      obtain ⟨hsourceMem, hsourceId, -⟩ := requireAuthenticatedCard_ok hsource
      obtain ⟨htargetMem, htargetId, -⟩ := requireAuthenticatedCard_ok htarget
      exact ⟨List.mem_map.2 ⟨source, hsourceMem, hsourceId⟩,
        List.mem_map.2 ⟨target, htargetMem, htargetId⟩⟩
    unique := id
    uuids := Nat.le_succ _
    ids := fun id hid => by
      rw [List.mem_singleton.1 hid]
      exact ⟨_, le_refl _, Nat.lt_succ_self _, rfl⟩
    opens := fun _ => opens_refl _ }

/-! ## Sources and supersessions -/

/-- The row is this evidence, for this card. -/
def SourceRow.Records (row : SourceRow) (cardId : String) (source : EvidenceSource) : Prop :=
  row.cardId = cardId ∧ row.sourceType = source.sourceType ∧ row.sourceRef = source.sourceRef ∧
    row.sourceSha256 = pyLower source.sourceSha256 ∧ row.origin = source.origin

/-- What a source row says. -/
def SourceRow.record (row : SourceRow) : String × String × String × String × String :=
  (row.cardId, row.sourceType, row.sourceRef, row.sourceSha256, row.origin)

/-- What the row of this evidence says. -/
def recordOf (cardId : String) (source : EvidenceSource) :
    String × String × String × String × String :=
  (cardId, source.sourceType, source.sourceRef, pyLower source.sourceSha256, source.origin)

/-- All evidence that was appended is from this list. -/
def Delta.Recorded (sources : List EvidenceSource) (d : Delta F) : Prop :=
  ∀ row ∈ d.sources, ∃ cardId, ∃ source ∈ sources, row.Records cardId source

omit [Json.PyFloat F] in
theorem Delta.Recorded.and {sources : List EvidenceSource} {d d' : Delta F}
    (h : d.Recorded sources) (h' : d'.Recorded sources) : (d.and d').Recorded sources :=
  fun row hrow => (List.mem_append.1 hrow).elim (h row) (h' row)

omit [Json.PyFloat F] in
theorem recorded_of_none {sources : List EvidenceSource} {d : Delta F} (h : d.sources = []) :
    d.Recorded sources := by
  intro row hrow
  rw [h] at hrow
  cases hrow

/-- Nothing but evidence was appended, for this card and from this list. -/
structure Delta.OnlySources (cardId : String) (sources : List EvidenceSource) (d : Delta F) :
    Prop where
  cards : d.cards = []
  edges : d.edges = []
  events : d.events = []
  records : ∀ row ∈ d.sources, ∃ source ∈ sources, row.Records cardId source

/-- Nothing but edges and events was appended, and they say that the winner
took the place of each of these cards. -/
def Delta.Supersedes (winner : String) (olds : List String) (d : Delta F) : Prop :=
  d.cards = [] ∧ d.sources = [] ∧
    d.edges.map EdgeRow.link = olds.map (fun old => (winner, old, "supersedes")) ∧
    d.events.map EventRow.change = olds.map (fun old => (old, "superseded", some winner))

variable {cardId : String} {sources : List EvidenceSource}

omit [Json.PyFloat F] in
theorem onlySources_and {d d' : Delta F} (h : d.OnlySources cardId sources)
    (h' : d'.OnlySources cardId sources) : (d.and d').OnlySources cardId sources where
  cards := by rw [Delta.and, h.cards, h'.cards]; rfl
  edges := by rw [Delta.and, h.edges, h'.edges]; rfl
  events := by rw [Delta.and, h.events, h'.events]; rfl
  records row hrow := (List.mem_append.1 hrow).elim (h.records row) (h'.records row)

omit [Json.PyFloat F] in
theorem Delta.OnlySources.recorded {d : Delta F} (h : d.OnlySources cardId sources) :
    d.Recorded sources := fun row hrow => ⟨cardId, h.records row hrow⟩

omit [Json.PyFloat F] in
theorem onlySources_none : (Delta.none : Delta F).OnlySources cardId sources :=
  ⟨rfl, rfl, rfl, fun _ hrow => absurd hrow List.not_mem_nil⟩

theorem onlySources_source {source : EvidenceSource} (h : source ∈ sources)
    (w : MemoryWorld F) :
    (Delta.source (newSourceRow env cardId source w) : Delta F).OnlySources cardId sources where
  cards := rfl
  edges := rfl
  events := rfl
  records row hrow := by
    rw [List.mem_singleton.1 hrow]
    exact ⟨source, h, rfl, rfl, rfl, rfl, rfl⟩

omit [Json.PyFloat F] in
theorem supersedes_and {winner : String} {olds olds' : List String} {d d' : Delta F}
    (h : d.Supersedes winner olds) (h' : d'.Supersedes winner olds') :
    (d.and d').Supersedes winner (olds ++ olds') := by
  obtain ⟨hc, hs, he, hv⟩ := h
  obtain ⟨hc', hs', he', hv'⟩ := h'
  refine ⟨?_, ?_, ?_, ?_⟩
  · rw [Delta.and, hc, hc']
    rfl
  · rw [Delta.and, hs, hs']
    rfl
  · rw [List.map_append, ← he, ← he', ← List.map_append]
    rfl
  · rw [List.map_append, ← hv, ← hv', ← List.map_append]
    rfl

theorem addSourceInConnection_ok {source made : EvidenceSource} {w w' : MemoryWorld F}
    (hsource : source ∈ sources)
    (h : addSourceInConnection env cardId source w = (.ok made, w')) :
    ∃ d, Extends env w d w' ∧ d.OnlySources cardId sources := by
  unfold addSourceInConnection at h
  rw [Txn.bind_ok] at h
  obtain ⟨_, w₁, hcard, h⟩ := h
  obtain ⟨-, rfl⟩ := select_ok.1 hcard
  rw [Txn.bind_ok] at h
  obtain ⟨rows, w₂, hrows, h⟩ := h
  obtain ⟨-, rfl⟩ := Txn.query_ok.1 hrows
  cases rows with
  | nil => exact ⟨_, (insertSource_ok h).2, onlySources_source hsource _⟩
  | cons row rows =>
      obtain ⟨-, rfl⟩ := Txn.lift_ok.1 h
      exact ⟨.none, extends_refl _, onlySources_none⟩

/-- A loop over evidence appends nothing else. -/
theorem forM_onlySources {f : EvidenceSource → Tx F PUnit}
    (hf : ∀ {source w w' u}, source ∈ sources → f source w = (.ok u, w') →
      ∃ d, Extends env w d w' ∧ d.OnlySources cardId sources)
    {u : PUnit} {w w' : MemoryWorld F} (h : sources.forM f w = (.ok u, w')) :
    ∃ d, Extends env w d w' ∧ d.OnlySources cardId sources := by
  refine Txn.forM_ok (P := fun _ w₁ => ∃ d, Extends env w d w₁ ∧ d.OnlySources cardId sources) h
    ⟨.none, extends_refl w, onlySources_none⟩ ?_
  intro before source after w₁ w₂ v hsplit hP hx
  obtain ⟨d, hd, honly⟩ := hP
  have hsource : source ∈ sources := by
    rw [hsplit]
    exact List.mem_append_right _ List.mem_cons_self
  obtain ⟨d', hd', honly'⟩ := hf hsource hx
  exact ⟨d.and d', hd.trans hd', onlySources_and honly honly'⟩

theorem addSources_ok {u : Unit} {w w' : MemoryWorld F}
    (h : addSources env cardId sources w = (.ok u, w')) :
    ∃ d, Extends env w d w' ∧ d.OnlySources cardId sources := by
  refine forM_onlySources (fun {source w w' u} hsource hx => ?_) h
  rw [Txn.bind_ok] at hx
  obtain ⟨_, w₁, hadd, hx⟩ := hx
  obtain ⟨-, rfl⟩ := Txn.pure_ok.1 hx
  exact addSourceInConnection_ok hsource hadd

/-- New evidence is appended as it is, row for row. -/
theorem insertSources_ok {u : PUnit} {w w' : MemoryWorld F}
    (h : (sources.forM fun source => (do
      let _ ← insertSource env cardId source : Tx F PUnit)) w = (.ok u, w')) :
    ∃ d, Extends env w d w' ∧ d.OnlySources cardId sources ∧
      d.sources.map SourceRow.record = sources.map (recordOf cardId) := by
  refine Txn.forM_ok (P := fun done w₁ => ∃ d, Extends env w d w₁ ∧ d.OnlySources cardId sources ∧
    d.sources.map SourceRow.record = done.map (recordOf cardId)) h
    ⟨.none, extends_refl w, onlySources_none, rfl⟩ ?_
  intro before source after w₁ w₂ v hsplit hP hx
  obtain ⟨d, hd, honly, hrecords⟩ := hP
  have hsource : source ∈ sources := by
    rw [hsplit]
    exact List.mem_append_right _ List.mem_cons_self
  rw [Txn.bind_ok] at hx
  obtain ⟨_, w₃, hinsert, hx⟩ := hx
  obtain ⟨-, rfl⟩ := Txn.pure_ok.1 hx
  refine ⟨_, hd.trans (insertSource_ok hinsert).2,
    onlySources_and honly (onlySources_source hsource w₁), ?_⟩
  rw [Delta.and, List.map_append, List.map_append, hrecords]
  rfl

theorem retire_ok {winner old : String} {u : Unit} {w w' : MemoryWorld F}
    (h : retire env winner old w = (.ok u, w')) :
    ∃ d, Extends env w d w' ∧ d.Supersedes winner [old] := by
  unfold retire at h
  rw [Txn.bind_ok] at h
  obtain ⟨_, w₁, hedge, h⟩ := h
  obtain ⟨-, -, -, hext⟩ := insertEdge_ok hedge
  exact ⟨_, hext.trans (insertEvent_extends h), rfl, rfl, rfl, rfl⟩

theorem retireOthers_ok {winner : String} {active : List (CardRow F)} {u : Unit}
    {w w' : MemoryWorld F} (h : retireOthers env winner active w = (.ok u, w')) :
    ∃ d, Extends env w d w' ∧
      d.Supersedes winner ((active.map CardRow.id).filter fun id => id ≠ winner) := by
  refine Txn.forM_ok (P := fun done w₁ => ∃ d, Extends env w d w₁ ∧
    d.Supersedes winner ((done.map CardRow.id).filter fun id => id ≠ winner)) h
    ⟨.none, extends_refl w, rfl, rfl, rfl, rfl⟩ ?_
  intro before old after w₁ w₂ v _ hP hx
  obtain ⟨d, hd, hsup⟩ := hP
  rw [List.map_append, List.filter_append, List.map_singleton]
  split at hx
  · next heq =>
      obtain ⟨-, rfl⟩ := Txn.pure_ok.1 hx
      rw [List.filter_cons_of_neg (by simpa using heq), List.filter_nil, List.append_nil]
      exact ⟨d, hd, hsup⟩
  · next hne =>
      obtain ⟨d', hd', hsup'⟩ := retire_ok hx
      rw [List.filter_cons_of_pos (by simpa using hne), List.filter_nil]
      exact ⟨d.and d', hd.trans hd', supersedes_and hsup hsup'⟩

theorem retireAll_ok {winner : String} {active : List (CardRow F)} {u : PUnit}
    {w w' : MemoryWorld F}
    (h : (active.forM fun old => retire env winner old.id) w = (.ok u, w')) :
    ∃ d, Extends env w d w' ∧ d.Supersedes winner (active.map CardRow.id) := by
  refine Txn.forM_ok (P := fun done w₁ => ∃ d, Extends env w d w₁ ∧
    d.Supersedes winner (done.map CardRow.id)) h ⟨.none, extends_refl w, rfl, rfl, rfl, rfl⟩ ?_
  intro before old after w₁ w₂ v _ hP hx
  obtain ⟨d, hd, hsup⟩ := hP
  obtain ⟨d', hd', hsup'⟩ := retire_ok hx
  rw [List.map_append]
  exact ⟨d.and d', hd.trans hd', supersedes_and hsup hsup'⟩

/-! ## Transactions -/

/-- The tables a card's history is kept in are the same. -/
def SameHistory (w w' : MemoryWorld F) : Prop :=
  w'.db.cards = w.db.cards ∧ w'.db.sources = w.db.sources ∧ w'.db.edges = w.db.edges ∧
    w'.db.cardEvents = w.db.cardEvents ∧ Later w w'

omit [Json.PyFloat F] in
theorem sameHistory_trans (a b c : MemoryWorld F) (h : SameHistory a b) (h' : SameHistory b c) :
    SameHistory a c := by
  obtain ⟨hc, hs, he, hv, hl⟩ := h
  obtain ⟨hc', hs', he', hv', hl'⟩ := h'
  exact ⟨hc'.trans hc, hs'.trans hs, he'.trans he, hv'.trans hv, later_trans a b c hl hl'⟩

variable (env) in
theorem sameHistory_createSchema : Txn.Keeps SameHistory (createSchema env) := by
  have hsame : ∀ w : MemoryWorld F, SameHistory w w := fun w =>
    ⟨rfl, rfl, rfl, rfl, later_refl w⟩
  have hmeta : ∀ key value : String, Txn.Keeps SameHistory (setMeta env key value) :=
    fun _ _ w => ⟨rfl, rfl, rfl, rfl, later_refl w⟩
  refine Txn.Keeps.bind sameHistory_trans ?_ fun _ => Txn.Keeps.bind sameHistory_trans ?_ fun _ =>
    Txn.Keeps.bind sameHistory_trans ?_ fun _ => Txn.Keeps.bind sameHistory_trans ?_ fun _ => ?_
  · exact fun w => ⟨rfl, rfl, rfl, rfl, later_refl w⟩
  · exact Txn.keeps_same hsame fun _ => rfl
  · exact Txn.keeps_same hsame fun _ => rfl
  · exact hmeta _ _
  · exact hmeta _ _

theorem getMeta_none {key : String} {db : Database F} (h : db.metas = []) :
    getMeta env key db = .ok none := by
  rw [getMeta, h]
  rfl

/-- A metadata row as the store signs it reads back. -/
theorem getMeta_signed {key value : String} {row : MetaRow} {db : Database F}
    (hfind : db.metas.find? (fun row => row.key = key) = some row)
    (hrow : row = ⟨key, value, sign env (metaPayload key value : Dict (Json F))⟩) :
    getMeta env key db = .ok (some value) := by
  rw [getMeta, hfind, hrow]
  show (compareDigest _ _ >>= _) = _
  rw [compareDigest_self (isHex_sign env _)]
  rfl

theorem getMeta_ready {db : Database F} (h : db.metas = readyMetas env) :
    getMeta env "schema_version" db = .ok (some "2") ∧
      getMeta env "fts_enabled" db = .ok (some (if env.fts5 then "1" else "0")) := by
  constructor
  · refine getMeta_signed ?_ rfl
    rw [h]
    rfl
  · refine getMeta_signed ?_ rfl
    rw [h]
    rfl

theorem checkExistingVersion_two : checkExistingVersion (F := F) (some "2") = .ok () := by
  have hint : pyInt (.str "2" : Json F) = .ok 2 := rfl
  rw [checkExistingVersion, hint]
  rfl

/-- On the store's own metadata the schema is created, as often as one likes. -/
theorem createSchema_run {w : MemoryWorld F} (hkept : MetasKept env w.db) :
    createSchema env w =
      (.ok (), { w with db := { w.db with initialized := true, metas := readyMetas env } }) := by
  have hread : ∃ existing, getMeta env "schema_version" { w.db with initialized := true } =
      .ok existing ∧ checkExistingVersion (F := F) existing = .ok () := by
    rcases hkept with hmetas | hmetas
    · exact ⟨none, getMeta_none (by exact hmetas), rfl⟩
    · exact ⟨some "2", (getMeta_ready (by exact hmetas)).1, checkExistingVersion_two⟩
  obtain ⟨existing, hexisting, hcheck⟩ := hread
  refine Txn.bind_ok.2 ⟨(), _, execute_ok.2 rfl, ?_⟩
  refine Txn.bind_ok.2 ⟨existing, _, select_ok.2 ⟨hexisting, rfl⟩, ?_⟩
  refine Txn.bind_ok.2 ⟨(), _, Txn.lift_ok.2 ⟨hcheck, rfl⟩, ?_⟩
  refine Txn.bind_ok.2 ⟨(), _, execute_ok.2 rfl, ?_⟩
  refine execute_ok.2 ?_
  obtain ⟨⟨initialized, metas, cards, sources, edges, events, decisions, outcomes, fts⟩, uuids,
    ticks⟩ := w
  rcases hkept with hmetas | hmetas
  · change metas = [] at hmetas
    subst hmetas
    rfl
  · change metas = readyMetas env at hmetas
    subst hmetas
    rfl

theorem createSchema_extends {r : Except PyExc Unit} {w w' : MemoryWorld F}
    (h : createSchema env w = (r, w')) : Extends env w .none w' := by
  have hsame := sameHistory_createSchema env w
  rw [h] at hsame
  obtain ⟨hc, hs, he, hv, hlater⟩ := hsame
  refine extends_of_eq hc hs he hv hlater fun hkept => ?_
  rw [createSchema_run hkept] at h
  cases h
  exact Or.inr ⟨rfl, rfl⟩

omit [Json.PyFloat F] in
theorem none_and (d : Delta F) : Delta.none.and d = d := rfl

omit [Json.PyFloat F] in
theorem and_none (d : Delta F) : d.and .none = d := by simp [Delta.and, Delta.none]

/-- A transaction that returned is its body, run on the same tables. -/
theorem writeTransaction_ok {α : Type} {body : Tx F α} {a : α} {w w' : MemoryWorld F}
    (h : writeTransaction env body w = (.ok a, w')) :
    ∃ w₁, Extends env w .none w₁ ∧ body w₁ = (.ok a, w') := by
  unfold writeTransaction at h
  rw [Txn.bind_ok] at h
  obtain ⟨_, w₁, hschema, h⟩ := h
  exact ⟨w₁, createSchema_extends hschema, Txn.atomically_ok.1 h⟩

/-- A transaction that raised leaves the tables as they were. -/
theorem writeTransaction_error {α : Type} {body : Tx F α} (hbody : Txn.Keeps Later body)
    {e : PyExc} {w w' : MemoryWorld F} (h : writeTransaction env body w = (.error e, w')) :
    Extends env w .none w' := by
  unfold writeTransaction at h
  rcases Txn.bind_error.1 h with hschema | ⟨_, w₁, hschema, hrun⟩
  · exact createSchema_extends hschema
  · obtain ⟨w₂, hraised, rfl⟩ := Txn.atomically_error.1 hrun
    have hlater := hbody w₁
    rw [hraised] at hlater
    have hback : Extends env w₁ .none { w₂ with db := w₁.db } :=
      extends_of_eq rfl rfl rfl rfl hlater fun _ => opens_refl _
    exact (createSchema_extends hschema).trans hback

end MemoryStore

end MiniCodeAgent
