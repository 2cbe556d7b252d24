import MiniCodeAgent.MemoryStore

/-!
# The operations of the memory store

The public methods of `SQLiteMemoryStore`. Each writing one checks its
arguments first and then runs in one transaction; each reading one authenticates
every row it hands out.
-/

namespace MiniCodeAgent

namespace MemoryStore

variable {F : Type} [Json.PyFloat F]

/-! ## Writing -/

section Writing

variable (env : MemoryEnv F)

def requireSources (sources : List EvidenceSource) : Except PyExc Unit :=
  raiseIf (sources = []) (valueError "memory card requires at least one evidence source")

def addCard (values : CardValues F) (sources : List EvidenceSource) (derivedFrom : List String) :
    Tx F (MemoryCard F) := do
  Txn.lift (validateCardInput env values)
  Txn.lift (requireSources sources)
  writeTransaction env do
    let sourceAuthorities ← select fun db => derivedFrom.mapM fun cardId => cardAuthority env cardId db
    Txn.lift (validateDerivedAuthority values.authority sourceAuthorities)
    let card ← insertCard env values
    sources.forM fun source => do
      let _ ← insertSource env card.id source
    derivedFrom.forM fun sourceId => do
      let _ ← insertEdge env card.id sourceId "derived_from"
    return card

/-- The card an evidence reference already stands for, if there is one of this
kind and subtype. -/
def replayedCard (source : EvidenceSource) (kind subtype : String) (db : Database F) :
    List SourceRow → Except PyExc (Option (MemoryCard F))
  | [] => .ok none
  | row :: rows => do
    verifySource env row
    raiseIf (changedProvenance row source)
      (valueError "evidence source reference cannot change provenance")
    let cardRow ← requireAuthenticatedCard env row.cardId db
    if cardRow.kind = kind ∧ cardRow.subtype = subtype then do
      let status ← currentStatus env cardRow.id db
      let card ← cardFromRow cardRow status
      return some card
    else replayedCard source kind subtype db rows

def addCardOnceForSource (source : EvidenceSource) (values : CardValues F) :
    Tx F (MemoryCard F) := do
  Txn.lift (validateCardInput env values)
  writeTransaction env do
    let replayed ← select fun db =>
      replayedCard env source values.kind values.subtype db (oldestFirst (db.sources.filter
        fun row => row.sourceType = source.sourceType ∧ row.sourceRef = source.sourceRef))
    match replayed with
    | some card => return card
    | none => do
      let card ← insertCard env values
      let _ ← insertSource env card.id source
      return card

/-! ### Singletons -/

/-- `key in value` for a text and a parsed JSON value. -/
def pyIn (key : String) : Json F → Except PyExc Bool
  | .arr xs => .ok (xs.any fun x => x.pyEq (.str key))
  | .obj kvs => .ok ((Dict.get? kvs key).isSome)
  | .str text => .ok (decide (key.toList <:+: text.toList))
  | _ => .error (typeError "argument is not iterable")

def carriesAnchor (anchor : String) (row : CardRow F) : Except PyExc Bool := do
  let cues ← loadsText row.cueAnchorsJson
  pyIn (F := F) anchor cues

/-- A card of the family, with its status and whether it carries the anchor. -/
structure FamilyMember (F : Type) where
  row : CardRow F
  status : String
  carries : Bool

def inFamily (values : CardValues F) (row : CardRow F) : Prop :=
  row.kind = values.kind ∧ row.subtype = values.subtype ∧ row.scope = values.scope ∧
    row.scopeKey = values.scopeKey

instance (values : CardValues F) (row : CardRow F) : Decidable (inFamily values row) :=
  inferInstanceAs (Decidable (_ ∧ _))

def readFamily (anchor : String) (values : CardValues F) (db : Database F) :
    Except PyExc (List (FamilyMember F)) :=
  (Log.newestFirst CardRow.recordedAtNs (db.cards.filter fun row => inFamily values row)).mapM
    fun row => do
      verifyCard env row
      let status ← currentStatus env row.id db
      let carries ← carriesAnchor anchor row
      return ⟨row, status, carries⟩

def revisionMoment (row : CardRow F) : Except PyExc Int := do
  let parsed ← parseTimestamp env row.validFrom "valid_from"
  match parsed with
  | some moment => .ok moment
  | none => env.fromtimestamp row.recordedAtNs

/-- `max(rows, key=revision_moment, default=None)`, with the moment. -/
def latestRevision (rows : List (CardRow F)) : Except PyExc (Option (CardRow F × Int)) :=
  rows.foldlM (fun best row => do
    let moment ← revisionMoment env row
    match best with
    | none => return some (row, moment)
    | some (top, latest) =>
      if latest < moment then return some (row, moment) else return some (top, latest)) none

/-- Whether the incoming revision is older than the newest active one, which
does not carry its anchor. -/
def staleArrival (anchor : String) (incoming : Option Int) :
    Option (CardRow F × Int) → Except PyExc Bool
  | none => .ok false
  | some (newest, latest) =>
    match incoming with
    | none => .ok false
    | some moment =>
      if moment < latest then do
        let carries ← carriesAnchor anchor newest
        return !carries
      else .ok false

/-- One card takes another's place. -/
def retire (winner old : String) : Tx F Unit := do
  let _ ← insertEdge env winner old "supersedes"
  insertEvent env old "superseded" (some winner)

def retireOthers (winner : String) (active : List (CardRow F)) : Tx F Unit :=
  active.forM fun old => if old.id = winner then pure () else retire env winner old.id

def addSources (cardId : String) (sources : List EvidenceSource) : Tx F Unit :=
  sources.forM fun source => do
    let _ ← addSourceInConnection env cardId source

/-- A revision that arrives late becomes history, or adds to it. -/
def admitStale (newest : CardRow F) (family : List (FamilyMember F)) (values : CardValues F)
    (sources : List EvidenceSource) : Tx F (MemoryCard F) := do
  retireOthers env newest.id ((family.filter fun m => m.status = "active").map FamilyMember.row)
  match family.find? fun m => m.carries && m.status ≠ "active" with
  | some historical => do
    addSources env historical.row.id sources
    Txn.lift (cardFromRow historical.row historical.status)
  | none => do
    let card ← insertCard env values
    addSources env card.id sources
    retire env newest.id card.id
    let row ← select (requireCard card.id)
    Txn.lift (cardFromRow row "superseded")

/-- The anchor is one an active card carries: that card stays. -/
def replaySingleton (canonical : CardRow F) (active : List (CardRow F))
    (sources : List EvidenceSource) : Tx F (MemoryCard F) := do
  addSources env canonical.id sources
  retireOthers env canonical.id active
  Txn.lift (cardFromRow canonical "active")

def reviseSingleton (active : List (CardRow F)) (values : CardValues F)
    (sources : List EvidenceSource) : Tx F (MemoryCard F) := do
  let card ← insertCard env values
  addSources env card.id sources
  active.forM fun old => retire env card.id old.id
  return card

def decideSingleton (anchor : String) (family : List (FamilyMember F)) (values : CardValues F)
    (sources : List EvidenceSource) : Tx F (MemoryCard F) := do
  let active := (family.filter fun m => m.status = "active").map FamilyMember.row
  let incoming ← Txn.lift (parseTimestamp env values.validFrom "valid_from")
  let newest ← Txn.lift (latestRevision env active)
  let stale ← Txn.lift (staleArrival anchor incoming newest)
  match stale, newest with
  | true, some (top, _) => admitStale env top family values sources
  | _, _ => do
    let exact ← Txn.lift (latestRevision env
      ((family.filter fun m => m.carries && m.status = "active").map FamilyMember.row))
    match exact with
    | some (canonical, _) => replaySingleton env canonical active sources
    | none => reviseSingleton env active values sources

def upsertScopedSingleton (anchor : String) (values : CardValues F)
    (sources : List EvidenceSource) : Tx F (MemoryCard F) := do
  Txn.lift (validateCardInput env values)
  Txn.lift (raiseIf (pyStrip anchor = "" ∨ anchor ∉ values.cueAnchors)
    (valueError "singleton identity anchor must be a cue anchor"))
  Txn.lift (requireSources sources)
  writeTransaction env do
    let family ← select (readFamily env anchor values)
    decideSingleton env anchor family values sources

/-! ### Cards that exist already -/

def supersede (oldCardId : String) (values : CardValues F) (sources : List EvidenceSource) :
    Tx F (MemoryCard F) := do
  Txn.lift (validateCardInput env values)
  Txn.lift (requireSources sources)
  writeTransaction env do
    let oldAuthority ← select (cardAuthority env oldCardId)
    Txn.lift (validateDerivedAuthority values.authority [oldAuthority])
    let newCard ← insertCard env values
    sources.forM fun source => do
      let _ ← insertSource env newCard.id source
    retire env newCard.id oldCardId
    return newCard

def requireRelated (related : Option String) (db : Database F) : Except PyExc Unit :=
  match related with
  | none => .ok ()
  | some cardId => do
    let _ ← requireAuthenticatedCard env cardId db
    return ()

def transition (cardId status : String) (relatedCardId : Option String) : Tx F Unit := do
  Txn.lift (raiseIf (status ∉ memoryStatuses ∨ status = "active")
    (valueError "transition status must retire or qualify a memory"))
  writeTransaction env do
    let _ ← select (requireAuthenticatedCard env cardId)
    select (requireRelated env relatedCardId)
    insertEvent env cardId status relatedCardId

def addEdge (sourceId targetId relation : String) : Tx F MemoryEdge :=
  writeTransaction env (insertEdge env sourceId targetId relation)

def addSource (cardId : String) (source : EvidenceSource) : Tx F EvidenceSource :=
  writeTransaction env (addSourceInConnection env cardId source)

/-! ### Control decisions -/

/-- `tuple(dict.fromkeys(items))`. -/
def dictFromkeys (items : List String) : List String :=
  Dict.keys (Dict.ofPairs (items.map fun item => (item, ())))

def checkSpan (number : PyNumber F) (message : String) : Except PyExc Unit :=
  raiseIf (¬ (-1 ≤ number.val ∧ number.val ≤ 1)) (valueError message)

def recordMemoryDecision (querySha256 stage operation : String) (selectedCardIds : List String)
    (expectedUtility : PyNumber F) (reason : String) (shadow : Bool) : Tx F Unit := do
  Txn.lift do
    raiseIf (isSha256Digest querySha256 = false)
      (valueError "memory decision query fingerprint must be SHA-256")
    raiseIf (pyStrip stage = "" ∨ stage.length > 100)
      (valueError "memory decision stage must be a short non-blank string")
    raiseIf (operation ∉ memoryControlOperations)
      (valueError "unsupported memory control operation")
    raiseIf ((dictFromkeys selectedCardIds).length > 20 ∨ "" ∈ dictFromkeys selectedCardIds)
      (valueError "memory decision selected-card set is invalid")
    checkSpan expectedUtility "memory decision utility must be finite and between -1 and 1"
    raiseIf (pyStrip reason = "" ∨ reason.length > 500)
      (valueError "memory decision reason must be a short non-blank string")
  let cardIds := dictFromkeys selectedCardIds
  writeTransaction env do
    cardIds.forM fun cardId => do
      let _ ← select (requireAuthenticatedCard env cardId)
    let id ← uuid4 env
    let recordedAtNs ← timeNs env
    let payload : Dict (Json F) := [("id", .str id), ("query_sha256", .str (pyLower querySha256)),
      ("stage", .str (pyStrip stage)), ("operation", .str operation),
      ("selected_card_ids", .arr (cardIds.map .str)),
      ("expected_utility", .float expectedUtility.real), ("reason", .str (pyStrip reason)),
      ("shadow", .bool shadow), ("recorded_at_ns", .int recordedAtNs)]
    insertInto (fun db => if db.memoryDecisions.any (fun other => other.id = id)
        then some "UNIQUE constraint failed: memory_decisions.id" else none)
      fun db => { db with memoryDecisions := db.memoryDecisions ++ [{
        id := id
        querySha256 := pyLower querySha256
        stage := pyStrip stage
        operation := operation
        selectedCardIdsJson := Json.dumps .compact (.arr (cardIds.map .str) : Json F)
        expectedUtility := expectedUtility.real
        reason := pyStrip reason
        shadow := if shadow then 1 else 0
        recordedAtNs := recordedAtNs
        signature := sign env payload }] }

def requireDecision (decisionId : String) (db : Database F) : Except PyExc Unit :=
  match db.memoryDecisions.find? fun row => row.id = decisionId with
  | none => .error (keyError ("memory decision not found: " ++ decisionId))
  | some row => do
    verifyDecision env row
    raiseIf (∃ outcome ∈ db.memoryOutcomes, outcome.decisionId = decisionId)
      (valueError "memory decision already has an outcome")

def recordMemoryOutcome (decisionId : String) (success : Bool) (reward : PyNumber F)
    (harmful : Bool) (tokenCost : Int) (evidence : EvidenceSource) : Tx F Unit := do
  Txn.lift do
    checkSpan reward "memory outcome reward must be finite and between -1 and 1"
    raiseIf (tokenCost < 0)
      (valueError "memory outcome token cost must be a non-negative integer")
    raiseIf (evidence.origin ∉ ["trusted_tool", "user"])
      (valueError "memory outcome requires trusted runtime or user evidence")
    raiseIf (pyStrip evidence.sourceType = "" ∨ pyStrip evidence.sourceRef = "")
      (valueError "memory outcome evidence must have a type and reference")
    raiseIf (evidence.sourceType.length > 200 ∨ evidence.sourceRef.length > 10000)
      (valueError "memory outcome evidence metadata exceeds the size limit")
    raiseIf (isSha256Digest evidence.sourceSha256 = false)
      (valueError "memory outcome evidence digest must be SHA-256")
  writeTransaction env do
    select (requireDecision env decisionId)
    let id ← uuid4 env
    let recordedAtNs ← timeNs env
    let row : OutcomeRow F := {
      id := id
      decisionId := decisionId
      success := if success then 1 else 0
      reward := reward.real
      harmful := if harmful then 1 else 0
      tokenCost := tokenCost
      evidenceType := evidence.sourceType
      evidenceRef := evidence.sourceRef
      evidenceSha256 := pyLower evidence.sourceSha256
      evidenceOrigin := evidence.origin
      recordedAtNs := recordedAtNs
      signature := "" }
    insertInto (fun db => if db.memoryOutcomes.any (fun other => other.id = id)
        then some "UNIQUE constraint failed: memory_outcomes.id" else none)
      fun db => { db with memoryOutcomes :=
        db.memoryOutcomes ++ [{ row with signature := sign env (outcomePayload row) }] }

end Writing

/-! ## Reading -/

section Reading

variable (env : MemoryEnv F)

/-- `_connect` for a reader. -/
def connect (db : Database F) : Except PyExc Unit :=
  raiseIf (db.initialized = false) (notInitializedError "memory store is not initialized")

def getCard (cardId : String) (db : Database F) : Except PyExc (MemoryCard F) := do
  connect db
  let row ← requireCard cardId db
  verifyCard env row
  let status ← currentStatus env cardId db
  cardFromRow row status

def sources (cardId : String) (db : Database F) : Except PyExc (List EvidenceSource) := do
  connect db
  let _ ← requireAuthenticatedCard env cardId db
  (oldestFirst (db.sources.filter fun row => row.cardId = cardId)).mapM fun row => do
    verifySource env row
    return sourceFromRow row

/-- `ORDER BY card_id, recorded_at_ns DESC, rowid DESC`. -/
def eventsByCard (cardIds : List String) (db : Database F) : List EventRow :=
  (Log.newestFirst EventRow.recordedAtNs
    (db.cardEvents.filter fun row => row.cardId ∈ cardIds)).insertionSort
      fun a b => a.cardId ≤ b.cardId

/-- `_latest_statuses`. The batches of 500 it asks in bound the length of one
query only. -/
def latestStatuses (cardIds : List String) (db : Database F) : Except PyExc (Dict String) := do
  let statuses ← (eventsByCard cardIds db).foldlM (fun (statuses : Dict String) row =>
    if (statuses.get? row.cardId).isSome then .ok statuses
    else do
      verifyEvent env row
      return statuses.set row.cardId row.eventType) []
  match (cardIds.filter fun cardId => (statuses.get? cardId).isNone).min? with
  | some missing => .error (integrityError ("memory card " ++ missing ++ " has no state event"))
  | none => .ok statuses

/-- The cards a `scope_pairs` hint lets through. -/
def inScope (scopePairs : Option (List (String × String))) (includeGlobal : Bool)
    (row : CardRow F) : Bool :=
  match scopePairs with
  | none => true
  | some pairs => (includeGlobal && row.scope = "global") ||
    pairs.any fun pair => row.scope = pair.1 && row.scopeKey = pair.2

def listCards (includeInactive : Bool) (scopePairs : Option (List (String × String)))
    (includeGlobal : Bool) (db : Database F) : Except PyExc (List (MemoryCard F)) := do
  connect db
  let rows := Log.newestFirst CardRow.recordedAtNs
    (db.cards.filter fun row => inScope scopePairs includeGlobal row)
  let statuses ← latestStatuses env (rows.map CardRow.id) db
  let cards ← rows.mapM fun row => do
    verifyCard env row
    match statuses.get? row.id with
    | none => .error (keyError row.id)
    | some status =>
      if includeInactive ∨ status = "active" then do
        let card ← cardFromRow row status
        return [card]
      else return []
  return cards.flatten

/-! ## Verification -/

/-- The exceptions `verify` reports instead of raising. -/
def reported (exc : PyExc) : Bool :=
  exc.type = "MemoryIntegrityError" || exc.type = "MemoryNotInitializedError" ||
    exc.type = "OSError"

/-- One pass over a table. -/
def checkRows {ρ : Type} (check : ρ → Except PyExc Unit) (rows : List ρ) (errors : List String) :
    Except PyExc (List String) :=
  rows.foldlM (fun errors row =>
    match check row with
    | .ok () => .ok errors
    | .error exc =>
      if exc.type = "MemoryIntegrityError" then .ok (errors ++ [exc.message]) else .error exc) errors

def complain (count : Nat) (message : String) : List String :=
  if count = 0 then [] else [message]

def hasCard (db : Database F) (cardId : String) : Bool := db.cards.any fun row => row.id = cardId

/-- The references of one column that name no card. -/
def brokenReferences (db : Database F) (column : String) (references : List (Option String)) :
    List String :=
  let count := (references.filter fun reference =>
    match reference with
    | some cardId => !hasCard db cardId
    | none => false).length
  complain count (column ++ " has " ++ toString count ++ " broken reference(s)")

/-- What one decision row names that is not there. -/
def brokenSelected (db : Database F) (row : DecisionRow F) : Nat :=
  match (Json.loads row.selectedCardIdsJson : Option (Json F)) with
  | some (.arr items) => (items.filter fun item => !hasCard db (pyStr env.repr item)).length
  | _ => 1

def verifyControl (db : Database F) : List String :=
  let missing := (db.memoryOutcomes.filter fun outcome =>
    !db.memoryDecisions.any fun decision => decision.id = outcome.decisionId).length
  let broken := (db.memoryDecisions.map (brokenSelected env db)).sum
  complain missing
      ("memory_outcomes.decision_id has " ++ toString missing ++ " broken reference(s)") ++
    complain broken
      ("memory_decisions selected cards have " ++ toString broken ++ " broken reference(s)")

/-- `_verify_card_coverage`. -/
def verifyCardCoverage (db : Database F) : List String :=
  let events := (db.cards.filter fun card =>
    !db.cardEvents.any fun event => event.cardId = card.id).length
  let sources := (db.cards.filter fun card =>
    !db.sources.any fun source => source.cardId = card.id).length
  complain events (toString events ++ " memory card(s) have no state event") ++
    complain sources (toString sources ++ " memory card(s) have no evidence source")

/-- `_verify_references`. -/
def verifyReferences (includeControl : Bool) (db : Database F) : List String :=
  brokenReferences db "sources.card_id" (db.sources.map fun row => some row.cardId) ++
    brokenReferences db "edges.source_id" (db.edges.map fun row => some row.sourceId) ++
    brokenReferences db "edges.target_id" (db.edges.map fun row => some row.targetId) ++
    brokenReferences db "card_events.card_id" (db.cardEvents.map fun row => some row.cardId) ++
    brokenReferences db "card_events.related_card_id"
      (db.cardEvents.map EventRow.relatedCardId) ++
    (if includeControl then verifyControl env db else []) ++ verifyCardCoverage db

/-- `" ".join(value)`. -/
def pyJoin (value : Json F) : Except PyExc String := do
  let items ← pyList value
  let texts ← items.mapM fun item =>
    match item with
    | .str text => .ok text
    | _ => .error (typeError "sequence item: expected str instance")
  return " ".intercalate texts

/-- The index rows of one card; a card without any is a mismatch. -/
def checkIndexed (db : Database F) (row : CardRow F) : Except PyExc (List String) := do
  let cues ← loadsText row.cueAnchorsJson
  let expectedCues ← pyJoin (F := F) cues
  let mismatch := "memory FTS index mismatch: " ++ row.id
  match db.memoryFts.filter fun indexed => indexed.cardId = row.id with
  | [] => return [mismatch]
  | indexed => return (indexed.filter fun f =>
      f.abstraction ≠ row.abstraction ∨ f.cueText ≠ expectedCues).map fun _ => mismatch

/-- `_verify_fts`. -/
def verifyFts (db : Database F) : Except PyExc (List String) := do
  let mismatches ← db.cards.mapM (checkIndexed db)
  let extra := (db.memoryFts.filter fun indexed => !hasCard db indexed.cardId).length
  return mismatches.flatten ++
    complain extra ("memory FTS index has " ++ toString extra ++ " orphan row(s)")

def verifyIndex (db : Database F) : Except PyExc (List String) := do
  let ftsValue ← getMeta env "fts_enabled" db
  if ftsValue = some "1" then verifyFts db
  else if ftsValue = some "0" then return []
  else return ["memory FTS metadata is missing or invalid"]

/-- `_schema_version`. -/
def schemaVersion (db : Database F) : Except PyExc Int := do
  let value ← getMeta env "schema_version" db
  match value with
  | none => .error (integrityError "unsupported memory schema version")
  | some text => do
    let version ← pyInt (.str text : Json F)
    raiseIf (version ∉ readableSchemaVersions)
      (integrityError "unsupported memory schema version")
    return version

def verifyControlRows (includeControl : Bool) (db : Database F) (errors : List String) :
    Except PyExc (List String) :=
  if includeControl then do
    let errors ← checkRows (verifyDecision env) db.memoryDecisions errors
    checkRows (verifyOutcome env) db.memoryOutcomes errors
  else .ok errors

/-- An exception that is reported is one more error. -/
def orReport (errors : List String) (x : Except PyExc (List String)) :
    Except PyExc (List String) :=
  match x with
  | .ok more => .ok (errors ++ more)
  | .error exc => if reported exc then .ok (errors ++ [exc.message]) else .error exc

def verify (db : Database F) : Except PyExc MemoryVerification :=
  if db.initialized = false then .ok ⟨false, 0, 0, 0, 0, ["store is not initialized"]⟩
  else
    match schemaVersion env db with
    | .error exc => if reported exc then .ok ⟨false, 0, 0, 0, 0, [exc.message]⟩ else .error exc
    | .ok version => do
      let errors ← checkRows (verifyCard env) db.cards []
      let errors ← checkRows (verifySource env) db.sources errors
      let errors ← checkRows (verifyEdge env) db.edges errors
      let errors ← checkRows (verifyEvent env) db.cardEvents errors
      let errors ← verifyControlRows env (version ≥ 2) db errors
      let errors ← orReport (errors ++ verifyReferences env (version ≥ 2) db) (verifyIndex env db)
      return ⟨errors.isEmpty, db.cards.length, db.sources.length, db.edges.length,
        db.cardEvents.length, errors⟩

end Reading

end MemoryStore

end MiniCodeAgent
