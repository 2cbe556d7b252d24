import MiniCodeAgent.Builtins
import MiniCodeAgent.Prog.Transaction
import MiniCodeAgent.Text.Lines
import Mathlib.Data.List.DropRight

/-!
# The conversation ledger

`conversation_ledger.py`: logs of JSON rows, one a line, each signed together
with its log's name, its place and the signature before it. A log is a file that
is missing or holds some bytes, and a method is a transaction on one file, which
the lock makes atomic. Whether a file is a regular one, who owns it and what its
mode is can only make a method raise; they are left out, and so are the errors of
a disk. A lone surrogate is no character here, and the last line of a file is
taken to be UTF-8, which is what `json.loads` makes of the bytes of any line that
can be read as text.
-/

namespace MiniCodeAgent.ConversationLedger

variable {F : Type} [Json.PyFloat F]

/-- The key of a ledger's directory, and the digest it is used with. -/
structure LedgerEnv where
  digests : Digests
  key : ByteArray
  hmac_length : ∀ data, (digests.hmacSha256 key data).length = 64

/-- A dictionary that is appended: it has no key twice, here or inside. -/
structure Payload (F : Type) where
  items : Dict (Json F)
  wf : (Json.obj items).WF

abbrev LogFile := Option ByteArray

abbrev LogTx (α : Type) := Txn LogFile PyExc α

def logSchemaVersion : Int := 2

def ledgerError (message : String) : PyExc := ⟨"ConversationLedgerError", message, true⟩

def canonicalJson (value : Json F) : String := Json.canonical value

/-! ## Rows -/

def sizeLimitError : PyExc :=
  ledgerError "conversation memory log exceeds the state size limit"

/-- `json.loads(line)`, which must be a dictionary. -/
def loadRow (line : String) : Except PyExc (Dict (Json F)) :=
  match Json.loads line with
  | some (.obj row) => .ok row
  | some _ => .error (ledgerError "conversation memory log rows must be objects")
  | none => .error (ledgerError "conversation memory log contains invalid JSON")

/-- `for line in handle`, in text mode. -/
def textLines (text : String) : List String :=
  (Text.lines '\r' '\n' text.toList).map String.ofList

/-- `data.splitlines()`. -/
def byteLines (data : List UInt8) : List ByteArray :=
  (Text.lines 13 10 data).map fun line => ⟨line.toArray⟩

/-- `_read_raw_rows`. -/
def readRawRows : LogFile → Except PyExc (List (Dict (Json F)))
  | none => .ok []
  | some data => do
    raiseIf (maxStateFileBytes < data.size) sizeLimitError
    let text ← decodeUtf8 data
    (textLines text).mapM loadRow

/-- The loop of `_read_last_raw_row`: the tail grows to the front until there is
a line end in front of something. -/
def readTail (data : List UInt8) (position : Nat) (tail : List UInt8) : List UInt8 :=
  if 0 < position ∧ 10 ∉ tail.rdropWhile (· = 10) then
    let amount := min 8192 position
    readTail data (position - amount) ((data.drop (position - amount)).take amount ++ tail)
  else tail
termination_by position

/-- `json.loads(line)` of a line in bytes. -/
def loadLastRow (line : ByteArray) : Except PyExc (Dict (Json F)) :=
  match decodeUtf8 line with
  | .ok text => loadRow text
  | .error _ => .error (ledgerError "conversation memory log contains invalid JSON")

/-- `_read_last_raw_row`. -/
def readLastRawRow : LogFile → Except PyExc (Option (Dict (Json F)))
  | none => .ok none
  | some data => do
    raiseIf (maxStateFileBytes < data.size) sizeLimitError
    if data.size = 0 then return none
    else
      match (byteLines (readTail data.data.toList data.size [])).getLast? with
      | none => return none
      | some line => do
        let row ← loadLastRow line
        return some row

/-- `_append_raw_row`. The file is there once it was opened. -/
def appendRawRow (row : Dict (Json F)) : LogTx Unit := do
  let payload := (canonicalJson (.obj row) ++ "\n").toUTF8
  Txn.modify fun file => some (file.getD ByteArray.empty)
  let size ← Txn.query fun file => (file.getD ByteArray.empty).size
  Txn.lift (raiseIf (maxStateFileBytes < size + payload.size) sizeLimitError)
  Txn.modify fun file => file.map (· ++ payload)

/-! ## Envelopes -/

section Envelopes

variable (env : LedgerEnv)

/-- What is signed of a row. -/
def authenticated (logName : String) (sequence : Json F) (previousHmac : String)
    (payload : Dict (Json F)) : Dict (Json F) :=
  [("schema_version", .int logSchemaVersion), ("log_name", .str logName),
    ("sequence", sequence), ("previous_hmac", .str previousHmac), ("payload", .obj payload)]

def hmacOf (authenticated : Dict (Json F)) : String :=
  env.digests.hmacSha256 env.key (canonicalJson (.obj authenticated)).toUTF8

/-- `_envelope`. -/
def envelope (logName : String) (sequence : Int) (previousHmac : String)
    (payload : Dict (Json F)) : Dict (Json F) :=
  let authenticated := authenticated logName (.int sequence) previousHmac payload
  authenticated ++ [("hmac_sha256", .str (hmacOf env authenticated))]

/-- `isinstance(sequence, int)`, which a boolean passes. -/
def rowSequence (row : Dict (Json F)) : Except PyExc Int :=
  let invalid := ledgerError "conversation ledger sequence is invalid"
  match Dict.get? row "sequence" with
  | some (.int i) => if i < 0 then .error invalid else .ok i
  | some (.bool b) => .ok (if b then 1 else 0)
  | _ => .error invalid

def rowBody (row : Dict (Json F)) : Except PyExc (String × Dict (Json F)) :=
  match Dict.get? row "previous_hmac", Dict.get? row "payload" with
  | some (.str previousHmac), some (.obj payload) => .ok (previousHmac, payload)
  | _, _ => .error (ledgerError "conversation ledger envelope is invalid")

def rowHmac (row : Dict (Json F)) : Except PyExc String :=
  let invalid := ledgerError "conversation ledger HMAC is invalid"
  match Dict.get? row "hmac_sha256" with
  | some (.str recordedHmac) =>
    if recordedHmac.length ≠ 64 then .error invalid else .ok recordedHmac
  | _ => .error invalid

/-- `_verify_envelope`. -/
def verifyEnvelope (row : Dict (Json F)) (logName : String) (expectedSequence : Option Int) :
    Except PyExc Unit := do
  let value : Json F := .obj row
  let version ← pyInt (value.getD "schema_version" (.int 0))
  raiseIf (version ≠ logSchemaVersion) (ledgerError "unsupported conversation ledger schema")
  raiseIf (¬ (value.getD "log_name" .null).pyEq (.str logName))
    (ledgerError "conversation ledger name binding mismatch")
  let sequence ← rowSequence row
  raiseIf (expectedSequence.any (· ≠ sequence))
    (ledgerError "conversation ledger sequence is not contiguous")
  let body ← rowBody row
  let recordedHmac ← rowHmac row
  let expected := hmacOf env
    (authenticated logName (value.getD "sequence" .null) body.1 body.2)
  let same ← compareDigest recordedHmac expected
  raiseIf (same = false) (ledgerError "conversation ledger authentication failed")

/-! ## The public methods -/

/-- The envelope `append_unlocked` writes, as `_envelope` is called there. -/
def nextEnvelope (logName : String) (payload : Dict (Json F)) (file : LogFile) :
    Except PyExc (Dict (Json F)) := do
  raiseIf (env.key.size = 0) (ledgerError "conversation authentication key is missing")
  let last : Option (Dict (Json F)) ← readLastRawRow file
  match last with
  | none => return envelope env logName 0 "" payload
  | some last => do
    verifyEnvelope env last logName none
    let lastSequence ← rowSequence last
    let lastHmac ← rowHmac last
    return envelope env logName (lastSequence + 1) lastHmac payload

/-- `append_unlocked`. -/
def appendUnlocked (logName : String) (payload : Dict (Json F)) : LogTx Unit := do
  let row ← Txn.reads (nextEnvelope env logName payload)
  appendRawRow row

/-- The loop of `read`, at a place in the chain. -/
def readRows (path logName : String) :
    Int → String → List (Dict (Json F)) → Except PyExc (List (Dict (Json F)))
  | _, _, [] => .ok []
  | sequence, previousHmac, row :: rows => do
    verifyEnvelope env row logName (some sequence)
    let body ← rowBody row
    raiseIf (body.1 ≠ previousHmac)
      (ledgerError ("conversation ledger chain mismatch: " ++ path ++ ":" ++ toString sequence))
    let rowHmac ← rowHmac row
    let payloads ← readRows path logName (sequence + 1) rowHmac rows
    return body.2 :: payloads

/-- `read`; `path` is the name of the file. -/
def read (path logName : String) (file : LogFile) : Except PyExc (List (Dict (Json F))) := do
  let rows ← readRawRows file
  readRows env path logName 0 "" rows

/-- `last_payload`. -/
def lastPayload (logName : String) (file : LogFile) : Except PyExc (Option (Dict (Json F))) := do
  let row : Option (Dict (Json F)) ← readLastRawRow file
  match row with
  | none => return none
  | some row => do
    verifyEnvelope env row logName none
    let body ← rowBody row
    return some body.2

/-! ## Migration -/

/-- The rows a legacy file is rewritten to, at a place in the chain. -/
def envelopes (logName : String) :
    Int → String → List (Dict (Json F)) → List (Dict (Json F))
  | _, _, [] => []
  | sequence, previousHmac, payload :: payloads =>
    let authenticated := authenticated logName (.int sequence) previousHmac payload
    envelope env logName sequence previousHmac payload ::
      envelopes logName (sequence + 1) (hmacOf env authenticated) payloads

/-- `"".join(f"{canonical_json(row)}\n" for row in rows)`. -/
def logText (rows : List (Dict (Json F))) : String :=
  String.ofList (rows.flatMap fun row => (canonicalJson (.obj row)).toList ++ ['\n'])

def stateFileError : PyExc :=
  valueError ("state file exceeds the " ++ toString maxStateFileBytes ++ "-byte safety limit")

/-- `atomic_write_text(path, text, max_bytes=MAX_STATE_FILE_BYTES)`. -/
def atomicWriteText (text : String) : LogTx Unit := do
  Txn.lift (raiseIf (maxStateFileBytes < text.toUTF8.size) stateFileError)
  Txn.modify fun _ => some text.toUTF8

/-- `migrate_legacy`. -/
def migrateLegacy (path logName : String) (validator : Dict (Json F) → Except PyExc Unit) :
    LogTx Bool := do
  let rows : List (Dict (Json F)) ← Txn.reads readRawRows
  match rows with
  | [] => return false
  | first :: _ =>
    if (Json.getD (.obj first) "schema_version" .null).pyEq (.int logSchemaVersion) then do
      let _ : List (Dict (Json F)) ← Txn.reads (read env path logName)
      return false
    else do
      Txn.lift (rows.forM validator)
      atomicWriteText (logText (envelopes env logName 0 "" rows))
      return true

end Envelopes

end MiniCodeAgent.ConversationLedger
