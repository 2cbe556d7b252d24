import MiniCodeAgent.StructuredEdits

/-!
# Undoing a run's edits

`_record_undo` of `agent.py`, which keeps what each structured edit found and left, and
`trajectory.py` from the records on: they are validated before they are written to the
journal and again when it is read, and undone from the last to the first. A record is
undone where the file still is what the edit left; otherwise it is skipped, unless the
undo is forced. A dry run goes by the hashes the files would have.

The journal's own text and its signature are not here.
-/

namespace MiniCodeAgent

open TransactionAdapter

variable {F : Type} [Json.PyFloat F]

/-- What is recorded of an edit's result, if it names a file. -/
def undoEntry (result : ToolResult F) : Option (Json F) :=
  match result.fileExistedBefore with
  | some existedBefore =>
    if result.filePath = "" then none
    else some (.obj [("path", .str result.filePath), ("existed_before", .bool existedBefore),
      ("before_content", .str (result.beforeContent.getD "")),
      ("before_hash", .str result.beforeHash), ("after_hash", .str result.afterHash)])
  | none => none

/-- `_record_undo`. -/
def recordUndo (records : List (Json F)) (result : ToolResult F) : List (Json F) :=
  records ++ (undoEntry result).toList

/-- A record that was validated. -/
structure UndoRecord where
  path : String
  pathBinding : String
  existedBefore : Bool
  beforeContent : String
  beforeHash : String
  afterHash : String
  deriving DecidableEq

/-- The record as the journal has it. -/
def UndoRecord.toJson (record : UndoRecord) : Json F :=
  .obj [("path", .str record.path), ("path_binding", .str record.pathBinding),
    ("existed_before", .bool record.existedBefore),
    ("before_content", .str record.beforeContent), ("before_hash", .str record.beforeHash),
    ("after_hash", .str record.afterHash)]

/-- What undoing uses of the machine: the workspace it is rooted at, the digests, and
`repr` for the values of a journal that are no strings. -/
structure UndoEnv (F : Type) where
  root : ResolvedPath
  digests : Digests
  repr : Json F → String

/-! ## Validation -/

/-- `re_full_hash`. -/
def reFullHash (value : String) : Bool :=
  value.length = 64 && value.toList.all fun c => isHexDigit c.toLower

section

variable (env : UndoEnv F)

/-- `_text_hash`. -/
def textHash (text : String) : String := env.digests.sha256 text.toUTF8

/-- The hash that binds a record's path to its workspace. -/
def pathBinding (relative : String) : String :=
  env.digests.sha256 (pathText env.root [] ++ "\x00" ++ relative).toUTF8

/-- `raw["path"]` of a record that is a dictionary with a path. -/
def rawPath (raw : Json F) : Except PyExc (Json F) :=
  match raw.get? "path" with
  | some path => .ok path
  | none => .error (valueError "invalid undo record")

/-- One turn of the loop of `_validate_records`. -/
def validateRecord (t : FileTree) (raw : Json F) : Except PyExc UndoRecord := do
  let path ← rawPath raw
  let parts ← t.resolve env.root (pyStr env.repr path)
  let relative := posixText parts
  let existedBefore := (raw.getD "existed_before" .null).truthy
  let before := pyStr env.repr (raw.getD "before_content" (.str ""))
  let beforeHash := pyStr env.repr (raw.getD "before_hash" (.str ""))
  let afterHash := pyStr env.repr (raw.getD "after_hash" (.str ""))
  raiseIf (existedBefore = true ∧ beforeHash ≠ textHash env before)
    (valueError ("undo record before hash does not match: " ++ relative))
  raiseIf (reFullHash afterHash = false)
    (valueError ("undo record after hash is invalid: " ++ relative))
  let binding := pathBinding env relative
  let supplied := raw.getD "path_binding" .null
  raiseIf (supplied.pyEq .null = false ∧ supplied.pyEq (.str binding) = false)
    (valueError ("undo record path binding does not match: " ++ relative))
  return ⟨relative, binding, existedBefore, before, beforeHash, afterHash⟩

/-- `_validate_records`. -/
def validateRecords (t : FileTree) (raws : List (Json F)) : Except PyExc (List UndoRecord) := do
  raiseIf (raws.length > 10000) (valueError "too many undo records")
  raws.mapM (validateRecord env t)

/-- The records that `write_undo_journal` puts into the journal. -/
def journalRecords (t : FileTree) (raws : List (Json F)) : Except PyExc (List (Json F)) := do
  let records ← validateRecords env t raws
  return records.map UndoRecord.toJson

/-! ## Undoing -/

/-- `_path_hash`. -/
def pathHash (t : FileTree) (parts : List String) : Except PyExc (Option String) :=
  match t.readBytes env.root parts with
  | .ok content => .ok (some (env.digests.sha256 content))
  | .error exc =>
    if exc.type = "FileNotFoundError" ∨ exc.type = "IsADirectoryError" then .ok none
    else .error exc

/-- The files, the hashes they would have, and what was said of each record. -/
structure UndoState where
  tree : FileTree
  simulatedHashes : List String → Option (Option String)
  actions : List String

/-- What is done to a file whose record is undone. -/
def undoEdit (dryRun : Bool) (record : UndoRecord) (parts : List String) (t : FileTree) :
    Except PyExc FileTree :=
  if dryRun then .ok t
  else if record.existedBefore then t.atomicWriteText env.root parts record.beforeContent
  else if t.node parts ≠ none then t.unlinkFile env.root parts
  else .ok t

/-- The record of the file is undone, which leaves these files. -/
def UndoState.undone (s : UndoState) (record : UndoRecord) (parts : List String) (t : FileTree) :
    UndoState where
  tree := t
  simulatedHashes below :=
    if below = parts then
      some (if record.existedBefore then some (textHash env record.beforeContent) else none)
    else s.simulatedHashes below
  actions := s.actions ++
    [(if record.existedBefore then "restored " else "removed ") ++ posixText parts]

/-- One turn of the loop of `_undo_records`. -/
def undoRecord (dryRun force : Bool) (record : UndoRecord) (s : UndoState) :
    Except PyExc UndoState := do
  let parts ← s.tree.resolve env.root record.path
  let found ← pathHash env s.tree parts
  let currentHash := (s.simulatedHashes parts).getD found
  let expectedHash := if record.afterHash = "" then none else some record.afterHash
  if force = false ∧ currentHash ≠ expectedHash then
    return { s with actions := s.actions ++
      ["skip " ++ posixText parts ++ ": file changed since agent edit"] }
  else
    let t ← undoEdit env dryRun record parts s.tree
    return s.undone env record parts t

/-- The loop, and where it was when an exception ended it. -/
def undoLoop (dryRun force : Bool) : List UndoRecord → UndoState → Except PyExc Unit × UndoState
  | [], s => (.ok (), s)
  | record :: records, s =>
    match undoRecord env dryRun force record s with
    | .ok s => undoLoop dryRun force records s
    | .error exc => (.error exc, s)

omit [Json.PyFloat F] in
theorem undoLoop_ok {dryRun force : Bool} {record : UndoRecord} {records : List UndoRecord}
    {s s' : UndoState} (h : undoRecord env dryRun force record s = .ok s') :
    undoLoop env dryRun force (record :: records) s = undoLoop env dryRun force records s' := by
  show (match undoRecord env dryRun force record s with
    | .ok s => undoLoop env dryRun force records s
    | .error exc => (.error exc, s)) = _
  rw [h]

omit [Json.PyFloat F] in
theorem undoLoop_error {dryRun force : Bool} {record : UndoRecord} {records : List UndoRecord}
    {s : UndoState} {exc : PyExc} (h : undoRecord env dryRun force record s = .error exc) :
    undoLoop env dryRun force (record :: records) s = (.error exc, s) := by
  show (match undoRecord env dryRun force record s with
    | .ok s => undoLoop env dryRun force records s
    | .error exc => (.error exc, s)) = _
  rw [h]

/-- `_undo_records`: what it returns, and the files it leaves. -/
def undoRecords (dryRun force : Bool) (t : FileTree) (records : List UndoRecord) :
    Except PyExc (List String) × FileTree :=
  let (ended, s) := undoLoop env dryRun force records.reverse ⟨t, fun _ => none, []⟩
  (ended.map fun _ => s.actions, s.tree)

/-- `undo_trajectory`, from the records of the journal on. -/
def undoTrajectory (dryRun force : Bool) (t : FileTree) (journal : List (Json F)) :
    Except PyExc (List String) × FileTree :=
  match validateRecords env t journal with
  | .ok records => undoRecords env dryRun force t records
  | .error exc => (.error exc, t)

end

end MiniCodeAgent
