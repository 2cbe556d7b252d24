import MiniCodeAgent.Rendering
import MiniCodeAgent.SafeWorkspace
import MiniCodeAgent.Security

/-!
# The structured edits

The three tools of `executor.py` that edit a text file: `write_file`, `apply_patch` and
`replace_lines`. Each reads the file as it stands, works out the new text in the line ends
the file has, asks where it has to ask, and puts the new text in the old one's place. The
result names what the file was and what it is, for the edit to be undone by.
-/

namespace MiniCodeAgent

open TransactionAdapter

variable {F : Type}

/-- `MAX_STRUCTURED_EDIT_CHARS`. -/
def maxStructuredEditChars : Nat := 8 * 1024 * 1024

/-! ## Texts -/

/-- `text.count(old)` for an `old` that is not empty. -/
def countText (old : List Char) : Nat → List Char → Nat
  | 0, _ => 0
  | _ + 1, [] => 0
  | n + 1, c :: cs =>
    if old.isPrefixOf (c :: cs) then countText old n ((c :: cs).drop old.length) + 1
    else countText old n cs

/-- `text.replace(old, new, 1)` for an `old` that is not empty. -/
def replaceFirst (old new : List Char) : List Char → List Char
  | [] => []
  | c :: cs =>
    if old.isPrefixOf (c :: cs) then new ++ (c :: cs).drop old.length
    else c :: replaceFirst old new cs

def pyCount (text old : String) : Nat :=
  countText old.toList (text.toList.length + 1) text.toList

def pyReplaceOne (text old new : String) : String :=
  String.ofList (replaceFirst old.toList new.toList text.toList)

/-- `_preferred_newline`: the line end the text has most of. -/
def preferredNewline (content : String) : String :=
  let crlf : Int := pyCount content "\r\n"
  let lf : Int := pyCount content "\n" - crlf
  let cr : Int := pyCount content "\r" - crlf
  if crlf ≥ lf ∧ crlf ≥ cr ∧ crlf ≠ 0 then "\r\n"
  else if cr > lf ∧ cr ≠ 0 then "\r"
  else "\n"

/-- `_normalize_newlines`. -/
def normalizeNewlines (content newline : String) : String :=
  let normalized := pyReplace (pyReplace content "\r\n" "\n") "\r" "\n"
  if newline = "\n" then normalized else pyReplace normalized "\n" newline

/-! ## The tools -/

/-- What the tools use of their executor. -/
structure EditEnv where
  cwd : ResolvedPath
  redactor : SecretRedactor
  digests : Digests
  sha256_length : ∀ data, (digests.sha256 data).length = 64
  /-- `difflib.unified_diff(before, after, fromfile, tofile)`. -/
  unifiedDiff : List String → List String → String → String → List String

variable (env : EditEnv)

namespace CommandExecutor

/-- `_content_hash`. -/
def contentHash (content : String) : String := env.digests.sha256 content.toUTF8

/-- `_unified_file_diff`. -/
def unifiedFileDiff (parts : List String) (before after : String) : String :=
  let relPath := posixText parts
  let diff := pyStrip (String.join (env.unifiedDiff (splitlinesKeepends before)
    (splitlinesKeepends after) ("a/" ++ relPath) ("b/" ++ relPath)))
  if diff = "" then "(no textual diff)" else diff

/-- `_read_editable_text`. -/
def readEditableText (t : FileTree) (parts : List String) : Except PyExc String := do
  let text ← t.readText env.cwd parts (maxStructuredEditChars + 1)
  raiseIf (text.length > maxStructuredEditChars)
    (valueError "structured edits are limited to 8 MiB text files")
  return text

/-- The text that a write finds at the path, and whether it finds a file. -/
def readBefore (t : FileTree) (parts : List String) : Except PyExc (String × Bool) :=
  match readEditableText env t parts with
  | .ok before => .ok (before, true)
  | .error exc => if exc.type = "FileNotFoundError" then .ok ("", false) else .error exc

/-- The text of a file that has to be there. -/
def readExistingText (t : FileTree) (path : String) (parts : List String) :
    Except PyExc String :=
  match readEditableText env t parts with
  | .ok text => .ok text
  | .error exc =>
    if exc.type = "FileNotFoundError" ∨ exc.type = "IsADirectoryError" then
      .error (fileNotFoundError ("file does not exist: " ++ path))
    else .error exc

/-- The result of an edit the user did not allow. -/
def rejectedEdit (tool output exceptionInfo : String) (args : Dict (Json F)) : ToolResult F where
  tool := tool
  output := output
  returncode := -1
  durationMs := 0
  args := some (.obj args)
  exceptionInfo := exceptionInfo
  approved := false

/-- The result of an edit that was made. -/
def editResult (tool report : String) (args : Dict (Json F)) (parts : List String)
    (before after : String) (existedBefore : Bool) : ToolResult F where
  tool := tool
  output := env.redactor.redactText
    (report ++ ".\n\n" ++ unifiedFileDiff env parts before after)
  returncode := 0
  durationMs := 0
  args := some (.obj args)
  beforeContent := some before
  afterContent := some after
  filePath := posixText parts
  fileExistedBefore := some existedBefore
  beforeHash := if existedBefore then contentHash env before else ""
  afterHash := contentHash env after

/-- An edit, once the new text is known: it is asked for and made. `approves` is
`self.approval_mode != "confirm" or self._confirm(tool, detail)`. -/
def makeEdit (approves : String → String → Except PyExc Bool) (t : FileTree) (tool detail : String)
    (rejection result : ToolResult F) (parts : List String) (after : String) :
    Except PyExc (ToolResult F × FileTree) := do
  if ← approves tool detail then
    let t ← t.atomicWriteText env.cwd parts after
    return (result, t)
  else return (rejection, t)

/-- `write_file`. -/
def writeFile (approves : String → String → Except PyExc Bool) (t : FileTree)
    (path content : String) : Except PyExc (ToolResult F × FileTree) := do
  raiseIf (content.length > maxStructuredEditChars)
    (valueError "structured writes are limited to 8 MiB of text")
  let parts ← t.resolve env.cwd path
  let (before, existedBefore) ← readBefore env t parts
  let content := if existedBefore then normalizeNewlines content (preferredNewline before)
    else content
  let args := [("path", Json.str path)]
  let report := "Wrote " ++ toString content.length ++ " chars to " ++ posixText parts
  makeEdit env approves t "write_file" path
    (rejectedEdit "write_file" "Write was rejected by the user." "User rejected write." args)
    (editResult env "write_file" report args parts before content existedBefore) parts content

/-- `apply_patch`. -/
def applyPatch (approves : String → String → Except PyExc Bool) (t : FileTree)
    (path old new : String) (replaceAll : Bool) : Except PyExc (ToolResult F × FileTree) := do
  let parts ← t.resolve env.cwd path
  let text ← readExistingText env t path parts
  raiseIf (old = "") (valueError "old text must not be empty")
  let newline := preferredNewline text
  let effectiveOld := normalizeNewlines old newline
  let effectiveNew := normalizeNewlines new newline
  let count := pyCount text effectiveOld
  raiseIf (count = 0) (valueError "old text was not found")
  raiseIf (count > 1 ∧ replaceAll = false) (valueError ("old text matched " ++ toString count ++
    " times; set replace_all=true or provide more specific old text"))
  let args := [("path", Json.str path), ("replace_all", .bool replaceAll)]
  let updated := if replaceAll then pyReplace text effectiveOld effectiveNew
    else pyReplaceOne text effectiveOld effectiveNew
  let report := "Patched " ++ posixText parts ++ "; replacements=" ++
    toString (if replaceAll then count else 1)
  makeEdit env approves t "apply_patch" path
    (rejectedEdit "apply_patch" "Patch was rejected by the user." "User rejected patch." args)
    (editResult env "apply_patch" report args parts text updated true) parts updated

/-- `replace_lines`. -/
def replaceLines (approves : String → String → Except PyExc Bool) (t : FileTree) (path : String)
    (startLine endLine : Int) (newText : String) : Except PyExc (ToolResult F × FileTree) := do
  let parts ← t.resolve env.cwd path
  let before ← readExistingText env t path parts
  let lines := splitlinesKeepends before
  let range := toString startLine ++ "-" ++ toString endLine
  raiseIf (startLine < 1 ∨ endLine < startLine ∨ endLine > lines.length)
    (valueError ("invalid line range: " ++ range))
  let args := [("path", Json.str path), ("start_line", .int startLine),
    ("end_line", .int endLine)]
  let newline := preferredNewline before
  let replacement := normalizeNewlines newText newline
  let replacement := if replacement ≠ "" ∧ ¬ (replacement.toList.getLast? = some '\n' ∨
    replacement.toList.getLast? = some '\r') then replacement ++ newline else replacement
  let updated := String.join (lines.take (startLine - 1).toNat ++ [replacement] ++
    lines.drop endLine.toNat)
  let report := "Replaced " ++ posixText parts ++ ":" ++ range
  makeEdit env approves t "replace_lines" (path ++ ":" ++ range)
    (rejectedEdit "replace_lines" "Line replacement was rejected by the user."
      "User rejected line replacement." args)
    (editResult env "replace_lines" report args parts before updated true) parts updated

end CommandExecutor

/-- A call of one of the tools. -/
inductive EditCall where
  | writeFile (path content : String)
  | applyPatch (path old new : String) (replaceAll : Bool)
  | replaceLines (path : String) (startLine endLine : Int) (newText : String)

/-- The path a call is given. -/
def EditCall.path : EditCall → String
  | .writeFile path _ => path
  | .applyPatch path _ _ _ => path
  | .replaceLines path _ _ _ => path

/-- `execute_tool`, from the tool's own arguments on. -/
def EditCall.execute (approves : String → String → Except PyExc Bool) (t : FileTree) :
    EditCall → Except PyExc (ToolResult F × FileTree)
  | .writeFile path content => CommandExecutor.writeFile env approves t path content
  | .applyPatch path old new replaceAll =>
    CommandExecutor.applyPatch env approves t path old new replaceAll
  | .replaceLines path startLine endLine newText =>
    CommandExecutor.replaceLines env approves t path startLine endLine newText

end MiniCodeAgent
