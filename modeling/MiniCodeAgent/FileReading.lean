import MiniCodeAgent.StructuredEdits

/-!
# Reading a file by its lines

`read_file` of `executor.py`. The file is read as a stream of text whose line ends are kept
as they are, and no more of a line is taken at a time than the answer may be long; what is
left of a line that is passed over is read away in pieces. A line that is shown has its
number in front.
-/

namespace MiniCodeAgent

open TransactionAdapter

variable {F : Type}

/-! ## The stream -/

/-- What ends a line of a text stream that is opened with `newline=""`. -/
def isNewline (c : Char) : Bool := c = '\n' || c = '\r'

/-- `raw_line.endswith(("\n", "\r"))`. -/
def endsLine (raw : List Char) : Bool := raw.getLast?.any isNewline

/-- `handle.readline(limit)`, at the place where this is left of the text. -/
def readline (limit : Nat) (cs : List Char) : List Char :=
  (Text.firstLine isNewline '\r' '\n' cs).take limit

/-- What is left behind the end of a line that was read in part. -/
def drainLine : Nat → List Char → List Char
  | 0, cs => cs
  | n + 1, cs =>
    let remainder := readline 65536 cs
    let rest := cs.drop remainder.length
    if remainder = [] ∨ endsLine remainder = true then rest else drainLine n rest

/-- What is left behind a line that is passed over. -/
def skipLine (maxChars : Nat) (cs : List Char) : List Char :=
  let raw := readline (maxChars + 1) cs
  let rest := cs.drop raw.length
  if endsLine raw then rest else drainLine (rest.length + 1) rest

/-! ## The tool -/

/-- `f"{number}: {raw_line.rstrip(chr(10) + chr(13))}\n"`. -/
def renderLine (number : Nat) (raw : List Char) : List Char :=
  (toString number).toList ++ ": ".toList ++ raw.rdropWhile isNewline ++ ['\n']

/-- The lines passed so far, what was selected of them, and whether it was cut. -/
structure ReadState where
  number : Nat
  selected : List Char
  truncated : Bool

def ReadState.start : ReadState := ⟨0, [], false⟩

/-- A line is added to what was selected, as far as there is room for it. -/
def ReadState.add (s : ReadState) (maxChars : Nat) (raw : List Char) : ReadState :=
  let rendered := renderLine s.number raw
  if s.selected.length + rendered.length > maxChars then
    ⟨s.number, s.selected ++ rendered.take (maxChars - s.selected.length), true⟩
  else ⟨s.number, s.selected ++ rendered, !endsLine raw⟩

/-- The loop; it ends with the text, behind the last line asked for, or where the answer
is full. -/
def readLoop (start : Nat) (endLine : Option Int) (maxChars : Nat) :
    Nat → List Char → ReadState → ReadState
  | 0, _, s => s
  | n + 1, cs, s =>
    let raw := readline (maxChars + 1) cs
    if raw = [] then s
    else
      let s := { s with number := s.number + 1 }
      if s.number < start then readLoop start endLine maxChars n (skipLine maxChars cs) s
      else if endLine.any fun last => (s.number : Int) > last then s
      else
        let s := s.add maxChars raw
        if s.truncated then s
        else readLoop start endLine maxChars n (cs.drop raw.length) s

/-- What is answered. -/
def ReadState.answer (s : ReadState) : String :=
  String.ofList (s.selected.rdropWhile (· = '\n')) ++
    if s.truncated then "\n... truncated at max_chars" else ""

/-- The executor's environment, and `data.decode("utf-8", errors="replace")`. -/
structure ReadEnv extends EditEnv where
  decodeReplace : ByteArray → String
  decodeReplace_toUTF8 : ∀ text, decodeReplace text.toUTF8 = text

/-- `max(1, min(max_chars, 200_000))`. -/
def clampChars (maxChars : Int) : Nat := (max 1 (min maxChars 200000)).toNat

namespace CommandExecutor

variable (env : ReadEnv)

/-- The text of the file that is read. -/
def openText (t : FileTree) (path : String) (parts : List String) : Except PyExc String :=
  match t.readBytes env.cwd parts with
  | .ok content => .ok (env.decodeReplace content)
  | .error exc =>
    if exc.type = "FileNotFoundError" ∨ exc.type = "IsADirectoryError" then
      .error (fileNotFoundError ("file does not exist: " ++ path))
    else .error exc

/-- The result of a read. -/
def readResult (path : String) (startLine : Int) (endLine : Option Int) (maxChars : Nat)
    (s : ReadState) : ToolResult F where
  tool := "read_file"
  output := env.redactor.redactText s.answer
  returncode := 0
  durationMs := 0
  args := some (.obj [("path", .str path), ("start_line", .int startLine),
    ("end_line", endLine.elim .null .int), ("max_chars", .int maxChars)])

/-- `read_file`. -/
def readFile (t : FileTree) (path : String) (startLine : Int) (endLine : Option Int)
    (maxChars : Int) : Except PyExc (ToolResult F) := do
  let parts ← t.resolve env.cwd path
  let start := max 1 startLine
  raiseIf (∃ last ∈ endLine, last < start)
    (valueError "end_line must be greater than or equal to start_line")
  let maxChars := clampChars maxChars
  let text ← openText env t path parts
  return readResult env path startLine endLine maxChars
    (readLoop start.toNat endLine maxChars (text.toList.length + 1) text.toList .start)

end CommandExecutor

end MiniCodeAgent
