import MiniCodeAgent.Rendering
import MiniCodeAgent.SecretPatterns
import Mathlib.Data.Multiset.Dedup
import Mathlib.Data.Multiset.Sort
import Mathlib.Data.Prod.Lex
import Mathlib.Data.String.Basic

/-!
# The added-content scanner

`scripts/check_added_content.py`: what looks like a key or a home directory in the
lines a diff adds must be one of the findings that were approved. The scanner reads
the diff as git prints it, without lines of context, and knows a line by how it
starts.

The second half is that print: the files one after the other, each with its header
lines and with an edit for each place where lines were removed, added or both.
-/

namespace MiniCodeAgent.CheckAddedContent

/-! ## Candidates -/

/-- A candidate, the path of the file it is in, and the line. -/
abbrev Finding := String × String × String

/-- `[^\s…]`. -/
def noneOf (others : String) (c : Char) : Bool := !pyIsSpace c && !others.toList.contains c

def homePath (directory : String) : List SecretPattern :=
  let name := literal directory ++ [atLeast 1 (alphanumericOr "._-")]
  [name ++ [single (· = '/'), atLeast 0 (noneOf "\"'`<>")], name]

/-- `_CANDIDATE_PATTERNS`, each with its alternatives in order. -/
def candidatePatterns : List (List SecretPattern) :=
  [[literal "sk-" ++ [atLeast 12 (alphanumericOr "_-")],
      literal "DEEPSEEK_API_KEY=" ++ [atLeast 1 (noneOf "\"'`")],
      literal "OPENAI_API_KEY=" ++ [atLeast 1 (noneOf "\"'`")],
      literal "MCA_API_KEY=" ++ [atLeast 1 (noneOf "\"'`")]],
    homePath "/Users/" ++ homePath "/home/"]

/-- `pattern.finditer(text)`: the matches from the left that do not overlap. -/
def finditer (alternatives : List SecretPattern) : Nat → List Char → List (List Char)
  | 0, _ => []
  | _ + 1, [] => []
  | n + 1, c :: cs =>
    match alternatives.findSome? fun pattern => matchLength pattern (c :: cs) with
    | some taken =>
      (c :: cs).take taken :: finditer alternatives n ((c :: cs).drop taken)
    | none => finditer alternatives n cs

def candidates (text : String) : List String :=
  candidatePatterns.flatMap fun alternatives =>
    (finditer alternatives (text.length + 1) text.toList).map String.ofList

/-- What is found in a line of a file. -/
def found (path text : String) : List Finding :=
  (candidates text).map fun candidate => (candidate, path, pyStrip text)

/-! ## The scanner -/

structure ScanState where
  path : String
  findings : Multiset Finding

/-- `line[n:]`. -/
def textFrom (n : Nat) (line : String) : String := String.ofList (line.toList.drop n)

/-- The body of the loop. -/
def scanLine (state : ScanState) (line : String) : ScanState :=
  if startsWith line "+++ b/" = true then { state with path := textFrom 6 line }
  else if state.path = "" ∨ startsWith line "+" = false ∨ startsWith line "+++" = true then state
  else { state with findings := state.findings + found state.path (textFrom 1 line) }

/-- `scan_added_diff`; a counter is a multiset. -/
def scanAddedDiff (diff : String) : Multiset Finding :=
  ((splitlines diff).foldl scanLine ⟨"", 0⟩).findings

/-- `APPROVED_LOCATIONS`. -/
def approvedLocations : Multiset Finding :=
  [("DEEPSEEK_API_KEY=...", "README.zh-CN.md", "DEEPSEEK_API_KEY=..."),
    ("OPENAI_API_KEY=...", "README.zh-CN.md", "OPENAI_API_KEY=..."),
    ("MCA_API_KEY=not-needed", "README.zh-CN.md", "MCA_API_KEY=not-needed"),
    ("MCA_API_KEY=not-needed\\n", "src/mini_code_agent/cli.py", "\"# MCA_API_KEY=not-needed\\n\""),
    ("MCA_API_KEY=not-needed", "src/mini_code_agent/model.py",
      "\"For a keyless local compatible server, set MCA_API_KEY=not-needed explicitly.\""),
    ("sk-testsecret123456", "tests/test_agent_cli.py", "secret = \"sk-testsecret123456\""),
    ("sk-do-not-read-or-print", "tests/test_diagnostics.py",
      "secret = \"sk-do-not-read-or-print\""),
    ("DEEPSEEK_API_KEY=\x7bsecret\x7d\\n", "tests/test_diagnostics.py",
      "env_file.write_text(f\"DEEPSEEK_API_KEY=\x7bsecret\x7d\\n\", encoding=\"utf-8\")"),
    ("DEEPSEEK_API_KEY=not-inspected\\n", "tests/test_diagnostics.py",
      "env_file.write_text(\"DEEPSEEK_API_KEY=not-inspected\\n\", encoding=\"utf-8\")"),
    ("sk-do-not-print", "tests/test_diagnostics.py", "secret = \"sk-do-not-print\""),
    ("sk-parent-secret-123456", "tests/test_hardening.py",
      "monkeypatch.setenv(\"DEEPSEEK_API_KEY\", \"sk-parent-secret-123456\")"),
    ("sk-parent-secret-123456", "tests/test_hardening.py",
      "monkeypatch.setenv(\"DEEPSEEK_API_KEY\", \"sk-parent-secret-123456\")"),
    ("DEEPSEEK_API_KEY=default-private-key\\n", "tests/test_hardening.py",
      "env_file.write_text(\"DEEPSEEK_API_KEY=default-private-key\\n\", encoding=\"utf-8\")")]

/-- `sorted(counter)`. -/
def sortedFindings (findings : Multiset Finding) : List Finding :=
  ((findings.dedup.map fun f => toLex (f.1, toLex (f.2.1, f.2.2))).sort (· ≤ ·)).map fun f =>
    ((ofLex f).1, (ofLex (ofLex f).2).1, (ofLex (ofLex f).2).2)

/-- `validate_added_diff`, with `repr` of a text. -/
def validateAddedDiff (repr : String → String) (diff : String) :
    Except PyExc (Multiset Finding) :=
  let findings := scanAddedDiff diff
  let unexpected := findings - approvedLocations
  let details := "\n".intercalate ((sortedFindings unexpected).map fun f =>
    f.2.1 ++ ": " ++ repr f.1 ++ " (" ++ String.ofList (Json.dumpInt (unexpected.count f)) ++
      " occurrence(s)) in " ++ repr f.2.2)
  if unexpected = 0 then .ok findings
  else .error (valueError ("unapproved added-content candidate:\n" ++ details))

/-! ## What git prints -/

/-- A line without its line feed. -/
structure Line where
  text : String
  oneLine : '\n' ∉ text.toList

/-- Lines that are taken out and lines that are put in their place. -/
structure Edit where
  /-- The lines that stay as they are, behind the edit before. -/
  kept : List Line
  removed : List Line
  added : List Line
  /-- What stands behind the line numbers, such as the name of a function. -/
  heading : Line
  /-- The last line that is removed had no line feed. -/
  removedOpen : Bool
  addedOpen : Bool

/-- What the diff has of one file. A file of which no line changes, such as one that is
renamed, has no edits. -/
structure FileDiff where
  path : String
  path_filled : path ≠ ""
  /-- `diff --git …` and the lines of the extended header. -/
  opening : List Line
  opening_lower : ∀ line ∈ opening, ∃ c rest, line.text.toList = c :: rest ∧ c.isLower = true
  /-- The path on the old side: behind `a/`, or `/dev/null`. -/
  oldLabel : Line
  /-- The path on the new side: `b/` and the path, in quotes if there are unusual characters
  in it, followed by a tab if there is a space; `/dev/null` of a file that is deleted. -/
  label : Line
  label_plain : ∀ c ∈ label.text.toList, isLineEnd c = false
  edits : List Edit

inductive DiffLine where
  /-- The line in front of a file's edits that has the new path, and if lines are added. -/
  | file (path label : String) (adds : Bool)
  | added (text : String)
  /-- Any other line, the lines removed among them. -/
  | other (text : String)

def DiffLine.text : DiffLine → String
  | .file _ label _ => "+++ " ++ label
  | .added text => "+" ++ text
  | .other text => text

/-- Where a hunk is on one side: the number of its first line and how many there are. -/
def hunkRange (before count : Nat) : String :=
  String.ofList (Json.dumpInt (if count = 0 then before else before + 1 : Nat)) ++
    if count = 1 then "" else "," ++ String.ofList (Json.dumpInt count)

def hunkHeader (oldBefore oldCount newBefore newCount : Nat) (heading : Line) : String :=
  "@@ -" ++ hunkRange oldBefore oldCount ++ " +" ++ hunkRange newBefore newCount ++ " @@" ++
    if heading.text = "" then "" else " " ++ heading.text

def openMark (isOpen : Bool) : List DiffLine :=
  if isOpen then [.other "\\ No newline at end of file"] else []

/-- The hunks, with as many lines before on either side. -/
def hunks : Nat → Nat → List Edit → List DiffLine
  | _, _, [] => []
  | oldBefore, newBefore, edit :: edits =>
    let oldBefore := oldBefore + edit.kept.length
    let newBefore := newBefore + edit.kept.length
    .other (hunkHeader oldBefore edit.removed.length newBefore edit.added.length edit.heading) ::
      (edit.removed.map fun line => .other ("-" ++ line.text)) ++ openMark edit.removedOpen ++
      (edit.added.map fun line => .added line.text) ++ openMark edit.addedOpen ++
      hunks (oldBefore + edit.removed.length) (newBefore + edit.added.length) edits

namespace FileDiff

def added (file : FileDiff) : List Line := file.edits.flatMap (·.added)

def lines (file : FileDiff) : List DiffLine :=
  (file.opening.map fun line => .other line.text) ++
    if file.edits.isEmpty then []
    else .other ("--- " ++ file.oldLabel.text) ::
      .file file.path file.label.text (!file.added.isEmpty) :: hunks 0 0 file.edits

end FileDiff

def diffLines (files : List FileDiff) : List DiffLine := files.flatMap FileDiff.lines

/-- The text of the diff. -/
def printLines (lines : List DiffLine) : String :=
  String.ofList (lines.flatMap fun line => line.text.toList ++ ['\n'])

/-- `git diff --unified=0`. -/
def gitDiff (files : List FileDiff) : String := printLines (diffLines files)

end MiniCodeAgent.CheckAddedContent
