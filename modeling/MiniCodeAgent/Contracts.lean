import MiniCodeAgent.Json.Text

/-!
# What the agent and its executors hand to each other

The dataclasses of `contracts.py` and the evidence record of `checks.py`, with
the two texts the agent makes of them: the observation a tool message carries
and the entry a verification check leaves in the trajectory. Numbers are
Python's unbounded integers, and an argument dictionary is a JSON value.
-/

namespace MiniCodeAgent

/-- A raised exception. `isException` is false for the ones `except Exception`
lets through, such as `KeyboardInterrupt`. -/
structure PyExc where
  type : String
  message : String
  isException : Bool
  deriving DecidableEq

/-- `f"{type(exc).__name__}: {exc}"`. -/
def PyExc.describe (exc : PyExc) : String := exc.type ++ ": " ++ exc.message

def defaultOutputLimit : Nat := 12000

def maxStateFileBytes : Nat := 256 * 1024 * 1024

/-- `truncate_text`; `text[-0:]` is the whole text. -/
def truncateText (text : String) (limit : Nat) : String :=
  let cs := text.toList
  if cs.length ≤ limit then text
  else
    let head := limit / 2
    let tail := limit - head
    String.ofList (cs.take head) ++ "\n\n...[elided " ++ toString (cs.length - limit) ++
      " chars]...\n\n" ++ String.ofList (if tail = 0 then cs else cs.drop (cs.length - tail))

structure VerificationCheckEvidence where
  name : String
  returncode : Int
  durationMs : Int
  testsRun : Option Int
  exceptionInfo : String
  blocked : Bool
  approved : Bool
  commandSha256 : String
  deriving DecidableEq

variable {F : Type}

/-- `to_dict`. -/
def VerificationCheckEvidence.toDict (e : VerificationCheckEvidence)
    (includeCommandFingerprint : Bool) : Json F :=
  .obj (([("name", .str e.name), ("returncode", .int e.returncode),
      ("duration_ms", .int e.durationMs), ("blocked", .bool e.blocked),
      ("approved", .bool e.approved)] : List (String × Json F)) ++
    (match e.testsRun with
      | some n => [("tests_run", .int n)]
      | none => [] : List (String × Json F)) ++
    (if e.exceptionInfo ≠ "" then [("exception_info", .str e.exceptionInfo)] else [] :
      List (String × Json F)) ++
    (if includeCommandFingerprint ∧ e.commandSha256 ≠ "" then
      [("command_sha256", .str e.commandSha256)] else [] : List (String × Json F)))

structure ToolResult (F : Type) where
  tool : String
  output : String
  returncode : Int
  durationMs : Int
  command : String := ""
  args : Option (Json F) := none
  beforeContent : Option String := none
  afterContent : Option String := none
  filePath : String := ""
  fileExistedBefore : Option Bool := none
  beforeHash : String := ""
  afterHash : String := ""
  exceptionInfo : String := ""
  submitted : Bool := false
  submission : String := ""
  approved : Bool := true
  blocked : Bool := false
  testsRun : Option Int := none
  verificationChecks : List VerificationCheckEvidence := []
  verificationBoundaryChecked : Bool := false
  verificationFingerprint : String := ""

/-- `to_observation`. -/
def ToolResult.toObservation (r : ToolResult F) : Json F :=
  .obj (([("returncode", .int r.returncode),
      ("output", .str (truncateText r.output defaultOutputLimit))] : List (String × Json F)) ++
    (if r.command ≠ "" then [("command", .str r.command)] else [] : List (String × Json F)) ++
    (if r.exceptionInfo ≠ "" then [("exception_info", .str r.exceptionInfo)] else [] :
      List (String × Json F)) ++
    (if r.submitted then [("submitted", .bool true), ("submission", .str r.submission)]
      else [] : List (String × Json F)) ++
    (if r.approved then [] else [("approved", .bool false)] : List (String × Json F)) ++
    (if r.blocked then [("blocked", .bool true)] else [] : List (String × Json F)) ++
    (match r.testsRun with
      | some n => [("tests_run", .int n)]
      | none => [] : List (String × Json F)) ++
    (if r.verificationChecks.isEmpty then []
      else [("verification_checks", .arr (r.verificationChecks.map fun e => e.toDict false))] :
      List (String × Json F)))

/-- One call of an assistant message, as the model sent it. -/
structure ToolCall (F : Type) where
  name : String
  args : Json F
  id : Option String

structure ExecutedToolCall (F : Type) where
  name : String
  args : Json F
  toolCallId : String
  result : ToolResult F

structure ToolBatchOutcome (F : Type) where
  calls : List (ExecutedToolCall F)
  submitted : Bool
  submission : String

end MiniCodeAgent
