import MiniCodeAgent.Builtins
import MiniCodeAgent.Prog.Exceptions

/-!
# The verification matrix

`run_verification_matrix` of `checks.py`: every configured check in its turn, with the
workspace's fingerprint taken before and after each. What a check does is not modelled,
and neither is the workspace. A capture may answer with any fingerprint or raise, and so
may a check with any evidence, so the traces of the matrix are those of every executor
over every workspace.
-/

namespace MiniCodeAgent

/-- `_CHECK_NAME`. -/
def isCheckName (name : String) : Bool :=
  match name.toList with
  | [] => false
  | c :: cs => ('a' ≤ c && c ≤ 'z') && cs.length ≤ 31 &&
      cs.all fun c => ('a' ≤ c && c ≤ 'z') || c.isDigit || c = '_' || c = '-'

/-- `VerificationCheck`, its command stripped. -/
structure VerificationCheck where
  name : String
  command : String
  named : isCheckName name = true
  commanded : command ≠ "" ∧ pyStrip command = command

structure VerificationCheckExecution where
  evidence : VerificationCheckEvidence
  output : String := ""

structure VerificationMatrixResult where
  verificationChecks : List VerificationCheckEvidence
  output : String
  returncode : Int
  exceptionInfo : String := ""
  blocked : Bool := false
  approved : Bool := true
  verificationFingerprint : String := ""

def checkStatus (item : VerificationCheckEvidence) : String :=
  if item.blocked then "BLOCKED"
  else if !item.approved then "REJECTED"
  else if item.returncode = 0 then "PASS"
  else "FAIL"

/-- `_render_matrix`. -/
def renderMatrix (evidence : List VerificationCheckEvidence) (outputs : List String)
    (headline : String) : String :=
  let rows := evidence.map fun item => item.name ++ "  " ++ checkStatus item ++ "  " ++
    toString item.returncode ++ "  " ++ toString item.durationMs ++ "ms"
  let headlines := if headline ≠ "" then ["", headline] else []
  let failures := (evidence.zip outputs).flatMap fun (item, output) =>
    if item.returncode ≠ 0 ∧ output ≠ "" then
      ["", "## " ++ item.name, truncateText output 2000]
    else []
  truncateText ("\n".intercalate (["CHECK  STATUS  EXIT  DURATION"] ++ rows ++ headlines ++
    failures)) defaultOutputLimit

/-- What the matrix asks for. -/
inductive MatrixOp where
  | captureFingerprint
  | executeCheck (check : VerificationCheck)

def MatrixOp.Res : MatrixOp → Type
  | .captureFingerprint => String
  | .executeCheck _ => VerificationCheckExecution

abbrev MatrixProg (α : Type) := Prog MatrixOp MatrixOp.Res PyExc α

abbrev MatrixEvent := Event MatrixOp MatrixOp.Res PyExc

/-- What the loop has collected. -/
structure MatrixLog where
  evidence : List VerificationCheckEvidence := []
  outputs : List String := []

def MatrixLog.add (log : MatrixLog) (execution : VerificationCheckExecution) : MatrixLog where
  evidence := log.evidence ++ [execution.evidence]
  outputs := log.outputs ++ [execution.output]

/-- `_matrix_failure`. -/
def matrixFailure (log : MatrixLog) (exceptionInfo headline : String) (blocked : Bool := false)
    (approved : Bool := true) : VerificationMatrixResult where
  verificationChecks := log.evidence
  output := renderMatrix log.evidence log.outputs headline
  returncode := -1
  exceptionInfo := exceptionInfo
  blocked := blocked
  approved := approved

def captureFailure (log : MatrixLog) (moment : String) : VerificationMatrixResult :=
  matrixFailure log "WorkspaceFingerprintError"
    ("Workspace fingerprint capture failed " ++ moment ++ ".")

/-- The end of the matrix, when no check stopped it. -/
def matrixVerdict (baseline : String) (log : MatrixLog) : VerificationMatrixResult :=
  let passed := log.evidence.all fun item => item.returncode = 0
  { verificationChecks := log.evidence
    output := renderMatrix log.evidence log.outputs ""
    returncode := if passed then 0 else 1
    exceptionInfo := if passed then "" else "VerificationCheckFailed"
    verificationFingerprint := if passed then baseline else "" }

/-- The end of one turn of the loop: what the check's own evidence asks for. -/
def judgeCheck (check : VerificationCheck) (item : VerificationCheckEvidence) (log : MatrixLog) :
    Option VerificationMatrixResult :=
  if item.blocked ∨ item.approved = false then
    some (matrixFailure log
      (if item.exceptionInfo ≠ "" then item.exceptionInfo else "VerificationCheckBlocked")
      ("Check " ++ check.name ++ " was not authorized.") item.blocked item.approved)
  else if item.exceptionInfo ≠ "" ∧ item.exceptionInfo ≠ "NoTestsCollected" then
    some (matrixFailure log item.exceptionInfo
      ("Check " ++ check.name ++ " stopped the verification matrix."))
  else none

/-- The loop over the checks. -/
def runChecks (baseline : String) : List VerificationCheck → MatrixLog →
    MatrixProg VerificationMatrixResult
  | [], log => .done (.ok (matrixVerdict baseline log))
  | check :: checks, log =>
    tryExcept .captureFingerprint (captureFailure log ("before " ++ check.name))
      fun (before : String) =>
    if before ≠ baseline then
      .done (.ok (matrixFailure log "WorkspaceChangedDuringVerification"
        ("Workspace changed before check " ++ check.name ++ ".")))
    else
      tryExcept (.executeCheck check) (matrixFailure log "VerificationCheckExecutionError"
          ("Check " ++ check.name ++ " could not be executed safely."))
        fun (execution : VerificationCheckExecution) =>
      tryExcept .captureFingerprint (captureFailure (log.add execution) ("after " ++ check.name))
        fun (after : String) =>
      if after ≠ baseline then
        .done (.ok (matrixFailure (log.add execution) "WorkspaceChangedDuringVerification"
          ("Check " ++ check.name ++ " changed the fingerprinted workspace.")))
      else match judgeCheck check execution.evidence (log.add execution) with
        | some result => .done (.ok result)
        | none => runChecks baseline checks (log.add execution)

/-- `run_verification_matrix`. -/
def runVerificationMatrix (checks : List VerificationCheck) :
    MatrixProg VerificationMatrixResult :=
  tryExcept .captureFingerprint (captureFailure {} "before verification")
    fun (baseline : String) => runChecks baseline checks {}

end MiniCodeAgent
