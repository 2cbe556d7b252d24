import MiniCodeAgent.Builtins
import MiniCodeAgent.Prog.Concurrent
import MiniCodeAgent.Receipt

/-!
# A project's identity

`memory_adapters/project.py`: the identity a repository's memories are filed
under is drawn once and kept in the repository's own git configuration. Reading
the entry and writing it are two runs of git, so the call is a program whose
effects are these runs.
-/

namespace MiniCodeAgent

namespace ProjectIdentity

/-- What is looked at of a `subprocess.CompletedProcess`. -/
structure Completed where
  returncode : Int
  stdout : String
  stderr : String

inductive ConfigOp where
  /-- `git config --local --get mca.memoryIdentity`. -/
  | get
  /-- `uuid.uuid4().hex`. -/
  | uuid4
  /-- `git config --local mca.memoryIdentity <identity>`. -/
  | set (identity : String)

abbrev ConfigOp.Res : ConfigOp → Type
  | .get => Completed
  | .uuid4 => String
  | .set _ => Completed

abbrev ConfigProg (α : Type) := Prog ConfigOp ConfigOp.Res PyExc α

def sys (o : ConfigOp) : ConfigProg o.Res := Prog.call o

/-- `first or second` on strings. -/
def pyOr (first second : String) : String := if first = "" then second else first

/-- `re.fullmatch(r"[0-9a-f]{32}", identity)`. -/
def isProjectIdentity (identity : String) : Bool := identity.length = 32 && isHex identity

def runtimeError (message : String) : PyExc := ⟨"RuntimeError", message, true⟩

variable (digests : Digests)

/-- What the call ends with once it has an identity. -/
def checkedIdentity (identity : String) : Except PyExc String := do
  raiseIf (isProjectIdentity identity = false)
    (runtimeError "project memory identity in Git config is invalid")
  return digests.sha256 ("mca-project:" ++ identity).toUTF8

/-- The identity is drawn and written. -/
def persistIdentity (identity : String) : ConfigProg String := do
  let written ← sys (.set identity)
  if written.returncode ≠ 0 then
    throw (runtimeError (pyOr (pyStrip written.stderr) "could not persist project identity"))
  else Prog.done (checkedIdentity digests identity)

/-- What follows once the entry has been read. -/
def settleIdentity (root : String) (create : Bool) (read : Completed) : ConfigProg String :=
  if read.returncode ≠ 0 ∧ read.returncode ≠ 1 then
    throw (runtimeError (pyOr (pyStrip read.stderr) "could not read project identity"))
  else if pyStrip read.stdout = "" then
    if create = false then return digests.sha256 root.toUTF8
    else do
      let identity ← sys .uuid4
      persistIdentity digests identity
  else Prog.done (checkedIdentity digests (pyStrip read.stdout))

/-- `identity_sha256`. `git` is what `shutil.which` finds, and `root` the project's
resolved path. -/
def identitySha256 (git : Option String) (root : String) (create : Bool) :
    ConfigProg String := do
  Prog.done (raiseIf (git = none) (runtimeError "git is required for stable project identity"))
  let read ← sys .get
  settleIdentity digests root create read

/-! ## The entry they share -/

/-- The entry of the repository's configuration, as git keeps it. -/
abbrev Config := Option String

/-- A read finds the entry or says there is none, and a write replaces it. -/
def answer (identity : String) :
    (o : ConfigOp) → Config → Except PyExc o.Res × Config
  | .get, some value => (.ok ⟨0, value ++ "\n", ""⟩, some value)
  | .get, none => (.ok ⟨1, "", ""⟩, none)
  | .uuid4, config => (.ok identity, config)
  | .set value, _ => (.ok ⟨0, "", ""⟩, some value)

/-- A new identity is any 32 hexadecimal digits. -/
def Calls {ι : Type} (_ : ι) (config : Config) (e : Event ConfigOp ConfigOp.Res PyExc)
    (config' : Config) : Prop :=
  ∃ identity, isProjectIdentity identity = true ∧
    Prog.Answers (answer identity) config e config'

/-- The identity a read takes from the entry: nothing, if there is none. -/
def storedIdentity (config : Config) : String :=
  match config with
  | some value => pyStrip (value ++ "\n")
  | none => ""

end ProjectIdentity

end MiniCodeAgent
