import MiniCodeAgent.Transaction

/-!
# The machine a transaction runs on

A world is what the store's effects read and write: the lock, the files of the
transaction directory, the receipt key, the clock, the repositories on the
machine and the transaction's workspace. `answer` says what each effect answers
where nothing goes wrong; under `MayFail` it may also raise and change nothing,
which makes every file operation and `git apply` atomic.

Git enters through the functions it computes. `applied` is no part of the
machine. It is the history of the patches that have landed, latest first, and
nothing reads it.
-/

namespace MiniCodeAgent

/-- What the store relies on Git to compute. -/
structure Git where
  topLevel : String → String
  /-- `git status --porcelain`. -/
  status : Repo → ByteArray
  /-- `git worktree add --detach`: the workspace a commit is checked out to. -/
  checkout : Repo → String → Repo
  untracked : Repo → List String
  diffNames : Repo → List String
  diff : Repo → ByteArray
  /-- `git apply` on a tree, if it applies. -/
  apply : ByteArray → Dict Entry → Option (Dict Entry)

structure TxWorld where
  holder : Option Nat
  files : TxFile → Option ByteArray
  key : Option ByteArray
  /-- The bytes a new key will have. -/
  freshKey : ByteArray
  freshKey_size : freshKey.size = 32
  clock : Nat → Int
  ticks : Nat
  repos : String → Option Repo
  workspace : Option Repo
  transactionId : String
  identities : String → String
  applied : List (String × ByteArray)

namespace TxWorld

def setFile (w : TxWorld) (file : TxFile) (data : Option ByteArray) : TxWorld :=
  { w with files := fun f => if f = file then data else w.files f }

def setRepo (w : TxWorld) (path : String) (repo : Repo) : TxWorld :=
  { w with repos := fun p => if p = path then some repo else w.repos p }

/-- The tree a scan is pointed at. -/
def repo (w : TxWorld) : Root → Option Repo
  | .source path => w.repos path
  | .workspace => w.workspace

@[simp] theorem setFile_files_self (w : TxWorld) (file : TxFile) (data : Option ByteArray) :
    (w.setFile file data).files file = data := if_pos rfl

theorem setFile_files_of_ne (w : TxWorld) {file file' : TxFile} (h : file' ≠ file)
    (data : Option ByteArray) : (w.setFile file data).files file' = w.files file' := if_neg h

@[simp] theorem setRepo_repos_self (w : TxWorld) (path : String) (repo : Repo) :
    (w.setRepo path repo).repos path = some repo := if_pos rfl

end TxWorld

def osError (message : String) : PyExc := ⟨"OSError", message, true⟩

/-- `_load_existing_key`, given what the file holds. -/
def decodeKey : Option ByteArray → Except PyExc ByteArray
  | some key => if key.size = 32 then .ok key
    else .error (receiptError "transaction receipt key is invalid")
  | none => .error (receiptError "could not open transaction receipt key")

section Answer

/-- An effect that reads: it raises where there is nothing to read. -/
def ask {α : Type} (w : TxWorld) (value : Option α) (exc : PyExc) : Except PyExc α × TxWorld :=
  match value with
  | some a => (.ok a, w)
  | none => (.error exc, w)

/-- An effect that writes, if it can. -/
def become (w : TxWorld) (next : Option TxWorld) (exc : PyExc) : Except PyExc Unit × TxWorld :=
  match next with
  | some w' => (.ok (), w')
  | none => (.error exc, w)

theorem ask_ok {α : Type} {w w' : TxWorld} {value : Option α} {exc : PyExc} {a : α} :
    ask w value exc = (.ok a, w') ↔ value = some a ∧ w' = w := by
  cases value with
  | none => simp [ask]
  | some b => simp [ask, eq_comm]

theorem become_ok {w w' : TxWorld} {next : Option TxWorld} {exc : PyExc} {u : Unit} :
    become w next exc = (.ok u, w') ↔ next = some w' := by
  cases next with
  | none => simp [become]
  | some b => simp [become]

namespace TxWorld

variable (w : TxWorld)

/-- The time the clock shows. -/
def now : Int := w.clock w.ticks

def tick : TxWorld := { w with ticks := w.ticks + 1 }

/-- The world with the lock taken. -/
def held (pid : Nat) : TxWorld := { w with holder := some pid }

def acquire (pid : Nat) : Option TxWorld :=
  if w.holder = none then some (w.held pid) else none

def release : TxWorld := { w with holder := none }

/-- The key there is, or the new one. -/
def theKey : ByteArray := w.key.getD w.freshKey

def keyed : TxWorld := { w with key := some w.theKey }

/-- `git add -N`. -/
def intend (paths : List String) : Option TxWorld :=
  w.workspace.map fun repo =>
    { w with workspace := some { repo with intents := repo.intents ++ paths } }

/-- `git apply`. -/
def land (git : Git) (source : String) (patch : ByteArray) : Option TxWorld := do
  let repo ← w.repos source
  let tree ← git.apply patch repo.tree
  return { w.setRepo source { repo with tree := tree } with
    applied := (source, patch) :: w.applied }

/-- `git apply --check`. -/
def refusal (git : Git) (source : String) (patch : ByteArray) : Option (Option String) :=
  (w.repos source).map fun repo =>
    if (git.apply patch repo.tree).isSome then none else some "patch does not apply"

def addWorktree (git : Git) (source commit : String) : Option TxWorld :=
  (w.repos source).map fun repo => { w with workspace := some (git.checkout repo commit) }

/-- A directory with nothing in it. -/
def emptyDirectory : TxWorld := { w with files := fun _ => none, workspace := none }

variable {w}

theorem acquire_eq {pid : Nat} {w' : TxWorld} (h : w.acquire pid = some w') :
    w.holder = none ∧ w' = w.held pid := by
  unfold acquire at h
  split at h
  · next hfree =>
      cases h
      exact ⟨hfree, rfl⟩
  · cases h

theorem acquire_files {pid : Nat} {w' : TxWorld} (h : w.acquire pid = some w') :
    w'.files = w.files := by
  rw [(acquire_eq h).2, held]

end TxWorld

variable (digests : Digests) (git : Git) (pid : Nat)

/-- What an effect answers, and the world it leaves. A lock that is taken is
answered with an exception here; an interleaving lets its caller wait. -/
def answer : (o : TxOp) → TxWorld → Except PyExc o.Res × TxWorld
  | .lock, w => become w (w.acquire pid) (osError "the lock is taken")
  | .unlock, w => (.ok (), w.release)
  | .readFile file, w => ask w (w.files file) (txError "could not open the file")
  | .writeFile file data, w => (.ok (), w.setFile file (some data))
  | .loadOrCreateKey, w => (decodeKey (some w.theKey), w.keyed)
  | .loadKey, w => (decodeKey w.key, w)
  | .timeNs, w => (.ok w.now, w.tick)
  | .workspacePath, w =>
    ask w (w.workspace.map fun _ => ()) (txError "transaction workspace is missing or invalid")
  | .workspaceExists, w => (.ok w.workspace.isSome, w)
  | .capture root, w => ask w ((w.repo root).map (capture digests)) (osError "no such directory")
  | .contentSnapshot root, w =>
    ask w ((w.repo root).map (contentSnapshot digests)) (osError "no such directory")
  | .revParseHead source, w =>
    ask w ((w.repos source).map Repo.head) (txError "git rev-parse failed")
  | .untracked, w => ask w (w.workspace.map git.untracked) (txError "git ls-files failed")
  | .addIntents paths, w => become w (w.intend paths) (txError "git add failed")
  | .diffNames, w => ask w (w.workspace.map git.diffNames) (txError "git diff failed")
  | .diff, w => ask w (w.workspace.map git.diff) (txError "git diff failed")
  | .applyCheck source patch, w => ask w (w.refusal git source patch) (txError "git apply failed")
  | .apply source patch, w => become w (w.land git source patch) (txError "patch does not apply")
  | .removeWorktree source, w => match w.repos source, w.workspace with
    | some _, some _ => (.ok none, { w with workspace := none })
    | _, _ => (.ok (some "not a working tree"), w)
  | .isDirectory source, w => (.ok (w.repos source).isSome, w)
  | .makeStateDirectory, w => (.ok (), w)
  | .topLevel source, w =>
    ask w ((w.repos source).map fun _ => git.topLevel source) (txError "not a git repository")
  | .status source, w => ask w ((w.repos source).map git.status) (txError "git status failed")
  | .projectIdentity source, w => (.ok (w.identities source), w)
  | .tokenHex, w => (.ok w.transactionId, w)
  | .makeDirectory, w => (.ok (), w.emptyDirectory)
  | .addWorktree source commit, w =>
    become w (w.addWorktree git source commit) (txError "git worktree add failed")
  | .removeDirectory, w => (.ok (), w.emptyDirectory)

/-- The runs of the store: any effect may answer, or raise and change nothing. -/
abbrev TxMayFail : TxWorld → TxEvent → TxWorld → Prop := Prog.MayFail (answer digests git pid)

end Answer

end MiniCodeAgent
