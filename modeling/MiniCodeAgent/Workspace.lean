import Mathlib
import MiniCodeAgent.Builtins

/-!
# Workspace snapshots

`workspace.py` as a function of the tree it scans. A tree is the dictionary of
its entries by relative path, `.git` aside; the few files under the Git
directory that can change what a command does stand beside it as the
repository's controls. A snapshot maps a path to a text that says what kind of
entry it is, its mode, and the digest of a regular file's content.

The directories in `SKIP_DIRS` and everything below them are in the tree and
not in the snapshot.
-/

namespace MiniCodeAgent

/-- One entry of a tree, as `lstat` and `open` show it. -/
inductive Entry where
  | file (mode : Nat) (content : ByteArray) (readable : Bool)
  | directory (mode : Nat)
  | symlink (mode : Nat) (target : Option String)
  | special (kind mode : Nat)
  | unreadable
  deriving DecidableEq

/-- A working tree with its Git state: the control files by their names in a
snapshot, the commit checked out, and the paths added with `git add -N`. -/
structure Repo where
  tree : Dict Entry
  controls : Dict Entry
  head : String
  intents : List String

def skipDirs : List String :=
  [".git", "__pycache__", ".mypy_cache", ".pytest_cache", ".ruff_cache"]

def Entry.isDirectory : Entry → Bool
  | .directory _ => true
  | _ => false

/-- `Path(path).parts` of a relative path. -/
def pathParts (path : String) : List String := (path.toList.splitOn '/').map String.ofList

/-- Whether a scan gets to the entry at the path. -/
def scanned (path : String) (node : Entry) : Bool :=
  let parts := pathParts path
  let directories := if node.isDirectory then parts else parts.dropLast
  directories.all fun part => part ∉ skipDirs

/-- `f"{mode:o}"`. -/
def octal (n : Nat) : String := String.ofList (Nat.toDigits 8 n)

/-- What a snapshot says of an entry. -/
def entryText (digests : Digests) : Entry → String
  | .file mode content true => "file:" ++ octal mode ++ ":" ++ digests.sha256 content
  | .file mode _ false => "file:" ++ octal mode ++ ":unreadable"
  | .directory mode => "directory:" ++ octal mode
  | .symlink mode target => "symlink:" ++ octal mode ++ ":" ++ target.getD "unreadable"
  | .special kind mode => "special:" ++ octal kind ++ ":" ++ octal mode
  | .unreadable => "unreadable"

def entryTexts (digests : Digests) (nodes : Dict Entry) : Dict String :=
  nodes.map fun entry => (entry.1, entryText digests entry.2)

/-- `WorkspaceSnapshot.capture(root).files`. -/
def capture (digests : Digests) (repo : Repo) : Dict String :=
  entryTexts digests (repo.tree.filter fun entry => scanned entry.1 entry.2) ++
    entryTexts digests repo.controls

/-- `_content_snapshot(root).files`: the `.git` file of a linked worktree is
left out. -/
def contentSnapshot (digests : Digests) (repo : Repo) : Dict String :=
  capture digests { repo with tree := repo.tree.filter fun entry => entry.1 ≠ ".git" }

section Fingerprint

variable (F : Type) [Json.PyFloat F]

/-- The files as the dictionary `json.dumps` is given. -/
def filesJson (files : Dict String) : Json F := .obj (files.map fun kv => (kv.1, .str kv.2))

/-- `WorkspaceSnapshot.fingerprint`. -/
def fingerprint (digests : Digests) (files : Dict String) : String :=
  digests.sha256 (Json.canonical (filesJson F files)).toUTF8

end Fingerprint

/-- `WorkspaceSnapshot.diff`. -/
structure SnapshotDiff where
  created : List String
  deleted : List String
  modified : List String
  deriving DecidableEq

def sortPaths (paths : List String) : List String := paths.insertionSort (· ≤ ·)

def snapshotDiff (before after : Dict String) : SnapshotDiff where
  created := sortPaths ((Dict.keys after).filter fun path => path ∉ Dict.keys before)
  deleted := sortPaths ((Dict.keys before).filter fun path => path ∉ Dict.keys after)
  modified := sortPaths ((Dict.keys before).filter fun path =>
    path ∈ Dict.keys after ∧ Dict.get? before path ≠ Dict.get? after path)

def SnapshotDiff.paths (d : SnapshotDiff) : List String := d.created ++ d.deleted ++ d.modified

end MiniCodeAgent
