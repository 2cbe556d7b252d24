import MiniCodeAgent.Scanner
import MiniCodeAgent.TransactionAdapter

/-!
# Backups of a memory directory

`memory_backup.py`: the regular files of a memory directory, and a manifest of
them, as a ZIP archive, and back. An archive is what `zipfile` shows of it: its entries
in order, each with a name, a declared size, and the content that reading it gives, if
it can be read. A restored directory is built under a temporary name and
is the regular files in it by their paths, whose directories stand with them.

The two verifications are read-only and are asked of a memory directory and of a
restored one.
-/

namespace MiniCodeAgent

namespace MemoryBackup

open Scanner TransactionAdapter

/-! ## Archives -/

structure ZipEntry where
  name : String
  fileSize : Nat
  content : Except PyExc ByteArray

/-- `archive.infolist()`. -/
abbrev Archive := List ZipEntry

def namelist (archive : Archive) : List String := archive.map ZipEntry.name

/-- `archive.read(name)`: of two entries with one name the later counts. -/
def readEntry (archive : Archive) (name : String) : Except PyExc ByteArray :=
  match archive.reverse.find? fun entry => entry.name = name with
  | some entry => entry.content
  | none => .error (keyError name)

/-- What is at the path of an archive: a regular file of some size, which `ZipFile` can make
something of or not, or a link or whatever else is no regular file. -/
inductive ArchiveFile where
  | regular (size : Nat) (archive : Except PyExc Archive)
  | other

/-! ## Restored files -/

/-- A restored directory, as its files by the parts of their paths. -/
abbrev Tree := List (List String × ByteArray)

def Tree.isFile (tree : Tree) (parts : List String) : Prop := ∃ file ∈ tree, file.1 = parts

instance decidableIsFile (tree : Tree) (parts : List String) : Decidable (tree.isFile parts) :=
  inferInstanceAs (Decidable (∃ file ∈ tree, file.1 = parts))

/-- The directory itself, or one that stands for a file below it. -/
def Tree.isDirectory (tree : Tree) (parts : List String) : Prop :=
  parts = [] ∨ ∃ file ∈ tree, parts <+: file.1.dropLast

instance decidableIsDirectory (tree : Tree) (parts : List String) :
    Decidable (tree.isDirectory parts) :=
  inferInstanceAs (Decidable (parts = [] ∨ ∃ file ∈ tree, parts <+: file.1.dropLast))

def fileExistsError (message : String) : PyExc := ⟨"FileExistsError", message, true⟩
def runtimeError (message : String) : PyExc := ⟨"RuntimeError", message, true⟩

/-- `target.parent.mkdir(parents=True, exist_ok=True)`: no file stands in the way. -/
def makeParents (tree : Tree) (parts : List String) : Except PyExc Unit := do
  raiseIf (∃ file ∈ tree, file.1 <+: parts.dropLast ∧ file.1 ≠ parts.dropLast)
    ⟨"NotADirectoryError", "Not a directory", true⟩
  raiseIf (tree.isFile parts.dropLast) (fileExistsError "File exists")

/-- `_write_private_file`, which opens with `O_EXCL`. -/
def writePrivateFile (tree : Tree) (parts : List String) (content : ByteArray) :
    Except PyExc Tree := do
  raiseIf (tree.isFile parts ∨ tree.isDirectory parts) (fileExistsError "File exists")
  return tree ++ [(parts, content)]

/-- `_safe_relative`. -/
def safeRelative (value : String) : Except PyExc PyPath := do
  let path := PyPath.ofString value
  raiseIf (value = "" ∨ path.isAbsolute = true ∨ ".." ∈ path.parts ∨ "" ∈ path.parts)
    (valueError "memory backup contains an unsafe path")
  return path

/-! ## Restoring -/

def backupSchemaVersion : Int := 1

def maxBackupBytes : Nat := maxStateFileBytes * 3

/-- What a verification reports. -/
structure Verification where
  ok : Bool
  errors : List String

/-- The functions that a backup rests on. `loads` is `json.loads` of bytes, whose encoding
it detects, so that a JSON object in UTF-8 is read as its text is. -/
structure BackupEnv (F : Type) [Json.PyFloat F] where
  digests : Digests
  repr : Json F → String
  loads : ByteArray → Except PyExc (Json F)
  loads_utf8 : ∀ {text : String} {value : Json F}, text.toList.head? = some '{' →
    Json.loads text = some value → loads text.toUTF8 = .ok value
  /-- `datetime.now(timezone.utc).isoformat()`. -/
  now : String
  storeVerification : Directory → Except PyExc Verification
  conversationVerification : Directory → Except PyExc Verification
  restoredStoreVerification : Tree → Except PyExc Verification
  restoredConversationVerification : Tree → Except PyExc Verification
  /-- The size of the file that an archive makes. -/
  packedSize : Archive → Nat

section Restore

variable {F : Type} [Json.PyFloat F] (env : BackupEnv F)

/-- `json.loads(archive.read("manifest.json"))`, with what is caught of it. -/
def readManifest (archive : Archive) : Except PyExc (Json F) :=
  match readEntry archive "manifest.json" >>= env.loads with
  | .ok manifest => .ok manifest
  | .error exc =>
    if exc.type = "KeyError" ∨ exc.type = "JSONDecodeError" then
      .error (valueError "memory backup manifest is missing or invalid")
    else .error exc

/-- One round of the loop over the files of the manifest: the name that is now expected
in the archive, and the tree with the file. -/
def restoreFile (archive : Archive) (tree : Tree) (item : Json F) :
    Except PyExc (String × Tree) := do
  match item with
  | .obj fields =>
    let relative ← safeRelative (pyStr env.repr ((Dict.get? fields "path").getD (.str "")))
    let archiveName := "memory/" ++ relative.asPosix
    let content ← readEntry archive archiveName
    raiseIf (Json.pyEq (.int content.size) ((Dict.get? fields "bytes").getD .null) = false ∨
        Json.pyEq (.str (env.digests.sha256 content))
          ((Dict.get? fields "sha256").getD .null) = false)
      (valueError ("memory backup digest mismatch: " ++ relative.asPosix))
    makeParents tree relative.parts
    let tree ← writePrivateFile tree relative.parts content
    return (archiveName, tree)
  | _ => throw (valueError "memory backup file entry is invalid")

def restoreFiles (archive : Archive) : Tree → List (Json F) → Except PyExc (List String × Tree)
  | tree, [] => .ok ([], tree)
  | tree, item :: rest => do
    let (name, tree) ← restoreFile env archive tree item
    let (names, tree) ← restoreFiles archive tree rest
    return (name :: names, tree)

/-- `manifest["files"]`, once the manifest's version has been looked at. -/
def manifestFiles (manifest : Json F) : Except PyExc (List (Json F)) := do
  let version ← pyGet manifest "schema_version" .null
  raiseIf (Json.pyEq version (.int backupSchemaVersion) = false)
    (valueError "unsupported memory backup schema")
  let files ← pyGet manifest "files" .null
  match files with
  | .arr items => return items
  | _ => throw (valueError "memory backup file manifest is invalid")

/-- What is done with the archive once it is open. -/
def unpack (archive : Archive) : Except PyExc Tree := do
  raiseIf (¬ (namelist archive).Nodup) (valueError "memory backup contains duplicate entries")
  raiseIf (maxBackupBytes < (archive.map ZipEntry.fileSize).sum)
    (valueError "memory backup expands beyond the size limit")
  let manifest ← readManifest env archive
  let items ← manifestFiles manifest
  let (names, tree) ← restoreFiles env archive [] items
  raiseIf (¬ ((∀ name ∈ namelist archive, name ∈ "manifest.json" :: names) ∧
      ∀ name ∈ "manifest.json" :: names, name ∈ namelist archive))
    (valueError "memory backup contains unmanifested entries")
  return tree

/-- Everything before `os.replace`. -/
def verifiedTree (file : Option ArchiveFile) : Except PyExc Tree := do
  match file with
  | none => throw ⟨"FileNotFoundError", "No such file or directory", true⟩
  | some .other => throw (runtimeError "memory backup must be a regular non-symlink file")
  | some (.regular size archive) =>
    raiseIf (maxBackupBytes < size) (valueError "memory backup exceeds the size limit")
    let archive ← archive
    let tree ← unpack env archive
    let store ← env.restoredStoreVerification tree
    let conversation ← env.restoredConversationVerification tree
    raiseIf (store.ok = false ∨ conversation.ok = false)
      (valueError ("restored memory failed verification: " ++
        "; ".intercalate (store.errors ++ conversation.errors)))
    return tree

/-- `restore_memory_backup`: what it answers and what is at the path of the memory directory
afterwards, where `os.replace` is the only step that changes that. -/
def restoreMemoryBackup (file : Option ArchiveFile) (memory : Option Tree) :
    Except PyExc Unit × Option Tree :=
  match memory with
  | some tree =>
    (.error (fileExistsError "memory state already exists; purge it explicitly before restore"),
      some tree)
  | none =>
    match verifiedTree env file with
    | .ok tree => (.ok (), some tree)
    | .error exc => (.error exc, none)

end Restore

/-! ## Exporting -/

def excludedNames : List String :=
  ["memory.lock", "conversation-events.lock", "embedding-cache.sqlite3",
    "embedding-cache.sqlite3-shm", "embedding-cache.sqlite3-wal"]

/-- A memory directory, with the names that a file system lets entries have. -/
structure MemoryDirectory extends Directory where
  named : toDirectory.node.Named

mutual

/-- What `rglob` comes by below an entry that can be looked at or not: nothing where a
directory cannot be listed. -/
def rglobNode (parts : List String) (reached : Bool) : Scanner.Node → List Found
  | .directory _ readable searchable entries =>
    if reached ∧ readable then rglobEntries parts searchable entries else []
  | .file _ _ _ => []
  | .symlink _ _ => []
  | .special _ _ => []

def rglobEntries (parents : List String) (searchable : Bool) :
    List (String × Scanner.Node) → List Found
  | [] => []
  | (name, node) :: rest =>
    ⟨parents ++ [name], node, searchable⟩ ::
      (rglobNode (parents ++ [name]) searchable node ++ rglobEntries parents searchable rest)

end

/-- `sorted(memory_directory.rglob("*"))`. -/
def sortedRglob (memory : Directory) : List Found :=
  (rglobNode [] true memory.node).insertionSort fun a b => a.parts ≤ b.parts

/-- One round of the loop over the paths: the file to back up, if it is one. -/
def selectFile (found : Found) : Except PyExc (Option (List String × ByteArray)) := do
  if found.name ∈ excludedNames then return none
  else do
    raiseIf (found.reached = false) permissionDenied
    match found.node with
    | .symlink _ _ =>
      throw (runtimeError ("memory backup refuses symlink: " ++ posixText found.parts))
    | .file _ content readable => do
      raiseIf (readable = false) permissionDenied
      return some (found.parts, content)
    | _ => return none

def selectFiles : List Found → Except PyExc Tree
  | [] => .ok []
  | found :: rest => do
    let file ← selectFile found
    let files ← selectFiles rest
    return file.toList ++ files

section Export

variable {F : Type} [Json.PyFloat F] (env : BackupEnv F)

def manifestFile (file : List String × ByteArray) : Json F :=
  .obj [("path", .str (posixText file.1)), ("bytes", .int file.2.size),
    ("sha256", .str (env.digests.sha256 file.2))]

def backupManifest (selected : Tree) : Json F :=
  .obj [("schema_version", .int backupSchemaVersion), ("created_at", .str env.now),
    ("plaintext_sensitive", .bool true), ("files", .arr (selected.map (manifestFile env)))]

/-- `archive.writestr(name, content)`. -/
def writestr (name : String) (content : ByteArray) : ZipEntry := ⟨name, content.size, .ok content⟩

def packed (selected : Tree) : Archive :=
  writestr "manifest.json" (Json.dumps .indent2 (backupManifest env selected).sortKeys).toUTF8 ::
    selected.map fun file => writestr ("memory/" ++ posixText file.1) file.2

/-- What is checked before a file is made at the destination. -/
def verifiedSource (memory : Directory) : Except PyExc Unit := do
  let store ← env.storeVerification memory
  let conversation ← env.conversationVerification memory
  raiseIf (store.ok = false ∨ conversation.ok = false)
    (runtimeError ("refusing to back up invalid memory: " ++
      "; ".intercalate (store.errors ++ conversation.errors)))

/-- The archive, as far as it is written and can be restored elsewhere. -/
def checkedArchive (memory : Directory) : Except PyExc ArchiveFile := do
  let selected ← selectFiles (sortedRglob memory)
  let file := ArchiveFile.regular (env.packedSize (packed env selected)) (.ok (packed env selected))
  raiseIf (maxBackupBytes < env.packedSize (packed env selected))
    (valueError "memory backup exceeds the size limit")
  (restoreMemoryBackup env (some file) none).1
  return file

/-- `export_memory_backup`: what it answers and what is at the destination afterwards. -/
def exportMemoryBackup (memory : Directory) (destination : Option ArchiveFile) :
    Except PyExc Unit × Option ArchiveFile :=
  match verifiedSource env memory with
  | .error exc => (.error exc, destination)
  | .ok _ =>
    match destination with
    | some taken => (.error (fileExistsError "backup already exists"), some taken)
    | none =>
      match checkedArchive env memory with
      | .ok file => (.ok (), some file)
      | .error exc => (.error exc, none)

end Export

end MemoryBackup

end MiniCodeAgent
