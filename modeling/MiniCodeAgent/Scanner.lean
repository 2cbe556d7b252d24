import MiniCodeAgent.Workspace

/-!
# The two scanners

`workspace.py` once more, as the code walks a tree: one scanner opens each
directory below the one it has open, the other walks paths, and both keep what
they find in a cache, by the entry's metadata. A tree here is what is on disk,
with what may be read and searched of it, and it stays as it is while it is
scanned.

A scan is a program on the files found so far, the names seen and the cache, and
an exception leaves all three as far as it got.
-/

namespace MiniCodeAgent

namespace Scanner

/-! ## What is on disk -/

/-- Of an `os.stat_result`, all that a signature has but the entry's type. -/
structure Stat where
  mode : Nat
  dev : Nat
  ino : Nat
  size : Nat
  mtimeNs : Nat
  ctimeNs : Nat
  deriving DecidableEq

/-- What an entry is that is no file, no link and no directory. -/
inductive Format where
  | fifo
  | characterDevice
  | blockDevice
  | socket
  deriving DecidableEq

/-- `stat.S_IFMT(metadata.st_mode)`. -/
def Format.bits : Format → Nat
  | .fifo => 0o010000
  | .characterDevice => 0o020000
  | .blockDevice => 0o060000
  | .socket => 0o140000

/-- An entry with its metadata, and what can be had of it: a file can be opened and
read or not, a link be read, a directory be listed and searched. -/
inductive Node where
  | file (stat : Stat) (content : ByteArray) (readable : Bool)
  | symlink (stat : Stat) (target : Option String)
  | special (format : Format) (stat : Stat)
  | directory (stat : Stat) (readable searchable : Bool) (entries : List (String × Node))

/-- `_metadata_signature`: the type of the entry, and the rest of its metadata. -/
abbrev Signature := Nat × Stat

def Node.signature : Node → Signature
  | .file stat _ _ => (0o100000, stat)
  | .symlink stat _ => (0o120000, stat)
  | .special format stat => (format.bits, stat)
  | .directory stat _ _ _ => (0o040000, stat)

/-- What a snapshot tells of the entry. -/
def Node.entry : Node → Entry
  | .file stat content readable => .file stat.mode content readable
  | .symlink stat target => .symlink stat.mode target
  | .special format stat => .special format.bits stat.mode
  | .directory stat _ _ _ => .directory stat.mode

structure Directory where
  stat : Stat
  readable : Bool
  searchable : Bool
  /-- By name, in order. -/
  entries : List (String × Node)

def Directory.node (directory : Directory) : Node :=
  .directory directory.stat directory.readable directory.searchable directory.entries

/-- A name that an entry of a directory can have. -/
def FileName (name : String) : Prop :=
  name ≠ "" ∧ name ≠ "." ∧ name ≠ ".." ∧ '/' ∉ name.toList

instance decidableFileName (name : String) : Decidable (FileName name) :=
  inferInstanceAs (Decidable (_ ∧ _ ∧ _ ∧ _))

/-- Names as a file system has them, each once in a directory. -/
inductive Node.Named : Node → Prop
  | file (stat content readable) : Named (.file stat content readable)
  | symlink (stat target) : Named (.symlink stat target)
  | special (format stat) : Named (.special format stat)
  | directory (stat readable searchable) {entries : List (String × Node)}
      (once : (Dict.keys entries).Nodup) (name : ∀ entry ∈ entries, FileName entry.1)
      (below : ∀ entry ∈ entries, Named entry.2) :
      Named (.directory stat readable searchable entries)

/-- A working tree, and where a regular file `.git` leads: to the Git directories of
the worktree and of the repository, if it leads anywhere. -/
structure Checkout where
  root : Directory
  linked : Except PyExc (Directory × Directory)
  named : root.node.Named
  linkedNamed : ∀ directories, linked = .ok directories →
    directories.1.node.Named ∧ directories.2.node.Named

def permissionDenied : PyExc := ⟨"PermissionError", "Permission denied", true⟩
def securityError (message : String) : PyExc := ⟨"SecurityError", message, true⟩

/-! ## The cache -/

abbrev Cache := Dict (Signature × String)

structure ScanState where
  files : Dict String
  live : List String
  cache : Cache

abbrev Scan (α : Type) := ExceptT PyExc (StateM ScanState) α

/-- The value a cache has for an entry whose metadata is unchanged. -/
def cached (cache : Cache) (relative : String) (signature : Signature) : Option String :=
  match Dict.get? cache relative with
  | some (signature', value) => if signature' = signature then some value else none
  | none => none

/-- An entry whose metadata cannot be had. -/
def markUnreadable (relative : String) : Scan Unit :=
  modify fun st =>
    { st with live := st.live ++ [relative], files := Dict.set st.files relative "unreadable" }

variable (digests : Digests)

/-- `_store_metadata_entry`, `_store_regular_file`, `_store_unreadable_regular_file` and
`_hash_entry`: the cached value, or a new one, which is cached. -/
def remember (relative : String) (node : Node) : Scan Unit :=
  modify fun st =>
    match cached st.cache relative node.signature with
    | some value =>
      { st with live := st.live ++ [relative], files := Dict.set st.files relative value }
    | none =>
      { live := st.live ++ [relative]
        files := Dict.set st.files relative (entryText digests node.entry)
        cache := Dict.set st.cache relative (node.signature, entryText digests node.entry) }

/-- `_relative_name`. -/
def relativeName (parts : List String) : String := String.intercalate "/" parts

/-- An entry that is not excluded is stored, or marked where it cannot be looked at. -/
def storeEntry (excluded : String → Bool) (searchable : Bool) (relative : String) (node : Node) :
    Scan Unit :=
  if excluded relative then pure ()
  else if searchable then remember digests relative node
  else markUnreadable relative

/-! ## Relative to open directories -/

/-- What a scan of a directory is asked for. -/
structure Pass where
  excluded : String → Bool
  skip : List String
  recurse : Bool

mutual

/-- `_capture_named_entry`, in a directory that can be searched or not. -/
def captureNamed (pass : Pass) (searchable : Bool) (parents : List String) (name : String) :
    Node → Scan Unit
  | .directory stat readable inside entries =>
    if searchable ∧ name ∈ pass.skip then pure ()
    else do
      storeEntry digests pass.excluded searchable (relativeName (parents ++ [name]))
        (.directory stat readable inside entries)
      if searchable ∧ readable ∧ pass.recurse then
        scanEntries pass inside (parents ++ [name]) entries
      else pure ()
  | .file stat content readable =>
    storeEntry digests pass.excluded searchable (relativeName (parents ++ [name]))
      (.file stat content readable)
  | .symlink stat target =>
    storeEntry digests pass.excluded searchable (relativeName (parents ++ [name]))
      (.symlink stat target)
  | .special format stat =>
    storeEntry digests pass.excluded searchable (relativeName (parents ++ [name]))
      (.special format stat)

/-- `_scan_directory`, once the directory is open. -/
def scanEntries (pass : Pass) (searchable : Bool) (parents : List String) :
    List (String × Node) → Scan Unit
  | [] => pure ()
  | (name, node) :: rest => do
    captureNamed pass searchable parents name node
    scanEntries pass searchable parents rest

end

/-- `os.open` of a directory. -/
def openDirectory (directory : Directory) : Scan Unit :=
  if directory.readable then pure () else throw permissionDenied

/-- `os.stat` of an entry, which there may be none of. -/
def statOptional (directory : Directory) (name : String) : Except PyExc (Option Node) :=
  if directory.searchable then .ok (Dict.get? directory.entries name) else .error permissionDenied

/-- `_git_control_directories`. -/
def gitControlDirectories (checkout : Checkout) : Except PyExc (Option (Directory × Directory)) := do
  let entry ← statOptional checkout.root ".git"
  match entry with
  | some (.directory stat readable searchable entries) =>
    return some (⟨stat, readable, searchable, entries⟩, ⟨stat, readable, searchable, entries⟩)
  | some (.file _ _ _) =>
    let directories ← checkout.linked
    return some directories
  | _ => return none

def nothingExcluded (_ : String) : Bool := false

/-- A value or an exception that leaves the state alone. -/
def liftExcept {α : Type} (x : Except PyExc α) : Scan α := ExceptT.mk (pure x)

/-- `_capture_optional_git_entry`. -/
def captureOptionalGitEntry (directory : Directory) (name : String) (parents : List String) :
    Scan Unit := do
  let entry ← liftExcept (statOptional directory name)
  match entry with
  | some node => captureNamed digests ⟨nothingExcluded, [], false⟩ true parents name node
  | none => pure ()

/-- `_capture_hooks`. -/
def captureHooks (common : Directory) : Scan Unit := do
  let entry ← liftExcept (statOptional common "hooks")
  match entry with
  | some (.symlink _ _) => throw (securityError ".git/hooks must not be a symbolic link")
  | some (.directory stat readable searchable entries) => do
    openDirectory ⟨stat, readable, searchable, entries⟩
    scanEntries digests ⟨nothingExcluded, [], true⟩ searchable [".git", "hooks"] entries
  | _ => pure ()

/-- `_capture_git_attributes`. -/
def captureGitAttributes (common : Directory) : Scan Unit := do
  let entry ← liftExcept (statOptional common "info")
  match entry with
  | some (.symlink _ _) => throw (securityError ".git/info must not be a symbolic link")
  | some (.directory stat readable searchable entries) => do
    openDirectory ⟨stat, readable, searchable, entries⟩
    captureOptionalGitEntry digests ⟨stat, readable, searchable, entries⟩ "attributes"
      [".git", "info"]
  | _ => pure ()

/-- `_capture_git_controls`. -/
def captureGitControls (checkout : Checkout) : Scan Unit := do
  let directories ← liftExcept (gitControlDirectories checkout)
  match directories with
  | none => pure ()
  | some (worktree, common) => do
    openDirectory worktree
    openDirectory common
    captureOptionalGitEntry digests common "config" [".git"]
    captureOptionalGitEntry digests worktree "config.worktree" [".git"]
    captureHooks digests common
    captureGitAttributes digests common

/-- `_capture_descriptor_relative`. -/
def captureDescriptorRelative (excluded : String → Bool) (checkout : Checkout) : Scan Unit := do
  openDirectory checkout.root
  scanEntries digests ⟨excluded, skipDirs, true⟩ checkout.root.searchable [] checkout.root.entries
  captureGitControls digests checkout

/-! ## By paths -/

/-- An entry that a walk has come by, and whether its path can be looked at, which
takes that every directory above it can be searched. -/
structure Found where
  parts : List String
  node : Node
  reached : Bool

def Found.name (found : Found) : String := found.parts.getLast?.getD ""

/-- What `os.scandir` lists, and nothing where it fails. -/
def Found.listing (found : Found) : List Found :=
  match found.node with
  | .directory _ readable searchable entries =>
    if found.reached ∧ readable then
      entries.map fun entry => ⟨found.parts ++ [entry.1], entry.2, searchable⟩
    else []
  | _ => []

/-- A directory that a walk goes into. -/
def Found.descends (skip : List String) (found : Found) : Bool :=
  match found.node with
  | .directory _ _ _ _ => found.name ∉ skip
  | _ => false

/-- An entry that a walk yields: a link, a file, or a directory that it goes into. -/
def Found.yields (skip : List String) (found : Found) : Bool :=
  match found.node with
  | .directory _ _ _ _ => found.name ∉ skip
  | .special _ _ => false
  | _ => true

mutual

/-- The number of entries, with the node itself. -/
def Node.weight : Node → Nat
  | .directory _ _ _ entries => entriesWeight entries + 1
  | .file _ _ _ => 1
  | .symlink _ _ => 1
  | .special _ _ => 1

def entriesWeight : List (String × Node) → Nat
  | [] => 0
  | (_, node) :: rest => node.weight + entriesWeight rest

end

def totalSize (stack : List Found) : Nat := (stack.map fun found => found.node.weight).sum

theorem totalSize_cons (found : Found) (stack : List Found) :
    totalSize (found :: stack) = found.node.weight + totalSize stack := by
  rw [totalSize, List.map_cons, List.sum_cons, totalSize]

theorem totalSize_append (stack stack' : List Found) :
    totalSize (stack ++ stack') = totalSize stack + totalSize stack' := by
  rw [totalSize, List.map_append, List.sum_append, totalSize, totalSize]

theorem totalSize_filter_le (p : Found → Bool) (stack : List Found) :
    totalSize (stack.filter p) ≤ totalSize stack := by
  induction stack with
  | nil => exact Nat.le_refl _
  | cons found stack ih =>
      rw [List.filter_cons]
      split
      · rw [totalSize_cons, totalSize_cons]
        omega
      · rw [totalSize_cons]
        omega

theorem totalSize_entries (parts : List String) (reached : Bool)
    (entries : List (String × Node)) :
    totalSize (entries.map fun entry => ⟨parts ++ [entry.1], entry.2, reached⟩) =
      entriesWeight entries := by
  induction entries with
  | nil => rfl
  | cons entry rest ih => rw [List.map_cons, totalSize_cons, ih, entriesWeight]

/-- What a directory lists is smaller than the directory. -/
theorem totalSize_listing_lt (found : Found) : totalSize found.listing < found.node.weight := by
  obtain ⟨parts, node, reached⟩ := found
  cases node with
  | directory stat readable searchable entries =>
      simp only [Found.listing, Node.weight]
      split
      · rw [totalSize_entries]
        omega
      · simp [totalSize]
  | file => simp [Found.listing, totalSize, Node.weight]
  | symlink => simp [Found.listing, totalSize, Node.weight]
  | special => simp [Found.listing, totalSize, Node.weight]

/-- The loop of `SafeWorkspace.iter_entries`, on its stack of directories. -/
def iterEntries (skip : List String) : List Found → List Found
  | [] => []
  | directory :: stack =>
    directory.listing.filter (Found.yields skip) ++
      iterEntries skip (directory.listing.filter (Found.descends skip) ++ stack)
termination_by stack => totalSize stack
decreasing_by
  rw [totalSize_append, totalSize_cons]
  have hfilter := totalSize_filter_le (Found.descends skip) directory.listing
  have hlisting := totalSize_listing_lt directory
  omega

/-- `workspace.iter_entries(directory)` for a directory whose own path can be looked at. -/
def walk (skip : List String) (parts : List String) (directory : Directory) : List Found :=
  iterEntries skip [⟨parts, directory.node, true⟩]

/-- A file in directories that can be opened on the way to it or not. -/
def Node.within (openable : Bool) : Node → Node
  | .file stat content readable => .file stat content (readable && openable)
  | node => node

/-- A control at its path, if its path can be looked at. -/
def controlAt (directory : Directory) (openable : Bool) (name relative : String) :
    List (String × Node) :=
  match statOptional directory name with
  | .ok (some node) => [(relative, node.within openable)]
  | _ => []

/-- `hooks.lstat()` and `info.lstat()`: a link is refused, and only a directory counts. -/
def controlDirectory (common : Directory) (name : String) : Except PyExc (Option Directory) := do
  let entry ← statOptional common name
  match entry with
  | some (.symlink _ _) => throw (securityError (".git/" ++ name ++ " must not be a symbolic link"))
  | some (.directory stat readable searchable entries) =>
    return some ⟨stat, readable, searchable, entries⟩
  | _ => return none

/-- The hooks that a walk yields and whose paths can be looked at. -/
def hookControls (openable : Bool) (hooks : Directory) : List (String × Node) :=
  ((walk [] [".git", "hooks"] hooks).filter Found.reached).map fun found =>
    (relativeName found.parts, found.node.within openable)

/-- The paths of the Git controls. A file is opened directory by directory if
`relativeIo`, and then each of these must be readable. -/
def gitControls (relativeIo : Bool) (checkout : Checkout) : Except PyExc (List (String × Node)) := do
  let directories ← gitControlDirectories checkout
  match directories with
  | none => return []
  | some (worktree, common) => do
    let hooks ← controlDirectory common "hooks"
    let info ← controlDirectory common "info"
    let openable (directory : Directory) : Bool := !relativeIo || directory.readable
    return controlAt common (openable common) "config" ".git/config" ++
      controlAt worktree (openable worktree) "config.worktree" ".git/config.worktree" ++
      (match hooks with
        | some hooks => hookControls (openable common) hooks
        | none => []) ++
      (match info with
        | some info =>
          controlAt info (openable common && openable info) "attributes" ".git/info/attributes"
        | none => [])

/-- `_capture_fallback`. -/
def captureFallback (relativeIo : Bool) (excluded : String → Bool) (checkout : Checkout) :
    Scan Unit := do
  (walk skipDirs [] checkout.root).forM fun found =>
    storeEntry digests excluded found.reached (relativeName found.parts) found.node
  let controls ← liftExcept (gitControls relativeIo checkout)
  controls.forM fun control => remember digests control.1 control.2

/-! ## A capture -/

/-- `WorkspaceFingerprinter.capture` with the one scanner or the other: what it answers,
and the cache it leaves, without what it has not seen. -/
def capture (scanner : Scan Unit) (cache : Cache) : Except PyExc (Dict String) × Cache :=
  match scanner.run ⟨[], [], cache⟩ with
  | (.ok (), st) => (.ok st.files, st.cache.filter fun entry => entry.1 ∈ st.live)
  | (.error exc, st) => (.error exc, st.cache)

end Scanner

end MiniCodeAgent
