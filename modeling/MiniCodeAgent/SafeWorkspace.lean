import MiniCodeAgent.Scanner
import MiniCodeAgent.TransactionAdapter

/-!
# The files of a workspace

`SafeWorkspace` of `security.py`, on the tree of what is below the workspace's directory.
A path is taken apart and put together lexically, then looked at part by part for symbolic
links, and what is read, written and removed is always a regular file. Directories are
opened one below the other, which is how POSIX systems are used; a file is replaced in one
step, and the temporary file that makes it so has a name nothing else has.

A tree is well formed as long as it is one: what has an entry stands in a directory.
-/

namespace MiniCodeAgent

open Scanner TransactionAdapter

inductive FileNode where
  | file (mode : Nat) (content : ByteArray)
  | directory
  | symlink (target : String)
  | special
  deriving DecidableEq

/-- A name that a system call takes. -/
def EntryName (name : String) : Prop := FileName name ∧ '\x00' ∉ name.toList

instance decidableEntryName (name : String) : Decidable (EntryName name) :=
  inferInstanceAs (Decidable (_ ∧ _))

/-- What stands below a workspace, by the parts of its path. -/
structure FileTree where
  node : List String → Option FileNode
  root : node [] = some .directory
  parents : ∀ parts name, node (parts ++ [name]) ≠ none → node parts = some .directory
  named : ∀ parts, node parts ≠ none → ∀ name ∈ parts, EntryName name

def fileNotFoundError (message : String) : PyExc := ⟨"FileNotFoundError", message, true⟩
def notADirectoryError (message : String) : PyExc := ⟨"NotADirectoryError", message, true⟩
def isADirectoryError (message : String) : PyExc := ⟨"IsADirectoryError", message, true⟩

/-- `str(path)` of a path below the workspace. -/
def pathText (cwd : ResolvedPath) (parts : List String) : String :=
  cwd.root ++ String.intercalate "/" (cwd.parts ++ parts)

namespace FileTree

variable (t : FileTree) (cwd : ResolvedPath)

/-- The regular file at a path: its mode and its content. -/
def file (parts : List String) : Option (Nat × ByteArray) :=
  match t.node parts with
  | some (.file mode content) => some (mode, content)
  | _ => none

/-- A part of the path above its end is no directory. -/
def obstructed (parts : List String) : Bool :=
  parts.inits.any fun above =>
    above ≠ parts && t.node above ≠ none && t.node above ≠ some .directory

/-- `lstat`; nothing is answered where it raises `FileNotFoundError`. -/
def lstat (parts : List String) : Except PyExc (Option FileNode) :=
  if parts.any fun name => '\x00' ∈ name.toList then
    .error (valueError "lstat: embedded null character in path")
  else if t.obstructed parts then .error (notADirectoryError (pathText cwd parts))
  else .ok (t.node parts)

/-- One turn of the loop over a path's parts. -/
def checkPart (text : String) (below : List String) : Except PyExc Unit := do
  match ← t.lstat cwd below with
  | some (.symlink _) =>
    throw (securityError ("Symbolic links are not allowed in workspace paths: " ++ text))
  | _ => return ()

/-- No part of the path is a symbolic link. -/
def checkLinks (text : String) (parts : List String) : Except PyExc Unit :=
  parts.inits.tail.forM (t.checkPart cwd text)

/-- `resolve`. -/
def resolve (text : String) : Except PyExc (List String) := do
  let path := PyPath.ofString text
  let candidate : PyPath :=
    if path.isAbsolute then path else { cwd.toPyPath with parts := cwd.parts ++ path.parts }
  match ({ candidate with parts := normalParts candidate.parts } : PyPath).relativeTo
      cwd.toPyPath with
  | some relative =>
    t.checkLinks cwd text relative.parts
    return relative.parts
  | none => throw (securityError ("Path escapes workspace: " ++ text))

/-- `_open_file_fd`, and the regular file that has to be behind it. -/
def openFile (parts : List String) : Except PyExc ByteArray :=
  if parts = [] then .error (isADirectoryError (pathText cwd parts))
  else if t.obstructed parts then .error (notADirectoryError (pathText cwd parts))
  else match t.node parts with
    | none => .error (fileNotFoundError (pathText cwd parts))
    | some (.file _ content) => .ok content
    | some _ => .error (securityError ("Not a regular file: " ++ pathText cwd parts))

/-- `read_bytes` of a path that was resolved, which is resolved once more. -/
def readBytes (parts : List String) : Except PyExc ByteArray := do
  t.checkLinks cwd (pathText cwd parts) parts
  t.openFile cwd parts

/-- `read_text`. What is decoded here is the whole file, also where no more than its first
`maxChars` characters are asked for. -/
def readText (parts : List String) (maxChars : Nat) : Except PyExc String := do
  let text ← decodeUtf8 (← t.readBytes cwd parts)
  return String.ofList (text.toList.take maxChars)

/-- A regular file may be put at the path, and the directories it needs with it. -/
def Writable (parts : List String) : Prop :=
  parts ≠ [] ∧ (∀ name ∈ parts, EntryName name) ∧ t.obstructed parts = false ∧
    (t.node parts = none ∨ t.file parts ≠ none)

instance (parts : List String) : Decidable (t.Writable parts) :=
  inferInstanceAs (Decidable (_ ∧ _ ∧ _ ∧ _))

variable {t}

theorem node_of_file {parts : List String} {mode : Nat} {content : ByteArray} :
    t.file parts = some (mode, content) ↔ t.node parts = some (.file mode content) := by
  unfold file
  split
  · next mode' content' h => simp [h]
  · next hnot =>
      exact ⟨fun h => absurd h (by simp), fun h => absurd h (hnot mode content)⟩

theorem not_obstructed {parts : List String} :
    t.obstructed parts = false ↔ ∀ above, above <+: parts → above ≠ parts →
      t.node above = none ∨ t.node above = some .directory := by
  simp only [obstructed, List.any_eq_false, List.mem_inits, Bool.and_eq_true, decide_eq_true_eq,
    ne_eq]
  refine ⟨fun h above hstarts hne => ?_, fun h above hstarts hnot => ?_⟩
  · by_contra hboth
    rw [not_or] at hboth
    exact h above hstarts ⟨⟨hne, hboth.1⟩, hboth.2⟩
  · exact (h above hstarts hnot.1.1).elim hnot.1.2 hnot.2

theorem file_ne_none {parts : List String} :
    t.file parts ≠ none ↔ ∃ mode content, t.node parts = some (.file mode content) := by
  constructor
  · intro h
    obtain ⟨⟨mode, content⟩, hfile⟩ := Option.ne_none_iff_exists'.1 h
    exact ⟨mode, content, node_of_file.1 hfile⟩
  · intro h
    obtain ⟨mode, content, hnode⟩ := h
    rw [node_of_file.2 hnode]
    exact Option.some_ne_none _

theorem directory_above {parts above : List String} (h : t.node parts ≠ none)
    (hstarts : above <+: parts) (hne : above ≠ parts) : t.node above = some .directory := by
  obtain ⟨rest, rfl⟩ := hstarts
  induction rest using List.reverseRecOn with
  | nil => simp at hne
  | append_singleton rest name ih =>
      rw [← List.append_assoc] at h
      have habove := t.parents _ _ h
      cases rest with
      | nil => rwa [List.append_nil] at habove
      | cons first rest =>
          refine ih ?_ (by simp)
          rw [habove]
          exact Option.some_ne_none _

theorem not_obstructed_of_node {parts : List String} (h : t.node parts ≠ none) :
    t.obstructed parts = false :=
  not_obstructed.2 fun _ hstarts hne => Or.inr (directory_above h hstarts hne)

/-- The tree with a regular file put at the path. -/
def put (t : FileTree) (parts : List String) (mode : Nat) (content : ByteArray)
    (h : t.Writable parts) : FileTree where
  node below :=
    if below = parts then some (.file mode content)
    else if below <+: parts ∧ t.node below = none then some .directory
    else t.node below
  root := by
    rw [if_neg (Ne.symm h.1), if_neg (fun hnone => by rw [t.root] at hnone; cases hnone.2)]
    exact t.root
  parents := by
    have habove : ∀ above name, above ++ [name] <+: parts → (if above = parts then
        some (FileNode.file mode content) else if above <+: parts ∧ t.node above = none then
        some .directory else t.node above) = some .directory := by
      intro above name hstarts
      have hlength := hstarts.length_le
      have hne : above ≠ parts := by
        intro heq
        rw [heq, List.length_append, List.length_singleton] at hlength
        omega
      have hup : above <+: parts := (List.prefix_append above [name]).trans hstarts
      rw [if_neg hne]
      rcases not_obstructed.1 h.2.2.1 above hup hne with hnone | hdirectory
      · rw [if_pos ⟨hup, hnone⟩]
      · rw [hdirectory, if_neg (fun hnone => by cases hnone.2)]
    intro above name hsome
    by_cases hend : above ++ [name] = parts
    · exact habove above name (hend ▸ List.prefix_rfl)
    rw [if_neg hend] at hsome
    by_cases hnew : above ++ [name] <+: parts ∧ t.node (above ++ [name]) = none
    · exact habove above name hnew.1
    rw [if_neg hnew] at hsome
    have hdirectory := t.parents above name hsome
    have hne : above ≠ parts := by
      intro heq
      rw [← heq] at h
      rcases h.2.2.2 with hnone | hfile
      · rw [hdirectory] at hnone
        cases hnone
      · obtain ⟨mode', content', hnode⟩ := file_ne_none.1 hfile
        rw [hdirectory] at hnode
        cases hnode
    rw [if_neg hne, if_neg (fun hnone => by rw [hdirectory] at hnone; cases hnone.2)]
    exact hdirectory
  named := by
    intro below hsome name hname
    by_cases hend : below = parts
    · exact h.2.1 name (hend ▸ hname)
    rw [if_neg hend] at hsome
    by_cases hnew : below <+: parts ∧ t.node below = none
    · exact h.2.1 name (hnew.1.subset hname)
    rw [if_neg hnew] at hsome
    exact t.named below hsome name hname

/-- The tree with the regular file at the path taken away. -/
def remove (t : FileTree) (parts : List String) (h : t.file parts ≠ none) : FileTree where
  node below := if below = parts then none else t.node below
  root := by
    rw [if_neg, t.root]
    intro heq
    obtain ⟨mode, content, hnode⟩ := file_ne_none.1 h
    rw [← heq, t.root] at hnode
    cases hnode
  parents := by
    intro above name hsome
    by_cases hend : above ++ [name] = parts
    · rw [if_pos hend] at hsome
      exact absurd rfl hsome
    rw [if_neg hend] at hsome
    have hdirectory := t.parents above name hsome
    rw [if_neg, hdirectory]
    intro heq
    obtain ⟨mode, content, hnode⟩ := file_ne_none.1 h
    rw [← heq, hdirectory] at hnode
    cases hnode
  named := by
    intro below hsome
    by_cases hend : below = parts
    · rw [if_pos hend] at hsome
      exact absurd rfl hsome
    rw [if_neg hend] at hsome
    exact t.named below hsome

@[simp] theorem put_self {parts : List String} {mode : Nat} {content : ByteArray}
    {h : t.Writable parts} : (t.put parts mode content h).file parts = some (mode, content) :=
  node_of_file.2 (if_pos rfl)

/-- Whatever else was there stays. -/
theorem put_node {parts below : List String} {mode : Nat} {content : ByteArray}
    {h : t.Writable parts} (hne : below ≠ parts) (hsome : t.node below ≠ none) :
    (t.put parts mode content h).node below = t.node below :=
  (if_neg hne).trans (if_neg fun hnew => hsome hnew.2)

theorem put_file {parts below : List String} {mode : Nat} {content : ByteArray}
    {h : t.Writable parts} (hne : below ≠ parts) :
    (t.put parts mode content h).file below = t.file below := by
  by_cases hnew : below <+: parts ∧ t.node below = none
  · have hput : (t.put parts mode content h).node below = some .directory :=
      (if_neg hne).trans (if_pos hnew)
    rw [file, file, hput, hnew.2]
  · have hput : (t.put parts mode content h).node below = t.node below :=
      (if_neg hne).trans (if_neg hnew)
    rw [file, file, hput]

@[simp] theorem remove_self {parts : List String} {h : t.file parts ≠ none} :
    (t.remove parts h).node parts = none := if_pos rfl

theorem remove_node {parts below : List String} {h : t.file parts ≠ none}
    (hne : below ≠ parts) : (t.remove parts h).node below = t.node below := if_neg hne

/-- Why no regular file can be put at the path. -/
def writeError (t : FileTree) (cwd : ResolvedPath) (parts : List String) : PyExc :=
  if parts = [] then isADirectoryError "cannot write the workspace directory"
  else if t.obstructed parts then notADirectoryError (pathText cwd parts)
  else match t.node parts with
    | some (.symlink _) =>
      securityError ("Refusing to replace symbolic link: " ++ pathText cwd parts)
    | some _ => securityError ("Refusing to replace non-regular file: " ++ pathText cwd parts)
    | none => valueError "embedded null byte"

/-- `atomic_write_text`: the file keeps its mode, and a new one gets `0o644`. -/
def atomicWriteText (t : FileTree) (cwd : ResolvedPath) (parts : List String) (text : String) :
    Except PyExc FileTree := do
  t.checkLinks cwd (pathText cwd parts) parts
  if h : t.Writable parts then
    let mode := match t.file parts with
      | some (mode, _) => mode
      | none => 0o644
    return t.put parts mode text.toUTF8 h
  else throw (t.writeError cwd parts)

/-- Why there is no regular file at the path to be removed. -/
def unlinkError (t : FileTree) (cwd : ResolvedPath) (parts : List String) : PyExc :=
  if parts = [] then isADirectoryError "cannot unlink the workspace directory"
  else if t.obstructed parts then notADirectoryError (pathText cwd parts)
  else match t.node parts with
    | none => fileNotFoundError (pathText cwd parts)
    | some _ => securityError ("Refusing to unlink non-regular file: " ++ pathText cwd parts)

/-- `unlink_file`. -/
def unlinkFile (t : FileTree) (cwd : ResolvedPath) (parts : List String) :
    Except PyExc FileTree := do
  t.checkLinks cwd (pathText cwd parts) parts
  if h : t.file parts ≠ none then return t.remove parts h
  else throw (t.unlinkError cwd parts)

end FileTree

end MiniCodeAgent
