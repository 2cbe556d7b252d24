import MiniCodeAgent.Json.RoundTrip
import MiniCodeAgent.MemoryBackup
import MiniCodeAgent.Proofs.Paths
import MiniCodeAgent.Proofs.ScannerParity

/-!
# What a backup gives back

A restore installs the files that the archive's manifest declares, each with the content
the archive has for it, or nothing at all. An export that returns has restored
its own archive, so a later restore of it cannot fail, and what it gives are the
files that were selected. These are the regular files that the walk over the
memory directory comes by, unless their names are excluded, and the walk does not
say where it could not list a directory: it passes by what is in there. So a
backup is complete exactly if no directory that cannot be listed has a file below it.
-/

namespace MiniCodeAgent

namespace MemoryBackup

open Scanner TransactionAdapter

section Backups

variable {F : Type} [Json.PyFloat F] {env : BackupEnv F}

/-! ## Restored files -/

/-- A file that an item of the manifest declares, with the content the archive has for it:
its path leads into the directory it is restored to. -/
structure Declared (env : BackupEnv F) (archive : Archive) (item : Json F)
    (file : List String × ByteArray) : Prop where
  object : ∃ fields, item = .obj fields
  path : PyPath.ofString (pyStr env.repr (item.getD "path" (.str ""))) = ⟨"", file.1⟩
  inside : file.1 ≠ [] ∧ ∀ part ∈ file.1, FileName part
  content : readEntry archive ("memory/" ++ posixText file.1) = .ok file.2
  size : Json.pyEq (.int file.2.size) (item.getD "bytes" .null) = true
  digest : Json.pyEq (.str (env.digests.sha256 file.2)) (item.getD "sha256" .null) = true

/-- A relative path without `..` leads to a file name by file names. -/
theorem safeRelative_ok {value : String} {path : PyPath} (h : safeRelative value = .ok path) :
    PyPath.ofString value = ⟨"", path.parts⟩ ∧ path = ⟨"", path.parts⟩ ∧
      ∀ part ∈ path.parts, FileName part := by
  obtain ⟨_, hsafe, hpath⟩ := except_bind_ok.1 h
  have hsafe := raiseIf_ok.1 hsafe
  have hpath : PyPath.ofString value = path := Except.ok.inj hpath
  rw [hpath] at hsafe
  have hroot : path.root = "" := by
    simpa [PyPath.isAbsolute] using fun h => hsafe (Or.inr (Or.inl h))
  have heq : path = ⟨"", path.parts⟩ := by rw [← hroot]
  refine ⟨hpath.trans heq, heq, fun part hpart => ?_⟩
  have hdots : part ≠ ".." := by
    rintro rfl
    exact hsafe (Or.inr (Or.inr (Or.inl hpart)))
  rw [← hpath] at hpart
  obtain ⟨hmem, hnames⟩ := List.mem_filter.1 hpart
  have hnames : part ≠ "" ∧ part ≠ "." := by simpa using hnames
  exact ⟨hnames.1, hnames.2, hdots, slash_of_mem_pathParts hmem⟩

theorem writePrivateFile_ok {tree tree' : Tree} {parts : List String} {content : ByteArray}
    (h : writePrivateFile tree parts content = .ok tree') :
    tree' = tree ++ [(parts, content)] ∧ parts ≠ [] ∧ parts ∉ tree.map Prod.fst := by
  obtain ⟨_, hfree, htree⟩ := except_bind_ok.1 h
  have hfree := raiseIf_ok.1 hfree
  refine ⟨(Except.ok.inj htree).symm, fun hnil => hfree (Or.inr (Or.inl hnil)), fun hmem => ?_⟩
  obtain ⟨file, hfile, hparts⟩ := List.mem_map.1 hmem
  exact hfree (Or.inl ⟨file, hfile, hparts⟩)

theorem restoreFile_ok {archive : Archive} {tree tree' : Tree} {item : Json F} {name : String}
    (h : restoreFile env archive tree item = .ok (name, tree')) :
    ∃ file, Declared env archive item file ∧ tree' = tree ++ [file] ∧
      file.1 ∉ tree.map Prod.fst := by
  cases item with
  | obj fields =>
      rw [restoreFile] at h
      obtain ⟨relative, hrelative, h⟩ := except_bind_ok.1 h
      obtain ⟨content, hcontent, h⟩ := except_bind_ok.1 h
      obtain ⟨_, hdigest, h⟩ := except_bind_ok.1 h
      obtain ⟨_, -, h⟩ := except_bind_ok.1 h
      obtain ⟨written, hwritten, h⟩ := except_bind_ok.1 h
      obtain ⟨-, rfl⟩ := Prod.mk.inj (Except.ok.inj h)
      obtain ⟨hpath, heq, hnames⟩ := safeRelative_ok hrelative
      obtain ⟨htree, hne, hfresh⟩ := writePrivateFile_ok hwritten
      have hdigest := not_or.1 (raiseIf_ok.1 hdigest)
      rw [heq] at hcontent
      refine ⟨(relative.parts, content), ⟨⟨fields, rfl⟩, hpath, ⟨hne, hnames⟩, hcontent, ?_, ?_⟩,
        htree, hfresh⟩
      · exact Bool.of_not_eq_false hdigest.1
      · exact Bool.of_not_eq_false hdigest.2
  | _ => exact absurd h (by simp [restoreFile, throw, throwThe, MonadExceptOf.throw])

theorem restoreFiles_ok {archive : Archive} {tree tree' : Tree} {items : List (Json F)}
    {names : List String} (h : restoreFiles env archive tree items = .ok (names, tree')) :
    ∃ files, tree' = tree ++ files ∧ List.Forall₂ (Declared env archive) items files ∧
      ((tree.map Prod.fst).Nodup → (tree'.map Prod.fst).Nodup) := by
  induction items generalizing tree names with
  | nil =>
      obtain ⟨-, rfl⟩ := Prod.mk.inj (Except.ok.inj h)
      exact ⟨[], by simp, .nil, id⟩
  | cons item rest ih =>
      obtain ⟨⟨name, tree₁⟩, hfile, h⟩ := except_bind_ok.1 h
      obtain ⟨⟨names', tree₂⟩, hrest, h⟩ := except_bind_ok.1 h
      obtain ⟨-, rfl⟩ := Prod.mk.inj (Except.ok.inj h)
      obtain ⟨file, hdeclared, rfl, hfresh⟩ := restoreFile_ok hfile
      obtain ⟨files, htree, hfiles, hnodup⟩ := ih hrest
      refine ⟨file :: files, by rw [htree, List.append_assoc]; rfl, .cons hdeclared hfiles,
        fun htree => hnodup ?_⟩
      rw [List.map_append]
      exact List.nodup_append.2 ⟨htree, List.nodup_singleton _, by
        intro a ha b hb
        rw [List.mem_singleton.1 hb]
        rintro rfl
        exact hfresh ha⟩

theorem manifestFiles_ok {manifest : Json F} {items : List (Json F)}
    (h : manifestFiles manifest = .ok items) : manifest.get? "files" = some (.arr items) := by
  obtain ⟨version, hversion, h⟩ := except_bind_ok.1 h
  obtain ⟨_, -, h⟩ := except_bind_ok.1 h
  obtain ⟨files, hfiles, h⟩ := except_bind_ok.1 h
  have harr : files = .arr items := by
    cases files with
    | arr items' => rw [Except.ok.inj h]
    | _ => exact absurd h (by simp [throw, throwThe, MonadExceptOf.throw])
  rw [harr] at hfiles
  cases manifest with
  | obj fields =>
      have hget : (Dict.get? fields "files").getD .null = .arr items := Except.ok.inj hfiles
      rw [Json.get?_obj]
      cases hentry : Dict.get? fields "files" with
      | none => simp [hentry] at hget
      | some value =>
          rw [hentry, Option.getD_some] at hget
          rw [hget]
  | _ => exact absurd hfiles (by simp [pyGet])

/-- What a restored directory has to be for an archive: the files that its manifest declares,
each at a path of its own, and no more. -/
def Restores (env : BackupEnv F) (archive : Archive) (tree : Tree) : Prop :=
  ∃ manifest items, readManifest env archive = .ok manifest ∧
    manifest.get? "files" = some (.arr items) ∧
    List.Forall₂ (Declared env archive) items tree ∧ (tree.map Prod.fst).Nodup

theorem unpack_ok {archive : Archive} {tree : Tree} (h : unpack env archive = .ok tree) :
    (namelist archive).Nodup ∧ Restores env archive tree := by
  obtain ⟨_, hnodup, h⟩ := except_bind_ok.1 h
  obtain ⟨_, -, h⟩ := except_bind_ok.1 h
  obtain ⟨manifest, hmanifest, h⟩ := except_bind_ok.1 h
  obtain ⟨items, hitems, h⟩ := except_bind_ok.1 h
  obtain ⟨⟨names, tree'⟩, hfiles, h⟩ := except_bind_ok.1 h
  obtain ⟨_, -, h⟩ := except_bind_ok.1 h
  obtain rfl := Except.ok.inj h
  obtain ⟨files, htree, hdeclared, hpaths⟩ := restoreFiles_ok hfiles
  rw [List.nil_append] at htree
  rw [← htree] at hdeclared
  exact ⟨by simpa using raiseIf_ok.1 hnodup, manifest, items, hmanifest, manifestFiles_ok hitems,
    hdeclared, hpaths List.nodup_nil⟩

theorem verifiedTree_ok {file : Option ArchiveFile} {tree : Tree}
    (h : verifiedTree env file = .ok tree) :
    ∃ size archive, file = some (.regular size (.ok archive)) ∧ unpack env archive = .ok tree := by
  cases file with
  | none => exact absurd h (by simp [verifiedTree, throw, throwThe, MonadExceptOf.throw])
  | some file =>
      cases file with
      | other => exact absurd h (by simp [verifiedTree, throw, throwThe, MonadExceptOf.throw])
      | regular size archive =>
          obtain ⟨_, -, h⟩ := except_bind_ok.1 h
          obtain ⟨archive', harchive, h⟩ := except_bind_ok.1 h
          obtain ⟨tree', htree, h⟩ := except_bind_ok.1 h
          obtain ⟨_, -, h⟩ := except_bind_ok.1 h
          obtain ⟨_, -, h⟩ := except_bind_ok.1 h
          obtain ⟨_, -, h⟩ := except_bind_ok.1 h
          obtain rfl := Except.ok.inj h
          exact ⟨size, archive', by rw [harchive], htree⟩

/-- What a restore to a path where there is nothing comes to. -/
inductive Outcome (env : BackupEnv F) (file : Option ArchiveFile) :
    Except PyExc Unit × Option Tree → Prop
  | installed {size : Nat} {archive : Archive} {tree : Tree}
      (hfile : file = some (.regular size (.ok archive))) (h : Restores env archive tree) :
      Outcome env file (.ok (), some tree)
  | raised (exc : PyExc) : Outcome env file (.error exc, none)

theorem restore_outcome (file : Option ArchiveFile) :
    Outcome env file (restoreMemoryBackup env file none) := by
  rw [restoreMemoryBackup]
  cases h : verifiedTree env file with
  | error exc => exact .raised exc
  | ok tree =>
      obtain ⟨size, archive, hfile, hunpack⟩ := verifiedTree_ok h
      exact .installed hfile (unpack_ok hunpack).2

/-- A restore that raises leaves what is at the path, and an export what is at the
destination. -/
theorem restore_raised {file : Option ArchiveFile} {memory : Option Tree} {exc : PyExc}
    (h : (restoreMemoryBackup env file memory).1 = .error exc) :
    (restoreMemoryBackup env file memory).2 = memory := by
  cases memory with
  | some tree => rfl
  | none =>
      simp only [restoreMemoryBackup] at h ⊢
      cases htree : verifiedTree env file with
      | error exc => rfl
      | ok tree => simp [htree] at h

theorem export_raised {memory : Directory} {destination : Option ArchiveFile} {exc : PyExc}
    (h : (exportMemoryBackup env memory destination).1 = .error exc) :
    (exportMemoryBackup env memory destination).2 = destination := by
  simp only [exportMemoryBackup] at h ⊢
  cases hsource : verifiedSource env memory with
  | error exc => rfl
  | ok _ =>
      simp only [hsource] at h
      cases destination with
      | some taken => rfl
      | none =>
          cases hchecked : checkedArchive env memory with
          | error exc => rfl
          | ok file => simp [hchecked] at h

/-! ## Files below a directory -/

/-- A regular file below a directory, whatever can be read or searched on the way. -/
inductive FileAt : Scanner.Node → List String → ByteArray → Prop
  | entry {stat stat' : Stat} {readable readable' searchable : Bool} {content : ByteArray}
      {entries : List (String × Scanner.Node)} {name : String}
      (h : (name, .file stat' content readable') ∈ entries) :
      FileAt (.directory stat readable searchable entries) [name] content
  | deeper {stat : Stat} {readable searchable : Bool} {content : ByteArray}
      {entries : List (String × Scanner.Node)} {name : String} {child : Scanner.Node}
      {parts : List String}
      (h : (name, child) ∈ entries) (hfile : FileAt child parts content) :
      FileAt (.directory stat readable searchable entries) (name :: parts) content

theorem descends_of_reach {directory found : Found} (h : Reach [] directory found) :
    directory.descends [] = true := by
  have hlisting : ∃ child, child ∈ directory.listing := by
    cases h with
    | listed h => exact ⟨_, h⟩
    | deeper h => exact ⟨_, h⟩
  obtain ⟨child, hchild⟩ := hlisting
  obtain ⟨stat, searchable, entries, hnode, -⟩ := listing_cases hchild
  rw [Found.descends, hnode]
  simp

/-- No directory is passed by. -/
theorem reach_nil_iff (directory : Found) {found : Found} : Reach [] directory found ↔
    ∃ child ∈ directory.listing, found = child ∨ Reach [] child found := by
  rw [Reach.cases_iff]
  constructor
  · intro h
    obtain h | ⟨child, h, -, hfound⟩ := h
    · exact ⟨found, h, Or.inl rfl⟩
    · exact ⟨child, h, Or.inr hfound⟩
  · intro ⟨child, h, hfound⟩
    cases hfound with
    | inl heq => exact Or.inl (heq ▸ h)
    | inr hfound => exact Or.inr ⟨child, h, descends_of_reach hfound, hfound⟩

mutual

theorem mem_rglobNode {found : Found} {parts : List String} {reached : Bool} :
    (node : Scanner.Node) → (found ∈ rglobNode parts reached node ↔ Reach [] ⟨parts, node, reached⟩ found)
  | .directory stat readable searchable entries => by
      rw [rglobNode, reach_nil_iff]
      simp only [mem_listing]
      by_cases h : reached = true ∧ readable = true
      · rw [if_pos h, mem_rglobEntries entries]
        simp only [h, and_self, true_and]
        grind
      · rw [if_neg h]
        simp [h]
  | .file stat content readable => by
      rw [rglobNode, reach_nil_iff]
      simp [Found.listing]
  | .symlink stat target => by
      rw [rglobNode, reach_nil_iff]
      simp [Found.listing]
  | .special format stat => by
      rw [rglobNode, reach_nil_iff]
      simp [Found.listing]

theorem mem_rglobEntries {found : Found} {parents : List String} {searchable : Bool} :
    (entries : List (String × Scanner.Node)) → (found ∈ rglobEntries parents searchable entries ↔
      ∃ entry ∈ entries, found = ⟨parents ++ [entry.1], entry.2, searchable⟩ ∨
        Reach [] ⟨parents ++ [entry.1], entry.2, searchable⟩ found)
  | [] => by simp [rglobEntries]
  | (name, node) :: rest => by
      rw [rglobEntries, List.mem_cons, List.mem_append, mem_rglobNode node, mem_rglobEntries rest]
      simp [or_assoc]

end

/-! ### Directories that cannot be listed -/

/-- A directory that the walk comes by and sees nothing of. -/
def Unlisted (found : Found) : Prop :=
  match found.node with
  | .directory _ readable _ _ => ¬ (found.reached = true ∧ readable = true)
  | _ => False

theorem listing_of_unlisted {found : Found} (h : Unlisted found) : found.listing = [] := by
  rw [Unlisted] at h
  rw [Found.listing]
  split
  · next hnode =>
      rw [hnode] at h
      rw [if_neg h]
  · rfl

theorem not_reach_of_unlisted {directory found : Found} (h : Unlisted directory) :
    ¬ Reach [] directory found := by
  rw [reach_nil_iff, listing_of_unlisted h]
  simp

theorem unlisted_or_mem (parts : List String) (stat : Stat) (readable searchable reached : Bool)
    {entries : List (String × Scanner.Node)} {name : String} {child : Scanner.Node}
    (h : (name, child) ∈ entries) :
    Unlisted ⟨parts, .directory stat readable searchable entries, reached⟩ ∨
      ⟨parts ++ [name], child, searchable⟩ ∈
        (Found.mk parts (.directory stat readable searchable entries) reached).listing := by
  by_cases hopen : reached = true ∧ readable = true
  · exact Or.inr (mem_listing.2 ⟨hopen, (name, child), h, rfl⟩)
  · exact Or.inl hopen

def IsFileOf (found : Found) (content : ByteArray) : Prop :=
  ∃ stat readable, found.node = .file stat content readable

theorem FileAt.parts_ne {node : Scanner.Node} {parts : List String} {content : ByteArray}
    (h : FileAt node parts content) : parts ≠ [] := by
  cases h with
  | entry => simp
  | deeper => simp

/-- A file below a directory is come by, or it is below a directory that is not listed. -/
theorem come_by_or_unlisted {node : Scanner.Node} {parts : List String} {content : ByteArray}
    (h : FileAt node parts content) (parents : List String) (reached : Bool) :
    (∃ found, Reach [] ⟨parents, node, reached⟩ found ∧ found.parts = parents ++ parts ∧
      IsFileOf found content) ∨
    ∃ directory parts', (directory = ⟨parents, node, reached⟩ ∨
      Reach [] ⟨parents, node, reached⟩ directory) ∧ Unlisted directory ∧
      FileAt directory.node parts' content ∧ parts'.getLast? = parts.getLast? := by
  induction h generalizing parents reached with
  | @entry stat stat' readable readable' searchable content entries name h =>
      obtain hunlisted | hlisted := unlisted_or_mem parents stat readable searchable reached h
      · exact Or.inr ⟨_, [name], Or.inl rfl, hunlisted, .entry h, rfl⟩
      · exact Or.inl ⟨_, .listed hlisted, rfl, stat', readable', rfl⟩
  | @deeper stat readable searchable content entries name child parts h hfile ih =>
      obtain hunlisted | hlisted := unlisted_or_mem parents stat readable searchable reached h
      · exact Or.inr ⟨_, name :: parts, Or.inl rfl, hunlisted, .deeper h hfile, rfl⟩
      · have hlast : parts.getLast? = (name :: parts).getLast? := by
          rw [List.getLast?_cons_of_ne_nil hfile.parts_ne]
        obtain ⟨found, hreach, hparts, hcontent⟩ | ⟨directory, parts', hdirectory, hrest⟩ :=
          ih (parents ++ [name]) searchable
        · refine Or.inl ⟨found, (reach_nil_iff _).2 ⟨_, hlisted, Or.inr hreach⟩, ?_, hcontent⟩
          rw [hparts, List.append_assoc]
          rfl
        · refine Or.inr ⟨directory, parts', Or.inr ((reach_nil_iff _).2 ⟨_, hlisted, ?_⟩),
            hrest.1, hrest.2.1, hrest.2.2.trans hlast⟩
          exact hdirectory

/-- What is below an entry is below the directory that the walk came from. -/
theorem fileAt_of_reach {root directory : Found} (h : Reach [] root directory) :
    ∃ rest, directory.parts = root.parts ++ rest ∧ (∀ parts content,
      FileAt directory.node parts content → FileAt root.node (rest ++ parts) content) ∧
      ∀ content, IsFileOf directory content → FileAt root.node rest content := by
  induction h with
  | listed h =>
      obtain ⟨stat, searchable, entries, hnode, ⟨name, child⟩, hentry, rfl⟩ := listing_cases h
      refine ⟨[name], rfl, fun parts content hfile => ?_, fun content hcontent => ?_⟩
      · rw [hnode]
        exact .deeper hentry hfile
      · obtain ⟨stat', readable, hfile⟩ := hcontent
        have hchild : child = .file stat' content readable := hfile
        rw [hchild] at hentry
        rw [hnode]
        exact .entry hentry
  | deeper h hchild hfound ih =>
      obtain ⟨stat, searchable, entries, hnode, ⟨name, child⟩, hentry, rfl⟩ := listing_cases h
      obtain ⟨rest, hrest, hbelow, hfiles⟩ := ih
      refine ⟨name :: rest, by rw [hrest, List.append_assoc]; rfl, fun parts content hfile => ?_,
        fun content hcontent => ?_⟩
      · rw [hnode]
        exact .deeper hentry (hbelow parts content hfile)
      · rw [hnode]
        exact .deeper hentry (hfiles content hcontent)

/-- The walk gets to an entry through every directory above it. -/
theorem reach_through {root directory found : Found} (hnamed : root.node.Named)
    (hdirectory : Reach [] root directory) (hfound : Reach [] root found) {name : String}
    {rest : List String} (hparts : found.parts = directory.parts ++ name :: rest) :
    Reach [] directory found := by
  induction hdirectory with
  | @listed root directory h =>
      obtain ⟨hnamed', name', -, hname'⟩ := listing_spec hnamed h
      obtain ⟨child, hchild, hbelow⟩ := (reach_nil_iff _).1 hfound
      obtain ⟨hnamed'', name'', -, hname''⟩ := listing_spec hnamed hchild
      have hsame : child.parts = directory.parts := by
        rw [hname', hname'']
        cases hbelow with
        | inl heq =>
            rw [heq, hname'', hname'] at hparts
            simp at hparts
        | inr hbelow =>
            obtain ⟨first, rest', hrest', -⟩ := hbelow.parts hnamed''
            rw [hrest', hname'', hname'] at hparts
            simp only [List.append_assoc, List.append_cancel_left_eq, List.cons_append,
              List.nil_append, List.cons.injEq] at hparts
            rw [hparts.1]
      rw [listing_inj hnamed hchild h hsame] at hbelow
      cases hbelow with
      | inl heq =>
          rw [heq] at hparts
          simp at hparts
      | inr hbelow => exact hbelow
  | @deeper root first directory h hfirst hdirectory ih =>
      obtain ⟨hnamed', name', -, hname'⟩ := listing_spec hnamed h
      obtain ⟨first', rest', hrest', -⟩ := hdirectory.parts hnamed'
      obtain ⟨child, hchild, hbelow⟩ := (reach_nil_iff _).1 hfound
      obtain ⟨hnamed'', name'', -, hname''⟩ := listing_spec hnamed hchild
      rw [hrest', hname'] at hparts
      have hsame : child.parts = first.parts := by
        rw [hname', hname'']
        cases hbelow with
        | inl heq =>
            rw [heq, hname''] at hparts
            simp at hparts
        | inr hbelow =>
            obtain ⟨first'', rest'', hrest'', -⟩ := hbelow.parts hnamed''
            rw [hrest'', hname''] at hparts
            simp only [List.append_assoc, List.append_cancel_left_eq, List.cons_append,
              List.nil_append, List.cons.injEq] at hparts
            rw [hparts.1]
      have heq := listing_inj hnamed hchild h hsame
      rw [heq] at hbelow
      cases hbelow with
      | inl hfound' =>
          rw [hfound', hname'] at hparts
          simp at hparts
      | inr hbelow =>
          refine ih hnamed' hbelow ?_
          rw [hparts, hrest', hname']

/-! ## The selected files -/

theorem selectFile_ok {found : Found} {selected : Option (List String × ByteArray)}
    (h : selectFile found = .ok selected) (file : List String × ByteArray) :
    selected = some file ↔
      found.name ∉ excludedNames ∧ file.1 = found.parts ∧ IsFileOf found file.2 := by
  rw [selectFile] at h
  by_cases hexcluded : found.name ∈ excludedNames
  · rw [if_pos hexcluded] at h
    obtain rfl := Except.ok.inj h
    simp [hexcluded]
  · rw [if_neg hexcluded] at h
    obtain ⟨_, -, h⟩ := except_bind_ok.1 h
    obtain ⟨parts, node, reached⟩ := found
    cases node with
    | file stat content readable =>
        obtain ⟨_, -, h⟩ := except_bind_ok.1 h
        obtain rfl := Except.ok.inj h
        obtain ⟨parts', content'⟩ := file
        simp [hexcluded, IsFileOf, eq_comm]
    | symlink => exact absurd h (by simp [throw, throwThe, MonadExceptOf.throw])
    | directory =>
        obtain rfl := Except.ok.inj h
        simp [IsFileOf]
    | special =>
        obtain rfl := Except.ok.inj h
        simp [IsFileOf]

theorem selectFiles_ok {founds : List Found} {selected : Tree}
    (h : selectFiles founds = .ok selected) (file : List String × ByteArray) :
    file ∈ selected ↔ ∃ found ∈ founds,
      found.name ∉ excludedNames ∧ file.1 = found.parts ∧ IsFileOf found file.2 := by
  induction founds generalizing selected with
  | nil =>
      obtain rfl := Except.ok.inj h
      simp
  | cons found rest ih =>
      obtain ⟨first, hfirst, h⟩ := except_bind_ok.1 h
      obtain ⟨files, hrest, h⟩ := except_bind_ok.1 h
      obtain rfl := Except.ok.inj h
      rw [List.mem_append, Option.mem_toList, selectFile_ok hfirst, ih hrest]
      simp

theorem mem_sortedRglob {memory : Directory} {found : Found} :
    found ∈ sortedRglob memory ↔ Reach [] ⟨[], memory.node, true⟩ found := by
  rw [sortedRglob, List.mem_insertionSort, mem_rglobNode]

/-! ## The archive of the selected files -/

theorem readEntry_of_mem {archive : Archive} (hnodup : (namelist archive).Nodup) {entry : ZipEntry}
    (h : entry ∈ archive) : readEntry archive entry.name = entry.content := by
  rw [readEntry]
  cases hfind : archive.reverse.find? fun other => other.name = entry.name with
  | none =>
      have hnone := List.find?_eq_none.1 hfind entry (List.mem_reverse.2 h)
      simp at hnone
  | some other =>
      have hname : other.name = entry.name := by simpa using List.find?_some hfind
      have hmem := List.mem_reverse.1 (List.mem_of_find?_eq_some hfind)
      rw [List.inj_on_of_nodup_map hnodup hmem h hname]

theorem backupManifest_wf (selected : Tree) : (backupManifest env selected).WF := by
  have hfiles : ∀ value ∈ selected.map (manifestFile env), value.WF := by
    intro value hvalue
    obtain ⟨file, -, rfl⟩ := List.mem_map.1 hvalue
    simp [manifestFile, Dict.keys]
  simp only [backupManifest, Json.wf_obj, List.forall_mem_cons, Json.wf_arr]
  exact ⟨by simp [Dict.keys], by simp, by simp, by simp, hfiles, by simp⟩

theorem dumps_obj_head (st : Json.Style) (fields : Dict (Json F)) :
    (Json.dumps st (.obj fields)).toList.head? = some '{' := by
  rw [Json.dumps, String.toList_ofList, Json.dump]
  split
  · rfl
  · rfl

theorem readManifest_packed {selected : Tree}
    (hnodup : (namelist (packed env selected)).Nodup) :
    readManifest env (packed env selected) = .ok (backupManifest env selected).sortKeys := by
  have hread : readEntry (packed env selected) "manifest.json" =
      .ok (Json.dumps .indent2 (backupManifest env selected).sortKeys).toUTF8 :=
    readEntry_of_mem hnodup (List.mem_cons_self : writestr "manifest.json" _ ∈ packed env selected)
  have hhead : (Json.dumps .indent2 (backupManifest env selected).sortKeys).toList.head? =
      some '{' := by
    rw [backupManifest, Json.sortKeys]
    exact dumps_obj_head _ _
  have hloads := env.loads_utf8 hhead
    (Json.loads_dumps Json.Style.indent2_ok (backupManifest_wf selected).sortKeys)
  rw [readManifest, hread, except_ok_bind, hloads]

theorem files_packed (selected : Tree) : (backupManifest env selected).sortKeys.get? "files" =
    some (.arr (selected.map fun file => (manifestFile env file).sortKeys)) := by
  rw [Json.get?_sortKeys (backupManifest_wf selected)]
  simp [backupManifest, Json.sortKeys, Json.sortItems_eq_map]

theorem manifestFile_get (file : List String × ByteArray) (key : String) :
    ((manifestFile env file).sortKeys).get? key =
      ((manifestFile env file).get? key).map Json.sortKeys :=
  Json.get?_sortKeys (by simp [manifestFile, Dict.keys]) key

/-- What the manifest says of a file can only be that file. -/
theorem declared_eq {selected : Tree} (hnodup : (namelist (packed env selected)).Nodup)
    {file file' : List String × ByteArray} (hfile : file ∈ selected)
    (hnames : file.1 ≠ [] ∧ ∀ part ∈ file.1, FileName part)
    (h : Declared env (packed env selected) (manifestFile env file).sortKeys file') :
    file' = file := by
  have hpath := h.path
  rw [Json.getD, manifestFile_get] at hpath
  simp only [manifestFile, Json.get?_obj, Dict.get?_cons, if_true, Option.map_some,
    Option.getD_some, Json.sortKeys, pyStr] at hpath
  rw [ofString_posixText hnames.1 hnames.2] at hpath
  have hparts : file.1 = file'.1 := congrArg PyPath.parts hpath
  have hentry : writestr ("memory/" ++ posixText file.1) file.2 ∈ packed env selected :=
    List.mem_cons_of_mem _ (List.mem_map.2 ⟨file, hfile, rfl⟩)
  have hread := readEntry_of_mem hnodup hentry
  have hcontent := h.content
  rw [← hparts] at hcontent
  exact Prod.ext hparts.symm (Except.ok.inj (hcontent.symm.trans hread))

theorem forall₂_map_eq {α β : Type} {R : β → α → Prop} {f : α → β} {xs ys : List α}
    (h : List.Forall₂ R (xs.map f) ys) (heq : ∀ x ∈ xs, ∀ y, R (f x) y → y = x) : ys = xs := by
  induction xs generalizing ys with
  | nil =>
      cases h
      rfl
  | cons x xs ih =>
      cases h with
      | cons hx hxs =>
          rw [heq x List.mem_cons_self _ hx,
            ih hxs fun y hy => heq y (List.mem_cons_of_mem _ hy)]

/-- Restoring the archive of the selected files gives these files. -/
theorem unpack_packed {selected tree : Tree}
    (hnames : ∀ file ∈ selected, file.1 ≠ [] ∧ ∀ part ∈ file.1, FileName part)
    (h : unpack env (packed env selected) = .ok tree) : tree = selected := by
  obtain ⟨hnodup, manifest, items, hmanifest, hitems, hdeclared, -⟩ := unpack_ok h
  rw [readManifest_packed hnodup] at hmanifest
  rw [← Except.ok.inj hmanifest, files_packed] at hitems
  have harr : items = selected.map fun file => (manifestFile env file).sortKeys := by
    injection Option.some.inj hitems with harr
    exact harr.symm
  rw [harr] at hdeclared
  exact forall₂_map_eq hdeclared fun file hfile file' hfile' =>
    declared_eq hnodup hfile (hnames file hfile) hfile'

/-! ## Backups -/

theorem export_ok {memory : Directory} {destination : Option ArchiveFile} {file : ArchiveFile}
    (h : exportMemoryBackup env memory destination = (.ok (), some file)) :
    ∃ selected tree, selectFiles (sortedRglob memory) = .ok selected ∧
      file = .regular (env.packedSize (packed env selected)) (.ok (packed env selected)) ∧
      verifiedTree env (some file) = .ok tree := by
  simp only [exportMemoryBackup] at h
  cases hsource : verifiedSource env memory with
  | error exc => simp [hsource] at h
  | ok _ =>
      simp only [hsource] at h
      cases destination with
      | some taken => simp at h
      | none =>
          cases hchecked : checkedArchive env memory with
          | error exc => simp [hchecked] at h
          | ok file' =>
              simp only [hchecked] at h
              have hfile := Option.some.inj (Prod.mk.inj h).2
              rw [hfile] at hchecked
              obtain ⟨selected, hselected, hchecked⟩ := except_bind_ok.1 hchecked
              obtain ⟨_, -, hchecked⟩ := except_bind_ok.1 hchecked
              obtain ⟨_, hrestore, hchecked⟩ := except_bind_ok.1 hchecked
              have hfile' := Except.ok.inj hchecked
              rw [hfile', restoreMemoryBackup] at hrestore
              cases htree : verifiedTree env (some file) with
              | error exc => simp [htree] at hrestore
              | ok tree => exact ⟨selected, tree, hselected, hfile'.symm, rfl⟩

theorem export_returns {memory : Directory} {destination : Option ArchiveFile}
    (h : (exportMemoryBackup env memory destination).1.isOk = true) :
    ∃ file, exportMemoryBackup env memory destination = (.ok (), some file) := by
  simp only [exportMemoryBackup] at h ⊢
  cases hsource : verifiedSource env memory with
  | error exc => simp [hsource, Except.isOk, Except.toBool] at h
  | ok _ =>
      simp only [hsource] at h ⊢
      cases destination with
      | some taken => simp [Except.isOk, Except.toBool] at h
      | none =>
          cases hchecked : checkedArchive env memory with
          | error exc => simp [hchecked, Except.isOk, Except.toBool] at h
          | ok file => exact ⟨file, rfl⟩

/-- A regular file of a memory directory, unless its name is excluded. -/
def Kept (memory : Directory) (file : List String × ByteArray) : Prop :=
  FileAt memory.node file.1 file.2 ∧ file.1.getLast?.getD "" ∉ excludedNames

/-- No directory that cannot be listed has such a file below it. -/
def AllListed (memory : Directory) : Prop :=
  ∀ directory, (directory = ⟨[], memory.node, true⟩ ∨
    Reach [] ⟨[], memory.node, true⟩ directory) → Unlisted directory →
    ∀ parts content, FileAt directory.node parts content →
      parts.getLast?.getD "" ∈ excludedNames

theorem mem_selected {memory : Directory} {selected : Tree}
    (h : selectFiles (sortedRglob memory) = .ok selected) (file : List String × ByteArray) :
    file ∈ selected ↔ file.1.getLast?.getD "" ∉ excludedNames ∧
      ∃ found, Reach [] ⟨[], memory.node, true⟩ found ∧ found.parts = file.1 ∧
        IsFileOf found file.2 := by
  rw [selectFiles_ok h]
  constructor
  · intro ⟨found, hfound, hname, hparts, hcontent⟩
    refine ⟨?_, found, mem_sortedRglob.1 hfound, hparts.symm, hcontent⟩
    rw [hparts]
    exact hname
  · intro ⟨hname, found, hfound, hparts, hcontent⟩
    refine ⟨found, mem_sortedRglob.2 hfound, ?_, hparts.symm, hcontent⟩
    rw [Found.name, hparts]
    exact hname

theorem selected_names {memory : MemoryDirectory} {selected : Tree}
    (h : selectFiles (sortedRglob memory.toDirectory) = .ok selected) :
    ∀ file ∈ selected, file.1 ≠ [] ∧ ∀ part ∈ file.1, FileName part := by
  intro file hfile
  obtain ⟨-, found, hreach, hparts, -⟩ := (mem_selected h file).1 hfile
  obtain ⟨name, rest, hname, -, hfirst, hrest⟩ := hreach.parts memory.named
  rw [← hparts, hname]
  exact ⟨by simp, List.forall_mem_cons.2 ⟨hfirst, hrest⟩⟩

theorem kept_of_selected {memory : Directory} {selected : Tree}
    (h : selectFiles (sortedRglob memory) = .ok selected) {file : List String × ByteArray}
    (hfile : file ∈ selected) : Kept memory file := by
  obtain ⟨hname, found, hreach, hparts, hcontent⟩ := (mem_selected h file).1 hfile
  obtain ⟨rest, hrest, -, hfiles⟩ := fileAt_of_reach hreach
  rw [List.nil_append] at hrest
  refine ⟨?_, hname⟩
  rw [← hparts, hrest]
  exact hfiles _ hcontent

/-- The selected files are all there are exactly if every directory that matters is listed. -/
theorem selected_iff {memory : MemoryDirectory} {selected : Tree}
    (h : selectFiles (sortedRglob memory.toDirectory) = .ok selected) :
    (∀ file, file ∈ selected ↔ Kept memory.toDirectory file) ↔ AllListed memory.toDirectory := by
  constructor
  · intro hall directory hdirectory hunlisted parts content hfile
    by_contra hname
    -- Below a directory that is not listed there is nothing that was selected.
    obtain hroot | hreach := hdirectory
    · rw [hroot] at hunlisted hfile
      obtain ⟨-, found, hfound, -⟩ := (mem_selected h (parts, content)).1
        ((hall (parts, content)).2 ⟨hfile, hname⟩)
      exact not_reach_of_unlisted hunlisted hfound
    · obtain ⟨rest, hrest, hbelow, -⟩ := fileAt_of_reach hreach
      rw [List.nil_append] at hrest
      have hne := hfile.parts_ne
      have hkept : Kept memory.toDirectory (rest ++ parts, content) := by
        refine ⟨hbelow parts content hfile, ?_⟩
        rw [List.getLast?_append_of_ne_nil _ hne]
        exact hname
      obtain ⟨-, found, hfound, hparts, -⟩ :=
        (mem_selected h (rest ++ parts, content)).1 ((hall _).2 hkept)
      obtain ⟨name, parts', hparts'⟩ := List.exists_cons_of_ne_nil hne
      rw [← hrest, hparts'] at hparts
      exact not_reach_of_unlisted hunlisted
        (reach_through memory.named hreach hfound hparts)
  · intro hlisted file
    refine ⟨kept_of_selected h, fun ⟨hfile, hname⟩ => (mem_selected h file).2 ⟨hname, ?_⟩⟩
    obtain hfound | ⟨directory, parts', hdirectory, hunlisted, hbelow, hlast⟩ :=
      come_by_or_unlisted hfile [] true
    · exact hfound
    · have hexcluded := hlisted directory hdirectory hunlisted parts' file.2 hbelow
      rw [hlast] at hexcluded
      exact absurd hexcluded hname

/-- Restoring what an export wrote gives the selected files. -/
theorem export_restores {memory : MemoryDirectory} {destination : Option ArchiveFile}
    {file : ArchiveFile}
    (h : exportMemoryBackup env memory.toDirectory destination = (.ok (), some file)) :
    ∃ selected, selectFiles (sortedRglob memory.toDirectory) = .ok selected ∧
      restoreMemoryBackup env (some file) none = (.ok (), some selected) := by
  obtain ⟨selected, tree, hselected, hfile, htree⟩ := export_ok h
  have hsame : tree = selected := by
    obtain ⟨size, archive, hfile', hunpack⟩ := verifiedTree_ok htree
    rw [hfile] at hfile'
    injection Option.some.inj hfile' with hsize harchive
    rw [← Except.ok.inj harchive] at hunpack
    exact unpack_packed (selected_names hselected) hunpack
  refine ⟨selected, hselected, ?_⟩
  rw [restoreMemoryBackup, htree, hsame]

/-- Restoring the archive where there is nothing gives the kept files, and no others. -/
def Reproduces (env : BackupEnv F) (memory : Directory) (file : ArchiveFile) : Prop :=
  ∃ tree, restoreMemoryBackup env (some file) none = (.ok (), some tree) ∧
    ∀ restored, restored ∈ tree ↔ Kept memory restored

variable (env) in
/-- A backup reproduces the memory directory exactly if every directory with a file to keep
can be listed, and a restore installs what the manifest declares, or nothing. -/
theorem backup_restores :
    (∀ (memory : MemoryDirectory) (destination : Option ArchiveFile) (file : ArchiveFile),
      exportMemoryBackup env memory.toDirectory destination = (.ok (), some file) →
      (Reproduces env memory.toDirectory file ↔ AllListed memory.toDirectory)) ∧
    ∀ file : Option ArchiveFile, Outcome env file (restoreMemoryBackup env file none) := by
  refine ⟨fun memory destination file h => ?_, restore_outcome⟩
  obtain ⟨selected, hselected, hrestore⟩ := export_restores h
  rw [← selected_iff hselected, Reproduces, hrestore]
  constructor
  · intro ⟨tree, htree, hall⟩
    rw [Option.some.inj (Prod.mk.inj htree).2]
    exact hall
  · intro hall
    exact ⟨selected, rfl, hall⟩

end Backups

/-! ### A directory that cannot be listed -/

namespace Unlistable

def loads (content : ByteArray) : Except PyExc (Json Unit) := do
  let text ← decodeUtf8 content
  match Json.loads text with
  | some value => return value
  | none => throw ⟨"JSONDecodeError", "Expecting value", true⟩

/-- Verifications that find nothing, and manifests in UTF-8 only. -/
def env : BackupEnv Unit where
  digests := hexDigests
  repr := fun _ => ""
  loads := loads
  loads_utf8 := fun _ h => by
    rw [loads, decodeUtf8_toUTF8, except_ok_bind, h]
    rfl
  now := "2026-07-17T09:00:00+00:00"
  storeVerification := fun _ => .ok ⟨true, []⟩
  conversationVerification := fun _ => .ok ⟨true, []⟩
  restoredStoreVerification := fun _ => .ok ⟨true, []⟩
  restoredConversationVerification := fun _ => .ok ⟨true, []⟩
  packedSize := List.length

def stat (ino : Nat) : Stat := ⟨0o700, 1, ino, 0, 0, 0⟩

def inner (readable : Bool) : Scanner.Node :=
  .directory (stat 2) readable true [("notes.txt", .file (stat 3) "all".toUTF8 true)]

theorem inner_named (readable : Bool) : (inner readable).Named := by
  refine .directory _ _ _ (List.nodup_singleton _) (fun entry hentry => ?_) fun entry hentry => ?_
  · rw [List.mem_singleton.1 hentry]
    exact (by decide : FileName "notes.txt")
  · rw [List.mem_singleton.1 hentry]
    exact .file _ _ _

/-- A file in a directory that can be listed or not. -/
def memory (readable : Bool) : MemoryDirectory where
  toDirectory := ⟨stat 1, true, true, [("inner", inner readable)]⟩
  named := by
    refine .directory _ _ _ (List.nodup_singleton _) (fun entry hentry => ?_) fun entry hentry => ?_
    · rw [List.mem_singleton.1 hentry]
      exact (by decide : FileName "inner")
    · rw [List.mem_singleton.1 hentry]
      exact inner_named readable

/-- What the walk over the directory selects. -/
def selected (readable : Bool) : Tree :=
  if readable then [(["inner", "notes.txt"], "all".toUTF8)] else []

theorem selectFiles_memory (readable : Bool) :
    selectFiles (sortedRglob (memory readable).toDirectory) = .ok (selected readable) := by
  cases readable <;> rfl

/-- The manifest is read back by the round trip of its text; what is left to check is small. -/
theorem unpacked (readable : Bool) : (unpack env (packed env (selected readable))).isOk = true := by
  have hnodup : (namelist (packed env (selected readable))).Nodup := by
    cases readable <;> decide
  rw [unpack, readManifest_packed hnodup, except_ok_bind]
  cases readable <;> decide +kernel

theorem exported (readable : Bool) : ∃ file,
    exportMemoryBackup env (memory readable).toDirectory none = (.ok (), some file) := by
  cases htree : unpack env (packed env (selected readable)) with
  | error exc =>
      have hok := unpacked readable
      rw [htree] at hok
      cases hok
  | ok tree =>
      have hsize : ¬ maxBackupBytes < env.packedSize (packed env (selected readable)) := by
        cases readable <;> decide
      have hrestore : (restoreMemoryBackup env (some (.regular
          (env.packedSize (packed env (selected readable)))
          (.ok (packed env (selected readable))))) none).1 = .ok () := by
        rw [restoreMemoryBackup, verifiedTree, (raiseIf_ok (u := ())).2 hsize, except_ok_bind,
          except_ok_bind, htree]
        rfl
      apply export_returns
      rw [exportMemoryBackup, checkedArchive, selectFiles_memory, except_ok_bind]
      dsimp only
      rw [(raiseIf_ok (u := ())).2 hsize, except_ok_bind, hrestore]
      rfl

/-- The backup of a directory that can be listed is complete. -/
theorem backup_restores_listed : ∃ file,
    exportMemoryBackup env (memory true).toDirectory none = (.ok (), some file) ∧
      (Reproduces env (memory true).toDirectory file ↔ AllListed (memory true).toDirectory) := by
  obtain ⟨file, hfile⟩ := exported true
  exact ⟨file, hfile, (backup_restores env).1 (memory true) none file hfile⟩

/-- A backup that returns, and lacks the file that the walk did not come by. -/
theorem backup_incomplete : ∃ file,
    exportMemoryBackup env (memory false).toDirectory none = (.ok (), some file) ∧
      ¬ Reproduces env (memory false).toDirectory file := by
  obtain ⟨file, hfile⟩ := exported false
  refine ⟨file, hfile, fun ⟨tree, htree, hall⟩ => ?_⟩
  obtain ⟨selected, hselected, hrestore⟩ := export_restores hfile
  have hnone : selectFiles (sortedRglob (memory false).toDirectory) = .ok [] := rfl
  rw [hnone] at hselected
  rw [hrestore, ← Except.ok.inj hselected] at htree
  have hempty : [] = tree := Option.some.inj (Prod.mk.inj htree).2
  have hkept : Kept (memory false).toDirectory (["inner", "notes.txt"], "all".toUTF8) :=
    ⟨.deeper List.mem_cons_self (.entry List.mem_cons_self), by decide⟩
  have hmem := (hall _).2 hkept
  rw [← hempty] at hmem
  exact absurd hmem List.not_mem_nil

end Unlistable

end MemoryBackup

end MiniCodeAgent
