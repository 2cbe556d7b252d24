import MiniCodeAgent.Proofs.PrepareRuns

/-!
# Which edits a prepare accepts

A prepare compares two accounts of what has changed: the paths whose entries
differ in two snapshots, and the names Git lists. A snapshot also has the
directories, which Git does not list, and it has nothing of the directories in
`SKIP_DIRS`, where Git does look. So a verified edit is accepted exactly if no
directory came or went that a snapshot has, and no file changed that it has not.
-/

namespace MiniCodeAgent

open Prog

/-! ## What a snapshot shows -/

theorem Dict.get?_filter {α : Type} {d : Dict α} (hd : (Dict.keys d).Nodup)
    (f : String × α → Bool) (key : String) :
    Dict.get? (d.filter f) key = (Dict.get? d key).filter fun value => f (key, value) := by
  have hsub : (Dict.keys (d.filter f)).Nodup := hd.sublist (List.filter_sublist.map _)
  cases hget : Dict.get? d key with
  | none =>
      rw [Option.filter_none, Dict.get?_eq_none_iff]
      intro hmem
      exact Dict.get?_eq_none_iff.1 hget ((List.filter_sublist.map _).subset hmem)
  | some value =>
      have hmem := Dict.mem_of_get? hget
      by_cases hf : f (key, value) = true
      · rw [Option.filter_some, if_pos hf]
        exact Dict.get?_of_mem hsub (List.mem_filter.2 ⟨hmem, hf⟩)
      · rw [Option.filter_some, if_neg hf, Dict.get?_eq_none_iff]
        intro hkey
        obtain ⟨kv, hkv, hfst⟩ := List.mem_map.1 hkey
        obtain ⟨hin, hkept⟩ := List.mem_filter.1 hkv
        have hvalue := Dict.get?_of_mem hd (show (key, kv.2) ∈ d from hfst ▸ hin)
        rw [hget] at hvalue
        cases hvalue
        exact hf (hfst ▸ hkept)

theorem mem_sortPaths {paths : List String} {path : String} :
    path ∈ sortPaths paths ↔ path ∈ paths := (List.perm_insertionSort _ _).mem_iff

/-- The paths of a difference are those the two snapshots tell apart. -/
theorem mem_snapshotDiff {before after : Dict String} {path : String} :
    path ∈ (snapshotDiff before after).paths ↔
      Dict.get? before path ≠ Dict.get? after path := by
  have hbefore : path ∈ Dict.keys before ↔ Dict.get? before path ≠ none := by
    rw [Ne, Dict.get?_eq_none_iff, not_not]
  have hafter : path ∈ Dict.keys after ↔ Dict.get? after path ≠ none := by
    rw [Ne, Dict.get?_eq_none_iff, not_not]
  simp only [SnapshotDiff.paths, snapshotDiff, List.mem_append, mem_sortPaths, List.mem_filter,
    decide_eq_true_eq, hbefore, hafter]
  cases Dict.get? before path <;> cases Dict.get? after path <;> simp

/-- The entry's text in a content snapshot of the tree. -/
def shownAt (digests : Digests) (tree : Dict Entry) (path : String) : Option String :=
  ((Dict.get? tree path).filter fun node => scanned path node && path ≠ ".git").map
    (entryText digests)

/-- A tree whose paths are distinct, and controls whose names are below `.git`. -/
structure Repo.Ok (repo : Repo) : Prop where
  distinct : (Dict.keys repo.tree).Nodup
  controls : ∀ name ∈ Dict.keys repo.controls, ".git" ∈ (pathParts name).dropLast

theorem not_scanned_of_skipped {path : String} {node : Entry} {part : String}
    (hpart : part ∈ (pathParts path).dropLast) (hskip : part ∈ skipDirs) :
    scanned path node = false := by
  rw [scanned]
  refine List.all_eq_false.2 ⟨part, ?_, by simpa using hskip⟩
  split
  · exact List.mem_of_mem_dropLast hpart
  · exact hpart

theorem get?_contentSnapshot {digests : Digests} {repo : Repo} (h : repo.Ok) (path : String) :
    Dict.get? (contentSnapshot digests repo) path =
      (shownAt digests repo.tree path).or (Dict.get? (entryTexts digests repo.controls) path) := by
  have htree : (Dict.keys (repo.tree.filter fun entry => entry.1 ≠ ".git")).Nodup :=
    h.distinct.sublist (List.filter_sublist.map _)
  rw [contentSnapshot, capture, Dict.get?_append, entryTexts, Dict.get?_map,
    Dict.get?_filter htree, Dict.get?_filter h.distinct, shownAt]
  cases Dict.get? repo.tree path with
  | none => rfl
  | some node =>
      by_cases hgit : path = ".git"
      · simp [hgit]
      · simp [hgit]

/-- With the same controls, two snapshots differ where the trees show different texts. -/
theorem mem_changed {digests : Digests} {repo : Repo} {before : Dict Entry} (h : repo.Ok)
    (hbefore : (Dict.keys before).Nodup) {path : String} :
    path ∈ (snapshotDiff (contentSnapshot digests { repo with tree := before })
      (contentSnapshot digests repo)).paths ↔
      shownAt digests before path ≠ shownAt digests repo.tree path := by
  have hok : ({ repo with tree := before } : Repo).Ok := ⟨hbefore, h.controls⟩
  rw [mem_snapshotDiff, get?_contentSnapshot hok, get?_contentSnapshot h]
  cases hcontrol : Dict.get? (entryTexts digests repo.controls) path with
  | none => simp
  | some text =>
      have hname : path ∈ Dict.keys repo.controls := by
        rw [entryTexts, Dict.get?_map] at hcontrol
        by_contra hnot
        rw [Dict.get?_eq_none_iff.2 hnot] at hcontrol
        cases hcontrol
      have hhidden : ∀ tree, shownAt digests tree path = none := by
        intro tree
        rw [shownAt]
        cases Dict.get? tree path with
        | none => rfl
        | some node =>
            have hskipped : scanned path node = false :=
              not_scanned_of_skipped (h.controls path hname) (show ".git" ∈ skipDirs by decide)
            simp [hskipped]
      simp [hhidden]

/-! ## Edits -/

def Entry.isFile : Entry → Bool
  | .file _ _ _ => true
  | _ => false

/-- A regular file of UTF-8 text. -/
def Entry.IsText : Entry → Prop
  | .file _ content readable => readable = true ∧ ∃ text, decodeUtf8 content = .ok text
  | _ => False

/-- What an edit may find or leave at a path. -/
def Editable (found : Option Entry) : Prop :=
  ∀ node, found = some node → node.IsText ∨ node.isDirectory = true

/-- Text files created, modified and deleted, and directories made for them or left
empty and removed; the worktree's link to its repository stays. -/
structure TextEdit (before after : Dict Entry) : Prop where
  editable : ∀ path, Dict.get? before path ≠ Dict.get? after path →
    Editable (Dict.get? before path) ∧ Editable (Dict.get? after path)
  directories : ∀ path node node', Dict.get? before path = some node →
    Dict.get? after path = some node' → node.isDirectory = true → node'.isDirectory = true →
    node = node'

/-- The entry at the path has changed, and it is a regular file before or after. -/
def FileChange (before after : Dict Entry) (path : String) : Prop :=
  Dict.get? before path ≠ Dict.get? after path ∧
    ((Dict.get? before path).any Entry.isFile = true ∨ (Dict.get? after path).any Entry.isFile = true)

/-- A directory is there before or after, and nothing on the other side. -/
def DirectoryChange (before after : Dict Entry) (path : String) : Prop :=
  ∃ node : Entry, node.isDirectory = true ∧
    (Dict.get? before path = some node ∧ Dict.get? after path = none ∨
      Dict.get? before path = none ∧ Dict.get? after path = some node)

/-- A scan does not get to a file of this name. -/
def FileSkipped (path : String) : Prop :=
  path = ".git" ∨ ∃ part ∈ (pathParts path).dropLast, part ∈ skipDirs

/-- A scan does not get to a directory of this name. -/
def DirectorySkipped (path : String) : Prop :=
  path = ".git" ∨ ∃ part ∈ pathParts path, part ∈ skipDirs

/-- What both accounts of an edit have alike: no directory comes or goes that a scan
gets to, and every changed file is one it gets to and tells apart. -/
structure Representable (digests : Digests) (before after : Dict Entry) : Prop where
  directories : ∀ path, DirectoryChange before after path → DirectorySkipped path
  files : ∀ path, FileChange before after path → ¬ FileSkipped path ∧
    ∀ node node', Dict.get? before path = some node → Dict.get? after path = some node' →
      entryText digests node ≠ entryText digests node'

theorem shown_file {digests : Digests} {tree : Dict Entry} {path : String} {node : Entry}
    (hget : Dict.get? tree path = some node) (hfile : node.isDirectory = false) :
    shownAt digests tree path = none ↔ FileSkipped path := by
  rw [shownAt, hget]
  have hparts : scanned path node = true ↔ ¬ ∃ part ∈ (pathParts path).dropLast, part ∈ skipDirs := by
    rw [scanned]
    simp [hfile, List.all_eq_true]
  by_cases hgit : path = ".git"
  · simp [FileSkipped, hgit]
  · by_cases hscan : scanned path node = true
    · simp [FileSkipped, hgit, hscan, hparts.1 hscan]
    · simp [FileSkipped, hgit, hscan]
      exact not_not.1 fun h => hscan (hparts.2 h)

theorem shown_directory {digests : Digests} {tree : Dict Entry} {path : String} {node : Entry}
    (hget : Dict.get? tree path = some node) (hdir : node.isDirectory = true) :
    shownAt digests tree path = none ↔ DirectorySkipped path := by
  rw [shownAt, hget]
  have hparts : scanned path node = true ↔ ¬ ∃ part ∈ pathParts path, part ∈ skipDirs := by
    rw [scanned]
    simp [hdir, List.all_eq_true]
  by_cases hgit : path = ".git"
  · simp [DirectorySkipped, hgit]
  · by_cases hscan : scanned path node = true
    · simp [DirectorySkipped, hgit, hscan, hparts.1 hscan]
    · simp [DirectorySkipped, hgit, hscan]
      exact not_not.1 fun h => hscan (hparts.2 h)

theorem shown_absent {digests : Digests} {tree : Dict Entry} {path : String}
    (hget : Dict.get? tree path = none) : shownAt digests tree path = none := by
  rw [shownAt, hget]
  rfl

/-- A snapshot that has the path at all has the entry's text for it. -/
theorem shown_present {digests : Digests} {tree : Dict Entry} {path : String} {node : Entry}
    (hget : Dict.get? tree path = some node) (hshown : shownAt digests tree path ≠ none) :
    shownAt digests tree path = some (entryText digests node) := by
  rw [shownAt, hget] at hshown ⊢
  rw [Option.filter_some] at hshown ⊢
  split at hshown
  · next h => rw [if_pos h, Option.map_some]
  · exact absurd rfl hshown

theorem entryText_file_ne_directory {digests : Digests} {node node' : Entry}
    (hfile : node.isFile = true) (hdir : node'.isDirectory = true) :
    entryText digests node ≠ entryText digests node' := by
  cases node with
  | file mode content readable =>
      cases node' with
      | directory mode' =>
          intro heq
          have hchars := congrArg (fun text => text.toList.head?) heq
          cases readable <;> simp [entryText] at hchars
      | file => cases hdir
      | symlink => cases hdir
      | special => cases hdir
      | unreadable => cases hdir
  | directory => cases hfile
  | symlink => cases hfile
  | special => cases hfile
  | unreadable => cases hfile

theorem Entry.IsText.isFile {node : Entry} (h : node.IsText) : node.isFile = true := by
  cases node with
  | file => rfl
  | directory => exact h.elim
  | symlink => exact h.elim
  | special => exact h.elim
  | unreadable => exact h.elim

theorem not_directory_of_isFile {node : Entry} (h : node.isFile = true) :
    node.isDirectory = false := by
  cases node with
  | file => rfl
  | directory => cases h
  | symlink => rfl
  | special => rfl
  | unreadable => rfl

theorem FileSkipped.directory {path : String} (h : FileSkipped path) : DirectorySkipped path := by
  cases h with
  | inl h => exact .inl h
  | inr h =>
      obtain ⟨part, hpart, hskip⟩ := h
      exact .inr ⟨part, List.mem_of_mem_dropLast hpart, hskip⟩

section Edits

variable {digests : Digests} {before after : Dict Entry}

/-- Nothing is shown at a path where a file is skipped. -/
theorem shown_skipped {tree : Dict Entry} {path : String} (h : FileSkipped path)
    (hnode : Editable (Dict.get? tree path)) : shownAt digests tree path = none := by
  cases hget : Dict.get? tree path with
  | none => exact shown_absent hget
  | some node =>
      cases hnode node hget with
      | inl htext => exact (shown_file hget (not_directory_of_isFile htext.isFile)).2 h
      | inr hdir => exact (shown_directory hget hdir).2 h.directory

theorem FileChange.symm {path : String} (h : FileChange before after path) :
    FileChange after before path := ⟨h.1.symm, h.2.symm⟩

/-- A file that is not skipped shows, and what is on the other side does not show the same. -/
theorem shown_ne_of_file {tree other : Dict Entry} {path : String} {node : Entry}
    (hget : Dict.get? tree path = some node) (hfile : node.isFile = true)
    (hskip : ¬ FileSkipped path)
    (htext : ∀ node', Dict.get? other path = some node' →
      entryText digests node ≠ entryText digests node') :
    shownAt digests tree path ≠ shownAt digests other path := by
  have hshows : shownAt digests tree path ≠ none := fun h =>
    hskip ((shown_file hget (not_directory_of_isFile hfile)).1 h)
  rw [shown_present hget hshows]
  cases hother : Dict.get? other path with
  | none =>
      rw [shown_absent hother]
      simp
  | some node' =>
      by_cases hnone : shownAt digests other path = none
      · rw [hnone]
        simp
      · rw [shown_present hother hnone]
        intro heq
        exact htext node' hother (Option.some.inj heq)

theorem shown_ne_of_fileChange (h : Representable digests before after) {path : String}
    (hchange : FileChange before after path) :
    shownAt digests before path ≠ shownAt digests after path := by
  obtain ⟨hskip, htext⟩ := h.files path hchange
  cases hchange.2 with
  | inl hfile =>
      obtain ⟨node, hget, hfile⟩ := (Option.any_eq_true _ _).1 hfile
      exact shown_ne_of_file hget hfile hskip fun node' hget' => htext node node' hget hget'
  | inr hfile =>
      obtain ⟨node, hget, hfile⟩ := (Option.any_eq_true _ _).1 hfile
      exact (shown_ne_of_file hget hfile hskip
        fun node' hget' => (htext node' node hget' hget).symm).symm

theorem any_isFile {found : Option Entry} {node : Entry} (h : found = some node)
    (hfile : node.isFile = true) : found.any Entry.isFile = true :=
  (Option.any_eq_true _ _).2 ⟨node, h, hfile⟩

/-- Where a text edit shows, and no directory that shows comes or goes, a file changed. -/
theorem fileChange_of_shown_ne (hedit : TextEdit before after)
    (hdirectories : ∀ path, DirectoryChange before after path → DirectorySkipped path)
    {path : String} (hne : shownAt digests before path ≠ shownAt digests after path) :
    FileChange before after path := by
  have hget : Dict.get? before path ≠ Dict.get? after path := by
    intro heq
    rw [shownAt, shownAt, heq] at hne
    exact hne rfl
  obtain ⟨hbefore, hafter⟩ := hedit.editable path hget
  refine ⟨hget, ?_⟩
  cases hb : Dict.get? before path with
  | none =>
      cases ha : Dict.get? after path with
      | none => exact absurd (hb.trans ha.symm) hget
      | some node =>
          cases hafter node ha with
          | inl htext => exact .inr (any_isFile rfl htext.isFile)
          | inr hdir =>
              have hskip := hdirectories path ⟨node, hdir, .inr ⟨hb, ha⟩⟩
              exact absurd ((shown_absent hb).trans ((shown_directory ha hdir).2 hskip).symm) hne
  | some node =>
      cases hbefore node hb with
      | inl htext => exact .inl (any_isFile rfl htext.isFile)
      | inr hdir =>
          cases ha : Dict.get? after path with
          | none =>
              have hskip := hdirectories path ⟨node, hdir, .inl ⟨hb, ha⟩⟩
              exact absurd (((shown_directory hb hdir).2 hskip).trans (shown_absent ha).symm) hne
          | some node' =>
              cases hafter node' ha with
              | inl htext => exact .inr (any_isFile rfl htext.isFile)
              | inr hdir' =>
                  have hsame := hedit.directories path node node' hb ha hdir hdir'
                  rw [hsame] at hb
                  exact absurd (hb.trans ha.symm) hget

/-- The two accounts agree on a directory's coming or going only if it is skipped. -/
theorem directorySkipped_of_agree
    (h : ∀ path, FileChange before after path ↔ shownAt digests before path ≠ shownAt digests after path)
    {path : String} (hchange : DirectoryChange before after path) : DirectorySkipped path := by
  obtain ⟨node, hdir, hget⟩ := hchange
  have hnot : ¬ FileChange before after path := by
    intro hfile
    have hdirfile : ∀ node : Entry, node.isDirectory = true → node.isFile = false := by
      intro node h
      cases node <;> first | rfl | cases h
    obtain ⟨hb, ha⟩ | ⟨hb, ha⟩ := hget <;>
      simp [FileChange, hb, ha, hdirfile node hdir] at hfile
  have hsame : shownAt digests before path = shownAt digests after path :=
    not_not.1 fun hne => hnot ((h path).2 hne)
  obtain ⟨hb, ha⟩ | ⟨hb, ha⟩ := hget
  · rw [shown_absent ha] at hsame
    exact (shown_directory hb hdir).1 hsame
  · rw [shown_absent hb] at hsame
    exact (shown_directory ha hdir).1 hsame.symm

/-- The two accounts agree on a changed file only if it is shown, and shown differently. -/
theorem files_of_agree (hedit : TextEdit before after)
    (h : ∀ path, FileChange before after path ↔ shownAt digests before path ≠ shownAt digests after path)
    {path : String} (hchange : FileChange before after path) : ¬ FileSkipped path ∧
      ∀ node node', Dict.get? before path = some node → Dict.get? after path = some node' →
        entryText digests node ≠ entryText digests node' := by
  have hne := (h path).1 hchange
  obtain ⟨hbefore, hafter⟩ := hedit.editable path hchange.1
  have hskip : ¬ FileSkipped path := fun hskip =>
    hne ((shown_skipped hskip hbefore).trans (shown_skipped hskip hafter).symm)
  refine ⟨hskip, fun node node' hb ha heq => ?_⟩
  by_cases hfile : node.isFile = true
  · by_cases hfile' : node'.isFile = true
    · have hshows : shownAt digests before path ≠ none := fun hnone =>
        hskip ((shown_file hb (not_directory_of_isFile hfile)).1 hnone)
      have hshows' : shownAt digests after path ≠ none := fun hnone =>
        hskip ((shown_file ha (not_directory_of_isFile hfile')).1 hnone)
      rw [shown_present hb hshows, shown_present ha hshows', heq] at hne
      exact hne rfl
    · have hdir := (hafter node' ha).resolve_left fun htext => hfile' htext.isFile
      exact entryText_file_ne_directory hfile hdir heq
  · have hdir := (hbefore node hb).resolve_left fun htext => hfile htext.isFile
    have hfile' : node'.isFile = true := by
      have hany := hchange.2
      rw [hb, ha, Option.any_some, Option.any_some] at hany
      exact hany.resolve_left hfile
    exact entryText_file_ne_directory hfile' hdir heq.symm

theorem representable_iff (hedit : TextEdit before after) :
    (∀ path, FileChange before after path ↔ shownAt digests before path ≠ shownAt digests after path) ↔
      Representable digests before after := by
  constructor
  · intro h
    exact ⟨fun path hchange => directorySkipped_of_agree h hchange,
      fun path hchange => files_of_agree hedit h hchange⟩
  · intro h path
    exact ⟨shown_ne_of_fileChange h, fileChange_of_shown_ne hedit h.directories⟩

end Edits

/-! ## The prepare of a verified edit -/

theorem samePaths_iff {a b : List String} :
    samePaths a b = true ↔ ∀ path, path ∈ a ↔ path ∈ b := by
  simp only [samePaths, Bool.and_eq_true, List.all_eq_true, decide_eq_true_eq]
  constructor
  · intro h path
    exact ⟨h.1 path, h.2 path⟩
  · intro h
    exact ⟨fun path => (h path).1, fun path => (h path).2⟩

section Prepare

variable {F : Type} [Json.PyFloat F]
variable (git : Git) (pid : Nat) (P : Platform F) (id : String)

/-- The workspace with its untracked files announced to Git. -/
def announced (repo : Repo) : Repo := { repo with intents := repo.intents ++ git.untracked repo }

/-- An open transaction whose agent has submitted a verified text edit of its
workspace, of which Git lists the changed files. -/
structure VerifiedEdit (trajectory : Json F) (w : TxWorld) (manifest : Manifest F)
    (baseline : Baseline) (before : Dict Entry) (repo : Repo) : Prop where
  unlocked : w.holder = none
  loaded : ∃ data, w.files .manifest = some data ∧ data.size ≤ maxStateFileBytes ∧
    decodeManifest P id data = .ok manifest
  isOpen : Dict.get? manifest "status" = some (.str "open")
  workspace : w.workspace = some repo
  ok : repo.Ok
  distinct : (Dict.keys before).Nodup
  stored : ∃ data, w.files .baseline = some data ∧ data.size ≤ maxStateFileBytes ∧
    decodeBaseline (F := F) data = .ok baseline
  baselineFiles : baseline.workspaceFiles = contentSnapshot P.digests { repo with tree := before }
  submitted : pyGet trajectory "exit_status" .null = .ok (.str "Submitted")
  bound : boundToWorkspace trajectory (fingerprint F P.digests (capture P.digests repo)) = true
  edit : TextEdit before repo.tree
  names : ∀ path, path ∈ git.diffNames (announced git repo) ↔ FileChange before repo.tree path

/-- What a prepare of the edit sees, and the receipt it issues. -/
def editSteps (w : TxWorld) (manifest : Manifest F) (baseline : Baseline) (repo : Repo)
    (receipt receiptId : Json F) (issued : TxWorld) : PrepareSteps F where
  manifest := manifest
  files := capture P.digests repo
  intended := { w.held pid with workspace := some (announced git repo) }
  content := contentSnapshot P.digests repo
  baseline := baseline
  patch := git.diff (announced git repo)
  receipt := receipt
  receiptId := receiptId
  issued := issued

/-- The documents a prepare writes can be made: the patch is text, the trajectory is
one a receipt can be issued for, and each has the size of a state file. -/
structure Writes (trajectory : Json F) (x : PrepareSteps F) : Prop where
  isText : ∃ text, decodeUtf8 x.patch = .ok text
  patchSize : x.patch.size ≤ maxStateFileBytes
  trajectorySize : (jsonBytes trajectory).size ≤ maxStateFileBytes
  issue : Run (Answers (answer P.digests git pid)) (issueReceipt P (x.prepared P) trajectory)
    (x.written trajectory) (.ok x.receipt) x.issued
  receiptId : pyItem "receipt_id" x.receipt = .ok x.receiptId
  manifestSize : (jsonBytes (.obj (x.final P) : Json F)).size ≤ maxStateFileBytes

def Writable (trajectory : Json F) (w : TxWorld) (manifest : Manifest F) (baseline : Baseline)
    (repo : Repo) : Prop :=
  ∃ receipt receiptId issued,
    Writes git pid P trajectory (editSteps git pid P w manifest baseline repo receipt receiptId issued)

/-- `prepare` returns, and the manifest it returns is prepared. -/
def Accepts (trajectory : Json F) (w : TxWorld) : Prop :=
  ∃ manifest' w', Run (Answers (answer P.digests git pid)) (prepare P id trajectory) w
    (.ok manifest') w' ∧ Dict.get? manifest' "status" = some (.str "prepared")

variable {git pid P id} {trajectory : Json F} {w : TxWorld} {manifest : Manifest F}
variable {baseline : Baseline} {before : Dict Entry} {repo : Repo}

/-- The two accounts agree as lists of paths if they agree on each path. -/
theorem samePaths_edit (h : VerifiedEdit git P id trajectory w manifest baseline before repo) :
    samePaths (git.diffNames (announced git repo))
      (snapshotDiff baseline.workspaceFiles (contentSnapshot P.digests repo)).paths = true ↔
      Representable P.digests before repo.tree := by
  rw [samePaths_iff, h.baselineFiles, ← representable_iff h.edit]
  constructor
  · intro hsame path
    exact (h.names path).symm.trans ((hsame path).trans (mem_changed h.ok h.distinct))
  · intro hagree path
    exact (h.names path).trans ((hagree path).trans (mem_changed h.ok h.distinct).symm)

/-- What such a prepare saw is what there is. -/
theorem prepares_edit (h : VerifiedEdit git P id trajectory w manifest baseline before repo)
    {x : PrepareSteps F} {w' : TxWorld}
    (hx : Prepares (Answers (answer P.digests git pid)) P.digests git pid P id trajectory w x w') :
    x = editSteps git pid P w manifest baseline repo x.receipt x.receiptId x.issued := by
  obtain ⟨data, hdata, -, hmanifest⟩ := h.loaded
  obtain ⟨data', hdata', -, hmanifest'⟩ := hx.loaded
  obtain ⟨stored, hstored, -, hbaseline⟩ := h.stored
  obtain ⟨stored', hstored', -, hbaseline'⟩ := hx.baseline
  obtain ⟨paths, hpaths, hintend⟩ := hx.intents
  rw [hdata] at hdata'
  cases hdata'
  rw [hstored] at hstored'
  cases hstored'
  rw [h.workspace, Option.map_some, Option.some.injEq] at hpaths
  have hintended : x.intended = { w.held pid with workspace := some (announced git repo) } := by
    rw [TxWorld.intend, TxWorld.held, h.workspace, Option.map_some, Option.some.injEq, ← hpaths]
      at hintend
    rw [← hintend]
    rfl
  have hfiles := hx.files
  rw [h.workspace, Option.map_some, Option.some.injEq] at hfiles
  have hcontent := hx.content
  rw [hintended, Option.map_some, Option.some.injEq] at hcontent
  have hdiff := hx.diff
  rw [hintended, Option.map_some, Option.some.injEq] at hdiff
  obtain ⟨xmanifest, xfiles, xintended, xcontent, xbaseline, xpatch, xreceipt, xid, xissued⟩ := x
  simp only at hmanifest' hbaseline' hintended hfiles hcontent hdiff ⊢
  rw [hmanifest] at hmanifest'
  rw [hbaseline] at hbaseline'
  cases hmanifest'
  cases hbaseline'
  rw [hintended, ← hfiles, ← hcontent, ← hdiff]
  rfl

/-- A verified edit that both accounts have alike is prepared, if the documents can be
written. -/
theorem accepts_of_representable
    (h : VerifiedEdit git P id trajectory w manifest baseline before repo)
    (hrep : Representable P.digests before repo.tree)
    (hwrite : Writable git pid P trajectory w manifest baseline repo) :
    Accepts git pid P id trajectory w := by
  obtain ⟨receipt, receiptId, issued, hwrites⟩ := hwrite
  have hintend : (w.held pid).intend (git.untracked repo) =
      some { w.held pid with workspace := some (announced git repo) } := by
    rw [TxWorld.intend, TxWorld.held, h.workspace]
    rfl
  have hworkspace {α : Type} (f : Repo → α) : w.workspace.map f = some (f repo) := by
    rw [h.workspace, Option.map_some]
  have hprepares : Prepares (Answers (answer P.digests git pid)) P.digests git pid P id trajectory w
      (editSteps git pid P w manifest baseline repo receipt receiptId issued) _ := {
    lock := h.unlocked
    loaded := h.loaded
    wasOpen := h.isOpen
    files := hworkspace _
    submitted := h.submitted
    bound := h.bound
    intents := ⟨_, hworkspace _, hintend⟩
    content := rfl
    baseline := h.stored
    represented := ⟨_, rfl, (samePaths_edit h).2 hrep⟩
    diff := rfl
    isText := hwrites.isText
    patchSize := hwrites.patchSize
    trajectorySize := hwrites.trajectorySize
    issue := hwrites.issue
    receiptId := hwrites.receiptId
    manifestSize := hwrites.manifestSize
    left := rfl }
  exact ⟨_, _, hprepares.run answers_okAnswers, PrepareSteps.final_status _⟩

theorem representable_of_accepts
    (h : VerifiedEdit git P id trajectory w manifest baseline before repo)
    (haccepts : Accepts git pid P id trajectory w) :
    Representable P.digests before repo.tree ∧
      Writable git pid P trajectory w manifest baseline repo := by
  obtain ⟨manifest', w', hrun, hstatus⟩ := haccepts
  obtain ⟨x, hx, -⟩ := prepares_of_run answers_okAnswers hrun hstatus
  have hsteps := prepares_edit h hx
  obtain ⟨paths, hpaths, hsame⟩ := hx.represented
  have hwrites : Writes git pid P trajectory x :=
    ⟨hx.isText, hx.patchSize, hx.trajectorySize, hx.issue, hx.receiptId, hx.manifestSize⟩
  generalize x.receipt = receipt, x.receiptId = receiptId, x.issued = issued at hsteps
  subst hsteps
  rw [show paths = git.diffNames (announced git repo) from (Option.some.inj hpaths).symm] at hsame
  exact ⟨(samePaths_edit h).1 hsame, receipt, receiptId, issued, hwrites⟩

/-- A prepare of a verified edit records it as prepared exactly if no directory came or
went that a scan gets to, every changed file is one it gets to and tells apart, and the
documents can be written. -/
theorem prepare_accepts (h : VerifiedEdit git P id trajectory w manifest baseline before repo) :
    Accepts git pid P id trajectory w ↔
      Representable P.digests before repo.tree ∧
        Writable git pid P trajectory w manifest baseline repo := by
  constructor
  · exact representable_of_accepts h
  · intro hboth
    exact accepts_of_representable h hboth.1 hboth.2

end Prepare

namespace Small

theorem ok_repo {tree : Dict Entry} (h : (Dict.keys tree).Nodup) : (repo tree).Ok :=
  ⟨h, fun _ hname => by cases hname⟩

theorem isText_file (mode : Nat) (text : String) : (Entry.file mode text.toUTF8 true).IsText :=
  ⟨rfl, text, decodeUtf8_toUTF8 text⟩

theorem editable_before (path : String) : Editable (Dict.get? before path) := by
  intro node hget
  rw [before, Dict.get?_cons] at hget
  split at hget
  · cases hget
    exact .inl (isText_file _ _)
  · cases hget

theorem get?_after (path : String) : Dict.get? after path =
    if "a.txt" = path then some (.file 0o644 "b\n".toUTF8 true) else none := rfl

theorem get?_before (path : String) : Dict.get? before path =
    if "a.txt" = path then some (.file 0o644 "a\n".toUTF8 true) else none := rfl

theorem edit_after : TextEdit before after where
  editable path _ := by
    refine ⟨editable_before path, fun node hget => ?_⟩
    rw [get?_after] at hget
    split at hget
    · cases hget
      exact .inl (isText_file _ _)
    · cases hget
  directories path node node' hget _ hdir _ := by
    rw [get?_before] at hget
    split at hget
    · cases hget
      cases hdir
    · cases hget

theorem verifiedEdit : VerifiedEdit git platform id trajectory world manifest baseline before
    (repo after) where
  unlocked := rfl
  loaded := ⟨_, rfl, manifest_fits, manifest_loaded.decode⟩
  isOpen := rfl
  workspace := rfl
  ok := ok_repo (by decide)
  distinct := by decide
  stored := ⟨_, rfl, fits (le_trans baseline_room (by decide)), baseline_decode⟩
  baselineFiles := (content_eq before (Or.inl rfl)).symm
  submitted := rfl
  bound := by
    unfold boundToWorkspace
    rw [Bool.and_eq_true]
    exact ⟨rfl, (Json.pyEq_str_right _ _).2 rfl⟩
  edit := edit_after
  names path := by
    have hnames : git.diffNames (announced git (repo after)) = ["a.txt"] := represented_eq
    rw [hnames, FileChange, show (repo after).tree = after from rfl, get?_before, get?_after,
      List.mem_singleton]
    by_cases hpath : "a.txt" = path
    · rw [if_pos hpath, if_pos hpath]
      simp only [hpath, true_iff]
      exact ⟨by decide +kernel, .inl rfl⟩
    · rw [if_neg hpath, if_neg hpath]
      simp [Ne.symm hpath]

theorem prepare_accepts_sample :
    Accepts git 0 platform id trajectory world ∧ Representable hexDigests before after ∧
      Writable git 0 platform trajectory world manifest baseline (repo after) := by
  have haccepts : Accepts git 0 platform id trajectory world :=
    ⟨_, _, (prepares answers_okAnswers).run answers_okAnswers, PrepareSteps.final_status _⟩
  exact ⟨haccepts, (prepare_accepts verifiedEdit).1 haccepts⟩

/-! ### A file in a new directory -/

def grown : Dict Entry := before ++
  [("pkg", .directory 0o755), ("pkg/b.txt", .file 0o644 "b\n".toUTF8 true)]

/-- Git lists the file. -/
def growingGit : Git := { git with diffNames := fun _ => ["pkg/b.txt"] }

def grownTrajectory : Json Unit := .obj [("exit_status", .str "Submitted"),
  ("verification_status", .str "passed"), ("verified_fingerprint", .str (print grown))]

def grownWorld : TxWorld := { world with workspace := some (repo grown) }

theorem get?_grown (path : String) : Dict.get? grown path =
    if "a.txt" = path then some (.file 0o644 "a\n".toUTF8 true)
    else if "pkg" = path then some (.directory 0o755)
    else if "pkg/b.txt" = path then some (.file 0o644 "b\n".toUTF8 true) else none := rfl

theorem edit_grown : TextEdit before grown where
  editable path _ := by
    refine ⟨editable_before path, fun node hget => ?_⟩
    rw [get?_grown] at hget
    split at hget
    · cases hget
      exact .inl (isText_file _ _)
    · split at hget
      · cases hget
        exact .inr rfl
      · split at hget
        · cases hget
          exact .inl (isText_file _ _)
        · cases hget
  directories path node node' hget _ hdir _ := by
    rw [get?_before] at hget
    split at hget
    · cases hget
      cases hdir
    · cases hget

theorem verifiedEdit_grown : VerifiedEdit growingGit platform id grownTrajectory grownWorld
    manifest baseline before (repo grown) where
  unlocked := rfl
  loaded := ⟨_, rfl, manifest_fits, manifest_loaded.decode⟩
  isOpen := rfl
  workspace := rfl
  ok := ok_repo (by decide)
  distinct := by decide
  stored := ⟨_, rfl, fits (le_trans baseline_room (by decide)), baseline_decode⟩
  baselineFiles := (content_eq before (Or.inl rfl)).symm
  submitted := rfl
  bound := by
    unfold boundToWorkspace
    rw [Bool.and_eq_true]
    exact ⟨rfl, (Json.pyEq_str_right _ _).2 rfl⟩
  edit := edit_grown
  names path := by
    rw [show growingGit.diffNames (announced growingGit (repo grown)) = ["pkg/b.txt"] from rfl,
      FileChange, show (repo grown).tree = grown from rfl, get?_before, get?_grown,
      List.mem_singleton]
    by_cases ha : "a.txt" = path
    · subst ha
      simp
    · by_cases hpkg : "pkg" = path
      · subst hpkg
        simp [Entry.isFile]
      · by_cases hb : "pkg/b.txt" = path
        · subst hb
          simp [Entry.isFile]
        · simp [ha, hpkg, hb, Ne.symm hb]

/-- A new file in a new directory is not accepted. -/
theorem prepare_rejects_grown :
    VerifiedEdit growingGit platform id grownTrajectory grownWorld manifest baseline before
      (repo grown) ∧
    ¬ Accepts growingGit 0 platform id grownTrajectory grownWorld := by
  refine ⟨verifiedEdit_grown, fun haccepts => ?_⟩
  have hrep := (representable_of_accepts verifiedEdit_grown haccepts).1
  obtain hgit | ⟨part, hpart, hskip⟩ :=
    hrep.directories "pkg" ⟨.directory 0o755, rfl, .inr ⟨rfl, rfl⟩⟩
  · exact absurd hgit (by decide)
  · rw [show pathParts "pkg" = ["pkg"] from rfl, List.mem_singleton] at hpart
    rw [hpart] at hskip
    exact absurd hskip (by decide)

end Small

end MiniCodeAgent
