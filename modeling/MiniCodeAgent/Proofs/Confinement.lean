import MiniCodeAgent.Proofs.Paths
import MiniCodeAgent.SafeWorkspace

/-!
# What a path of a workspace leads to

`resolve` takes a path apart twice: once as a text, where `..` takes back the part before
it, and once on disk, where it must not meet a symbolic link. Links are followed here the
way the kernel follows them, through the whole file system the workspace is a part of, and
a path that `resolve` returns has none to follow: it leads to where it says.
-/

namespace MiniCodeAgent

open Scanner TransactionAdapter

/-! ## The lexical part -/

/-- `os.path.abspath` of a path that is given in the workspace. -/
def abspath (cwd : ResolvedPath) (path : PyPath) : PyPath :=
  let candidate : PyPath :=
    if path.isAbsolute then path else { cwd.toPyPath with parts := cwd.parts ++ path.parts }
  { candidate with parts := normalParts candidate.parts }

/-- The parts of a path below the workspace, links aside. -/
def relativeParts (cwd : ResolvedPath) (text : String) : Option (List String) :=
  ((abspath cwd (PyPath.ofString text)).relativeTo cwd.toPyPath).map PyPath.parts

/-- What is left of the parts in front, and what has come behind them. -/
theorem foldl_normal (base parts : List String) :
    ∃ kept added, parts.foldl (fun normal part =>
        if part = ".." then normal.dropLast else normal ++ [part]) base =
      base.take kept ++ added ∧ ∀ part ∈ added, part ∈ parts ∧ part ≠ ".." := by
  induction parts generalizing base with
  | nil => exact ⟨base.length, [], by simp, fun part hpart => absurd hpart List.not_mem_nil⟩
  | cons part parts ih =>
      rw [List.foldl_cons]
      by_cases hup : part = ".."
      · rw [if_pos hup]
        obtain ⟨kept, added, hfold, hadded⟩ := ih base.dropLast
        refine ⟨min kept (base.length - 1), added, ?_, fun x hx =>
          ⟨List.mem_cons_of_mem _ (hadded x hx).1, (hadded x hx).2⟩⟩
        rw [hfold, List.dropLast_eq_take, List.take_take]
      · rw [if_neg hup]
        obtain ⟨kept, added, hfold, hadded⟩ := ih (base ++ [part])
        by_cases hkept : kept ≤ base.length
        · refine ⟨kept, added, ?_, fun x hx =>
            ⟨List.mem_cons_of_mem _ (hadded x hx).1, (hadded x hx).2⟩⟩
          rw [hfold, List.take_append_of_le_length hkept]
        · refine ⟨base.length, part :: added, ?_, fun x hx => ?_⟩
          · rw [hfold, List.take_of_length_le (by simp; omega)]
            simp
          · rcases List.mem_cons.1 hx with rfl | hx
            · exact ⟨List.mem_cons_self, hup⟩
            · exact ⟨List.mem_cons_of_mem _ (hadded x hx).1, (hadded x hx).2⟩

theorem ofString_names {text part : String} (h : part ∈ (PyPath.ofString text).parts)
    (hup : part ≠ "..") : FileName part := by
  obtain ⟨hpart, hplain⟩ := List.mem_filter.1 h
  have hplain := of_decide_eq_true hplain
  exact ⟨hplain.1, hplain.2, hup, slash_of_mem_pathParts hpart⟩

/-- What an absolute path has behind the workspace's comes from the path as it was given. -/
theorem drop_abspath {cwd : ResolvedPath} {path : PyPath} {part : String}
    (h : part ∈ (abspath cwd path).parts.drop cwd.parts.length) :
    part ∈ path.parts ∧ part ≠ ".." := by
  unfold abspath at h
  by_cases habsolute : path.isAbsolute = true
  · simp only [habsolute, if_true] at h
    obtain ⟨kept, added, hfold, hadded⟩ := foldl_normal [] path.parts
    rw [normalParts, hfold, List.take_nil, List.nil_append] at h
    exact hadded part (List.mem_of_mem_drop h)
  · simp only [habsolute, Bool.false_eq_true, if_false] at h
    obtain ⟨kept, added, hfold, hadded⟩ := foldl_normal cwd.parts path.parts
    have hdrop : (cwd.parts.take kept ++ added).drop cwd.parts.length <:+ added := by
      rw [List.drop_append, List.drop_eq_nil_of_le (by simp), List.nil_append]
      exact List.drop_suffix _ _
    rw [normalParts, List.foldl_append, normalParts_append_plain cwd.plain, List.nil_append,
      hfold] at h
    exact hadded part (hdrop.subset h)

/-- The parts below the workspace are names: nothing that could lead up again is left. -/
theorem relativeParts_names {cwd : ResolvedPath} {text : String} {parts : List String}
    (h : relativeParts cwd text = some parts) : ∀ part ∈ parts, FileName part := by
  obtain ⟨relative, hrelative, rfl⟩ := Option.map_eq_some_iff.1 h
  unfold PyPath.relativeTo at hrelative
  split at hrelative
  · obtain rfl := Option.some.inj hrelative
    intro part hpart
    have hmem := drop_abspath hpart
    exact ofString_names hmem.1 hmem.2
  · cases hrelative

theorem abspath_eq {cwd : ResolvedPath} {text : String} {parts : List String}
    (h : relativeParts cwd text = some parts) :
    abspath cwd (PyPath.ofString text) = ⟨cwd.root, cwd.parts ++ parts⟩ := by
  obtain ⟨relative, hrelative, rfl⟩ := Option.map_eq_some_iff.1 h
  unfold PyPath.relativeTo at hrelative
  split at hrelative
  · next hinside =>
      obtain rfl := Option.some.inj hrelative
      obtain ⟨hroot, rest, hparts⟩ := hinside
      rw [← hparts, List.drop_left, hparts, ← hroot]
  · cases hrelative

/-- Written down relative to the workspace, the parts are read as they are. -/
theorem relativeParts_posixText {cwd : ResolvedPath} {parts : List String}
    (hnames : ∀ part ∈ parts, FileName part) :
    relativeParts cwd (posixText parts) = some parts := by
  have hpath : PyPath.ofString (posixText parts) = ⟨"", parts⟩ := by
    by_cases hne : parts = []
    · subst hne
      rfl
    · exact ofString_posixText hne hnames
  have hplain : ".." ∉ cwd.parts ++ parts := by
    intro hmem
    exact (List.mem_append.1 hmem).elim cwd.plain fun hpart => (hnames _ hpart).2.2.1 rfl
  have habspath : abspath cwd ⟨"", parts⟩ = ⟨cwd.root, cwd.parts ++ parts⟩ := by
    rw [abspath, if_neg (by simp [PyPath.isAbsolute]), normalParts_plain hplain]
  rw [relativeParts, hpath, habspath]
  simp [PyPath.relativeTo]

/-! ## The part on disk -/

namespace FileTree

variable {t : FileTree} {cwd : ResolvedPath}

/-- What the loop of `resolve` lets through: a name the system takes, on a way of
directories, and no symbolic link. -/
structure Passable (t : FileTree) (below : List String) : Prop where
  plain : (below.any fun name => '\x00' ∈ name.toList) = false
  clear : t.obstructed below = false
  unlinked : ∀ target, t.node below ≠ some (.symlink target)

theorem checkPart_ok {text : String} {below : List String} :
    t.checkPart cwd text below = .ok () ↔ t.Passable below := by
  have hlstat : ∀ found, t.lstat cwd below = .ok found ↔
      (below.any fun name => '\x00' ∈ name.toList) = false ∧ t.obstructed below = false ∧
        found = t.node below := by
    intro found
    unfold lstat
    split
    · next hnull => simp [hnull]
    · next hnull =>
        split
        · next hobstructed => simp [hobstructed]
        · next hobstructed =>
            simp only [Bool.not_eq_true] at hnull hobstructed
            simp [hnull, hobstructed, eq_comm]
  constructor
  · intro h
    obtain ⟨found, hfound, h⟩ := except_bind_ok.1 h
    obtain ⟨hplain, hclear, rfl⟩ := (hlstat found).1 hfound
    refine ⟨hplain, hclear, fun target hlink => ?_⟩
    rw [hlink] at h
    cases h
  · intro h
    refine except_bind_ok.2 ⟨t.node below, (hlstat _).2 ⟨h.plain, h.clear, rfl⟩, ?_⟩
    split
    · next target hlink => exact absurd hlink (h.unlinked target)
    · rfl

theorem forM_ok_iff {α : Type} {f : α → Except PyExc Unit} {xs : List α} :
    xs.forM f = .ok () ↔ ∀ x ∈ xs, f x = .ok () := by
  induction xs with
  | nil => exact ⟨fun _ x hx => absurd hx List.not_mem_nil, fun _ => rfl⟩
  | cons x xs ih =>
      rw [List.forM, List.forall_mem_cons]
      constructor
      · intro h
        obtain ⟨_, hx, hxs⟩ := except_bind_ok.1 h
        exact ⟨hx, ih.1 hxs⟩
      · intro h
        exact except_bind_ok.2 ⟨(), h.1, ih.2 h.2⟩

theorem mem_tail_inits {below parts : List String} :
    below ∈ parts.inits.tail ↔ below <+: parts ∧ below ≠ [] := by
  cases parts with
  | nil => simp
  | cons name parts =>
      rw [List.inits_cons, List.tail_cons, List.mem_map]
      constructor
      · intro h
        obtain ⟨rest, hrest, rfl⟩ := h
        exact ⟨List.cons_prefix_cons.2 ⟨rfl, (List.mem_inits _ _).1 hrest⟩,
          List.cons_ne_nil _ _⟩
      · intro h
        cases below with
        | nil => exact absurd rfl h.2
        | cons first rest =>
            obtain ⟨rfl, hrest⟩ := List.cons_prefix_cons.1 h.1
            exact ⟨rest, (List.mem_inits _ _).2 hrest, rfl⟩

theorem checkLinks_ok {text : String} {parts : List String} :
    t.checkLinks cwd text parts = .ok () ↔
      ∀ below, below <+: parts → below ≠ [] → t.Passable below := by
  unfold checkLinks
  rw [forM_ok_iff]
  constructor
  · exact fun h below hstarts hne => checkPart_ok.1 (h below (mem_tail_inits.2 ⟨hstarts, hne⟩))
  · intro h below hbelow
    obtain ⟨hstarts, hne⟩ := mem_tail_inits.1 hbelow
    exact checkPart_ok.2 (h below hstarts hne)

theorem resolve_ok {text : String} {parts : List String} :
    t.resolve cwd text = .ok parts ↔ relativeParts cwd text = some parts ∧
      ∀ below, below <+: parts → below ≠ [] → t.Passable below := by
  have hsome : ∀ relative, relativeParts cwd text = some relative →
      t.resolve cwd text = (t.checkLinks cwd text relative >>= fun _ => .ok relative) := by
    intro relative h
    obtain ⟨path, hpath, rfl⟩ := Option.map_eq_some_iff.1 h
    unfold resolve
    unfold abspath at hpath
    simp only [hpath]
    rfl
  have hnone : relativeParts cwd text = none →
      t.resolve cwd text = .error (securityError ("Path escapes workspace: " ++ text)) := by
    intro h
    have hpath := Option.map_eq_none_iff.1 h
    unfold resolve
    unfold abspath at hpath
    simp only [hpath]
    rfl
  cases hrelative : relativeParts cwd text with
  | none =>
      rw [hnone hrelative]
      simp
  | some relative =>
      rw [hsome relative hrelative, Option.some_inj]
      constructor
      · intro h
        obtain ⟨_, hlinks, h⟩ := except_bind_ok.1 h
        obtain rfl := Except.ok.inj h
        exact ⟨rfl, checkLinks_ok.1 hlinks⟩
      · intro h
        obtain ⟨rfl, hpassable⟩ := h
        exact except_bind_ok.2 ⟨(), checkLinks_ok.2 hpassable, rfl⟩

/-! ## The whole file system -/

/-- What a file system has below one of its directories. -/
def below (fs : FileTree) (directory : List String)
    (h : fs.node directory = some .directory) : FileTree where
  node parts := fs.node (directory ++ parts)
  root := by rwa [List.append_nil]
  parents parts name hnode := fs.parents _ name (by rwa [List.append_assoc])
  named parts hnode name hname := fs.named _ hnode name (List.mem_append_right _ hname)

/-- A file system with one directory in it, and those above it. -/
def bare (directory : List String) (h : ∀ name ∈ directory, EntryName name) : FileTree where
  node parts := if parts <+: directory then some .directory else none
  root := if_pos List.nil_prefix
  parents parts name hnode := by
    by_cases hstarts : parts ++ [name] <+: directory
    · exact if_pos ((List.prefix_append parts [name]).trans hstarts)
    · exact absurd (if_neg hstarts) hnode
  named parts hnode name hname := by
    by_cases hstarts : parts <+: directory
    · exact h name (hstarts.subset hname)
    · exact absurd (if_neg hstarts) hnode

/-- Where a path leads from a directory, one part after the other. A link is followed
wherever it points to, and what is not there is where it would be. -/
inductive LeadsTo (fs : FileTree) : List String → List String → List String → Prop
  | here {directory : List String} : LeadsTo fs directory [] directory
  | up {directory rest target : List String} (h : LeadsTo fs directory.dropLast rest target) :
      LeadsTo fs directory (".." :: rest) target
  | enter {directory rest target : List String} {name : String} (hname : name ≠ "..")
      (hplain : ∀ text, fs.node (directory ++ [name]) ≠ some (.symlink text))
      (h : LeadsTo fs (directory ++ [name]) rest target) :
      LeadsTo fs directory (name :: rest) target
  | follow {directory rest target : List String} {name text : String} (hname : name ≠ "..")
      (hlink : fs.node (directory ++ [name]) = some (.symlink text))
      (h : LeadsTo fs (if (PyPath.ofString text).isAbsolute then [] else directory)
        ((PyPath.ofString text).parts ++ rest) target) :
      LeadsTo fs directory (name :: rest) target

/-- Where there is no link to follow, a path of names leads to where it says. -/
theorem leadsTo_iff {fs : FileTree} {directory parts target : List String}
    (hnames : ".." ∉ parts) (hplain : ∀ below, below <+: parts → below ≠ [] →
      ∀ text, fs.node (directory ++ below) ≠ some (.symlink text)) :
    fs.LeadsTo directory parts target ↔ target = directory ++ parts := by
  induction parts generalizing directory with
  | nil =>
      rw [List.append_nil]
      constructor
      · intro h
        cases h
        rfl
      · rintro rfl
        exact .here
  | cons name parts ih =>
      rw [List.mem_cons, not_or] at hnames
      have hfirst := hplain [name] (List.cons_prefix_cons.2 ⟨rfl, List.nil_prefix⟩)
        (List.cons_ne_nil _ _)
      have hrest := @ih (directory ++ [name]) hnames.2 fun below hstarts hne text => by
        rw [List.append_assoc]
        exact hplain (name :: below) (List.cons_prefix_cons.2 ⟨rfl, hstarts⟩)
          (List.cons_ne_nil _ _) text
      rw [List.append_assoc, List.singleton_append] at hrest
      rw [← hrest]
      constructor
      · intro h
        cases h with
        | up => exact absurd rfl hnames.1
        | enter _ _ h => exact h
        | follow _ hlink => exact absurd hlink (hfirst _)
      · exact fun h => .enter (Ne.symm hnames.1) hfirst h

end FileTree

/-- A path that is resolved in a workspace lies below it by its parts, which are names; on
the way below the workspace there is no symbolic link; and with all links followed, from the
top of the file system, it leads to just that place. -/
theorem resolve_confined (fs : FileTree) (cwd : ResolvedPath)
    (hcwd : fs.node cwd.parts = some .directory) (path : String) (parts : List String)
    (h : (fs.below cwd.parts hcwd).resolve cwd path = .ok parts) :
    abspath cwd (PyPath.ofString path) = ⟨cwd.root, cwd.parts ++ parts⟩ ∧
      (∀ part ∈ parts, FileName part) ∧
      (∀ below, below <+: parts → below ≠ [] →
        ∀ text, fs.node (cwd.parts ++ below) ≠ some (.symlink text)) ∧
      ∀ target, fs.LeadsTo [] (cwd.parts ++ parts) target ↔ target = cwd.parts ++ parts := by
  obtain ⟨hrelative, hpassable⟩ := FileTree.resolve_ok.1 h
  have hnames := relativeParts_names hrelative
  have hunlinked : ∀ below, below <+: parts → below ≠ [] →
      ∀ text, fs.node (cwd.parts ++ below) ≠ some (.symlink text) :=
    fun below hstarts hne => (hpassable below hstarts hne).unlinked
  refine ⟨abspath_eq hrelative, hnames, hunlinked, fun target => FileTree.leadsTo_iff ?_ ?_⟩
  · intro hmem
    exact (List.mem_append.1 hmem).elim cwd.plain fun hpart => (hnames _ hpart).2.2.1 rfl
  · intro above hstarts hne text
    rw [List.nil_append]
    -- a prefix ends at or above the workspace, where there are directories, or below it
    rcases List.prefix_or_prefix_of_prefix hstarts (List.prefix_append cwd.parts parts) with
      habove | hinside
    · have hdirectory : fs.node above = some .directory := by
        by_cases hend : above = cwd.parts
        · rw [hend, hcwd]
        · exact FileTree.directory_above (by rw [hcwd]; exact Option.some_ne_none _) habove hend
      simp [hdirectory]
    · obtain ⟨below, rfl⟩ := hinside
      by_cases hnil : below = []
      · simp [hnil, hcwd]
      · exact hunlinked below ((List.prefix_append_right_inj _).1 hstarts) hnil text

theorem resolve_confined_sample :
    abspath ⟨⟨"/", ["w"]⟩, rfl, by decide⟩ (PyPath.ofString "../w/./b/../a") =
        ⟨"/", ["w"] ++ ["a"]⟩ ∧
      (∀ part ∈ ["a"], FileName part) ∧
      (∀ below, below <+: ["a"] → below ≠ [] → ∀ text,
        (FileTree.bare ["w"] (by decide)).node (["w"] ++ below) ≠ some (.symlink text)) ∧
      ∀ target, (FileTree.bare ["w"] (by decide)).LeadsTo [] (["w"] ++ ["a"]) target ↔
        target = ["w"] ++ ["a"] :=
  resolve_confined (FileTree.bare ["w"] (by decide)) ⟨⟨"/", ["w"]⟩, rfl, by decide⟩ rfl
    "../w/./b/../a" ["a"] rfl

end MiniCodeAgent
