import MiniCodeAgent.Proofs.Paths
import MiniCodeAgent.Proofs.ScannerCache

/-!
# When the two scanners agree

Both scanners get to the same entries: `Reach` says which, for the recursion of
the one and the stack of the other. They do not tell of all of them alike. The
walk over paths passes by what is no file, link or directory, and by a directory of a
skipped name wherever it is, where the scan relative to open directories stores the
one, and the other where it cannot look at it. Under the Git directory it also passes by a
hook that it cannot look at. And an unreadable directory that the one raises for
the other finds empty.

So `Stray` entries are those that only the first scanner tells of, and the two agree
exactly if both refuse the checkout, or every directory they start from is open and
nothing is stray.
-/

namespace MiniCodeAgent

namespace Scanner

/-! ## The entries below a directory -/

/-- An entry that a walk from a directory comes by. -/
inductive Reach (skip : List String) : Found → Found → Prop
  | listed {directory found : Found} (h : found ∈ directory.listing) :
      Reach skip directory found
  | deeper {directory child found : Found} (h : child ∈ directory.listing)
      (hchild : child.descends skip = true) (hfound : Reach skip child found) :
      Reach skip directory found

theorem Reach.cases_iff {skip : List String} (directory : Found) {found : Found} :
    Reach skip directory found ↔ found ∈ directory.listing ∨
      ∃ child ∈ directory.listing, child.descends skip = true ∧ Reach skip child found := by
  constructor
  · intro h
    cases h with
    | listed h => exact Or.inl h
    | deeper h hchild hfound => exact Or.inr ⟨_, h, hchild, hfound⟩
  · intro h
    obtain h | ⟨child, h, hchild, hfound⟩ := h
    · exact .listed h
    · exact .deeper h hchild hfound

theorem mem_iterEntries {skip : List String} {found : Found} (stack : List Found) :
    found ∈ iterEntries skip stack ↔
      (∃ directory ∈ stack, Reach skip directory found) ∧ found.yields skip = true := by
  induction stack using iterEntries.induct skip with
  | case1 => simp [iterEntries]
  | case2 directory stack ih =>
      rw [iterEntries, List.mem_append, ih, List.mem_filter]
      simp only [List.mem_append, List.mem_filter, List.mem_cons, exists_eq_or_imp,
        Reach.cases_iff directory]
      grind

theorem mem_walk {skip parts : List String} {directory : Directory} {found : Found} :
    found ∈ walk skip parts directory ↔
      Reach skip ⟨parts, directory.node, true⟩ found ∧ found.yields skip = true := by
  rw [walk, mem_iterEntries]
  simp only [List.mem_singleton, exists_eq_left]

/-- What the look at an entry comes to. -/
def Found.look (found : Found) : Look :=
  (relativeName found.parts, if found.reached then some found.node else none)

theorem mem_foundLooks {excluded : String → Bool} {found : Found} {first : Look} :
    first ∈ foundLooks excluded found ↔
      excluded (relativeName found.parts) = false ∧ first = found.look := by
  rw [foundLooks, storeLooks, Found.look]
  by_cases hexcluded : excluded (relativeName found.parts) = true
  · simp [hexcluded]
  · cases found.reached <;> simp [hexcluded]

/-- An entry that the scan relative to open directories does not pass by: any but a
directory of a skipped name. -/
def Found.stores (skip : List String) (found : Found) : Bool :=
  match found.node with
  | .directory _ _ _ _ => !(found.reached && decide (found.name ∈ skip))
  | _ => true

theorem name_append (parents : List String) (name : String) (node : Node) (reached : Bool) :
    (Found.mk (parents ++ [name]) node reached).name = name := by
  rw [Found.name, List.getLast?_concat, Option.getD_some]

/-- What a scan of an entry and everything below it looks at. -/
def Covers (excluded : String → Bool) (skip : List String) (found : Found) (first : Look) : Prop :=
  (found.stores skip = true ∧ first ∈ foundLooks excluded found) ∨
    (found.descends skip = true ∧ ∃ entry, Reach skip found entry ∧ entry.stores skip = true ∧
      first ∈ foundLooks excluded entry)

theorem covers_leaf {excluded : String → Bool} {skip : List String} {found : Found} {first : Look}
    (hstores : found.stores skip = true) (hdescends : found.descends skip = false) :
    Covers excluded skip found first ↔ first ∈ foundLooks excluded found := by
  rw [Covers, hstores, hdescends]
  simp

/-- What is below a directory is what its entries cover. -/
theorem exists_reach_iff {excluded : String → Bool} {skip : List String} {directory : Found}
    {first : Look} :
    (∃ entry, Reach skip directory entry ∧ entry.stores skip = true ∧
      first ∈ foundLooks excluded entry) ↔
      ∃ child ∈ directory.listing, Covers excluded skip child first := by
  simp only [Reach.cases_iff directory, Covers]
  grind

theorem mem_entriesLooks_iff {pass : Pass} {searchable : Bool} {parents : List String}
    {entries : List (String × Node)} {first : Look} :
    first ∈ entriesLooks pass searchable parents entries ↔
      ∃ entry ∈ entries, first ∈ namedLooks pass searchable parents entry.1 entry.2 := by
  induction entries with
  | nil => simp [entriesLooks]
  | cons entry rest ih =>
      obtain ⟨name, node⟩ := entry
      rw [entriesLooks, List.mem_append, ih]
      simp

theorem mem_listing {parts : List String} {stat : Stat} {readable searchable reached : Bool}
    {entries : List (String × Node)} {found : Found} :
    found ∈ (Found.mk parts (.directory stat readable searchable entries) reached).listing ↔
      (reached = true ∧ readable = true) ∧
        ∃ entry ∈ entries, found = ⟨parts ++ [entry.1], entry.2, searchable⟩ := by
  simp only [Found.listing]
  by_cases h : reached = true ∧ readable = true
  · rw [if_pos h, List.mem_map]
    simp only [h, and_self, true_and, eq_comm]
  · rw [if_neg h]
    simp only [h, false_and, List.not_mem_nil]

mutual

theorem mem_namedLooks {excluded : String → Bool} {skip : List String} {searchable : Bool}
    {parents : List String} {name : String} {first : Look} : (node : Node) →
    (first ∈ namedLooks ⟨excluded, skip, true⟩ searchable parents name node ↔
      Covers excluded skip ⟨parents ++ [name], node, searchable⟩ first)
  | .directory stat readable inside entries => by
      rw [namedLooks, Covers, exists_reach_iff]
      simp only [Found.stores, Found.descends, name_append, mem_listing]
      by_cases hskip : searchable = true ∧ name ∈ skip
      · rw [if_pos hskip]
        simp [hskip]
      · rw [if_neg hskip, List.mem_append]
        have hstores : (!(searchable && decide (name ∈ skip))) = true := by
          simpa [imp_iff_not_or] using hskip
        by_cases hopen : searchable = true ∧ readable = true
        · have hname : name ∉ skip := fun h => hskip ⟨hopen.1, h⟩
          rw [if_pos ⟨hopen.1, hopen.2, trivial⟩, mem_entriesLooks entries]
          simp [hopen, hname, foundLooks]
        · rw [if_neg fun h => hopen ⟨h.1, h.2.1⟩]
          simp only [hstores, hopen, false_and, or_false, true_and, List.not_mem_nil,
            foundLooks, exists_false, and_false]
  | .file stat content readable => by
      rw [covers_leaf rfl rfl, namedLooks, foundLooks]
  | .symlink stat target => by
      rw [covers_leaf rfl rfl, namedLooks, foundLooks]
  | .special format stat => by
      rw [covers_leaf rfl rfl, namedLooks, foundLooks]

theorem mem_entriesLooks {excluded : String → Bool} {skip : List String} {searchable : Bool}
    {parents : List String} {first : Look} : (entries : List (String × Node)) →
    (first ∈ entriesLooks ⟨excluded, skip, true⟩ searchable parents entries ↔
      ∃ entry ∈ entries, Covers excluded skip ⟨parents ++ [entry.1], entry.2, searchable⟩ first)
  | [] => by simp [entriesLooks]
  | (name, node) :: rest => by
      rw [entriesLooks, List.mem_append, mem_namedLooks node, mem_entriesLooks rest]
      simp

end

/-! ## One entry for each path -/

theorem listing_cases {directory found : Found} (h : found ∈ directory.listing) :
    ∃ stat searchable entries, directory.node = .directory stat true searchable entries ∧
      ∃ entry ∈ entries, found = ⟨directory.parts ++ [entry.1], entry.2, searchable⟩ := by
  obtain ⟨parts, node, reached⟩ := directory
  cases node with
  | directory stat readable searchable entries =>
      obtain ⟨⟨-, hreadable⟩, hentry⟩ := mem_listing.1 h
      rw [hreadable]
      exact ⟨stat, searchable, entries, rfl, hentry⟩
  | file => simp [Found.listing] at h
  | symlink => simp [Found.listing] at h
  | special => simp [Found.listing] at h

/-- What a directory with named entries lists has one more name. -/
theorem listing_spec {directory found : Found} (hnamed : directory.node.Named)
    (h : found ∈ directory.listing) :
    found.node.Named ∧ ∃ name, FileName name ∧ found.parts = directory.parts ++ [name] := by
  obtain ⟨stat, searchable, entries, hnode, entry, hentry, rfl⟩ := listing_cases h
  rw [hnode] at hnamed
  cases hnamed with
  | directory _ _ _ once name below =>
      exact ⟨below entry hentry, entry.1, name entry hentry, rfl⟩

theorem listing_inj {directory found found' : Found} (hnamed : directory.node.Named)
    (h : found ∈ directory.listing) (h' : found' ∈ directory.listing)
    (hparts : found.parts = found'.parts) : found = found' := by
  obtain ⟨stat, searchable, entries, hnode, entry, hentry, rfl⟩ := listing_cases h
  obtain ⟨stat', searchable', entries', hnode', entry', hentry', rfl⟩ := listing_cases h'
  rw [hnode] at hnode' hnamed
  cases hnode'
  cases hnamed with
  | directory _ _ _ once name below =>
      have hname : entry.1 = entry'.1 := by simpa using hparts
      have hget := Dict.get?_of_mem once hentry
      rw [hname, Dict.get?_of_mem once hentry'] at hget
      rw [hname, Option.some.inj hget]

/-- The path of an entry goes on from that of the directory, and below a name of it only if
that is not skipped. -/
theorem Reach.parts {skip : List String} {directory found : Found} (h : Reach skip directory found)
    (hnamed : directory.node.Named) : ∃ name rest, found.parts = directory.parts ++ name :: rest ∧
      (rest ≠ [] → name ∉ skip) ∧ FileName name ∧ ∀ part ∈ rest, FileName part := by
  induction h with
  | listed h =>
      obtain ⟨-, name, hslash, hparts⟩ := listing_spec hnamed h
      exact ⟨name, [], hparts, fun hne => absurd rfl hne, hslash, by simp⟩
  | @deeper directory child found h hchild hfound ih =>
      obtain ⟨hnamed', name, hslash, hparts⟩ := listing_spec hnamed h
      obtain ⟨name', rest, hparts', hskip, hslash', hrest⟩ := ih hnamed'
      refine ⟨name, name' :: rest, by rw [hparts', hparts, List.append_assoc]; rfl, fun _ => ?_,
        hslash, List.forall_mem_cons.2 ⟨hslash', hrest⟩⟩
      have hname : child.name = name := by
        rw [Found.name, hparts, List.getLast?_concat, Option.getD_some]
      rw [Found.descends] at hchild
      split at hchild
      · simpa [hname] using hchild
      · exact absurd hchild (by simp)

theorem Reach.inj {skip : List String} {directory found found' : Found}
    (hnamed : directory.node.Named) (h : Reach skip directory found)
    (h' : Reach skip directory found') (hparts : found.parts = found'.parts) : found = found' := by
  induction h generalizing found' with
  | @listed directory found h =>
      cases h' with
      | listed h' => exact listing_inj hnamed h h' hparts
      | @deeper _ child _ h' hchild hfound =>
          obtain ⟨-, name, -, hname⟩ := listing_spec hnamed h
          obtain ⟨hnamed', name', -, hname'⟩ := listing_spec hnamed h'
          obtain ⟨name'', rest, hrest, -⟩ := hfound.parts hnamed'
          rw [hname, hrest, hname'] at hparts
          simp at hparts
  | @deeper directory child found h hchild hfound ih =>
      obtain ⟨hnamed', name, -, hname⟩ := listing_spec hnamed h
      obtain ⟨name', rest, hrest, -⟩ := hfound.parts hnamed'
      cases h' with
      | listed h' =>
          obtain ⟨-, name'', -, hname''⟩ := listing_spec hnamed h'
          rw [hname'', hrest, hname] at hparts
          simp at hparts
      | @deeper _ child' _ h' hchild' hfound' =>
          obtain ⟨hnamed'', name'', -, hname''⟩ := listing_spec hnamed h'
          obtain ⟨_, _, hrest', -⟩ := hfound'.parts hnamed''
          have hsame : child.parts = child'.parts := by
            rw [hrest, hrest', hname, hname''] at hparts
            simp only [List.append_assoc, List.append_cancel_left_eq, List.cons_append,
              List.nil_append, List.cons.injEq] at hparts
            rw [hname, hname'', hparts.1]
          have hchildren := listing_inj hnamed h h' hsame
          rw [← hchildren] at hfound'
          exact ih hnamed' hfound' hparts

theorem relativeName_inj {parts parts' : List String} (hne : parts ≠ []) (hne' : parts' ≠ [])
    (hnames : ∀ part ∈ parts, FileName part) (hnames' : ∀ part ∈ parts', FileName part)
    (h : relativeName parts = relativeName parts') : parts = parts' := by
  rw [← pathParts_relativeName hne hnames, h, pathParts_relativeName hne' hnames']

/-! ## The files of looks at different paths -/

/-- No path is looked at with two results. -/
def Single (looks : List Look) : Prop :=
  ∀ first ∈ looks, ∀ second ∈ looks, first.1 = second.1 → first = second

variable {digests : Digests}

theorem get?_lookFiles {looks : List Look} (hsingle : Single looks) (files : Dict String)
    (path text : String) : Dict.get? (lookFiles digests files looks) path = some text ↔
      (∃ first ∈ looks, first.1 = path ∧ lookText digests first = text) ∨
        ((∀ first ∈ looks, first.1 ≠ path) ∧ Dict.get? files path = some text) := by
  induction looks generalizing files with
  | nil => simp [lookFiles]
  | cons first rest ih =>
      have hrest : Single rest := fun one hone other hother =>
        hsingle one (List.mem_cons_of_mem _ hone) other (List.mem_cons_of_mem _ hother)
      rw [lookFiles, List.foldl_cons, ← lookFiles, ih hrest, Dict.get?_set]
      by_cases hpath : first.1 = path
      · have hsame : ∀ other ∈ rest, other.1 = path → other = first := fun other hother hother' =>
          hsingle other (List.mem_cons_of_mem _ hother) first (by simp) (hother'.trans hpath.symm)
        grind
      · grind

theorem keys_lookFiles (looks : List Look) (files : Dict String) (hfiles : (Dict.keys files).Nodup) :
    (Dict.keys (lookFiles digests files looks)).Nodup := by
  induction looks generalizing files with
  | nil => exact hfiles
  | cons first rest ih => exact ih _ (Dict.nodup_keys_set hfiles _ _)

variable (digests) in
theorem mem_lookFiles {looks : List Look} (hsingle : Single looks) (path text : String) :
    Dict.get? (lookFiles digests [] looks) path = some text ↔
      ∃ first ∈ looks, first.1 = path ∧ lookText digests first = text := by
  rw [get?_lookFiles hsingle]
  simp

/-- Where one scan looks at no more than the other, their files are the same if it looks at
no less. -/
theorem files_eq_iff {looks looks' : List Look} (hsingle : Single looks)
    (hsub : ∀ first ∈ looks', first ∈ looks) :
    (∀ path, Dict.get? (lookFiles digests [] looks) path =
      Dict.get? (lookFiles digests [] looks') path) ↔ ∀ first ∈ looks, first ∈ looks' := by
  have hsingle' : Single looks' := fun one hone other hother =>
    hsingle one (hsub one hone) other (hsub other hother)
  constructor
  · intro h first hfirst
    have hget := (mem_lookFiles digests hsingle first.1 _).2 ⟨first, hfirst, rfl, rfl⟩
    rw [h] at hget
    obtain ⟨other, hother, hpath, -⟩ := (mem_lookFiles digests hsingle' _ _).1 hget
    rw [← hsingle other (hsub other hother) first hfirst hpath]
    exact hother
  · intro h path
    refine Option.ext fun text => ?_
    rw [mem_lookFiles digests hsingle, mem_lookFiles digests hsingle']
    exact ⟨fun ⟨first, hfirst, hrest⟩ => ⟨first, h first hfirst, hrest⟩,
      fun ⟨first, hfirst, hrest⟩ => ⟨first, hsub first hfirst, hrest⟩⟩

/-! ## Which checkouts are refused -/

theorem andThen_raised {r s : Record} :
    (r.andThen s).raised = none ↔ r.raised = none ∧ s.raised = none := by
  rw [Record.andThen]
  cases r.raised with
  | none => simp
  | some exc => simp

theorem andThen_looks {r s : Record} (h : r.raised = none) :
    (r.andThen s).looks = r.looks ++ s.looks := by rw [Record.andThen, h]

theorem openRecord_raised {directory : Directory} :
    (openRecord directory).raised = none ↔ directory.readable = true := by
  rw [openRecord]
  split
  · next h => simp [Record.done, h]
  · next h => simp [Record.failed, h]

theorem open_looks {directory : Directory} (h : directory.readable = true) (r : Record) :
    ((openRecord directory).andThen r).looks = r.looks := by
  rw [openRecord, if_pos h]
  rfl

theorem statOptional_ok {directory : Directory} (h : directory.searchable = true) (name : String) :
    statOptional directory name = .ok (Dict.get? directory.entries name) := by
  rw [statOptional, if_pos h]

theorem statOptional_error {directory : Directory} (h : ¬ directory.searchable = true)
    (name : String) : statOptional directory name = .error permissionDenied := by
  rw [statOptional, if_neg h]

theorem optionalRecord_raised {directory : Directory} (name : String) (parents : List String) :
    (optionalRecord directory name parents).raised = none ↔ directory.searchable = true := by
  rw [optionalRecord]
  by_cases h : directory.searchable = true
  · rw [statOptional_ok h]
    cases Dict.get? directory.entries name with
    | none => simp [Record.done, h]
    | some node => simp [Record.looked, h]
  · rw [statOptional_error h]
    simp [Record.failed, h]

/-- What `hooks` and `info` may be, if anything: a directory that can be opened, and where
it matters searched, or else no link. -/
def Enterable (search : Bool) : Option Node → Prop
  | some (.symlink _ _) => False
  | some (.directory _ readable searchable _) =>
    readable = true ∧ (search = true → searchable = true)
  | _ => True

theorem hooksRecord_raised {common : Directory} (hsearchable : common.searchable = true) :
    (hooksRecord common).raised = none ↔ Enterable false (Dict.get? common.entries "hooks") := by
  rw [hooksRecord, statOptional_ok hsearchable]
  cases Dict.get? common.entries "hooks" with
  | none => simp [Enterable, Record.done]
  | some node =>
      cases node with
      | directory stat readable searchable entries =>
          simp [Enterable, andThen_raised, openRecord_raised, Record.looked]
      | file => simp [Enterable, Record.done]
      | symlink => simp [Enterable, Record.failed]
      | special => simp [Enterable, Record.done]

theorem attributesRecord_raised {common : Directory} (hsearchable : common.searchable = true) :
    (attributesRecord common).raised = none ↔ Enterable true (Dict.get? common.entries "info") := by
  rw [attributesRecord, statOptional_ok hsearchable]
  cases Dict.get? common.entries "info" with
  | none => simp [Enterable, Record.done]
  | some node =>
      cases node with
      | directory stat readable searchable entries =>
          simp [Enterable, andThen_raised, openRecord_raised, optionalRecord_raised]
      | file => simp [Enterable, Record.done]
      | symlink => simp [Enterable, Record.failed]
      | special => simp [Enterable, Record.done]

/-- Git directories in which every control can be looked at. -/
structure Opened (worktree common : Directory) : Prop where
  worktreeReadable : worktree.readable = true
  worktreeSearchable : worktree.searchable = true
  commonReadable : common.readable = true
  commonSearchable : common.searchable = true
  hooks : Enterable false (Dict.get? common.entries "hooks")
  info : Enterable true (Dict.get? common.entries "info")

theorem directoriesRecord_raised {worktree common : Directory} :
    (directoriesRecord worktree common).raised = none ↔ Opened worktree common := by
  simp only [directoriesRecord, andThen_raised, openRecord_raised, optionalRecord_raised]
  constructor
  · intro h
    obtain ⟨hworktree, hcommon, hcommon', hworktree', hhooks, hinfo⟩ := h
    exact ⟨hworktree, hworktree', hcommon, hcommon', (hooksRecord_raised hcommon').1 hhooks,
      (attributesRecord_raised hcommon').1 hinfo⟩
  · intro h
    exact ⟨h.worktreeReadable, h.commonReadable, h.commonSearchable, h.worktreeSearchable,
      (hooksRecord_raised h.commonSearchable).2 h.hooks,
      (attributesRecord_raised h.commonSearchable).2 h.info⟩

def isLink : Option Node → Bool
  | some (.symlink _ _) => true
  | _ => false

/-- A checkout that both scanners refuse: its Git directories are not to be had, or the
controls in them cannot be looked at or are below a link. -/
def Refused (checkout : Checkout) : Prop :=
  match gitControlDirectories checkout with
  | .error _ => True
  | .ok none => False
  | .ok (some (_, common)) => common.searchable = false ∨
    isLink (Dict.get? common.entries "hooks") = true ∨
    isLink (Dict.get? common.entries "info") = true

/-- The directory that `hooks` or `info` is. -/
def asDirectory : Option Node → Option Directory
  | some (.directory stat readable searchable entries) =>
    some ⟨stat, readable, searchable, entries⟩
  | _ => none

theorem controlDirectory_ok {common : Directory} (name : String)
    (h : common.searchable = true) (hlink : isLink (Dict.get? common.entries name) = false) :
    controlDirectory common name = .ok (asDirectory (Dict.get? common.entries name)) := by
  rw [controlDirectory, statOptional_ok h]
  cases hentry : Dict.get? common.entries name with
  | none => rfl
  | some node =>
      cases node with
      | symlink => simp [hentry, isLink] at hlink
      | directory => rfl
      | file => rfl
      | special => rfl

theorem controlDirectory_error {common : Directory} {name : String}
    (h : common.searchable = false ∨ isLink (Dict.get? common.entries name) = true) :
    ∃ exc, controlDirectory common name = .error exc := by
  rw [controlDirectory]
  by_cases hsearchable : common.searchable = true
  · have hlink := h.resolve_left (by simp [hsearchable])
    rw [statOptional_ok hsearchable]
    cases hentry : Dict.get? common.entries name with
    | none => simp [hentry, isLink] at hlink
    | some node =>
        cases node with
        | symlink => exact ⟨_, rfl⟩
        | directory => simp [hentry, isLink] at hlink
        | file => simp [hentry, isLink] at hlink
        | special => simp [hentry, isLink] at hlink
  · rw [statOptional_error hsearchable]
    exact ⟨_, rfl⟩

section Checkouts

variable {relativeIo : Bool} {checkout : Checkout} {worktree common : Directory}

theorem gitControls_none (h : gitControlDirectories checkout = .ok none) :
    gitControls relativeIo checkout = .ok [] := by
  rw [gitControls, h]
  rfl

theorem gitControls_some {hooks info : Option Directory}
    (h : gitControlDirectories checkout = .ok (some (worktree, common))) :
    controlDirectory common "hooks" = .ok hooks → controlDirectory common "info" = .ok info →
    gitControls relativeIo checkout = .ok
      (controlAt common (!relativeIo || common.readable) "config" ".git/config" ++
        controlAt worktree (!relativeIo || worktree.readable) "config.worktree"
          ".git/config.worktree" ++
        (match hooks with
          | some hooks => hookControls (!relativeIo || common.readable) hooks
          | none => []) ++
        (match info with
          | some info =>
            controlAt info ((!relativeIo || common.readable) && (!relativeIo || info.readable))
              "attributes" ".git/info/attributes"
          | none => [])) := by
  intro hhooks hinfo
  rw [gitControls, h]
  simp only [except_ok_bind, hhooks, hinfo]
  rfl

variable (relativeIo) in
theorem gitControls_error (h : Refused checkout) :
    ∃ exc, gitControls relativeIo checkout = .error exc := by
  rw [Refused] at h
  split at h
  · next exc hdirectories =>
      rw [gitControls, hdirectories]
      exact ⟨exc, rfl⟩
  · exact h.elim
  · next _ common hdirectories =>
      rw [gitControls, hdirectories]
      simp only [except_ok_bind]
      by_cases hhooks : common.searchable = false ∨
          isLink (Dict.get? common.entries "hooks") = true
      · obtain ⟨exc, hexc⟩ := controlDirectory_error hhooks
        rw [hexc]
        exact ⟨exc, rfl⟩
      · have hinfo : isLink (Dict.get? common.entries "info") = true := by tauto
        obtain ⟨exc, hexc⟩ := controlDirectory_error (Or.inr hinfo)
        rw [controlDirectory_ok "hooks" (by simpa using fun h => hhooks (Or.inl h))
          (by simpa using fun h => hhooks (Or.inr h)), hexc]
        exact ⟨exc, rfl⟩

variable (relativeIo) in
theorem gitControls_ok (h : ¬ Refused checkout) :
    ∃ controls, gitControls relativeIo checkout = .ok controls := by
  rw [Refused] at h
  split at h
  · exact absurd trivial h
  · next hdirectories => exact ⟨_, gitControls_none hdirectories⟩
  · next _ common hdirectories =>
      have hsearchable : common.searchable = true := by simpa using fun h' => h (Or.inl h')
      have hhooks := controlDirectory_ok "hooks" hsearchable
        (by simpa using fun h' => h (Or.inr (Or.inl h')))
      have hinfo := controlDirectory_ok "info" hsearchable
        (by simpa using fun h' => h (Or.inr (Or.inr h')))
      exact ⟨_, gitControls_some hdirectories hhooks hinfo⟩

theorem controlsRecord_raised : (controlsRecord checkout).raised = none ↔
    match gitControlDirectories checkout with
    | .error _ => False
    | .ok none => True
    | .ok (some (worktree, common)) => Opened worktree common := by
  rw [controlsRecord]
  cases gitControlDirectories checkout with
  | error exc => simp [Record.failed]
  | ok directories =>
      cases directories with
      | none => simp [Record.done]
      | some both => exact directoriesRecord_raised

theorem Enterable.link {search : Bool} {entry : Option Node} (h : Enterable search entry) :
    isLink entry = false := by
  cases entry with
  | none => rfl
  | some node =>
      cases node with
      | symlink => exact absurd h (by simp [Enterable])
      | directory => rfl
      | file => rfl
      | special => rfl

/-- What the walk over paths refuses, so does the other scanner. -/
theorem not_refused (h : (controlsRecord checkout).raised = none) : ¬ Refused checkout := by
  rw [controlsRecord_raised] at h
  rw [Refused]
  split
  · next hdirectories =>
      rw [hdirectories] at h
      exact h.elim
  · exact id
  · next hdirectories =>
      rw [hdirectories] at h
      simp [h.commonSearchable, h.hooks.link, h.info.link]

/-! ## The controls looked at -/

/-- A control that is looked at by its name. -/
inductive Control (worktree common : Directory) : Found → Prop
  | config {node : Node} (h : Dict.get? common.entries "config" = some node) :
      Control worktree common ⟨[".git", "config"], node, true⟩
  | worktreeConfig {node : Node} (h : Dict.get? worktree.entries "config.worktree" = some node) :
      Control worktree common ⟨[".git", "config.worktree"], node, true⟩
  | attributes {info : Directory} {node : Node}
      (hinfo : asDirectory (Dict.get? common.entries "info") = some info)
      (h : Dict.get? info.entries "attributes" = some node) :
      Control worktree common ⟨[".git", "info", "attributes"], node, true⟩

/-- An entry below the hooks. -/
def Hook (common : Directory) (found : Found) : Prop :=
  ∃ hooks, asDirectory (Dict.get? common.entries "hooks") = some hooks ∧
    Reach [] ⟨[".git", "hooks"], hooks.node, true⟩ found

theorem asDirectory_eq {entry : Option Node} {directory : Directory}
    (h : asDirectory entry = some directory) : entry = some directory.node := by
  cases entry with
  | none => exact absurd h (by simp [asDirectory])
  | some node =>
      cases node with
      | directory stat readable searchable entries =>
          have heq := Option.some.inj h
          rw [← heq]
          rfl
      | file => exact absurd h (by simp [asDirectory])
      | symlink => exact absurd h (by simp [asDirectory])
      | special => exact absurd h (by simp [asDirectory])

theorem namedLooks_alone (parents : List String) (name : String) (node : Node) :
    namedLooks ⟨nothingExcluded, [], false⟩ true parents name node =
      [(Found.mk (parents ++ [name]) node true).look] := by
  cases node <;> simp [namedLooks, storeLooks, nothingExcluded, Found.look]

theorem mem_optionalRecord {directory : Directory} (h : directory.searchable = true)
    {name : String} {parents : List String} {first : Look} :
    first ∈ (optionalRecord directory name parents).looks ↔
      ∃ node, Dict.get? directory.entries name = some node ∧
        first = (Found.mk (parents ++ [name]) node true).look := by
  rw [optionalRecord, statOptional_ok h]
  cases Dict.get? directory.entries name with
  | none => simp [Record.done]
  | some node => simp [Record.looked, namedLooks_alone]

theorem mem_scan (excluded : String → Bool) (skip parts : List String) {directory : Directory}
    (h : directory.readable = true) (first : Look) :
    first ∈ entriesLooks ⟨excluded, skip, true⟩ directory.searchable parts directory.entries ↔
      ∃ entry, Reach skip ⟨parts, directory.node, true⟩ entry ∧ entry.stores skip = true ∧
        first ∈ foundLooks excluded entry := by
  rw [exists_reach_iff, mem_entriesLooks]
  simp only [Directory.node, mem_listing, h]
  simp

theorem stores_nil (found : Found) : found.stores [] = true := by
  rw [Found.stores]
  split
  · simp
  · rfl

theorem mem_hooksRecord (h : Opened worktree common) {first : Look} :
    first ∈ (hooksRecord common).looks ↔ ∃ found, Hook common found ∧ first = found.look := by
  have henter := h.hooks
  rw [hooksRecord, statOptional_ok h.commonSearchable]
  simp only [Hook]
  cases hentry : Dict.get? common.entries "hooks" with
  | none => simp [Record.done, asDirectory]
  | some node =>
      rw [hentry] at henter
      cases node with
      | directory stat readable searchable entries =>
          have hreadable : (Directory.mk stat readable searchable entries).readable = true :=
            henter.1
          show first ∈ ((openRecord (Directory.mk stat readable searchable entries)).andThen
            (.looked (entriesLooks ⟨nothingExcluded, [], true⟩ searchable [".git", "hooks"]
              entries))).looks ↔ _
          rw [open_looks hreadable]
          refine (mem_scan nothingExcluded [] [".git", "hooks"] hreadable first).trans ?_
          simp [stores_nil, mem_foundLooks, nothingExcluded, asDirectory]
      | file => simp [Record.done, asDirectory]
      | symlink => exact henter.elim
      | special => simp [Record.done, asDirectory]

theorem mem_attributesRecord (h : Opened worktree common) {first : Look} :
    first ∈ (attributesRecord common).looks ↔
      ∃ info node, asDirectory (Dict.get? common.entries "info") = some info ∧
        Dict.get? info.entries "attributes" = some node ∧
        first = (Found.mk [".git", "info", "attributes"] node true).look := by
  have henter := h.info
  rw [attributesRecord, statOptional_ok h.commonSearchable]
  cases hentry : Dict.get? common.entries "info" with
  | none => simp [Record.done, asDirectory]
  | some node =>
      rw [hentry] at henter
      cases node with
      | directory stat readable searchable entries =>
          have hreadable : (Directory.mk stat readable searchable entries).readable = true :=
            henter.1
          have hsearchable : (Directory.mk stat readable searchable entries).searchable = true :=
            henter.2 rfl
          show first ∈ ((openRecord (Directory.mk stat readable searchable entries)).andThen
            (optionalRecord _ "attributes" [".git", "info"])).looks ↔ _
          rw [open_looks hreadable, mem_optionalRecord hsearchable]
          simp [asDirectory]
      | file => simp [Record.done, asDirectory]
      | symlink => exact henter.elim
      | special => simp [Record.done, asDirectory]

theorem mem_directoriesRecord (h : Opened worktree common) {first : Look} :
    first ∈ (directoriesRecord worktree common).looks ↔
      ∃ found, (Control worktree common found ∨ Hook common found) ∧ first = found.look := by
  have hconfig := (optionalRecord_raised "config" [".git"]).2
    h.commonSearchable
  have hworktree := (optionalRecord_raised "config.worktree" [".git"]).2
    h.worktreeSearchable
  have hhooks := (hooksRecord_raised h.commonSearchable).2 h.hooks
  rw [directoriesRecord, open_looks h.worktreeReadable, open_looks h.commonReadable,
    andThen_looks hconfig, andThen_looks hworktree, andThen_looks hhooks]
  simp only [List.mem_append, mem_optionalRecord h.commonSearchable,
    mem_optionalRecord h.worktreeSearchable, mem_hooksRecord h, mem_attributesRecord h]
  constructor
  · intro hfirst
    obtain ⟨node, hnode, hlook⟩ | ⟨node, hnode, hlook⟩ | ⟨found, hfound, hlook⟩ |
      ⟨info, node, hinfo, hnode, hlook⟩ := hfirst
    · exact ⟨_, Or.inl (.config hnode), hlook⟩
    · exact ⟨_, Or.inl (.worktreeConfig hnode), hlook⟩
    · exact ⟨found, Or.inr hfound, hlook⟩
    · exact ⟨_, Or.inl (.attributes hinfo hnode), hlook⟩
  · intro hfirst
    obtain ⟨found, hfound, hlook⟩ := hfirst
    cases hfound with
    | inr hfound => exact Or.inr (Or.inr (Or.inl ⟨found, hfound, hlook⟩))
    | inl hfound =>
        cases hfound with
        | config hnode => exact Or.inl ⟨_, hnode, hlook⟩
        | worktreeConfig hnode => exact Or.inr (Or.inl ⟨_, hnode, hlook⟩)
        | attributes hinfo hnode => exact Or.inr (Or.inr (Or.inr ⟨_, _, hinfo, hnode, hlook⟩))

/-! The same for the walk over paths. -/

theorem within_true (node : Node) : node.within true = node := by
  cases node <;> simp [Node.within]

theorem mem_controlAt {directory : Directory} (h : directory.searchable = true)
    {name relative : String} {control : String × Node} :
    control ∈ controlAt directory true name relative ↔
      ∃ node, Dict.get? directory.entries name = some node ∧ control = (relative, node) := by
  rw [controlAt, statOptional_ok h]
  cases Dict.get? directory.entries name with
  | none => simp
  | some node => simp [within_true]

theorem mem_hookControls {hooks : Directory} {control : String × Node} :
    control ∈ hookControls true hooks ↔
      ∃ found, Reach [] ⟨[".git", "hooks"], hooks.node, true⟩ found ∧
        (found.yields [] = true ∧ found.reached = true) ∧
        control = (relativeName found.parts, found.node) := by
  rw [hookControls, List.mem_map]
  simp only [List.mem_filter, mem_walk, within_true, and_assoc, eq_comm]

theorem info_open (h : Opened worktree common) {info : Directory}
    (hinfo : asDirectory (Dict.get? common.entries "info") = some info) :
    info.readable = true ∧ info.searchable = true := by
  have henter := h.info
  rw [asDirectory_eq hinfo] at henter
  exact ⟨henter.1, henter.2 rfl⟩

theorem look_reached {found : Found} (h : found.reached = true) :
    found.look = (relativeName found.parts, some found.node) := by
  rw [Found.look, if_pos h]

theorem mem_fallbackControls (h : Opened worktree common)
    (hdirectories : gitControlDirectories checkout = .ok (some (worktree, common)))
    {first : Look} : first ∈ (fallbackControls relativeIo checkout).looks ↔
      ∃ found, (Control worktree common found ∨
        Hook common found ∧ found.yields [] = true ∧ found.reached = true) ∧
        first = found.look := by
  have hhooks := controlDirectory_ok "hooks" h.commonSearchable h.hooks.link
  have hinfo := controlDirectory_ok "info" h.commonSearchable h.info.link
  rw [fallbackControls, gitControls_some hdirectories hhooks hinfo]
  simp only [Record.looked, List.map_append, List.mem_append, List.mem_map, h.commonReadable,
    h.worktreeReadable, Bool.or_true, Bool.true_and, mem_controlAt h.commonSearchable,
    mem_controlAt h.worktreeSearchable]
  constructor
  · intro hfirst
    obtain ((⟨_, ⟨node, hnode, rfl⟩, rfl⟩ | ⟨_, ⟨node, hnode, rfl⟩, rfl⟩) | ⟨control, hcontrol, rfl⟩) |
      ⟨control, hcontrol, rfl⟩ := hfirst
    · exact ⟨_, Or.inl (.config hnode), rfl⟩
    · exact ⟨_, Or.inl (.worktreeConfig hnode), rfl⟩
    · cases hsome : asDirectory (Dict.get? common.entries "hooks") with
      | none => simp [hsome] at hcontrol
      | some hooks =>
          simp only [hsome] at hcontrol
          obtain ⟨found, hreach, hyields, rfl⟩ := mem_hookControls.1 hcontrol
          exact ⟨found, Or.inr ⟨⟨hooks, hsome, hreach⟩, hyields⟩, (look_reached hyields.2).symm⟩
    · cases hsome : asDirectory (Dict.get? common.entries "info") with
      | none => simp [hsome] at hcontrol
      | some info =>
          have hopen := info_open h hsome
          simp only [hsome, hopen.1, Bool.or_true, mem_controlAt hopen.2] at hcontrol
          obtain ⟨node, hnode, rfl⟩ := hcontrol
          exact ⟨_, Or.inl (.attributes hsome hnode), rfl⟩
  · intro hfirst
    obtain ⟨found, hfound, hlook⟩ := hfirst
    cases hfound with
    | inl hfound =>
        cases hfound with
        | config hnode => exact Or.inl (Or.inl (Or.inl ⟨_, ⟨_, hnode, rfl⟩, hlook.symm⟩))
        | worktreeConfig hnode => exact Or.inl (Or.inl (Or.inr ⟨_, ⟨_, hnode, rfl⟩, hlook.symm⟩))
        | @attributes info node hsome hnode =>
            have hopen := info_open h hsome
            refine Or.inr ⟨(".git/info/attributes", node), ?_, hlook.symm⟩
            simp only [hsome, hopen.1, Bool.or_true, mem_controlAt hopen.2]
            exact ⟨_, hnode, rfl⟩
    | inr hfound =>
        obtain ⟨⟨hooks, hsome, hreach⟩, hyields⟩ := hfound
        rw [look_reached hyields.2] at hlook
        refine Or.inl (Or.inr ⟨(relativeName found.parts, found.node), ?_, hlook.symm⟩)
        simp only [hsome]
        exact mem_hookControls.2 ⟨found, hreach, hyields, rfl⟩

/-! ## What the two scanners tell of -/

/-- An entry of the working tree that is not excluded. -/
def InTree (excluded : String → Bool) (checkout : Checkout) (found : Found) : Prop :=
  Reach skipDirs ⟨[], checkout.root.node, true⟩ found ∧
    excluded (relativeName found.parts) = false

def IsControl (checkout : Checkout) (found : Found) : Prop :=
  ∃ worktree common, gitControlDirectories checkout = .ok (some (worktree, common)) ∧
    Control worktree common found

def IsHook (checkout : Checkout) (found : Found) : Prop :=
  ∃ worktree common, gitControlDirectories checkout = .ok (some (worktree, common)) ∧
    Hook common found

variable {excluded : String → Bool}

theorem descriptor_raised : (descriptorRecord excluded checkout).raised = none ↔
    checkout.root.readable = true ∧ (controlsRecord checkout).raised = none := by
  rw [descriptorRecord, andThen_raised, andThen_raised, openRecord_raised]
  simp [Record.looked]

theorem mem_descriptor (h : (descriptorRecord excluded checkout).raised = none) {first : Look} :
    first ∈ (descriptorRecord excluded checkout).looks ↔
      ∃ found, (InTree excluded checkout found ∧ found.stores skipDirs = true ∨
        IsControl checkout found ∨ IsHook checkout found) ∧ first = found.look := by
  obtain ⟨hroot, hcontrols⟩ := descriptor_raised.1 h
  have hlooks : first ∈ (controlsRecord checkout).looks ↔
      ∃ found, (IsControl checkout found ∨ IsHook checkout found) ∧ first = found.look := by
    rw [controlsRecord_raised] at hcontrols
    simp only [IsControl, IsHook, controlsRecord]
    cases hdirectories : gitControlDirectories checkout with
    | error exc =>
        rw [hdirectories] at hcontrols
        exact hcontrols.elim
    | ok directories =>
        cases directories with
        | none => simp [Record.done]
        | some both =>
            obtain ⟨worktree, common⟩ := both
            rw [hdirectories] at hcontrols
            simp [mem_directoriesRecord hcontrols, and_assoc]
  rw [descriptorRecord, open_looks hroot, andThen_looks rfl, List.mem_append, hlooks]
  simp only [Record.looked, mem_scan excluded skipDirs [] hroot first, mem_foundLooks, InTree]
  grind

theorem fallback_raised : (fallbackRecord relativeIo excluded checkout).raised = none ↔
    ¬ Refused checkout := by
  rw [fallbackRecord, andThen_raised, fallbackControls]
  by_cases h : Refused checkout
  · obtain ⟨exc, hexc⟩ := gitControls_error relativeIo h
    simp [hexc, h, Record.failed]
  · obtain ⟨controls, hcontrols⟩ := gitControls_ok relativeIo h
    simp [hcontrols, h, Record.looked]

theorem mem_fallback (h : (descriptorRecord excluded checkout).raised = none) {first : Look} :
    first ∈ (fallbackRecord relativeIo excluded checkout).looks ↔
      ∃ found, (InTree excluded checkout found ∧ found.yields skipDirs = true ∨
        IsControl checkout found ∨
        IsHook checkout found ∧ found.yields [] = true ∧ found.reached = true) ∧
        first = found.look := by
  obtain ⟨-, hcontrols⟩ := descriptor_raised.1 h
  have hlooks : first ∈ (fallbackControls relativeIo checkout).looks ↔
      ∃ found, (IsControl checkout found ∨
        IsHook checkout found ∧ found.yields [] = true ∧ found.reached = true) ∧
        first = found.look := by
    rw [controlsRecord_raised] at hcontrols
    cases hdirectories : gitControlDirectories checkout with
    | error exc =>
        rw [hdirectories] at hcontrols
        exact hcontrols.elim
    | ok directories =>
        cases directories with
        | none =>
            simp [IsControl, IsHook, hdirectories, fallbackControls, gitControls_none,
              Record.looked]
        | some both =>
            obtain ⟨worktree, common⟩ := both
            rw [hdirectories] at hcontrols
            rw [mem_fallbackControls hcontrols hdirectories]
            simp [IsControl, IsHook, hdirectories, and_assoc]
  rw [fallbackRecord, andThen_looks rfl, List.mem_append, hlooks]
  simp only [Record.looked, List.mem_flatMap, mem_walk, mem_foundLooks, InTree]
  grind

/-! ### Each at a path of its own -/

theorem named_get {stat : Stat} {readable searchable : Bool} {entries : List (String × Node)}
    {name : String} {node : Node} (hnamed : (Node.directory stat readable searchable entries).Named)
    (h : Dict.get? entries name = some node) : node.Named := by
  cases hnamed with
  | directory _ _ _ once name below => exact below _ (Dict.mem_of_get? h)

theorem gitDirectories_named
    (h : gitControlDirectories checkout = .ok (some (worktree, common))) :
    worktree.node.Named ∧ common.node.Named := by
  rw [gitControlDirectories] at h
  by_cases hsearchable : checkout.root.searchable = true
  · rw [statOptional_ok hsearchable] at h
    cases hentry : Dict.get? checkout.root.entries ".git" with
    | none => simp [hentry, except_ok_bind, pure, Except.pure] at h
    | some node =>
        rw [hentry] at h
        cases node with
        | directory stat readable searchable entries =>
            have hnamed := named_get checkout.named hentry
            obtain ⟨rfl, rfl⟩ := Prod.mk.inj (Option.some.inj (Except.ok.inj h))
            exact ⟨hnamed, hnamed⟩
        | file =>
            obtain ⟨directories, hlinked, h⟩ := except_bind_ok.1 (show (do
              let directories ← checkout.linked
              return some directories) = Except.ok (some (worktree, common)) from h)
            have heq : directories = (worktree, common) := Option.some.inj (Except.ok.inj h)
            rw [heq] at hlinked
            exact checkout.linkedNamed _ hlinked
        | symlink => exact absurd h (by simp [except_ok_bind, pure, Except.pure])
        | special => exact absurd h (by simp [except_ok_bind, pure, Except.pure])
  · rw [statOptional_error hsearchable] at h
    exact absurd h (by simp [bind, Except.bind])

/-- An entry that the scan relative to open directories tells of. -/
def Told (excluded : String → Bool) (checkout : Checkout) (found : Found) : Prop :=
  InTree excluded checkout found ∧ found.stores skipDirs = true ∨
    IsControl checkout found ∨ IsHook checkout found

theorem tree_parts {found : Found} (h : InTree excluded checkout found) :
    ∃ name rest, found.parts = name :: rest ∧ (rest ≠ [] → name ≠ ".git") ∧
      ∀ part ∈ found.parts, FileName part := by
  obtain ⟨name, rest, hparts, hskip, hslash, hrest⟩ := h.1.parts checkout.named
  rw [List.nil_append] at hparts
  refine ⟨name, rest, hparts, fun hne hname => ?_, ?_⟩
  · rw [hname] at hskip
    exact hskip hne (by decide)
  · rw [hparts]
    exact List.forall_mem_cons.2 ⟨hslash, hrest⟩

theorem control_parts {found : Found} (h : IsControl checkout found) :
    found.parts = [".git", "config"] ∨ found.parts = [".git", "config.worktree"] ∨
      found.parts = [".git", "info", "attributes"] := by
  obtain ⟨worktree, common, -, hcontrol⟩ := h
  cases hcontrol with
  | config => exact Or.inl rfl
  | worktreeConfig => exact Or.inr (Or.inl rfl)
  | attributes => exact Or.inr (Or.inr rfl)

theorem hooks_named (h : gitControlDirectories checkout = .ok (some (worktree, common)))
    {hooks : Directory} (hhooks : asDirectory (Dict.get? common.entries "hooks") = some hooks) :
    hooks.node.Named :=
  named_get (gitDirectories_named h).2 (asDirectory_eq hhooks)

theorem hook_parts {found : Found} (h : IsHook checkout found) :
    ∃ rest, found.parts = ".git" :: "hooks" :: rest ∧ ∀ part ∈ rest, FileName part := by
  obtain ⟨worktree, common, hdirectories, hooks, hhooks, hreach⟩ := h
  obtain ⟨name, rest, hparts, -, hslash, hrest⟩ := hreach.parts (hooks_named hdirectories hhooks)
  exact ⟨name :: rest, hparts, List.forall_mem_cons.2 ⟨hslash, hrest⟩⟩

theorem told_parts {found : Found} (h : Told excluded checkout found) :
    found.parts ≠ [] ∧ ∀ part ∈ found.parts, FileName part := by
  obtain ⟨h, -⟩ | h | h := h
  · obtain ⟨name, rest, hparts, -, hslash⟩ := tree_parts h
    exact ⟨by simp [hparts], hslash⟩
  · obtain h | h | h := control_parts h
    all_goals rw [h]
    all_goals exact ⟨by simp, by decide⟩
  · obtain ⟨rest, hparts, hrest⟩ := hook_parts h
    rw [hparts]
    exact ⟨by simp, List.forall_mem_cons.2 ⟨by decide, List.forall_mem_cons.2 ⟨by decide, hrest⟩⟩⟩

theorem tree_ne_git {found : Found} (h : InTree excluded checkout found) (name : String)
    (rest : List String) : found.parts ≠ ".git" :: name :: rest := by
  obtain ⟨name', rest', hparts, hname, -⟩ := tree_parts h
  rw [hparts]
  intro heq
  obtain ⟨rfl, rfl⟩ := List.cons.inj heq
  exact hname (by simp) rfl

theorem control_git {found : Found} (h : IsControl checkout found) :
    ∃ name rest, found.parts = ".git" :: name :: rest ∧ name ≠ "hooks" := by
  obtain h | h | h := control_parts h
  · exact ⟨_, _, h, by decide⟩
  · exact ⟨_, _, h, by decide⟩
  · exact ⟨_, _, h, by decide⟩

theorem control_inj {found found' : Found} (h : IsControl checkout found)
    (h' : IsControl checkout found') (hparts : found.parts = found'.parts) : found = found' := by
  obtain ⟨worktree, common, hdirectories, hcontrol⟩ := h
  obtain ⟨worktree', common', hdirectories', hcontrol'⟩ := h'
  rw [hdirectories] at hdirectories'
  obtain ⟨rfl, rfl⟩ := Prod.mk.inj (Option.some.inj (Except.ok.inj hdirectories'))
  cases hcontrol with
  | config hnode =>
      cases hcontrol' with
      | config hnode' =>
          rw [hnode] at hnode'
          rw [Option.some.inj hnode']
      | worktreeConfig => simp at hparts
      | attributes => simp at hparts
  | worktreeConfig hnode =>
      cases hcontrol' with
      | config => simp at hparts
      | worktreeConfig hnode' =>
          rw [hnode] at hnode'
          rw [Option.some.inj hnode']
      | attributes => simp at hparts
  | attributes hinfo hnode =>
      cases hcontrol' with
      | config => simp at hparts
      | worktreeConfig => simp at hparts
      | attributes hinfo' hnode' =>
          rw [hinfo] at hinfo'
          obtain rfl := Option.some.inj hinfo'
          rw [hnode] at hnode'
          rw [Option.some.inj hnode']

theorem hook_inj {found found' : Found} (h : IsHook checkout found) (h' : IsHook checkout found')
    (hparts : found.parts = found'.parts) : found = found' := by
  obtain ⟨worktree, common, hdirectories, hooks, hhooks, hreach⟩ := h
  obtain ⟨worktree', common', hdirectories', hooks', hhooks', hreach'⟩ := h'
  rw [hdirectories] at hdirectories'
  obtain ⟨rfl, rfl⟩ := Prod.mk.inj (Option.some.inj (Except.ok.inj hdirectories'))
  rw [hhooks] at hhooks'
  obtain rfl := Option.some.inj hhooks'
  exact hreach.inj (hooks_named hdirectories hhooks) hreach' hparts

theorem told_inj {found found' : Found} (h : Told excluded checkout found)
    (h' : Told excluded checkout found') (hpath : found.look.1 = found'.look.1) :
    found = found' := by
  obtain ⟨hne, hslash⟩ := told_parts h
  obtain ⟨hne', hslash'⟩ := told_parts h'
  have hparts : found.parts = found'.parts := relativeName_inj hne hne' hslash hslash' hpath
  obtain ⟨h, -⟩ | h | h := h
  · obtain ⟨h', -⟩ | h' | h' := h'
    · exact h.1.inj checkout.named h'.1 hparts
    · obtain ⟨name, rest, hname, -⟩ := control_git h'
      exact absurd (hparts.trans hname) (tree_ne_git h name rest)
    · obtain ⟨rest, hrest, -⟩ := hook_parts h'
      exact absurd (hparts.trans hrest) (tree_ne_git h _ rest)
  · obtain ⟨name, rest, hname, hhooks⟩ := control_git h
    obtain ⟨h', -⟩ | h' | h' := h'
    · exact absurd (hparts.symm.trans hname) (tree_ne_git h' name rest)
    · exact control_inj h h' hparts
    · obtain ⟨rest', hrest, -⟩ := hook_parts h'
      rw [hname, hrest] at hparts
      exact absurd (List.cons.inj (List.cons.inj hparts).2).1 hhooks
  · obtain ⟨rest, hrest, -⟩ := hook_parts h
    obtain ⟨h', -⟩ | h' | h' := h'
    · exact absurd (hparts.symm.trans hrest) (tree_ne_git h' _ rest)
    · obtain ⟨name, rest', hname, hhooks⟩ := control_git h'
      rw [hname, hrest] at hparts
      exact absurd (List.cons.inj (List.cons.inj hparts).2).1.symm hhooks
    · exact hook_inj h h' hparts

/-! ## Agreement -/

/-- An entry that both scanners tell of. -/
def Shared (excluded : String → Bool) (checkout : Checkout) (found : Found) : Prop :=
  InTree excluded checkout found ∧ found.yields skipDirs = true ∨ IsControl checkout found ∨
    IsHook checkout found ∧ found.yields [] = true ∧ found.reached = true

theorem stores_of_yields {skip : List String} {found : Found} (h : found.yields skip = true) :
    found.stores skip = true := by
  rw [Found.yields] at h
  rw [Found.stores]
  split
  · next hnode =>
      rw [hnode] at h
      have hname : found.name ∉ skip := by simpa using h
      simp [hname]
  · rfl

theorem Shared.told {found : Found} (h : Shared excluded checkout found) :
    Told excluded checkout found :=
  h.imp (And.imp_right stores_of_yields) (Or.imp_right And.left)

/-- Nothing in the tree or below the hooks is told of by one scanner only: in the tree no
special file, and no directory with a skipped name where it cannot be looked at; below the
hooks no special file, and nothing that cannot be looked at. -/
structure NoStray (excluded : String → Bool) (checkout : Checkout) : Prop where
  tree : ∀ found, InTree excluded checkout found → found.stores skipDirs = true →
    found.yields skipDirs = true
  hooks : ∀ found, IsHook checkout found → found.yields [] = true ∧ found.reached = true

theorem shared_iff_told : (∀ found, Told excluded checkout found → Shared excluded checkout found) ↔
    NoStray excluded checkout := by
  constructor
  · intro h
    refine ⟨fun found hfound hstores => ?_, fun found hfound => ?_⟩
    · obtain ⟨-, hyields⟩ | hcontrol | ⟨hhook, -⟩ := h found (Or.inl ⟨hfound, hstores⟩)
      · exact hyields
      · obtain ⟨name, rest, hparts, -⟩ := control_git hcontrol
        exact absurd hparts (tree_ne_git hfound name rest)
      · obtain ⟨rest, hparts, -⟩ := hook_parts hhook
        exact absurd hparts (tree_ne_git hfound _ rest)
    · obtain ⟨rest, hparts, -⟩ := hook_parts hfound
      obtain ⟨htree, -⟩ | hcontrol | ⟨-, hshared⟩ := h found (Or.inr (Or.inr hfound))
      · exact absurd hparts (tree_ne_git htree _ rest)
      · obtain ⟨name, rest', hname, hhooks⟩ := control_git hcontrol
        rw [hname] at hparts
        exact absurd (List.cons.inj (List.cons.inj hparts).2).1 hhooks
      · exact hshared
  · intro h found hfound
    obtain ⟨htree, hstores⟩ | hcontrol | hhook := hfound
    · exact Or.inl ⟨htree, h.tree found htree hstores⟩
    · exact Or.inr (Or.inl hcontrol)
    · exact Or.inr (Or.inr ⟨hhook, h.hooks found hhook⟩)

section Maps

variable (F : Type) [Json.PyFloat F]

variable (digests) in
/-- Two captures with the same entry map and fingerprint, or two that raise. -/
def Agree : Except PyExc (Dict String) → Except PyExc (Dict String) → Prop
  | .ok files, .ok files' => (∀ path, Dict.get? files path = Dict.get? files' path) ∧
    fingerprint F digests files = fingerprint F digests files'
  | .error _, .error _ => True
  | _, _ => False

/-- A fingerprint depends on the map alone. -/
theorem fingerprint_eq {files files' : Dict String} (hkeys : (Dict.keys files).Nodup)
    (hkeys' : (Dict.keys files').Nodup)
    (h : ∀ path, Dict.get? files path = Dict.get? files' path) :
    fingerprint F digests files = fingerprint F digests files' := by
  have hperm : files.Perm files' := by
    refine (List.perm_ext_iff_of_nodup (List.Nodup.of_map Prod.fst hkeys)
      (List.Nodup.of_map Prod.fst hkeys')).2 fun kv => ?_
    constructor
    · intro hkv
      exact Dict.mem_of_get? ((h kv.1).symm.trans (Dict.get?_of_mem hkeys hkv))
    · intro hkv
      exact Dict.mem_of_get? ((h kv.1).trans (Dict.get?_of_mem hkeys' hkv))
  have hjson : (Dict.keys (files.map fun kv => (kv.1, (Json.str kv.2 : Json F)))).Nodup := by
    rw [Dict.keys, List.map_map]
    exact hkeys
  rw [fingerprint, fingerprint, Json.canonical, Json.canonical, filesJson, filesJson,
    Json.sortKeys_eq_of_perm (hperm.map _) hjson]

theorem capture_play (r : Record) (cache : Cache) : (capture (r.play digests) cache).1 =
    match r.raised with
    | some exc => .error exc
    | none => .ok (r.looks.foldl (step digests) ⟨[], [], cache⟩).files := by
  rw [capture, play_run]
  cases r.raised with
  | none => rfl
  | some exc => rfl

theorem capture_single {r : Record} (hraised : r.raised = none) (hsingle : Single r.looks) :
    (capture (r.play digests) []).1 = .ok (lookFiles digests [] r.looks) := by
  have hsteady : Steady r.looks := by
    intro relative node node' hnode hnode' _
    have heq := hsingle _ hnode _ hnode' rfl
    rw [Option.some.inj (Prod.mk.inj heq).2]
  have hbacked : Backed digests r.looks [] := fun kept hkept => absurd hkept (by simp)
  have hfiles : (r.looks.foldl (step digests) ⟨[], [], []⟩).files = lookFiles digests [] r.looks :=
    steps_files hbacked hsteady fun first hfirst => hfirst
  rw [capture_play, hraised]
  exact congrArg Except.ok hfiles

/-- Every directory that a scan starts from can be opened, and searched for controls. -/
def AllOpen (checkout : Checkout) : Prop :=
  checkout.root.readable = true ∧
    match gitControlDirectories checkout with
    | .error _ => False
    | .ok none => True
    | .ok (some (worktree, common)) => Opened worktree common

theorem descriptor_raised_iff :
    (descriptorRecord excluded checkout).raised = none ↔ AllOpen checkout := by
  rw [descriptor_raised, controlsRecord_raised, AllOpen]

/-! Where the scan relative to open directories does not raise, it looks at each path once,
and at all that the walk over paths looks at. -/

theorem single_descriptor (hraised : (descriptorRecord excluded checkout).raised = none) :
    Single (descriptorRecord excluded checkout).looks := by
  intro first hfirst second hsecond hpath
  obtain ⟨found, hfound, rfl⟩ := (mem_descriptor hraised).1 hfirst
  obtain ⟨found', hfound', rfl⟩ := (mem_descriptor hraised).1 hsecond
  rw [told_inj hfound hfound' hpath]

theorem fallback_sub (hraised : (descriptorRecord excluded checkout).raised = none) :
    ∀ first ∈ (fallbackRecord relativeIo excluded checkout).looks,
      first ∈ (descriptorRecord excluded checkout).looks := by
  intro first hfirst
  obtain ⟨found, hfound, hlook⟩ := (mem_fallback hraised).1 hfirst
  exact (mem_descriptor hraised).2 ⟨found, Shared.told hfound, hlook⟩

theorem descriptor_sub_iff (hraised : (descriptorRecord excluded checkout).raised = none) :
    (∀ first ∈ (descriptorRecord excluded checkout).looks,
      first ∈ (fallbackRecord relativeIo excluded checkout).looks) ↔
      NoStray excluded checkout := by
  rw [← shared_iff_told]
  constructor
  · intro h found hfound
    obtain ⟨found', hfound', hlook⟩ := (mem_fallback hraised).1
      (h found.look ((mem_descriptor hraised).2 ⟨found, hfound, rfl⟩))
    rw [told_inj hfound (Shared.told hfound') (congrArg Prod.fst hlook)]
    exact hfound'
  · intro h first hfirst
    obtain ⟨found, hfound, hlook⟩ := (mem_descriptor hraised).1 hfirst
    exact (mem_fallback hraised).2 ⟨found, h found hfound, hlook⟩

theorem agree_of_open (hopen : AllOpen checkout) :
    Agree digests F (capture ((descriptorRecord excluded checkout).play digests) []).1
      (capture ((fallbackRecord relativeIo excluded checkout).play digests) []).1 ↔
      NoStray excluded checkout := by
  have hraised : (descriptorRecord excluded checkout).raised = none :=
    descriptor_raised_iff.2 hopen
  have hraised' : (fallbackRecord relativeIo excluded checkout).raised = none :=
    fallback_raised.2 (not_refused (descriptor_raised.1 hraised).2)
  have hsingle := single_descriptor hraised
  have hsub : ∀ first ∈ (fallbackRecord relativeIo excluded checkout).looks,
      first ∈ (descriptorRecord excluded checkout).looks := fallback_sub hraised
  have hsingle' : Single (fallbackRecord relativeIo excluded checkout).looks :=
    fun first hfirst second hsecond => hsingle first (hsub first hfirst) second (hsub second hsecond)
  rw [capture_single hraised hsingle, capture_single hraised' hsingle', Agree]
  rw [and_iff_left_of_imp (fingerprint_eq F (keys_lookFiles _ [] List.nodup_nil)
    (keys_lookFiles _ [] List.nodup_nil)), files_eq_iff hsingle hsub, descriptor_sub_iff hraised]

variable (digests relativeIo excluded checkout) in
/-- The two scanners agree on a checkout exactly if both refuse it, or every directory they
start from is open and none tells of an entry that the other passes by. -/
theorem scanners_agree :
    Agree digests F (capture (captureDescriptorRelative digests excluded checkout) []).1
      (capture (captureFallback digests relativeIo excluded checkout) []).1 ↔
      Refused checkout ∨ AllOpen checkout ∧ NoStray excluded checkout := by
  rw [captureDescriptorRelative_eq, captureFallback_eq]
  by_cases hopen : AllOpen checkout
  · have hrefused : ¬ Refused checkout := by
      refine not_refused (?_ : (controlsRecord checkout).raised = none)
      exact controlsRecord_raised.2 hopen.2
    rw [agree_of_open F hopen]
    simp only [hrefused, hopen, false_or, true_and]
  · have hraised : (descriptorRecord excluded checkout).raised ≠ none :=
      fun h => hopen (descriptor_raised_iff.1 h)
    obtain ⟨exc, hexc⟩ := Option.ne_none_iff_exists'.1 hraised
    rw [capture_play, capture_play, hexc]
    by_cases hrefused : Refused checkout
    · have hraised' : (fallbackRecord relativeIo excluded checkout).raised ≠ none :=
        fun h => fallback_raised.1 h hrefused
      obtain ⟨exc', hexc'⟩ := Option.ne_none_iff_exists'.1 hraised'
      rw [hexc']
      simp [Agree, hrefused]
    · rw [fallback_raised.2 hrefused]
      simp [Agree, hrefused, hopen]

end Maps

end Checkouts

/-! ### A named pipe -/

namespace Piped

def stat (ino : Nat) : Stat := ⟨0o644, 1, ino, 0, 0, 0⟩

/-- A tree with a named pipe in it, and no repository. -/
def checkout : Checkout where
  root := ⟨stat 1, true, true, [("pipe", .special .fifo (stat 2))]⟩
  linked := .error permissionDenied
  named := by
    refine .directory _ _ _ (List.nodup_singleton _) (fun entry hentry => ?_) fun entry hentry => ?_
    · rw [List.mem_singleton.1 hentry]
      exact (by decide : FileName "pipe")
    · rw [List.mem_singleton.1 hentry]
      exact .special _ _
  linkedNamed := named_of_denied

theorem descriptor_files :
    (capture (captureDescriptorRelative hexDigests nothingExcluded checkout) []).1 =
      .ok [("pipe", "special:10000:644")] := rfl

theorem walk_nil : walk skipDirs [] checkout.root = [] := by
  rw [walk, iterEntries, iterEntries.eq_def]
  rfl

theorem fallback_files (relativeIo : Bool) :
    (capture (captureFallback hexDigests relativeIo nothingExcluded checkout) []).1 = .ok [] := by
  rw [captureFallback, walk_nil]
  rfl

/-- Only one of the scanners tells of a named pipe. -/
theorem scanners_differ :
    ¬ Agree hexDigests Unit
      (capture (captureDescriptorRelative hexDigests nothingExcluded checkout) []).1
      (capture (captureFallback hexDigests true nothingExcluded checkout) []).1 := by
  rw [descriptor_files, fallback_files]
  intro h
  exact absurd (h.1 "pipe") (by decide)

end Piped

end Scanner

end MiniCodeAgent
