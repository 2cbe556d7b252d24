import MiniCodeAgent.Scanner

/-!
# The cache of a scanner

A scan looks at entries one after the other and keeps a text for each, and what
it looks at does not depend on the cache: `Record` is the scan without it. So a
cached text can only be wrong for the entry it is looked up for, and it is the
right one if an entry with the same path and metadata can also be read exactly
if it could be read when the text was made. It is not otherwise, because the text of an
entry that could not be read is kept like any other.
-/

namespace MiniCodeAgent

namespace Scanner

/-! ## Scans without a cache -/

/-- A look at an entry: what it is, or nothing if that cannot be had. -/
abbrev Look := String × Option Node

/-- What a scan looks at, and the exception it ends with. -/
structure Record where
  looks : List Look
  raised : Option PyExc

def Record.andThen (r s : Record) : Record :=
  match r.raised with
  | some exc => ⟨r.looks, some exc⟩
  | none => ⟨r.looks ++ s.looks, s.raised⟩

def Record.done : Record := ⟨[], none⟩

def Record.looked (looks : List Look) : Record := ⟨looks, none⟩

def Record.failed (exc : PyExc) : Record := ⟨[], some exc⟩

variable (digests : Digests)

/-- What a look does to the files and the cache. -/
def look : Look → Scan Unit
  | (relative, some node) => remember digests relative node
  | (relative, none) => markUnreadable relative

def lookAll : List Look → Scan Unit
  | [] => pure ()
  | first :: rest => do
    look digests first
    lookAll rest

/-- The scan with a record. -/
def Record.play (r : Record) : Scan Unit := do
  lookAll digests r.looks
  match r.raised with
  | some exc => throw exc
  | none => pure ()

variable {digests}

theorem play_done : Record.done.play digests = pure () := rfl

theorem play_failed (exc : PyExc) : (Record.failed exc).play digests = throw exc := rfl

theorem lookAll_append (looks looks' : List Look) :
    lookAll digests (looks ++ looks') = (do lookAll digests looks; lookAll digests looks') := by
  induction looks with
  | nil => simp [lookAll]
  | cons first rest ih => simp [lookAll, ih]

theorem lookAll_single (only : Look) : lookAll digests [only] = look digests only := by
  simp [lookAll]

theorem play_looked (looks : List Look) :
    (Record.looked looks).play digests = lookAll digests looks := by
  show (lookAll digests looks >>= fun _ => pure ()) = lookAll digests looks
  simp

theorem play_andThen (r s : Record) :
    (r.andThen s).play digests = (do r.play digests; s.play digests) := by
  obtain ⟨looks, raised⟩ := r
  cases raised with
  | some exc =>
      simp only [Record.andThen, Record.play, bind_assoc]
      rfl
  | none =>
      simp only [Record.andThen, Record.play, lookAll_append, bind_assoc, pure_bind]

/-! ### What each function looks at -/

def storeLooks (excluded : String → Bool) (searchable : Bool) (relative : String) (node : Node) :
    List Look :=
  if excluded relative then []
  else if searchable then [(relative, some node)] else [(relative, none)]

theorem storeEntry_eq (excluded : String → Bool) (searchable : Bool) (relative : String)
    (node : Node) : storeEntry digests excluded searchable relative node =
      lookAll digests (storeLooks excluded searchable relative node) := by
  rw [storeEntry, storeLooks]
  split
  · rfl
  · split
    · rw [lookAll_single, look]
    · rw [lookAll_single, look]

mutual

def namedLooks (pass : Pass) (searchable : Bool) (parents : List String) (name : String) :
    Node → List Look
  | .directory stat readable inside entries =>
    if searchable ∧ name ∈ pass.skip then []
    else storeLooks pass.excluded searchable (relativeName (parents ++ [name]))
        (.directory stat readable inside entries) ++
      if searchable ∧ readable ∧ pass.recurse then
        entriesLooks pass inside (parents ++ [name]) entries
      else []
  | .file stat content readable =>
    storeLooks pass.excluded searchable (relativeName (parents ++ [name]))
      (.file stat content readable)
  | .symlink stat target =>
    storeLooks pass.excluded searchable (relativeName (parents ++ [name])) (.symlink stat target)
  | .special format stat =>
    storeLooks pass.excluded searchable (relativeName (parents ++ [name])) (.special format stat)

def entriesLooks (pass : Pass) (searchable : Bool) (parents : List String) :
    List (String × Node) → List Look
  | [] => []
  | (name, node) :: rest =>
    namedLooks pass searchable parents name node ++ entriesLooks pass searchable parents rest

end

mutual

theorem captureNamed_eq (pass : Pass) (searchable : Bool) (parents : List String) (name : String) :
    (node : Node) → captureNamed digests pass searchable parents name node =
      lookAll digests (namedLooks pass searchable parents name node)
  | .directory stat readable inside entries => by
      rw [captureNamed, namedLooks]
      split
      · rfl
      · rw [lookAll_append, ← storeEntry_eq]
        split
        · rw [scanEntries_eq pass inside (parents ++ [name]) entries]
        · rfl
  | .file stat content readable => by rw [captureNamed, namedLooks, storeEntry_eq]
  | .symlink stat target => by rw [captureNamed, namedLooks, storeEntry_eq]
  | .special format stat => by rw [captureNamed, namedLooks, storeEntry_eq]

theorem scanEntries_eq (pass : Pass) (searchable : Bool) (parents : List String) :
    (entries : List (String × Node)) → scanEntries digests pass searchable parents entries =
      lookAll digests (entriesLooks pass searchable parents entries)
  | [] => by rw [scanEntries, entriesLooks]; rfl
  | (name, node) :: rest => by
      rw [scanEntries, entriesLooks, lookAll_append,
        captureNamed_eq pass searchable parents name node,
        scanEntries_eq pass searchable parents rest]

end

def openRecord (directory : Directory) : Record :=
  if directory.readable then .done else .failed permissionDenied

theorem openDirectory_eq (directory : Directory) :
    openDirectory directory = (openRecord directory).play digests := by
  rw [openDirectory, openRecord]
  split
  · rfl
  · rfl

def optionalRecord (directory : Directory) (name : String) (parents : List String) : Record :=
  match statOptional directory name with
  | .error exc => .failed exc
  | .ok none => .done
  | .ok (some node) => .looked (namedLooks ⟨nothingExcluded, [], false⟩ true parents name node)

theorem captureOptionalGitEntry_eq (directory : Directory) (name : String)
    (parents : List String) : captureOptionalGitEntry digests directory name parents =
      (optionalRecord directory name parents).play digests := by
  rw [captureOptionalGitEntry, optionalRecord]
  cases statOptional directory name with
  | error exc => rfl
  | ok entry =>
      cases entry with
      | none => rfl
      | some node =>
          show captureNamed digests _ true parents name node = _
          rw [captureNamed_eq, play_looked]

def hooksRecord (common : Directory) : Record :=
  match statOptional common "hooks" with
  | .error exc => .failed exc
  | .ok (some (.symlink _ _)) =>
    .failed (securityError ".git/hooks must not be a symbolic link")
  | .ok (some (.directory stat readable searchable entries)) =>
    (openRecord ⟨stat, readable, searchable, entries⟩).andThen
      (.looked (entriesLooks ⟨nothingExcluded, [], true⟩ searchable [".git", "hooks"] entries))
  | .ok _ => .done

theorem captureHooks_eq (common : Directory) :
    captureHooks digests common = (hooksRecord common).play digests := by
  rw [captureHooks, hooksRecord]
  cases statOptional common "hooks" with
  | error exc => rfl
  | ok entry =>
      cases entry with
      | none => rfl
      | some node =>
          cases node with
          | directory stat readable searchable entries =>
              show (do openDirectory _; scanEntries digests _ searchable _ entries) = _
              rw [play_andThen, play_looked, ← openDirectory_eq, ← scanEntries_eq]
          | file => rfl
          | symlink => rfl
          | special => rfl

def attributesRecord (common : Directory) : Record :=
  match statOptional common "info" with
  | .error exc => .failed exc
  | .ok (some (.symlink _ _)) => .failed (securityError ".git/info must not be a symbolic link")
  | .ok (some (.directory stat readable searchable entries)) =>
    (openRecord ⟨stat, readable, searchable, entries⟩).andThen
      (optionalRecord ⟨stat, readable, searchable, entries⟩ "attributes" [".git", "info"])
  | .ok _ => .done

theorem captureGitAttributes_eq (common : Directory) :
    captureGitAttributes digests common = (attributesRecord common).play digests := by
  rw [captureGitAttributes, attributesRecord]
  cases statOptional common "info" with
  | error exc => rfl
  | ok entry =>
      cases entry with
      | none => rfl
      | some node =>
          cases node with
          | directory stat readable searchable entries =>
              show (do openDirectory _; captureOptionalGitEntry digests _ _ _) = _
              rw [play_andThen, ← openDirectory_eq, ← captureOptionalGitEntry_eq]
          | file => rfl
          | symlink => rfl
          | special => rfl

/-- The controls of a worktree and a repository. -/
def directoriesRecord (worktree common : Directory) : Record :=
  (openRecord worktree).andThen <| (openRecord common).andThen <|
    (optionalRecord common "config" [".git"]).andThen <|
    (optionalRecord worktree "config.worktree" [".git"]).andThen <|
    (hooksRecord common).andThen (attributesRecord common)

def controlsRecord (checkout : Checkout) : Record :=
  match gitControlDirectories checkout with
  | .error exc => .failed exc
  | .ok none => .done
  | .ok (some (worktree, common)) => directoriesRecord worktree common

theorem captureGitControls_eq (checkout : Checkout) :
    captureGitControls digests checkout = (controlsRecord checkout).play digests := by
  rw [captureGitControls, controlsRecord]
  cases gitControlDirectories checkout with
  | error exc => rfl
  | ok directories =>
      cases directories with
      | none => rfl
      | some both =>
          obtain ⟨worktree, common⟩ := both
          simp only [directoriesRecord, play_andThen, ← openDirectory_eq,
            ← captureOptionalGitEntry_eq, ← captureHooks_eq, ← captureGitAttributes_eq]
          rfl

def descriptorRecord (excluded : String → Bool) (checkout : Checkout) : Record :=
  (openRecord checkout.root).andThen <|
    (Record.looked (entriesLooks ⟨excluded, skipDirs, true⟩ checkout.root.searchable []
      checkout.root.entries)).andThen (controlsRecord checkout)

theorem captureDescriptorRelative_eq (excluded : String → Bool) (checkout : Checkout) :
    captureDescriptorRelative digests excluded checkout =
      (descriptorRecord excluded checkout).play digests := by
  rw [captureDescriptorRelative, descriptorRecord, play_andThen, play_andThen, play_looked,
    ← openDirectory_eq, ← scanEntries_eq, ← captureGitControls_eq]

def foundLooks (excluded : String → Bool) (found : Found) : List Look :=
  storeLooks excluded found.reached (relativeName found.parts) found.node

def fallbackControls (relativeIo : Bool) (checkout : Checkout) : Record :=
  match gitControls relativeIo checkout with
  | .error exc => .failed exc
  | .ok controls => .looked (controls.map fun control => (control.1, some control.2))

def fallbackRecord (relativeIo : Bool) (excluded : String → Bool) (checkout : Checkout) : Record :=
  (Record.looked ((walk skipDirs [] checkout.root).flatMap (foundLooks excluded))).andThen
    (fallbackControls relativeIo checkout)

theorem captureFallback_eq (relativeIo : Bool) (excluded : String → Bool) (checkout : Checkout) :
    captureFallback digests relativeIo excluded checkout =
      (fallbackRecord relativeIo excluded checkout).play digests := by
  have hwalk : ∀ found : List Found, (found.forM fun found =>
      storeEntry digests excluded found.reached (relativeName found.parts) found.node) =
      lookAll digests (found.flatMap (foundLooks excluded)) := by
    intro found
    induction found with
    | nil => rfl
    | cons first rest ih =>
        rw [List.flatMap_cons, lookAll_append, foundLooks, ← storeEntry_eq, ← ih]
        rfl
  have hcontrols : ∀ controls : List (String × Node),
      (controls.forM fun control => remember digests control.1 control.2) =
      lookAll digests (controls.map fun control => (control.1, some control.2)) := by
    intro controls
    induction controls with
    | nil => rfl
    | cons first rest ih =>
        rw [List.map_cons, lookAll, ← ih]
        rfl
  rw [captureFallback, fallbackRecord, play_andThen, play_looked, hwalk, fallbackControls]
  cases gitControls relativeIo checkout with
  | error exc => rfl
  | ok controls =>
      simp only [play_looked, ← hcontrols]
      rfl

/-! ## The cache along a scan -/

variable (digests)

/-- A look, with a cache. -/
def step (st : ScanState) : Look → ScanState
  | (relative, some node) =>
    match cached st.cache relative node.signature with
    | some value =>
      { st with live := st.live ++ [relative], files := Dict.set st.files relative value }
    | none =>
      { live := st.live ++ [relative]
        files := Dict.set st.files relative (entryText digests node.entry)
        cache := Dict.set st.cache relative (node.signature, entryText digests node.entry) }
  | (relative, none) =>
    { st with live := st.live ++ [relative], files := Dict.set st.files relative "unreadable" }

/-- What a look finds without a cache. -/
def lookText : Look → String
  | (_, some node) => entryText digests node.entry
  | (_, none) => "unreadable"

/-- The files that looks come to without a cache. -/
def lookFiles (files : Dict String) (looks : List Look) : Dict String :=
  looks.foldl (fun files first => Dict.set files first.1 (lookText digests first)) files

variable {digests}

theorem look_run (first : Look) (st : ScanState) :
    (look digests first).run st = (.ok (), step digests st first) := by
  obtain ⟨relative, _ | node⟩ := first
  · rfl
  · rfl

theorem run_bind {σ α β : Type} (x : StateM σ α) (f : α → StateM σ β) (st : σ) :
    (x >>= f) st = f (x st).1 (x st).2 := rfl

theorem run_bind_ok {α β : Type} {x : Scan α} {st st' : ScanState} {value : α}
    (hx : x.run st = (.ok value, st')) (f : α → Scan β) :
    (x >>= f).run st = (f value).run st' := by
  rw [ExceptT.run_bind, run_bind, hx]

theorem lookAll_run (looks : List Look) (st : ScanState) :
    (lookAll digests looks).run st = (.ok (), looks.foldl (step digests) st) := by
  induction looks generalizing st with
  | nil => rfl
  | cons first rest ih =>
      rw [lookAll, run_bind_ok (look_run first st), ih]
      rfl

theorem play_run (r : Record) (st : ScanState) : (r.play digests).run st =
    ((match r.raised with
      | some exc => .error exc
      | none => .ok ()), r.looks.foldl (step digests) st) := by
  obtain ⟨looks, raised⟩ := r
  rw [Record.play, run_bind_ok (lookAll_run looks st)]
  cases raised with
  | none => rfl
  | some exc => rfl

variable (digests)

/-- A cache in which every text is that of an entry looked at with the metadata it is
kept under. -/
def Backed (seen : List Look) (cache : Cache) : Prop :=
  ∀ kept ∈ cache, ∃ node : Node, (kept.1, some node) ∈ seen ∧
    node.signature = kept.2.1 ∧ entryText digests node.entry = kept.2.2

variable {digests}

/-- What is seen of an entry is told by its path and metadata. -/
def Steady (seen : List Look) : Prop :=
  ∀ relative node node', (relative, some node) ∈ seen → (relative, some node') ∈ seen →
    node.signature = node'.signature → node.entry = node'.entry

theorem mem_of_cached {cache : Cache} {relative value : String} {signature : Signature}
    (h : cached cache relative signature = some value) :
    (relative, signature, value) ∈ cache := by
  rw [cached] at h
  split at h
  · next signature' value' hget =>
      split at h
      · next hsignature =>
          rw [← hsignature, ← Option.some.inj h]
          exact Dict.mem_of_get? hget
      · exact absurd h (by simp)
  · exact absurd h (by simp)

theorem Backed.mono {seen seen' : List Look} {cache : Cache} (hbacked : Backed digests seen cache)
    (hsub : ∀ first ∈ seen, first ∈ seen') : Backed digests seen' cache := by
  intro kept hkept
  obtain ⟨node, hnode, hrest⟩ := hbacked kept hkept
  exact ⟨node, hsub _ hnode, hrest⟩

theorem Backed.filter {seen : List Look} {cache : Cache} (hbacked : Backed digests seen cache)
    (p : String × Signature × String → Bool) : Backed digests seen (cache.filter p) :=
  fun kept hkept => hbacked kept (List.mem_of_mem_filter hkept)

/-- A text in such a cache is what would be found. -/
theorem cached_eq {seen : List Look} {cache : Cache} (hbacked : Backed digests seen cache)
    (hsteady : Steady seen) {relative value : String} {node : Node}
    (hnode : (relative, some node) ∈ seen)
    (h : cached cache relative node.signature = some value) :
    value = entryText digests node.entry := by
  obtain ⟨node', hnode', hsignature, hvalue⟩ := hbacked _ (mem_of_cached h)
  rw [hsteady relative node node' hnode hnode' hsignature.symm]
  exact hvalue.symm

theorem step_backed {seen : List Look} {st : ScanState} {first : Look}
    (hbacked : Backed digests seen st.cache) (hfirst : first ∈ seen) :
    Backed digests seen (step digests st first).cache := by
  obtain ⟨relative, _ | node⟩ := first
  · exact hbacked
  · simp only [step]
    split
    · exact hbacked
    · intro kept hkept
      by_cases hold : kept ∈ st.cache
      · exact hbacked kept hold
      · have hnew := (Dict.mem_set hkept).resolve_right hold
        rw [hnew]
        exact ⟨node, hfirst, rfl, rfl⟩

theorem step_files {seen : List Look} {st : ScanState} {first : Look}
    (hbacked : Backed digests seen st.cache) (hsteady : Steady seen) (hfirst : first ∈ seen) :
    (step digests st first).files = Dict.set st.files first.1 (lookText digests first) := by
  obtain ⟨relative, _ | node⟩ := first
  · rfl
  · simp only [step, lookText]
    split
    · next value hvalue => rw [cached_eq hbacked hsteady hfirst hvalue]
    · rfl

theorem steps_backed {seen looks : List Look} {st : ScanState}
    (hbacked : Backed digests seen st.cache) (hlooks : ∀ first ∈ looks, first ∈ seen) :
    Backed digests seen (looks.foldl (step digests) st).cache := by
  induction looks generalizing st with
  | nil => exact hbacked
  | cons first rest ih =>
      rw [List.foldl_cons]
      exact ih (step_backed hbacked (hlooks first (by simp)))
        fun other hother => hlooks other (List.mem_cons_of_mem _ hother)

/-- With a cache from looks at steady entries the files are those found without it. -/
theorem steps_files {seen looks : List Look} {st : ScanState}
    (hbacked : Backed digests seen st.cache) (hsteady : Steady seen)
    (hlooks : ∀ first ∈ looks, first ∈ seen) :
    (looks.foldl (step digests) st).files = lookFiles digests st.files looks := by
  induction looks generalizing st with
  | nil => rfl
  | cons first rest ih =>
      have hfirst := hlooks first (by simp)
      rw [List.foldl_cons, ih (step_backed hbacked hfirst)
        fun other hother => hlooks other (List.mem_cons_of_mem _ hother),
        step_files hbacked hsteady hfirst]
      rfl

/-! ## Histories of captures -/

/-- The scanner of a platform. -/
inductive Way where
  | descriptorRelative
  | fallback (relativeIo : Bool)

/-- A call of `capture`, with the tree as it is then. -/
structure Shot where
  way : Way
  excluded : String → Bool
  checkout : Checkout

variable (digests) in
def Shot.scanner (shot : Shot) : Scan Unit :=
  match shot.way with
  | .descriptorRelative => captureDescriptorRelative digests shot.excluded shot.checkout
  | .fallback relativeIo => captureFallback digests relativeIo shot.excluded shot.checkout

def Shot.record (shot : Shot) : Record :=
  match shot.way with
  | .descriptorRelative => descriptorRecord shot.excluded shot.checkout
  | .fallback relativeIo => fallbackRecord relativeIo shot.excluded shot.checkout

theorem scanner_eq (shot : Shot) : shot.scanner digests = shot.record.play digests := by
  obtain ⟨way, excluded, checkout⟩ := shot
  cases way with
  | descriptorRelative => exact captureDescriptorRelative_eq excluded checkout
  | fallback relativeIo => exact captureFallback_eq relativeIo excluded checkout

variable (digests) in
/-- The cache that captures leave, from an empty one. -/
def cacheAfter (history : List Shot) : Cache :=
  history.foldl (fun cache shot => (capture (shot.scanner digests) cache).2) []

/-- Every entry that captures look at. -/
def seenBy (history : List Shot) : List Look := history.flatMap fun shot => shot.record.looks

theorem capture_backed {seen : List Look} {cache : Cache} {shot : Shot}
    (hbacked : Backed digests seen cache) (hseen : ∀ first ∈ shot.record.looks, first ∈ seen) :
    Backed digests seen (capture (shot.scanner digests) cache).2 := by
  have hsteps : Backed digests seen
      (shot.record.looks.foldl (step digests) ⟨[], [], cache⟩).cache :=
    steps_backed hbacked hseen
  rw [scanner_eq, capture, play_run]
  cases shot.record.raised with
  | none => exact hsteps.filter _
  | some exc => exact hsteps

theorem cacheAfter_backed (history : List Shot) :
    Backed digests (seenBy history) (cacheAfter digests history) := by
  have hfold : ∀ (rest : List Shot) (cache : Cache), Backed digests (seenBy history) cache →
      (∀ shot ∈ rest, shot ∈ history) → Backed digests (seenBy history)
        (rest.foldl (fun cache shot => (capture (shot.scanner digests) cache).2) cache) := by
    intro rest
    induction rest with
    | nil => exact fun cache hcache _ => hcache
    | cons shot rest ih =>
        intro cache hcache hrest
        refine ih _ (capture_backed hcache fun first hfirst => ?_)
          fun other hother => hrest other (List.mem_cons_of_mem _ hother)
        exact List.mem_flatMap.2 ⟨shot, hrest shot (by simp), hfirst⟩
  exact hfold history [] (fun kept hkept => absurd hkept (by simp)) fun shot hshot => hshot

/-- What a capture answers with a cache from looks at steady entries. -/
theorem capture_files {seen : List Look} {cache : Cache} {shot : Shot}
    (hbacked : Backed digests seen cache) (hsteady : Steady seen)
    (hseen : ∀ first ∈ shot.record.looks, first ∈ seen) :
    (capture (shot.scanner digests) cache).1 =
      match shot.record.raised with
      | some exc => .error exc
      | none => .ok (lookFiles digests [] shot.record.looks) := by
  have hfiles : (shot.record.looks.foldl (step digests) ⟨[], [], cache⟩).files =
      lookFiles digests [] shot.record.looks := steps_files hbacked hsteady hseen
  rw [scanner_eq, capture, play_run]
  cases shot.record.raised with
  | none => simp only [hfiles]
  | some exc => rfl

/-! ## Content and access -/

/-- Two entries have the same content, as far as it can be had. -/
def Node.SameContent : Node → Node → Prop
  | .file _ content _, .file _ content' _ => content = content'
  | .symlink _ (some target), .symlink _ (some target') => target = target'
  | _, _ => True

/-- Two files that can both be read or neither, and links likewise. -/
def Node.SameAccess : Node → Node → Prop
  | .file _ _ readable, .file _ _ readable' => readable = readable'
  | .symlink _ target, .symlink _ target' => target.isSome = target'.isSome
  | _, _ => True

/-- Looks that find the one relation of any two entries with one path and signature. -/
def Constant (R : Node → Node → Prop) (seen : List Look) : Prop :=
  ∀ relative node node', (relative, some node) ∈ seen → (relative, some node') ∈ seen →
    node.signature = node'.signature → R node node'

theorem bits_ne (format : Format) :
    format.bits ≠ 0o100000 ∧ format.bits ≠ 0o120000 ∧ format.bits ≠ 0o040000 := by
  cases format <;> decide

theorem symlink_entry_eq {stat stat' : Stat} {target target' : Option String}
    (hstat : stat = stat')
    (hcontent : (Node.symlink stat target).SameContent (.symlink stat' target'))
    (haccess : target.isSome = target'.isSome) :
    (Node.symlink stat target).entry = (Node.symlink stat' target').entry := by
  cases target with
  | none =>
      cases target' with
      | none => rw [hstat]
      | some target' => exact absurd haccess (by simp)
  | some target =>
      cases target' with
      | none => exact absurd haccess (by simp)
      | some target' =>
          have htarget : target = target' := hcontent
          rw [hstat, htarget]

/-- What is told of an entry is its metadata, its content and whether that can be had. -/
theorem entry_eq {node node' : Node} (hsignature : node.signature = node'.signature)
    (hcontent : node.SameContent node') (haccess : node.SameAccess node') :
    node.entry = node'.entry := by
  obtain ⟨hkind, hstat⟩ := Prod.mk.inj hsignature
  cases node with
  | file stat content readable =>
      cases node' with
      | file stat' content' readable' =>
          simp only [Node.SameContent, Node.SameAccess] at hcontent haccess hstat
          rw [hstat, hcontent, haccess]
      | symlink => exact absurd hkind (by simp)
      | special format => exact absurd hkind.symm (bits_ne format).1
      | directory => exact absurd hkind (by simp)
  | symlink stat target =>
      cases node' with
      | file => exact absurd hkind (by simp)
      | symlink stat' target' => exact symlink_entry_eq hstat hcontent haccess
      | special format => exact absurd hkind.symm (bits_ne format).2.1
      | directory => exact absurd hkind (by simp)
  | special format stat =>
      cases node' with
      | file => exact absurd hkind (bits_ne format).1
      | symlink => exact absurd hkind (bits_ne format).2.1
      | special format' stat' =>
          simp only [Node.entry] at hkind hstat ⊢
          rw [hkind, hstat]
      | directory => exact absurd hkind (bits_ne format).2.2
  | directory stat readable searchable entries =>
      cases node' with
      | file => exact absurd hkind (by simp)
      | symlink => exact absurd hkind (by simp)
      | special format => exact absurd hkind.symm (bits_ne format).2.2
      | directory stat' readable' searchable' entries' =>
          simp only [Node.entry] at hstat ⊢
          rw [hstat]

theorem steady_of {seen : List Look} (hcontent : Constant Node.SameContent seen)
    (haccess : Constant Node.SameAccess seen) : Steady seen :=
  fun relative node node' hnode hnode' hsignature => entry_eq hsignature
    (hcontent relative node node' hnode hnode' hsignature)
    (haccess relative node node' hnode hnode' hsignature)

/-- Where equal metadata means equal content, and content that can be had if it could be
had before, a cache from any captures does not change what a capture answers. -/
theorem warm_eq_cold (history : List Shot) (shot : Shot)
    (hcontent : Constant Node.SameContent (seenBy (history ++ [shot])))
    (haccess : Constant Node.SameAccess (seenBy (history ++ [shot]))) :
    (capture (shot.scanner digests) (cacheAfter digests history)).1 =
      (capture (shot.scanner digests) []).1 := by
  have hsteady := steady_of hcontent haccess
  have hseen : ∀ first ∈ shot.record.looks, first ∈ seenBy (history ++ [shot]) :=
    fun first hfirst => List.mem_flatMap.2 ⟨shot, by simp, hfirst⟩
  have hwarm : Backed digests (seenBy (history ++ [shot])) (cacheAfter digests history) := by
    refine (cacheAfter_backed history).mono fun first hfirst => ?_
    rw [seenBy, List.flatMap_append]
    exact List.mem_append_left _ hfirst
  have hcold : Backed digests (seenBy (history ++ [shot])) [] :=
    fun kept hkept => absurd hkept (by simp)
  rw [capture_files hwarm hsteady hseen, capture_files hcold hsteady hseen]

/-! ### A file that can be read again -/

theorem named_of_denied (directories : Directory × Directory)
    (h : (.error permissionDenied : Except PyExc (Directory × Directory)) = .ok directories) :
    directories.1.node.Named ∧ directories.2.node.Named := by
  cases h

namespace Retried

def stat (ino : Nat) : Stat := ⟨0o644, 1, ino, 3, 0, 0⟩

/-- One file in a tree without a repository. -/
def checkout (readable : Bool) : Checkout where
  root := ⟨stat 1, true, true, [("notes.txt", .file (stat 2) "all".toUTF8 readable)]⟩
  linked := .error permissionDenied
  named := by
    refine .directory _ _ _ (List.nodup_singleton _) (fun entry hentry => ?_) fun entry hentry => ?_
    · rw [List.mem_singleton.1 hentry]
      exact (by decide : FileName "notes.txt")
    · rw [List.mem_singleton.1 hentry]
      exact .file _ _ _
  linkedNamed := named_of_denied

def shot (readable : Bool) : Shot :=
  ⟨.descriptorRelative, nothingExcluded, checkout readable⟩

theorem warm_shot :
    (capture ((shot true).scanner hexDigests) (cacheAfter hexDigests [shot false])).1 =
      .ok [("notes.txt", "file:644:unreadable")] := rfl

theorem cold_shot :
    (capture ((shot true).scanner hexDigests) []).1 = .ok [("notes.txt", "file:644:616c6c")] := rfl

theorem node_eq {readable readable' : Bool} {relative : String} {node : Node}
    (h : (relative, some node) ∈ seenBy [shot readable, shot readable']) :
    node = .file (stat 2) "all".toUTF8 readable ∨ node = .file (stat 2) "all".toUTF8 readable' := by
  have hlooks : seenBy [shot readable, shot readable'] =
      [("notes.txt", some (.file (stat 2) "all".toUTF8 readable)),
        ("notes.txt", some (.file (stat 2) "all".toUTF8 readable'))] := rfl
  rw [hlooks] at h
  simp only [List.mem_cons, List.not_mem_nil, or_false, Prod.mk.injEq, Option.some.injEq] at h
  exact h.imp And.right And.right

theorem same_content (readable readable' : Bool) :
    Constant Node.SameContent (seenBy [shot readable, shot readable']) := by
  intro relative node node' hnode hnode' _
  obtain rfl | rfl := node_eq hnode
  all_goals obtain rfl | rfl := node_eq hnode'
  all_goals rfl

theorem same_access : Constant Node.SameAccess (seenBy [shot true, shot true]) := by
  intro relative node node' hnode hnode' _
  rw [or_self_iff.1 (node_eq hnode), or_self_iff.1 (node_eq hnode')]
  rfl

/-- A file that could not be read is kept as that, so a capture with the cache misses what
one without it finds. -/
theorem warm_ne_cold : ¬ ∀ (history : List Shot) (shot : Shot),
    Constant Node.SameContent (seenBy (history ++ [shot])) →
    (capture (shot.scanner hexDigests) (cacheAfter hexDigests history)).1 =
      (capture (shot.scanner hexDigests) []).1 := by
  intro hall
  have heq := hall [shot false] (shot true) (same_content false true)
  rw [warm_shot, cold_shot] at heq
  simp at heq

/-- Two captures of a file that could be read both times. -/
theorem warm_eq_cold_sample :
    (capture ((shot true).scanner hexDigests) (cacheAfter hexDigests [shot true])).1 =
      (capture ((shot true).scanner hexDigests) []).1 :=
  warm_eq_cold [shot true] (shot true) (same_content true true) same_access

end Retried

end Scanner

end MiniCodeAgent
