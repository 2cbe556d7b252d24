import MiniCodeAgent.Proofs.Confinement
import MiniCodeAgent.Proofs.UndoRoundTrip

/-!
# What an undo does to the files of others

A turn of the loop either skips its record or undoes it, and which of the two it does goes
by a hash: the one the file would have by the records before, and its own where there are
none. Without a dry run the two are the same (`Simulates` is kept by every turn), so that
what is written over or taken away is what the record's edit left.

A dry run never looks at a file that an earlier record is about, and nothing but these
files changes in the run it is a rehearsal of; so both see the same hashes. What may differ
is what the paths lead through, but the records were validated against the files as the
dry run finds them, and a directory stays what it is.
-/

namespace MiniCodeAgent

open Scanner TransactionAdapter

namespace FileTree

variable {t t' : FileTree} {cwd : ResolvedPath} {parts : List String}

theorem checkPart_error {text : String} {below : List String} {exc : PyExc}
    (h : t.checkPart cwd text below = .error exc) :
    exc.type ≠ "FileNotFoundError" ∧ exc.type ≠ "IsADirectoryError" := by
  rcases except_bind_error h with hlstat | ⟨found, -, hfound⟩
  · unfold lstat at hlstat
    split at hlstat
    · obtain rfl := Except.error.inj hlstat
      simp [valueError]
    · split at hlstat
      · obtain rfl := Except.error.inj hlstat
        simp [notADirectoryError]
      · cases hlstat
  · split at hfound
    · obtain rfl := Except.error.inj hfound
      simp [securityError]
    · cases hfound

/-- What the walk over a path's parts raises does not say that there is no file. -/
theorem checkLinks_error {text : String} {exc : PyExc}
    (h : t.checkLinks cwd text parts = .error exc) :
    exc.type ≠ "FileNotFoundError" ∧ exc.type ≠ "IsADirectoryError" := by
  have hwalk : ∀ steps : List (List String),
      steps.forM (t.checkPart cwd text) = .error exc →
        exc.type ≠ "FileNotFoundError" ∧ exc.type ≠ "IsADirectoryError" := by
    intro steps
    induction steps with
    | nil => exact fun h => absurd h (by simp [pure, Except.pure])
    | cons below steps ih =>
        intro h
        rcases except_bind_error h with hpart | ⟨_, -, hrest⟩
        · exact checkPart_error hpart
        · exact ih hrest
  exact hwalk _ h

theorem file_of_node_none (h : t.node parts = none) : t.file parts = none := by
  rw [file, h]

/-- What is no file stays where it is. -/
def Keeps (t t' : FileTree) : Prop :=
  ∀ below node, t.node below = some node → (∀ mode content, node ≠ .file mode content) →
    t'.node below = some node

theorem Keeps.refl (t : FileTree) : t.Keeps t := fun _ _ hnode _ => hnode

theorem Keeps.trans {t₁ t₂ t₃ : FileTree} (h : t₁.Keeps t₂) (h' : t₂.Keeps t₃) :
    t₁.Keeps t₃ := fun below node hnode hfile => h' below node (h below node hnode hfile) hfile

theorem put_keeps {mode : Nat} {content : ByteArray} {h : t.Writable parts} :
    t.Keeps (t.put parts mode content h) := by
  intro below node hnode hfile
  have hne : below ≠ parts := by
    rintro rfl
    rcases h.2.2.2 with hnone | hthere
    · rw [hnone] at hnode
      cases hnode
    · obtain ⟨mode', content', hthere⟩ := file_ne_none.1 hthere
      rw [hthere] at hnode
      exact hfile mode' content' (Option.some.inj hnode).symm
  rw [put_node hne (by rw [hnode]; exact Option.some_ne_none _), hnode]

theorem remove_keeps {h : t.file parts ≠ none} : t.Keeps (t.remove parts h) := by
  intro below node hnode hfile
  rw [remove_node, hnode]
  rintro rfl
  obtain ⟨mode, content, hthere⟩ := file_ne_none.1 h
  rw [hthere] at hnode
  exact hfile mode content (Option.some.inj hnode).symm

end FileTree

section Undo

variable {F : Type} {env : UndoEnv F}

/-! ## One turn of the loop -/

/-- The hash of the file at a path. -/
def fileHash (env : UndoEnv F) (t : FileTree) (parts : List String) : Option String :=
  (t.file parts).map fun file => env.digests.sha256 file.2

/-- A path that a hash is asked of in vain or that has one. -/
structure Hashable (t : FileTree) (parts : List String) : Prop where
  passable : ∀ below, below <+: parts → below ≠ [] → t.Passable below
  plain : parts = [] ∨ t.node parts = none ∨ t.file parts ≠ none

theorem pathHash_ok {t : FileTree} {parts : List String} {found : Option String} :
    pathHash env t parts = .ok found ↔ Hashable t parts ∧ found = fileHash env t parts := by
  by_cases hpassable : ∀ below, below <+: parts → below ≠ [] → t.Passable below
  · have hread : t.readBytes env.root parts = t.openFile env.root parts := by
      rw [FileTree.readBytes, FileTree.checkLinks_ok.2 hpassable, except_ok_bind]
    rw [pathHash, hread, FileTree.openFile]
    by_cases hnil : parts = []
    · subst hnil
      have hfile : fileHash env t [] = none := by
        rw [fileHash, FileTree.file, t.root]
        rfl
      rw [if_pos rfl, hfile]
      constructor
      · intro h
        obtain rfl := Except.ok.inj h
        exact ⟨⟨hpassable, Or.inl rfl⟩, rfl⟩
      · rintro ⟨-, rfl⟩
        rfl
    · rw [if_neg hnil, (hpassable parts List.prefix_rfl hnil).clear, if_neg Bool.false_ne_true]
      have hplain : Hashable t parts ↔ t.node parts = none ∨ t.file parts ≠ none :=
        ⟨fun h => h.plain.resolve_left hnil, fun h => ⟨hpassable, Or.inr h⟩⟩
      rw [hplain, fileHash, FileTree.file]
      cases hnode : t.node parts with
      | none => simp [fileNotFoundError, eq_comm]
      | some node =>
          cases node <;> simp [securityError, eq_comm]
  · have herror : ∃ exc, t.checkLinks env.root (pathText env.root parts) parts = .error exc := by
      cases hlinks : t.checkLinks env.root (pathText env.root parts) parts with
      | ok _ => exact absurd (FileTree.checkLinks_ok.1 hlinks) hpassable
      | error exc => exact ⟨exc, rfl⟩
    obtain ⟨exc, herror⟩ := herror
    have htypes := FileTree.checkLinks_error herror
    have hraises : pathHash env t parts = .error exc := by
      rw [pathHash, FileTree.readBytes, herror]
      exact if_neg (not_or.2 htypes)
    rw [hraises]
    simpa using fun h : Hashable t parts => absurd h.passable hpassable

/-- What the file has to hash to for the record to be undone. -/
def UndoRecord.expectedHash (record : UndoRecord) : Option String :=
  if record.afterHash = "" then none else some record.afterHash

/-- The record is skipped for what was found. -/
def Skips (force : Bool) (record : UndoRecord) (s : UndoState) (parts : List String)
    (found : Option String) : Prop :=
  force = false ∧ (s.simulatedHashes parts).getD found ≠ record.expectedHash

instance (force : Bool) (record : UndoRecord) (s : UndoState) (parts : List String)
    (found : Option String) : Decidable (Skips force record s parts found) :=
  inferInstanceAs (Decidable (_ ∧ _))

def UndoState.skipped (s : UndoState) (parts : List String) : UndoState :=
  { s with actions := s.actions ++
    ["skip " ++ posixText parts ++ ": file changed since agent edit"] }

theorem undoRecord_eq {dryRun force : Bool} {record : UndoRecord} {s : UndoState}
    {parts : List String} {found : Option String}
    (hresolve : s.tree.resolve env.root record.path = .ok parts)
    (hfound : pathHash env s.tree parts = .ok found) :
    undoRecord env dryRun force record s =
      if Skips force record s parts found then .ok (s.skipped parts)
      else undoEdit env dryRun record parts s.tree >>= fun t =>
        .ok (s.undone env record parts t) := by
  rw [undoRecord, hresolve, except_ok_bind, hfound, except_ok_bind]
  rfl

/-- A turn that is done has skipped the record or undone it. -/
theorem undoRecord_cases {dryRun force : Bool} {record : UndoRecord} {s s' : UndoState}
    (h : undoRecord env dryRun force record s = .ok s') :
    ∃ parts, s.tree.resolve env.root record.path = .ok parts ∧ Hashable s.tree parts ∧
      ((Skips force record s parts (fileHash env s.tree parts) ∧ s' = s.skipped parts) ∨
        (¬ Skips force record s parts (fileHash env s.tree parts) ∧
          ∃ t', undoEdit env dryRun record parts s.tree = .ok t' ∧
            s' = s.undone env record parts t')) := by
  obtain ⟨parts, hresolve, hrest⟩ := except_bind_ok.1 h
  obtain ⟨found, hfound, -⟩ := except_bind_ok.1 hrest
  rw [undoRecord_eq hresolve hfound] at h
  obtain ⟨hhashable, rfl⟩ := pathHash_ok.1 hfound
  refine ⟨parts, hresolve, hhashable, ?_⟩
  split at h
  · next hskips => exact Or.inl ⟨hskips, (Except.ok.inj h).symm⟩
  · next hskips =>
      obtain ⟨t', hedit, h⟩ := except_bind_ok.1 h
      exact Or.inr ⟨hskips, t', hedit, (Except.ok.inj h).symm⟩

/-- What undoing a record does to the files: the one at the path becomes what the record
says, and every other stays. -/
structure Undone (env : UndoEnv F) (record : UndoRecord) (parts : List String)
    (t t' : FileTree) : Prop where
  hash : fileHash env t' parts =
    if record.existedBefore then some (textHash env record.beforeContent) else none
  others : ∀ below, below ≠ parts → t'.file below = t.file below
  keeps : t.Keeps t'
  alone : t.file parts ≠ none → ∀ below, below ≠ parts → t'.node below = t.node below

theorem undoEdit_undone {record : UndoRecord} {parts : List String} {t t' : FileTree}
    (h : undoEdit env false record parts t = .ok t') : Undone env record parts t t' := by
  rw [undoEdit, if_neg Bool.false_ne_true] at h
  split at h
  · next hexisted =>
      obtain ⟨_, -, h⟩ := except_bind_ok.1 h
      split at h
      · next hwritable =>
          obtain rfl := Except.ok.inj h
          refine ⟨?_, fun below hne => FileTree.put_file hne, FileTree.put_keeps,
            fun hfile below hne => (if_neg hne).trans (if_neg fun hnew => ?_)⟩
          · rw [fileHash, FileTree.put_self, hexisted]
            rfl
          · have habove := FileTree.directory_above (FileTree.node_of_file_ne hfile) hnew.1 hne
            rw [hnew.2] at habove
            cases habove
      · cases h
  · next hexisted =>
      split at h
      · obtain ⟨_, -, h⟩ := except_bind_ok.1 h
        split at h
        · next hfile =>
            obtain rfl := Except.ok.inj h
            refine ⟨?_, fun below hne => file_eq_of_node (FileTree.remove_node hne),
              FileTree.remove_keeps, fun _ below hne => FileTree.remove_node hne⟩
            rw [fileHash, FileTree.file_of_node_none FileTree.remove_self, if_neg hexisted]
            rfl
        · cases h
      · next hnone =>
          obtain rfl := Except.ok.inj h
          refine ⟨?_, fun _ _ => rfl, FileTree.Keeps.refl t, fun _ _ _ => rfl⟩
          rw [fileHash, FileTree.file_of_node_none (not_not.1 hnone), if_neg hexisted]
          rfl

theorem undone_simulates {record : UndoRecord} {parts : List String} {s : UndoState}
    {t' : FileTree} (h : Undone env record parts s.tree t') (hs : Simulates env s) :
    Simulates env (s.undone env record parts t') := by
  intro below hash hsim
  by_cases hsame : below = parts
  · have hsome : some (if record.existedBefore then
        some (textHash env record.beforeContent) else none) = some hash :=
      (if_pos hsame).symm.trans hsim
    rw [← Option.some.inj hsome, hsame]
    exact h.hash.symm
  · have hsome : s.simulatedHashes below = some hash := (if_neg hsame).symm.trans hsim
    show hash = (t'.file below).map _
    rw [h.others below hsame]
    exact hs below hash hsome

theorem undoRecord_simulates {force : Bool} {record : UndoRecord} {s s' : UndoState}
    (h : undoRecord env false force record s = .ok s') (hs : Simulates env s) :
    Simulates env s' := by
  obtain ⟨parts, -, -, hdone⟩ := undoRecord_cases h
  rcases hdone with ⟨-, rfl⟩ | ⟨-, t', hedit, rfl⟩
  · exact hs
  · exact undone_simulates (undoEdit_undone hedit) hs

theorem undoLoop_simulates {force : Bool} {records : List UndoRecord} {s : UndoState}
    (hs : Simulates env s) : Simulates env (undoLoop env false force records s).2 := by
  induction records generalizing s with
  | nil => exact hs
  | cons record records ih =>
      cases hundo : undoRecord env false force record s with
      | ok s' =>
          rw [undoLoop_ok env hundo]
          exact ih (undoRecord_simulates hundo hs)
      | error exc =>
          rw [undoLoop_error env hundo]
          exact hs

/-! ## An undo that is not forced -/

theorem simulates_start (t : FileTree) : Simulates env ⟨t, fun _ => none, []⟩ := by
  intro parts hash hsim
  cases hsim

/-- The record's edit has left something, as validation sees to. -/
theorem expectedHash_eq {record : UndoRecord} (h : reFullHash record.afterHash = true) :
    record.expectedHash = some record.afterHash := by
  rw [UndoRecord.expectedHash, if_neg]
  intro hempty
  rw [hempty] at h
  exact absurd h (by decide)

/-- A turn that touches anything touches the file of its record, which is what the record's
edit left, and says so. -/
structure Spares (env : UndoEnv F) (record : UndoRecord) (s s' : UndoState)
    (parts : List String) : Prop where
  resolves : s.tree.resolve env.root record.path = .ok parts
  hash : fileHash env s.tree parts = some record.afterHash
  reports : s'.actions = s.actions ++ ["restored " ++ posixText parts] ∨
    s'.actions = s.actions ++ ["removed " ++ posixText parts]

theorem undoRecord_spares {record : UndoRecord} {s s' : UndoState}
    (hvalid : reFullHash record.afterHash = true) (hs : Simulates env s)
    (h : undoRecord env false false record s = .ok s') {below : List String}
    (hbelow : s'.tree.node below ≠ s.tree.node below) : Spares env record s s' below := by
  obtain ⟨parts, hresolve, -, hdone⟩ := undoRecord_cases h
  rcases hdone with ⟨-, rfl⟩ | ⟨hskips, t', hedit, rfl⟩
  · exact absurd rfl hbelow
  · have hcurrent : (s.simulatedHashes parts).getD (fileHash env s.tree parts) =
        fileHash env s.tree parts := by
      cases hsim : s.simulatedHashes parts with
      | none => rfl
      | some hash => exact hs parts hash hsim
    have hhash : fileHash env s.tree parts = some record.afterHash := by
      rw [Skips, hcurrent, expectedHash_eq hvalid] at hskips
      by_contra hne
      exact hskips ⟨rfl, hne⟩
    have hfile : s.tree.file parts ≠ none := by
      intro hnone
      rw [fileHash, hnone] at hhash
      cases hhash
    have hsame : below = parts := by
      by_contra hne
      exact hbelow ((undoEdit_undone hedit).alone hfile below hne)
    subst hsame
    refine ⟨hresolve, hhash, ?_⟩
    cases hexisted : record.existedBefore with
    | true => exact Or.inl (by simp [UndoState.undone, hexisted])
    | false => exact Or.inr (by simp [UndoState.undone, hexisted])

/-- By induction on the records: a file that no turn says it has touched is untouched. -/
theorem undoLoop_reports {records : List UndoRecord}
    (hvalid : ∀ record ∈ records, reFullHash record.afterHash = true) {s : UndoState}
    (hs : Simulates env s) :
    ∃ said, (undoLoop env false false records s).2.actions = s.actions ++ said ∧
      ∀ below, (undoLoop env false false records s).2.tree.node below ≠ s.tree.node below →
        "restored " ++ posixText below ∈ said ∨ "removed " ++ posixText below ∈ said := by
  induction records generalizing s with
  | nil => exact ⟨[], (List.append_nil _).symm, fun below h => absurd rfl h⟩
  | cons record records ih =>
      cases hundo : undoRecord env false false record s with
      | error exc =>
          rw [undoLoop_error env hundo]
          exact ⟨[], (List.append_nil _).symm, fun below h => absurd rfl h⟩
      | ok s' =>
          rw [undoLoop_ok env hundo]
          obtain ⟨said, hsaid, hrest⟩ := ih (fun other hother =>
            hvalid other (List.mem_cons_of_mem _ hother)) (undoRecord_simulates hundo hs)
          have hone : ∃ action, s'.actions = s.actions ++ [action] := by
            obtain ⟨parts, -, -, hdone⟩ := undoRecord_cases hundo
            rcases hdone with ⟨-, rfl⟩ | ⟨-, t', -, rfl⟩
            · exact ⟨_, rfl⟩
            · exact ⟨_, rfl⟩
          obtain ⟨action, haction⟩ := hone
          refine ⟨action :: said, by rw [hsaid, haction]; simp, fun below hbelow => ?_⟩
          by_cases hfirst : s'.tree.node below = s.tree.node below
          · rw [← hfirst] at hbelow
            exact (hrest below hbelow).imp (List.mem_cons_of_mem _) (List.mem_cons_of_mem _)
          · have hspares := undoRecord_spares (hvalid record List.mem_cons_self) hs hundo hfirst
            have hreports := hspares.reports
            rw [haction] at hreports
            refine hreports.imp (fun h => ?_) fun h => ?_
            · rw [← List.singleton_inj.1 (List.append_cancel_left h)]
              exact List.mem_cons_self
            · rw [← List.singleton_inj.1 (List.append_cancel_left h)]
              exact List.mem_cons_self

/-! ## A dry run -/

/-- The dry run `d` of an undo that has come to `s`, on the files as they were before: what
it goes by is the same, and what it has not gone by yet is unchanged. -/
structure Foresees (t : FileTree) (s d : UndoState) : Prop where
  tree : d.tree = t
  hashes : d.simulatedHashes = s.simulatedHashes
  actions : d.actions = s.actions
  untouched : ∀ parts, s.simulatedHashes parts = none → s.tree.file parts = t.file parts
  keeps : t.Keeps s.tree

theorem Foresees.hashable {t : FileTree} {s d : UndoState} (h : Foresees t s d)
    {parts : List String} (hpassable : ∀ below, below <+: parts → below ≠ [] → t.Passable below)
    (hs : Hashable s.tree parts) : Hashable t parts := by
  refine ⟨hpassable, ?_⟩
  by_cases hfile : t.file parts = none
  · cases hnode : t.node parts with
    | none => exact Or.inr (Or.inl rfl)
    | some node =>
        -- what is no file has stayed, and would have ended the undo here
        have hstays := h.keeps parts node hnode fun mode content hcontent => by
          rw [hcontent] at hnode
          rw [FileTree.node_of_file.2 hnode] at hfile
          cases hfile
        refine Or.inl (hs.plain.resolve_right fun hplain => ?_)
        rcases hplain with hnone | hthere
        · rw [hstays] at hnone
          cases hnone
        · obtain ⟨mode, content, hthere⟩ := FileTree.file_ne_none.1 hthere
          rw [hstays] at hthere
          rw [Option.some.inj hthere] at hnode
          rw [FileTree.node_of_file.2 hnode] at hfile
          cases hfile
  · exact Or.inr (Or.inr hfile)

theorem Foresees.current {t : FileTree} {s d : UndoState} (h : Foresees t s d)
    (parts : List String) :
    (d.simulatedHashes parts).getD (fileHash env t parts) =
      (s.simulatedHashes parts).getD (fileHash env s.tree parts) := by
  rw [h.hashes]
  cases hsim : s.simulatedHashes parts with
  | some hash => rfl
  | none =>
      rw [Option.getD_none, Option.getD_none, fileHash, fileHash, h.untouched parts hsim]

theorem Foresees.skipped {t : FileTree} {s d : UndoState} (h : Foresees t s d)
    (parts : List String) : Foresees t (s.skipped parts) (d.skipped parts) where
  tree := h.tree
  hashes := h.hashes
  actions := by rw [UndoState.skipped, UndoState.skipped, h.actions]
  untouched := h.untouched
  keeps := h.keeps

theorem Foresees.undone {t t' : FileTree} {s d : UndoState} (h : Foresees t s d)
    {record : UndoRecord} {parts : List String} (hundone : Undone env record parts s.tree t') :
    Foresees t (s.undone env record parts t') (d.undone env record parts t) where
  tree := rfl
  hashes := by rw [UndoState.undone, UndoState.undone, h.hashes]
  actions := by rw [UndoState.undone, UndoState.undone, h.actions]
  untouched below hsim := by
    have hne : below ≠ parts := by
      rintro rfl
      have hsome := (if_pos rfl).symm.trans hsim
      cases hsome
    exact (hundone.others below hne).trans (h.untouched below ((if_neg hne).symm.trans hsim))
  keeps := h.keeps.trans hundone.keeps

/-- The dry run takes the turn that the undo takes. -/
theorem undoRecord_foresees {force : Bool} {record : UndoRecord} {t : FileTree}
    {s s' d : UndoState} (hd : Foresees t s d)
    (hrecord : ∃ parts, t.resolve env.root record.path = .ok parts)
    (h : undoRecord env false force record s = .ok s') :
    ∃ d', undoRecord env true force record d = .ok d' ∧ Foresees t s' d' := by
  obtain ⟨parts, hresolve, hhashable, hdone⟩ := undoRecord_cases h
  obtain ⟨parts', hrecord⟩ := hrecord
  obtain ⟨hrelative, -⟩ := FileTree.resolve_ok.1 hresolve
  obtain ⟨hrelative', hpassable⟩ := FileTree.resolve_ok.1 hrecord
  obtain rfl : parts' = parts := Option.some.inj (hrelative'.symm.trans hrelative)
  have hfound : pathHash env d.tree parts' = .ok (fileHash env t parts') := by
    rw [hd.tree]
    exact pathHash_ok.2 ⟨hd.hashable hpassable hhashable, rfl⟩
  have hskips : Skips force record d parts' (fileHash env t parts') ↔
      Skips force record s parts' (fileHash env s.tree parts') := by
    rw [Skips, Skips, @Foresees.current F env t s d hd parts']
  rw [undoRecord_eq (by rw [hd.tree]; exact hrecord) hfound]
  rcases hdone with ⟨hskip, rfl⟩ | ⟨hundo, t', hedit, rfl⟩
  · exact ⟨d.skipped parts', if_pos (hskips.2 hskip), hd.skipped parts'⟩
  · refine ⟨d.undone env record parts' t, ?_, hd.undone (undoEdit_undone hedit)⟩
    rw [if_neg (fun hskip => hundo (hskips.1 hskip)), undoEdit, if_pos rfl, hd.tree]
    rfl

theorem undoLoop_foresees {force : Bool} {records : List UndoRecord} {t : FileTree}
    (hrecords : ∀ record ∈ records, ∃ parts, t.resolve env.root record.path = .ok parts)
    {s s' d : UndoState} (hd : Foresees t s d)
    (h : undoLoop env false force records s = (.ok (), s')) :
    ∃ d', undoLoop env true force records d = (.ok (), d') ∧ Foresees t s' d' := by
  induction records generalizing s d with
  | nil =>
      obtain rfl := (Prod.mk.inj h).2
      exact ⟨d, rfl, hd⟩
  | cons record records ih =>
      cases hundo : undoRecord env false force record s with
      | error exc =>
          rw [undoLoop_error env hundo] at h
          cases (Prod.mk.inj h).1
      | ok s₁ =>
          rw [undoLoop_ok env hundo] at h
          obtain ⟨d₁, hdry, hd₁⟩ :=
            undoRecord_foresees hd (hrecords record List.mem_cons_self) hundo
          obtain ⟨d', hloop, hd'⟩ := ih (fun other hother =>
            hrecords other (List.mem_cons_of_mem _ hother)) hd₁ h
          exact ⟨d', (undoLoop_ok env hdry).trans hloop, hd'⟩

end Undo

section Validated

variable {F : Type} [Json.PyFloat F] {env : UndoEnv F}

/-- What validation has seen of a record: its path leads to a place in the workspace, and
there is a hash of what its edit left. -/
theorem validateRecord_validates {t : FileTree} {raw : Json F} {record : UndoRecord}
    (h : validateRecord env t raw = .ok record) :
    reFullHash record.afterHash = true ∧
      ∃ parts, t.resolve env.root record.path = .ok parts := by
  obtain ⟨path, -, h⟩ := except_bind_ok.1 h
  obtain ⟨parts, hparts, h⟩ := except_bind_ok.1 h
  obtain ⟨_, -, h⟩ := except_bind_ok.1 h
  obtain ⟨_, hafter, h⟩ := except_bind_ok.1 h
  obtain ⟨_, -, h⟩ := except_bind_ok.1 h
  obtain rfl := Except.ok.inj h
  obtain ⟨hrelative, hpassable⟩ := FileTree.resolve_ok.1 hparts
  refine ⟨by simpa using raiseIf_ok.1 hafter, parts, FileTree.resolve_ok.2 ⟨?_, hpassable⟩⟩
  exact relativeParts_posixText (relativeParts_names hrelative)

theorem validateRecords_validates {t : FileTree} {raws : List (Json F)}
    {records : List UndoRecord} (h : validateRecords env t raws = .ok records)
    {record : UndoRecord} (hrecord : record ∈ records) :
    reFullHash record.afterHash = true ∧
      ∃ parts, t.resolve env.root record.path = .ok parts := by
  obtain ⟨_, -, h⟩ := except_bind_ok.1 h
  obtain ⟨raw, -, hraw⟩ := except_mapM_mem_result h hrecord
  exact validateRecord_validates hraw

/-- An undo that is not forced spares what its records are not about. Whatever the files are
by then, a turn that touches one finds it with the hash that the record's edit left; and at
the end, or where an exception ends it, what no action says to be restored or removed is as
it was. -/
theorem undo_spares (env : UndoEnv F) (t₀ t : FileTree) (raws : List (Json F))
    (records : List UndoRecord) (hvalid : validateRecords env t₀ raws = .ok records) :
    (∀ done record rest s s', records.reverse = done ++ record :: rest →
      undoLoop env false false done ⟨t, fun _ => none, []⟩ = (.ok (), s) →
      undoRecord env false false record s = .ok s' →
      ∀ parts, s'.tree.node parts ≠ s.tree.node parts →
        s.tree.resolve env.root record.path = .ok parts ∧
          (s.tree.file parts).map (fun file => env.digests.sha256 file.2) =
            some record.afterHash) ∧
    ∀ s ended, undoLoop env false false records.reverse ⟨t, fun _ => none, []⟩ = (ended, s) →
      ∀ parts, "restored " ++ posixText parts ∉ s.actions →
        "removed " ++ posixText parts ∉ s.actions → s.tree.node parts = t.node parts := by
  have hhashes : ∀ record ∈ records.reverse, reFullHash record.afterHash = true :=
    fun record hrecord =>
      (validateRecords_validates hvalid (List.mem_reverse.1 hrecord)).1
  constructor
  · intro done record rest s s' hsplit hdone hundo parts hparts
    have hs : Simulates env s := by
      have hloop := @undoLoop_simulates F env false done _ (simulates_start t)
      rwa [hdone] at hloop
    have hspares := undoRecord_spares (hhashes record (by simp [hsplit])) hs hundo hparts
    exact ⟨hspares.resolves, hspares.hash⟩
  · intro s ended hloop parts hrestored hremoved
    obtain ⟨said, hsaid, hreports⟩ :=
      @undoLoop_reports F env _ hhashes _ (simulates_start t)
    rw [hloop, List.nil_append] at hsaid
    rw [hloop] at hreports
    rw [hsaid] at hrestored hremoved
    by_contra hne
    exact (hreports parts hne).elim hrestored hremoved

/-- The record of the edit `OneEdit` is about. -/
def OneEdit.record : UndoRecord :=
  ⟨"a", "048f6a9a3e3f84d1e41bad42d5357051111569c072a3ab4eb77e2900a0b3d939", false, "", "",
    "2d711642b726b04401627ca9fbac32f5c8530fb1903cc4db02258717921a4881"⟩

theorem undo_spares_sample :
    (∀ done record rest s s', [OneEdit.record].reverse = done ++ record :: rest →
      undoLoop (OneEdit.env.undo fun (_ : Json Unit) => "") false false done
        ⟨OneEdit.tree, fun _ => none, []⟩ = (.ok (), s) →
      undoRecord (OneEdit.env.undo fun (_ : Json Unit) => "") false false record s = .ok s' →
      ∀ parts, s'.tree.node parts ≠ s.tree.node parts →
        s.tree.resolve OneEdit.env.cwd record.path = .ok parts ∧
          (s.tree.file parts).map (fun file => OneEdit.env.digests.sha256 file.2) =
            some record.afterHash) ∧
    ∀ s ended, undoLoop (OneEdit.env.undo fun (_ : Json Unit) => "") false false
        [OneEdit.record].reverse ⟨OneEdit.tree, fun _ => none, []⟩ = (ended, s) →
      ∀ parts, "restored " ++ posixText parts ∉ s.actions →
        "removed " ++ posixText parts ∉ s.actions →
          s.tree.node parts = OneEdit.tree.node parts :=
  undo_spares (OneEdit.env.undo fun (_ : Json Unit) => "") OneEdit.written OneEdit.tree
    ([OneEdit.result].foldl recordUndo []) [OneEdit.record] (by decide +kernel)

/-- A dry run predicts the undo: if it completes, the dry run does, on the same files, and
says the same of each record. It leaves the files as they are. -/
theorem undo_dry_run (env : UndoEnv F) (force : Bool) (t t' : FileTree)
    (journal : List (Json F)) (actions : List String)
    (h : undoTrajectory env false force t journal = (.ok actions, t')) :
    undoTrajectory env true force t journal = (.ok actions, t) := by
  unfold undoTrajectory at h ⊢
  split at h
  · next records hvalid =>
      rw [undoRecords] at h
      cases hloop : undoLoop env false force records.reverse ⟨t, fun _ => none, []⟩ with
      | mk ended s =>
          simp only [hloop, Prod.mk.injEq] at h
          cases ended with
          | error exc => cases h.1
          | ok _ =>
              have hstart : Foresees t ⟨t, fun _ => none, []⟩ ⟨t, fun _ => none, []⟩ :=
                ⟨rfl, rfl, rfl, fun _ _ => rfl, FileTree.Keeps.refl t⟩
              obtain ⟨d, hdry, hd⟩ := undoLoop_foresees (fun record hrecord =>
                (validateRecords_validates hvalid (List.mem_reverse.1 hrecord)).2) hstart hloop
              rw [undoRecords, hdry, ← Except.ok.inj h.1, ← hd.actions, ← hd.tree]
              rfl
  · cases (Prod.mk.inj h).1

theorem undo_dry_run_sample :
    undoTrajectory (OneEdit.env.undo fun (_ : Json Unit) => "") true false OneEdit.written
      [OneEdit.record.toJson] = (.ok ["removed a"], OneEdit.written) :=
  undo_dry_run (OneEdit.env.undo fun (_ : Json Unit) => "") false OneEdit.written
    (OneEdit.written.remove ["a"] (by decide)) [OneEdit.record.toJson] ["removed a"] rfl

end Validated

end MiniCodeAgent
