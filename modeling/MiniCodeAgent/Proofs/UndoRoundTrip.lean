import MiniCodeAgent.Log.Rollback
import MiniCodeAgent.Proofs.Paths
import MiniCodeAgent.Undo

/-!
# Undo takes a run's edits back

An edit is a change of the file it is about: what it found is the text it read, since a
text file is decoded and encoded without loss, and what it left is what it wrote. Its record
says both. So the edits of a run are a run of changes on the files by their paths, and the
loop over the records takes them back one by one (`undoRecord_takes`): the file still is
what the edit left, its hash is the recorded one, and nothing else is looked at.
-/

namespace MiniCodeAgent

open CommandExecutor Rollback Scanner TransactionAdapter

/-! ## A file that is there -/

namespace FileTree

variable {t : FileTree} {cwd : ResolvedPath} {parts : List String}

theorem forM_ok {α : Type} {f : α → Except PyExc Unit} {xs : List α}
    (h : ∀ x ∈ xs, f x = .ok ()) : xs.forM f = .ok () := by
  induction xs with
  | nil => rfl
  | cons x xs ih =>
      rw [List.forM, h x List.mem_cons_self, except_ok_bind]
      exact ih fun y hy => h y (List.mem_cons_of_mem _ hy)

theorem node_of_file_ne (h : t.file parts ≠ none) : t.node parts ≠ none := by
  obtain ⟨mode, content, hnode⟩ := file_ne_none.1 h
  rw [hnode]
  exact Option.some_ne_none _

theorem ne_nil_of_file (h : t.file parts ≠ none) : parts ≠ [] := by
  rintro rfl
  obtain ⟨mode, content, hnode⟩ := file_ne_none.1 h
  rw [t.root] at hnode
  cases hnode

/-- On the way to a file there is no symbolic link. -/
theorem checkLinks_of_file (h : t.file parts ≠ none) (text : String) :
    t.checkLinks cwd text parts = .ok () := by
  have hsome := node_of_file_ne h
  refine forM_ok fun below hbelow => ?_
  have hstarts : below <+: parts := (List.mem_inits _ _).1 (List.mem_of_mem_tail hbelow)
  have hfound : ∃ node, t.node below = some node ∧ ∀ target, node ≠ .symlink target := by
    by_cases hend : below = parts
    · obtain ⟨mode, content, hnode⟩ := file_ne_none.1 h
      exact ⟨_, hend ▸ hnode, fun target hlink => by cases hlink⟩
    · exact ⟨_, directory_above hsome hstarts hend, fun target hlink => by cases hlink⟩
  obtain ⟨node, hnode, hlink⟩ := hfound
  have hnull : (below.any fun name => '\x00' ∈ name.toList) = false := by
    rw [List.any_eq_false]
    intro name hname
    rw [decide_eq_true_eq]
    exact (t.named parts hsome name (hstarts.subset hname)).2
  have hclear : t.obstructed below = false :=
    not_obstructed_of_node (by rw [hnode]; exact Option.some_ne_none _)
  have hlstat : t.lstat cwd below = .ok (some node) := by
    rw [lstat, hnull, if_neg Bool.false_ne_true, hclear, if_neg Bool.false_ne_true, hnode]
  rw [checkPart, hlstat, except_ok_bind]
  cases node with
  | symlink target => exact absurd rfl (hlink target)
  | file mode content => rfl
  | directory => rfl
  | special => rfl

/-- The path of a file, written down relative to the workspace, leads back to it. -/
theorem resolve_posixText (h : t.file parts ≠ none) :
    t.resolve cwd (posixText parts) = .ok parts := by
  have hne := ne_nil_of_file h
  have hnames : ∀ part ∈ parts, FileName part := fun part hpart =>
    (t.named parts (node_of_file_ne h) part hpart).1
  have hplain : ".." ∉ cwd.parts ++ parts := by
    intro hmem
    exact (List.mem_append.1 hmem).elim cwd.plain fun hpart => (hnames _ hpart).2.2.1 rfl
  simp only [resolve, ofString_posixText hne hnames, PyPath.isAbsolute, ne_eq, not_true_eq_false,
    decide_false, Bool.false_eq_true, if_false, normalParts_plain hplain, PyPath.relativeTo,
    List.prefix_append, and_self, if_true, List.drop_left, checkLinks_of_file h, except_ok_bind]
  rfl

theorem readBytes_of_file {mode : Nat} {content : ByteArray}
    (h : t.file parts = some (mode, content)) : t.readBytes cwd parts = .ok content := by
  have hfile : t.file parts ≠ none := by
    rw [h]
    exact Option.some_ne_none _
  rw [readBytes, checkLinks_of_file hfile, except_ok_bind, openFile,
    if_neg (ne_nil_of_file hfile), not_obstructed_of_node (node_of_file_ne hfile),
    if_neg Bool.false_ne_true, node_of_file.1 h]

theorem readBytes_ok {content : ByteArray} (h : t.readBytes cwd parts = .ok content) :
    ∃ mode, t.file parts = some (mode, content) := by
  obtain ⟨-, -, h⟩ := except_bind_ok.1 h
  unfold openFile at h
  split at h
  · cases h
  split at h
  · cases h
  split at h
  · cases h
  · next mode content' hnode =>
      obtain rfl := Except.ok.inj h
      exact ⟨mode, node_of_file.2 hnode⟩
  · cases h

theorem writable_of_file (h : t.file parts ≠ none) : t.Writable parts :=
  ⟨ne_nil_of_file h, t.named parts (node_of_file_ne h),
    not_obstructed_of_node (node_of_file_ne h), Or.inr h⟩

/-- A write that was made put the text there, and touched no other file. -/
theorem atomicWriteText_ok {text : String} {t' : FileTree}
    (h : t.atomicWriteText cwd parts text = .ok t') :
    t'.file parts = some (((t.file parts).map Prod.fst).getD 0o644, text.toUTF8) ∧
      ∀ below, below ≠ parts → t'.file below = t.file below := by
  obtain ⟨-, -, h⟩ := except_bind_ok.1 h
  split at h
  · next hwritable =>
      obtain rfl := Except.ok.inj h
      refine ⟨?_, fun below hne => put_file hne⟩
      rw [put_self]
      cases t.file parts <;> rfl
  · cases h

/-- A file that is there can be written, and nothing but it changes. -/
theorem atomicWriteText_of_file {mode : Nat} {content : ByteArray}
    (h : t.file parts = some (mode, content)) (text : String) :
    ∃ t', t.atomicWriteText cwd parts text = .ok t' ∧
      t'.file parts = some (mode, text.toUTF8) ∧
      ∀ below, below ≠ parts → t'.node below = t.node below := by
  have hfile : t.file parts ≠ none := by
    rw [h]
    exact Option.some_ne_none _
  refine ⟨t.put parts mode text.toUTF8 (writable_of_file hfile), ?_, put_self, fun below hne => ?_⟩
  · rw [atomicWriteText, checkLinks_of_file hfile, except_ok_bind,
      dif_pos (writable_of_file hfile), h]
    rfl
  · refine (if_neg hne).trans (if_neg fun hnew => ?_)
    rw [directory_above (node_of_file_ne hfile) hnew.1 hne] at hnew
    cases hnew.2

theorem unlinkFile_of_file (h : t.file parts ≠ none) :
    ∃ t', t.unlinkFile cwd parts = .ok t' ∧ t'.node parts = none ∧
      ∀ below, below ≠ parts → t'.node below = t.node below := by
  refine ⟨t.remove parts h, ?_, remove_self, fun below hne => remove_node hne⟩
  rw [unlinkFile, checkLinks_of_file h, except_ok_bind, dif_pos h]
  rfl

end FileTree

/-! ## An edit is a change of its file -/

/-- A change of the files of a workspace, by their paths. -/
abbrev FileEdit := Change (List String) (Option (Nat × ByteArray))

section Edits

variable {F : Type} {env : EditEnv} {t t' : FileTree} {parts : List String}

theorem decodeUtf8_error {data : ByteArray} {exc : PyExc} (h : decodeUtf8 data = .error exc) :
    exc.type ≠ "FileNotFoundError" := by
  unfold decodeUtf8 at h
  split at h
  · cases h
  · injection h with h
    rw [← h]
    decide

/-- What an edit reads of a file is the whole of it. -/
theorem readEditableText_ok {text : String} (h : readEditableText env t parts = .ok text) :
    ∃ mode, t.file parts = some (mode, text.toUTF8) := by
  obtain ⟨read, hread, h⟩ := except_bind_ok.1 h
  obtain ⟨_, hshort, h⟩ := except_bind_ok.1 h
  obtain rfl := Except.ok.inj h
  have hlength := raiseIf_ok.1 hshort
  obtain ⟨content, hcontent, hread⟩ := except_bind_ok.1 hread
  obtain ⟨full, hfull, hread⟩ := except_bind_ok.1 hread
  obtain rfl := Except.ok.inj hread
  rw [String.length_ofList, List.length_take] at hlength
  have hall : full.toList.take (maxStructuredEditChars + 1) = full.toList :=
    List.take_of_length_le (by omega)
  obtain ⟨mode, hfile⟩ := FileTree.readBytes_ok hcontent
  rw [hall, String.ofList_toList, toUTF8_of_decodeUtf8 hfull]
  exact ⟨mode, hfile⟩

theorem readEditableText_missing {exc : PyExc} (h : readEditableText env t parts = .error exc)
    (hexc : exc.type = "FileNotFoundError") : t.file parts = none := by
  by_contra hfile
  obtain ⟨⟨mode, content⟩, hfile⟩ := Option.ne_none_iff_exists'.1 hfile
  rcases except_bind_error h with hread | hlong
  · rcases except_bind_error hread with hbytes | hdecoded
    · rw [FileTree.readBytes_of_file hfile] at hbytes
      cases hbytes
    · obtain ⟨data, -, hdecoded⟩ := hdecoded
      rcases except_bind_error hdecoded with hdecoded | hreturned
      · exact decodeUtf8_error hdecoded hexc
      · obtain ⟨_, -, hreturned⟩ := hreturned
        cases hreturned
  · obtain ⟨text, -, hlong⟩ := hlong
    rcases except_bind_error hlong with hraised | hreturned
    · rw [raiseIf_error hraised] at hexc
      exact absurd hexc (by decide)
    · obtain ⟨_, -, hreturned⟩ := hreturned
      cases hreturned

theorem readExistingText_ok {path text : String}
    (h : readExistingText env t path parts = .ok text) :
    ∃ mode, t.file parts = some (mode, text.toUTF8) := by
  unfold readExistingText at h
  split at h
  · next read hread =>
      obtain rfl := Except.ok.inj h
      exact readEditableText_ok hread
  · split at h <;> cases h

theorem readBefore_ok {before : String} {existed : Bool}
    (h : readBefore env t parts = .ok (before, existed)) :
    if existed then ∃ mode, t.file parts = some (mode, before.toUTF8)
    else t.file parts = none := by
  unfold readBefore at h
  split at h
  · next text htext =>
      obtain ⟨rfl, rfl⟩ := Prod.mk.inj (Except.ok.inj h)
      exact readEditableText_ok htext
  · next exc hexc =>
      split at h
      · next hmissing =>
          obtain ⟨rfl, rfl⟩ := Prod.mk.inj (Except.ok.inj h)
          exact readEditableText_missing hexc hmissing
      · cases h

theorem makeEdit_ok {approves : String → String → Except PyExc Bool} {tool detail after : String}
    {rejection intended result : ToolResult F} (hrejection : rejection.returncode ≠ 0)
    (h : makeEdit env approves t tool detail rejection intended parts after = .ok (result, t'))
    (hzero : result.returncode = 0) :
    result = intended ∧ t.atomicWriteText env.cwd parts after = .ok t' := by
  obtain ⟨approved, -, h⟩ := except_bind_ok.1 h
  cases approved with
  | false =>
      obtain rfl := (Prod.mk.inj (Except.ok.inj h)).1
      exact absurd hzero hrejection
  | true =>
      obtain ⟨written, hwritten, h⟩ := except_bind_ok.1 h
      obtain ⟨rfl, rfl⟩ := Prod.mk.inj (Except.ok.inj h)
      exact ⟨rfl, hwritten⟩

/-- The result says of a change what there is to say. -/
def Reports (env : EditEnv) (result : ToolResult F) (c : FileEdit) : Prop :=
  ∃ tool report args before after existed mode,
    result = editResult env tool report args c.key before after existed ∧
      c.before = (if existed then some (mode, before.toUTF8) else none) ∧
      c.after = some (mode, after.toUTF8)

theorem edit_makes {tool report before after : String} {args : Dict (Json F)} {existed : Bool}
    {result : ToolResult F}
    (hresult : result = editResult env tool report args parts before after existed)
    (hfound : if existed then ∃ mode, t.file parts = some (mode, before.toUTF8)
      else t.file parts = none)
    (hwrite : t.atomicWriteText env.cwd parts after = .ok t') :
    ∃ c : FileEdit, c.key = parts ∧ c.Makes t.file t'.file ∧ Reports env result c := by
  obtain ⟨hself, hothers⟩ := FileTree.atomicWriteText_ok hwrite
  refine ⟨⟨parts, t.file parts, t'.file parts⟩, rfl, ⟨rfl, rfl, hothers⟩, tool, report, args,
    before, after, existed, ((t.file parts).map Prod.fst).getD 0o644, hresult, ?_, hself⟩
  cases existed with
  | false => exact hfound
  | true =>
      obtain ⟨mode, hfile⟩ := hfound
      rw [hfile]
      rfl

/-- A call that succeeded changed the file it names, and no other. -/
theorem execute_makes {approves : String → String → Except PyExc Bool} {call : EditCall}
    {result : ToolResult F} (h : call.execute env approves t = .ok (result, t'))
    (hzero : result.returncode = 0) :
    ∃ c : FileEdit, t.resolve env.cwd call.path = .ok c.key ∧ c.Makes t.file t'.file ∧
      Reports env result c := by
  have hrejection : ∀ tool output exceptionInfo args,
      (rejectedEdit tool output exceptionInfo args : ToolResult F).returncode ≠ 0 := by
    intro tool output exceptionInfo args
    show (-1 : Int) ≠ 0
    omega
  have hexisting : ∀ {path text parts}, readExistingText env t path parts = .ok text →
      if true then ∃ mode, t.file parts = some (mode, text.toUTF8)
      else t.file parts = none := by
    intro path text parts hread
    rw [if_pos rfl]
    exact readExistingText_ok hread
  cases call with
  | writeFile path content =>
      obtain ⟨_, -, h⟩ := except_bind_ok.1 h
      obtain ⟨parts, hparts, h⟩ := except_bind_ok.1 h
      obtain ⟨⟨before, existed⟩, hread, h⟩ := except_bind_ok.1 h
      obtain ⟨hresult, hwrite⟩ := makeEdit_ok (hrejection _ _ _ _) h hzero
      obtain ⟨c, rfl, hmakes, hreports⟩ := edit_makes hresult (readBefore_ok hread) hwrite
      exact ⟨c, hparts, hmakes, hreports⟩
  | applyPatch path old new replaceAll =>
      obtain ⟨parts, hparts, h⟩ := except_bind_ok.1 h
      obtain ⟨text, hread, h⟩ := except_bind_ok.1 h
      obtain ⟨_, -, h⟩ := except_bind_ok.1 h
      obtain ⟨_, -, h⟩ := except_bind_ok.1 h
      obtain ⟨_, -, h⟩ := except_bind_ok.1 h
      obtain ⟨hresult, hwrite⟩ := makeEdit_ok (hrejection _ _ _ _) h hzero
      obtain ⟨c, rfl, hmakes, hreports⟩ := edit_makes hresult (hexisting hread) hwrite
      exact ⟨c, hparts, hmakes, hreports⟩
  | replaceLines path startLine endLine newText =>
      obtain ⟨parts, hparts, h⟩ := except_bind_ok.1 h
      obtain ⟨before, hread, h⟩ := except_bind_ok.1 h
      obtain ⟨_, -, h⟩ := except_bind_ok.1 h
      obtain ⟨hresult, hwrite⟩ := makeEdit_ok (hrejection _ _ _ _) h hzero
      obtain ⟨c, rfl, hmakes, hreports⟩ := edit_makes hresult (hexisting hread) hwrite
      exact ⟨c, hparts, hmakes, hreports⟩

end Edits

/-! ## One record is taken back -/

section Undo

variable {F : Type} [Json.PyFloat F] {env : UndoEnv F}

/-- The record of a change: the file still has to be what the change left, and what it was
is written down. -/
structure Undoable (env : UndoEnv F) (record : UndoRecord) (c : FileEdit) : Prop where
  path : record.path = posixText c.key
  hashed : record.afterHash ≠ ""
  takes : ∃ mode after, c.after = some (mode, after) ∧
    record.afterHash = env.digests.sha256 after ∧
    c.before = if record.existedBefore then some (mode, record.beforeContent.toUTF8) else none

/-- The hashes that are simulated are those of the files. -/
def Simulates (env : UndoEnv F) (s : UndoState) : Prop :=
  ∀ parts hash, s.simulatedHashes parts = some hash →
    hash = (s.tree.file parts).map fun file => env.digests.sha256 file.2

theorem file_eq_of_node {t t' : FileTree} {parts : List String}
    (h : t'.node parts = t.node parts) : t'.file parts = t.file parts := by
  rw [FileTree.file, FileTree.file, h]

omit [Json.PyFloat F] in
theorem undoEdit_takes {record : UndoRecord} {t : FileTree} {parts : List String} {mode : Nat}
    {content : ByteArray} (h : t.file parts = some (mode, content)) :
    ∃ t', undoEdit env false record parts t = .ok t' ∧
      t'.file parts = (if record.existedBefore then some (mode, record.beforeContent.toUTF8)
        else none) ∧
      ∀ below, below ≠ parts → t'.node below = t.node below := by
  have hfile : t.file parts ≠ none := by
    rw [h]
    exact Option.some_ne_none _
  cases hexisted : record.existedBefore with
  | true =>
      obtain ⟨t', hwrite, hself, hothers⟩ :=
        @FileTree.atomicWriteText_of_file t env.root parts mode content h record.beforeContent
      refine ⟨t', ?_, hself, hothers⟩
      rw [undoEdit, if_neg Bool.false_ne_true, hexisted, if_pos rfl, hwrite]
  | false =>
      obtain ⟨t', hunlink, hgone, hothers⟩ := @FileTree.unlinkFile_of_file t env.root parts hfile
      refine ⟨t', ?_, ?_, hothers⟩
      · rw [undoEdit, if_neg Bool.false_ne_true, hexisted, if_neg Bool.false_ne_true,
          if_pos (FileTree.node_of_file_ne hfile), hunlink]
      · rw [FileTree.file, hgone, if_neg Bool.false_ne_true]

omit [Json.PyFloat F] in
theorem undoRecord_takes {record : UndoRecord} {c : FileEdit} (hrecord : Undoable env record c)
    {s : UndoState} (hs : Simulates env s) {g : List String → Option (Nat × ByteArray)}
    (hmakes : c.inverse.Makes s.tree.file g) :
    ∃ s', undoRecord env false false record s = .ok s' ∧ s'.tree.file = g ∧ Simulates env s' ∧
      ∀ below, below ≠ c.key → s'.tree.node below = s.tree.node below := by
  obtain ⟨mode, after, hafter, hhash, hbefore⟩ := hrecord.takes
  have hfile : s.tree.file c.key = some (mode, after) := hmakes.found.trans hafter
  have hne : s.tree.file c.key ≠ none := by
    rw [hfile]
    exact Option.some_ne_none _
  have hresolve : s.tree.resolve env.root record.path = .ok c.key := by
    rw [hrecord.path]
    exact FileTree.resolve_posixText hne
  have hfound : pathHash env s.tree c.key = .ok (some record.afterHash) := by
    rw [pathHash, FileTree.readBytes_of_file hfile, hhash]
  have hcurrent : (s.simulatedHashes c.key).getD (some record.afterHash) =
      some record.afterHash := by
    cases hsim : s.simulatedHashes c.key with
    | none => rfl
    | some hash =>
        rw [Option.getD_some, hs c.key hash hsim, hfile, hhash]
        rfl
  obtain ⟨t', hedit, hself, hothers⟩ := @undoEdit_takes F env record _ _ _ _ hfile
  have hstores : t'.file = g := by
    funext below
    by_cases hkey : below = c.key
    · rw [hkey, hself, ← hbefore]
      exact hmakes.left.symm
    · rw [file_eq_of_node (hothers below hkey)]
      exact (hmakes.others below hkey).symm
  refine ⟨s.undone env record c.key t', ?_, hstores, ?_, hothers⟩
  · rw [undoRecord, hresolve, except_ok_bind, hfound, except_ok_bind, hcurrent,
      if_neg hrecord.hashed, if_neg (fun h => h.2 rfl), hedit, except_ok_bind]
    rfl
  · intro parts hash hsim
    show hash = (t'.file parts).map fun file => env.digests.sha256 file.2
    by_cases hkey : parts = c.key
    · have hsome : some (if record.existedBefore then
          some (textHash env record.beforeContent) else none) = some hash :=
        (if_pos hkey).symm.trans hsim
      injection hsome with hsome
      rw [← hsome, hkey, hself]
      cases record.existedBefore <;> rfl
    · have hsame : s.simulatedHashes parts = some hash := (if_neg hkey).symm.trans hsim
      rw [file_eq_of_node (hothers parts hkey)]
      exact hs parts hash hsame

omit [Json.PyFloat F] in
/-- By induction on the chain of changes that take the recorded ones back: the loop takes
one of them with each record. -/
theorem undoLoop_takes {records : List UndoRecord} {changes : List FileEdit}
    (hrecords : List.Forall₂ (Undoable env) records changes) {s : UndoState}
    (hs : Simulates env s) {g : List String → Option (Nat × ByteArray)}
    (hchain : Chain s.tree.file (changes.map Change.inverse) g) :
    ∃ s', undoLoop env false false records s = (.ok (), s') ∧ s'.tree.file = g ∧
      ∀ below, (∀ c ∈ changes, below ≠ c.key) → s'.tree.node below = s.tree.node below := by
  induction hrecords generalizing s with
  | nil =>
      cases hchain
      exact ⟨s, rfl, rfl, fun _ _ => rfl⟩
  | @cons record c records changes hrecord _ ih =>
      cases hchain with
      | cons hmakes hrest =>
          obtain ⟨s₁, hundone, hstores, hs₁, hothers⟩ := undoRecord_takes hrecord hs hmakes
          rw [← hstores] at hrest
          obtain ⟨s₂, hloop, hfiles, hlater⟩ := ih hs₁ hrest
          refine ⟨s₂, (undoLoop_ok env hundone).trans hloop, hfiles, fun below hbelow => ?_⟩
          · rw [hlater below fun c' hc' => hbelow c' (List.mem_cons_of_mem _ hc')]
            exact hothers below (hbelow c List.mem_cons_self)

/-! ## What is recorded is valid -/

/-- The entry of a list of records that has these fields. -/
structure Describes (record : UndoRecord) (raw : Json F) : Prop where
  path : raw.get? "path" = some (.str record.path)
  existed : raw.getD "existed_before" .null = .bool record.existedBefore
  before : raw.getD "before_content" (.str "") = .str record.beforeContent
  beforeHash : raw.getD "before_hash" (.str "") = .str record.beforeHash
  afterHash : raw.getD "after_hash" (.str "") = .str record.afterHash
  binding : raw.getD "path_binding" .null = .null ∨
    raw.getD "path_binding" .null = .str record.pathBinding

/-- What validation asks of a record that is about the file at a path. -/
structure Valid (env : UndoEnv F) (record : UndoRecord) (parts : List String) : Prop where
  path : record.path = posixText parts
  binding : record.pathBinding = pathBinding env (posixText parts)
  before : record.existedBefore = true → record.beforeHash = textHash env record.beforeContent
  after : reFullHash record.afterHash = true

theorem validateRecord_ok {record : UndoRecord} {raw : Json F} {parts : List String}
    {t : FileTree} (hraw : Describes record raw) (hvalid : Valid env record parts)
    (hfile : t.file parts ≠ none) : validateRecord env t raw = .ok record := by
  have hresolve : t.resolve env.root (pyStr env.repr (.str record.path)) = .ok parts := by
    rw [pyStr, hvalid.path]
    exact FileTree.resolve_posixText hfile
  have hbefore : ¬ ((raw.getD "existed_before" .null).truthy = true ∧
      pyStr env.repr (raw.getD "before_hash" (.str "")) ≠
        textHash env (pyStr env.repr (raw.getD "before_content" (.str "")))) := by
    rw [hraw.existed, hraw.beforeHash, hraw.before]
    exact fun h => h.2 (hvalid.before h.1)
  have hafter : ¬ reFullHash (pyStr env.repr (raw.getD "after_hash" (.str ""))) = false := by
    rw [hraw.afterHash, pyStr, hvalid.after]
    exact Bool.noConfusion
  have hbinding : ¬ ((raw.getD "path_binding" .null).pyEq .null = false ∧
      (raw.getD "path_binding" .null).pyEq (.str (pathBinding env (posixText parts))) = false) := by
    rw [← hvalid.binding]
    rcases hraw.binding with hnull | hsupplied
    · rw [hnull]
      simp [Json.pyEq]
    · rw [hsupplied]
      simp
  have hpath : rawPath raw = .ok (.str record.path) := by
    rw [rawPath, hraw.path]
  refine except_bind_ok.2 ⟨_, hpath, except_bind_ok.2 ⟨_, hresolve, except_bind_ok.2 ⟨(),
    raiseIf_ok.2 hbefore, except_bind_ok.2 ⟨(), raiseIf_ok.2 hafter, except_bind_ok.2 ⟨(),
      raiseIf_ok.2 hbinding, ?_⟩⟩⟩⟩⟩
  rw [hraw.existed, hraw.before, hraw.beforeHash, hraw.afterHash, ← hvalid.binding,
    ← hvalid.path]
  rfl

omit [Json.PyFloat F] in
theorem describes_toJson (record : UndoRecord) : Describes record (record.toJson : Json F) where
  path := rfl
  existed := rfl
  before := rfl
  beforeHash := rfl
  afterHash := rfl
  binding := Or.inr rfl

theorem isHexDigit_toLower {c : Char} (h : isHexDigit c = true) : c.toLower = c := by
  have hlow : ¬ (c.val ≥ 'A'.val ∧ c.val ≤ 'Z'.val) := by
    intro hupper
    have hbounds : 65 ≤ c.val.toNat ∧ c.val.toNat ≤ 90 := ⟨hupper.1, hupper.2⟩
    simp only [isHexDigit, Bool.or_eq_true, Char.isDigit, Bool.and_eq_true, decide_eq_true_eq] at h
    rcases h with hdigit | hletter
    · have hnine : c.val.toNat ≤ 57 := hdigit.2
      omega
    · have hsmall : 97 ≤ c.val.toNat := hletter.1
      omega
  unfold Char.toLower
  exact dif_neg hlow

theorem reFullHash_of_isHex {value : String} (hlength : value.length = 64)
    (hhex : isHex value = true) : reFullHash value = true := by
  rw [isHex, List.all_eq_true] at hhex
  rw [reFullHash, hlength, decide_eq_true rfl, Bool.true_and, List.all_eq_true]
  intro c hc
  rw [isHexDigit_toLower (hhex c hc)]
  exact hhex c hc

end Undo

/-! ## A run and its undo -/

section Runs

variable {F : Type} [Json.PyFloat F] (env : EditEnv) (repr : Json F → String)

/-- What undoing in the workspace of the edits goes by. -/
def EditEnv.undo : UndoEnv F := ⟨env.cwd, env.digests, repr⟩

/-- A run of edits, with their results: `T` are the paths it is about. In between anyone
may do anything but change a file at one of these paths. -/
inductive EditRun (T : List String → Prop) (t : FileTree) : List (ToolResult F) → FileTree → Prop
  | start : EditRun T t [] t
  | edit {results : List (ToolResult F)} {t₁ t₂ : FileTree} (h : EditRun T t results t₁)
      {approves : String → String → Except PyExc Bool} {call : EditCall} {result : ToolResult F}
      (hcall : call.execute env approves t₁ = .ok (result, t₂)) (hzero : result.returncode = 0)
      (htouched : ∀ parts, t₁.resolve env.cwd call.path = .ok parts → T parts) :
      EditRun T t (results ++ [result]) t₂
  | outside {results : List (ToolResult F)} {t₁ t₂ : FileTree} (h : EditRun T t results t₁)
      (hkept : ∀ parts, T parts → t₂.file parts = t₁.file parts) : EditRun T t results t₂

variable {env repr} {T : List String → Prop} {t t' : FileTree} {results : List (ToolResult F)}

omit [Json.PyFloat F] in
/-- The edits of a run are changes of files, and every file one of them is about is there
from then on. -/
theorem EditRun.changes (h : EditRun env T t results t') :
    ∃ changes, Run T t.file changes t'.file ∧
      List.Forall₂ (Reports env) results changes ∧
      ∀ c ∈ changes, T c.key ∧ t'.file c.key ≠ none := by
  induction h with
  | start => exact ⟨[], .start, .nil, fun c hc => absurd hc List.not_mem_nil⟩
  | outside _ hkept ih =>
      obtain ⟨changes, hrun, hreports, hthere⟩ := ih
      refine ⟨changes, .outside hrun hkept, hreports, fun c hc => ⟨(hthere c hc).1, ?_⟩⟩
      rw [hkept c.key (hthere c hc).1]
      exact (hthere c hc).2
  | edit _ hcall hzero htouched ih =>
      obtain ⟨changes, hrun, hreports, hthere⟩ := ih
      obtain ⟨c, hparts, hmakes, hreport⟩ := execute_makes hcall hzero
      have hkey := htouched c.key hparts
      refine ⟨changes ++ [c], .change hrun hkey hmakes, ?_, fun other hother => ?_⟩
      · exact List.rel_append hreports (.cons hreport .nil)
      · by_cases hsame : other.key = c.key
        · obtain ⟨_, _, _, _, after, _, mode, _, _, hafter⟩ := hreport
          rw [hsame, hmakes.left, hafter]
          exact ⟨hkey, Option.some_ne_none _⟩
        · have hmem : other ∈ changes := by
            rcases List.mem_append.1 hother with hmem | hlast
            · exact hmem
            · exact absurd (congrArg Change.key (List.mem_singleton.1 hlast)) hsame
          rw [hmakes.others other.key hsame]
          exact hthere other hmem

omit [Json.PyFloat F] in
/-- What is recorded of an edit is its record, before and after the journal. -/
theorem record_of_reports {result : ToolResult F} {c : FileEdit} (h : Reports env result c)
    (hne : c.key ≠ []) (hnames : ∀ part ∈ c.key, FileName part) :
    ∃ raw record, undoEntry result = some raw ∧ Describes record raw ∧
      Valid (env.undo repr) record c.key ∧ Undoable (env.undo repr) record c := by
  obtain ⟨tool, report, args, before, after, existed, mode, rfl, hbefore, hafter⟩ := h
  have htext : posixText c.key ≠ "" := by
    intro hempty
    have hparts := congrArg PyPath.parts (ofString_posixText hne hnames)
    rw [hempty] at hparts
    exact hne hparts.symm
  have hfull : reFullHash (contentHash env after) = true :=
    reFullHash_of_isHex (env.sha256_length _) (env.digests.sha256_hex _)
  refine ⟨_, ⟨posixText c.key, pathBinding (env.undo repr) (posixText c.key), existed, before,
    if existed then contentHash env before else "", contentHash env after⟩, if_neg htext,
    ⟨rfl, rfl, rfl, rfl, rfl, Or.inl rfl⟩, ⟨rfl, rfl, fun hexisted => ?_, hfull⟩,
    ⟨rfl, fun hempty => ?_, mode, after.toUTF8, hafter, rfl, hbefore⟩⟩
  · exact if_pos hexisted
  · have hnone : contentHash env after = "" := hempty
    rw [hnone] at hfull
    exact absurd hfull (by decide)

theorem mapM_map_ok {α β γ : Type} {f : γ → Except PyExc β} {g : α → γ} {k : α → β} {xs : List α}
    (h : ∀ x ∈ xs, f (g x) = .ok (k x)) : (xs.map g).mapM f = .ok (xs.map k) := by
  induction xs with
  | nil => rfl
  | cons x xs ih =>
      rw [List.map_cons, List.mapM_cons, h x List.mem_cons_self, except_ok_bind,
        ih fun y hy => h y (List.mem_cons_of_mem _ hy)]
      rfl

/-- What there is of one edit: the entry in the agent's list, the record, and the change. -/
structure Journaled (env : UndoEnv F) where
  raw : Json F
  record : UndoRecord
  change : FileEdit
  describes : Describes record raw
  valid : Valid env record change.key
  recorded : Undoable env record change

omit [Json.PyFloat F] in
theorem foldl_recordUndo (records : List (Json F)) :
    results.foldl recordUndo records =
      records ++ results.flatMap fun result => (undoEntry result).toList := by
  induction results generalizing records with
  | nil => simp
  | cons result results ih => rw [List.foldl_cons, ih, recordUndo, List.flatMap_cons,
      List.append_assoc]

omit [Json.PyFloat F] in
theorem journaled_of_reports {changes : List FileEdit}
    (hreports : List.Forall₂ (Reports env) results changes)
    (hnames : ∀ c ∈ changes, c.key ≠ [] ∧ ∀ part ∈ c.key, FileName part) :
    ∃ entries : List (Journaled (env.undo repr)),
      results.flatMap (fun result => (undoEntry result).toList) = entries.map Journaled.raw ∧
        changes = entries.map Journaled.change := by
  induction hreports with
  | nil => exact ⟨[], rfl, rfl⟩
  | @cons result c results changes hreport _ ih =>
      obtain ⟨entries, hraws, hchanges⟩ := ih fun c' hc' => hnames c' (List.mem_cons_of_mem _ hc')
      obtain ⟨hne, hparts⟩ := hnames c List.mem_cons_self
      obtain ⟨raw, record, hentry, hdescribes, hvalid, hrecorded⟩ :=
        @record_of_reports F env repr _ _ hreport hne hparts
      refine ⟨⟨raw, record, c, hdescribes, hvalid, hrecorded⟩ :: entries, ?_, ?_⟩
      · rw [List.flatMap_cons, hentry, hraws]
        rfl
      · rw [hchanges]
        rfl

theorem validateRecords_ok {uenv : UndoEnv F} {entries : List (Journaled uenv)}
    (hlength : entries.length ≤ 10000) (hfiles : ∀ e ∈ entries, t.file e.change.key ≠ none)
    {raws : Journaled uenv → Json F} (hraws : ∀ e ∈ entries, Describes e.record (raws e)) :
    validateRecords uenv t (entries.map raws) = .ok (entries.map Journaled.record) := by
  have hmany : ¬ (entries.map raws).length > 10000 := by
    rw [List.length_map]
    omega
  refine except_bind_ok.2 ⟨(), raiseIf_ok.2 hmany, mapM_map_ok fun e he => ?_⟩
  exact validateRecord_ok (hraws e he) e.valid (hfiles e he)

/-- The files are what they were at the paths of the run, and elsewhere as they are; what is
removed are the files that the run created. -/
structure Restored (T : List String → Prop) (original current undone : FileTree) : Prop where
  files : ∀ parts, T parts → undone.file parts = original.file parts
  others : ∀ parts, ¬ T parts → undone.node parts = current.node parts
  removed : ∀ parts, current.file parts ≠ none →
    (undone.file parts = none ↔ T parts ∧ original.file parts = none)

/-- Undoing the recorded edits of a run gives back every file they are about: an existing one
byte for byte, and a new one goes. -/
theorem undo_restores (env : EditEnv) (repr : Json F → String) (T : List String → Prop)
    (t₀ t₁ t₂ : FileTree) (results : List (ToolResult F)) (hrun : EditRun env T t₀ results t₁)
    (hlength : results.length ≤ 10000) (hkept : ∀ parts, T parts → t₂.file parts = t₁.file parts) :
    ∃ journal actions t',
      journalRecords (env.undo repr) t₁ (results.foldl recordUndo []) = .ok journal ∧
      undoTrajectory (env.undo repr) false false t₂ journal = (.ok actions, t') ∧
      Restored T t₀ t₂ t' := by
  obtain ⟨changes, hchanges, hreports, hthere⟩ := hrun.changes
  have hfile₁ : ∀ c ∈ changes, t₁.file c.key ≠ none := fun c hc => (hthere c hc).2
  have hfile₂ : ∀ c ∈ changes, t₂.file c.key ≠ none := by
    intro c hc
    rw [hkept c.key (hthere c hc).1]
    exact (hthere c hc).2
  obtain ⟨entries, hraws, hentries⟩ := @journaled_of_reports F env repr _ _ hreports
    fun c hc => ⟨FileTree.ne_nil_of_file (hfile₁ c hc), fun part hpart =>
      (t₁.named c.key (FileTree.node_of_file_ne (hfile₁ c hc)) part hpart).1⟩
  subst hentries
  have hmany : entries.length ≤ 10000 := by
    rw [← List.length_map Journaled.change, ← hreports.length_eq]
    exact hlength
  have hjournal : validateRecords (env.undo repr) t₁ (results.foldl recordUndo []) =
      .ok (entries.map Journaled.record) := by
    rw [foldl_recordUndo, List.nil_append, hraws]
    exact validateRecords_ok hmany (fun e he => hfile₁ _ (List.mem_map_of_mem he))
      fun e _ => e.describes
  have hloaded : validateRecords (env.undo repr) t₂
      ((entries.map Journaled.record).map UndoRecord.toJson) =
      .ok (entries.map Journaled.record) := by
    rw [List.map_map]
    exact validateRecords_ok hmany (fun e he => hfile₂ _ (List.mem_map_of_mem he))
      fun e _ => describes_toJson e.record
  obtain ⟨g, hchain, hback, hothers⟩ := hchanges.rollback hkept
  have hrecorded : List.Forall₂ (Undoable (env.undo repr))
      (entries.map Journaled.record).reverse (entries.map Journaled.change).reverse := by
    rw [← List.map_reverse, ← List.map_reverse, List.forall₂_map_left_iff,
      List.forall₂_map_right_iff, List.forall₂_same]
    exact fun e _ => e.recorded
  have hstart : Simulates (env.undo repr) ⟨t₂, fun _ => none, []⟩ := by
    intro parts hash hsim
    cases hsim
  obtain ⟨s, hloop, hstores, hnodes⟩ := undoLoop_takes hrecorded hstart hchain
  have hfiles : ∀ parts, T parts → s.tree.file parts = t₀.file parts := by
    intro parts hparts
    rw [hstores]
    exact hback parts hparts
  have hsame : ∀ parts, ¬ T parts → s.tree.node parts = t₂.node parts := by
    intro parts hparts
    refine hnodes parts fun c hc hkey => hparts ?_
    rw [hkey]
    exact (hthere c (List.mem_reverse.1 hc)).1
  refine ⟨(entries.map Journaled.record).map UndoRecord.toJson, s.actions, s.tree, ?_, ?_, hfiles,
    hsame, ?_⟩
  · rw [journalRecords, hjournal]
    rfl
  · rw [undoTrajectory, hloaded]
    show undoRecords (env.undo repr) false false t₂ (entries.map Journaled.record) = _
    rw [undoRecords, hloop]
    rfl
  · intro parts hthere₂
    by_cases hparts : T parts
    · rw [hfiles parts hparts]
      exact ⟨fun hnone => ⟨hparts, hnone⟩, fun h => h.2⟩
    · rw [file_eq_of_node (hsame parts hparts)]
      exact ⟨fun hnone => absurd hnone hthere₂, fun h => absurd h.1 hparts⟩

end Runs

namespace OneEdit

/-- SHA-256 where it is asked for. -/
def sha256 (data : ByteArray) : String :=
  if data = "x".toUTF8 then
    "2d711642b726b04401627ca9fbac32f5c8530fb1903cc4db02258717921a4881"
  else if data = "/w\x00a".toUTF8 then
    "048f6a9a3e3f84d1e41bad42d5357051111569c072a3ab4eb77e2900a0b3d939"
  else "e3b0c44298fc1c149afbf4c8996fb92427ae41e4649b934ca495991b7852b855"

theorem sha256_hex (data : ByteArray) : isHex (sha256 data) = true := by
  unfold sha256
  split
  · decide
  · split <;> decide

theorem sha256_length (data : ByteArray) : (sha256 data).length = 64 := by
  unfold sha256
  split
  · decide
  · split <;> decide

def digests : Digests where
  sha256 := sha256
  hmacSha256 _ data := sha256 data
  sha256_hex := sha256_hex
  hmacSha256_hex _ data := sha256_hex data

theorem cwd_absolute : (PyPath.mk "/" ["w"]).isAbsolute = true := rfl

theorem cwd_plain : ".." ∉ ["w"] := by decide

def env : EditEnv where
  cwd := ⟨⟨"/", ["w"]⟩, cwd_absolute, cwd_plain⟩
  redactor := ⟨[], id, markedOr_id⟩
  digests := digests
  sha256_length := sha256_length
  unifiedDiff _ _ fromFile toFile :=
    ["--- " ++ fromFile ++ "\n", "+++ " ++ toFile ++ "\n", "@@ -0,0 +1 @@\n", "+x"]

def node (parts : List String) : Option FileNode := if parts = [] then some .directory else none

theorem node_root : node [] = some .directory := rfl

theorem node_nil {parts : List String} (h : node parts ≠ none) : parts = [] := by
  by_contra hne
  exact h (if_neg hne)

theorem node_parents (parts : List String) (name : String) (h : node (parts ++ [name]) ≠ none) :
    node parts = some .directory := by
  have hnil := node_nil h
  simp at hnil

theorem node_named (parts : List String) (h : node parts ≠ none) :
    ∀ name ∈ parts, EntryName name := by
  rw [node_nil h]
  exact fun name hname => absurd hname List.not_mem_nil

/-- A workspace with nothing in it. -/
def tree : FileTree := ⟨node, node_root, node_parents, node_named⟩

theorem writable : tree.Writable ["a"] := by decide

def written : FileTree := tree.put ["a"] 0o644 "x".toUTF8 writable

def result : ToolResult Unit :=
  editResult env "write_file" "Wrote 1 chars to a" [("path", .str "a")] ["a"] "" "x" false

theorem resolved : tree.resolve env.cwd "a" = .ok ["a"] := rfl

theorem executed : (EditCall.writeFile "a" "x").execute env (fun _ _ => .ok true) tree =
    .ok (result, written) := rfl

theorem run : EditRun env (· = ["a"]) tree [result] written := by
  refine .edit .start executed rfl fun parts hparts => ?_
  rw [EditCall.path, resolved] at hparts
  exact (Except.ok.inj hparts).symm

end OneEdit

theorem undo_restores_sample : ∃ journal actions t',
    journalRecords (OneEdit.env.undo fun _ => "") OneEdit.written
      ([OneEdit.result].foldl recordUndo []) = .ok journal ∧
    undoTrajectory (OneEdit.env.undo fun _ => "") false false OneEdit.written journal =
      (.ok actions, t') ∧
    Restored (· = ["a"]) OneEdit.tree OneEdit.written t' :=
  undo_restores OneEdit.env (fun _ => "") (· = ["a"]) OneEdit.tree OneEdit.written OneEdit.written
    [OneEdit.result] OneEdit.run (by decide) fun _ _ => rfl

end MiniCodeAgent
