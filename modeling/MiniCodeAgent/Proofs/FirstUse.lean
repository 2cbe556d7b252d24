import MiniCodeAgent.PrivateFiles

/-!
# Two processes open a memory for the first time

Both find no key, and one of them creates it. The other then reads a file that
is there and may still be empty, and gives up. As long as nobody reads a file
before it is written, it cannot go wrong: the exclusive create settles who
writes, what is written stays, and everybody ends with it.

What a process counts on is that the files it has created are nobody else's to
touch, that a file once there stays, and that content once written stays as it
is (`Grows`).
-/

namespace MiniCodeAgent

namespace PrivateFiles

open Prog (Secure Stable Ends Turns Pool)

variable {ι : Type}

/-! ## What the files look like, and how they change -/

/-- What a file of this name holds when it is written. -/
def WellFormed : FileName → ByteArray → Prop
  | .key, content => content.size = 32
  | .identity, content => ∃ text, isIdentity text = true ∧ content = text.toUTF8

/-- A directory and files as these programs make them, each file empty or whole. -/
structure Proper (w : FileWorld ι) : Prop where
  directory : ∀ metadata, w.directory = some metadata → metadata = ⟨.directory, true, 0o700⟩
  metadata : ∀ name file, w.file name = some file → file.metadata = ⟨.regular, true, 0o600⟩
  content : ∀ name file, w.file name = some file →
    file.content = ByteArray.empty ∨ WellFormed name file.content

/-- Nothing goes, what is written stays, and of some processes' files nothing changes. -/
structure Grows (kept : ι → Prop) (w w' : FileWorld ι) : Prop where
  proper : Proper w → Proper w'
  directory : w.directory ≠ none → w'.directory ≠ none
  file : ∀ name file, w.file name = some file → ∃ file', w'.file name = some file' ∧
    file'.creator = file.creator ∧
    (file.content ≠ ByteArray.empty → file'.content = file.content) ∧
    (kept file.creator → file' = file)

/-- What a process may count on. -/
abbrev Rely (i : ι) : FileWorld ι → FileWorld ι → Prop := Grows fun j => j = i

/-- What a process keeps to. -/
abbrev Guarantee (i : ι) : FileWorld ι → FileWorld ι → Prop := Grows fun j => j ≠ i

theorem grows_refl (kept : ι → Prop) (w : FileWorld ι) : Grows kept w w where
  proper := id
  directory := id
  file _ file h := ⟨file, h, rfl, fun _ => rfl, fun _ => rfl⟩

theorem Grows.mono {kept kept' : ι → Prop} {w w' : FileWorld ι} (h : Grows kept w w')
    (hkept : ∀ i, kept' i → kept i) : Grows kept' w w' where
  proper := h.proper
  directory := h.directory
  file name file hfile := by
    obtain ⟨file', hfile', hcreator, hcontent, hsame⟩ := h.file name file hfile
    exact ⟨file', hfile', hcreator, hcontent, fun hk => hsame (hkept _ hk)⟩

/-! ### Conditions that stay true -/

/-- The directory is there. -/
def Opened (w : FileWorld ι) : Prop := Proper w ∧ w.directory ≠ none

/-- The file is there. -/
def Present (name : FileName) (w : FileWorld ι) : Prop := Opened w ∧ w.file name ≠ none

/-- The process has created the file, and this is in it. -/
def Owns (i : ι) (name : FileName) (content : ByteArray) (w : FileWorld ι) : Prop :=
  Opened w ∧ ∃ file, w.file name = some file ∧ file.creator = i ∧ file.content = content

/-- The file is written. -/
def Holds (name : FileName) (content : ByteArray) (w : FileWorld ι) : Prop :=
  Opened w ∧ content ≠ ByteArray.empty ∧ ∃ file, w.file name = some file ∧ file.content = content

section Stay

variable {kept : ι → Prop}

theorem stable_opened : Stable (Grows kept) (Opened (ι := ι)) :=
  fun _ _ h hw => ⟨h.proper hw.1, h.directory hw.2⟩

theorem stable_present (name : FileName) : Stable (Grows kept) (Present (ι := ι) name) := by
  intro w w' h hw
  refine ⟨stable_opened w w' h hw.1, ?_⟩
  cases hfile : w.file name with
  | none => exact absurd hfile hw.2
  | some file =>
      obtain ⟨file', hfile', -⟩ := h.file name file hfile
      rw [hfile']
      simp

theorem stable_holds (name : FileName) (content : ByteArray) :
    Stable (Grows kept) (Holds (ι := ι) name content) := by
  rintro w w' h ⟨hopened, hne, file, hfile, hcontent⟩
  obtain ⟨file', hfile', -, hsame, -⟩ := h.file name file hfile
  refine ⟨stable_opened w w' h hopened, hne, file', hfile', ?_⟩
  rw [hsame (by rw [hcontent]; exact hne), hcontent]

theorem stable_owns (i : ι) (name : FileName) (content : ByteArray) :
    Stable (Rely i) (Owns i name content) := by
  rintro w w' h ⟨hopened, file, hfile, hcreator, hcontent⟩
  obtain ⟨file', hfile', -, -, hsame⟩ := h.file name file hfile
  refine ⟨stable_opened w w' h hopened, file', hfile', ?_⟩
  rw [hsame hcreator]
  exact ⟨hcreator, hcontent⟩

theorem stable_false (R : FileWorld ι → FileWorld ι → Prop) : Stable R fun _ => False :=
  fun _ _ _ h => h

theorem stable_and {R : FileWorld ι → FileWorld ι → Prop} {P : FileWorld ι → Prop} {c : Prop}
    (h : Stable R P) : Stable R fun w => c ∧ P w :=
  fun w w' hR hw => ⟨hw.1, h w w' hR hw.2⟩

end Stay

/-! ## One call -/

/-- No file is read before it is written. -/
def readsWritten (w : FileWorld ι) : FileOp → Bool
  | .readBytes name =>
    match w.file name with
    | some file => file.content.size ≠ 0
    | none => true
  | _ => true

variable [DecidableEq ι]

/-- A call that is not a read come too early. -/
def Timely (i : ι) (w : FileWorld ι) (e : Event FileOp FileOp.Res PyExc) (w' : FileWorld ι) :
    Prop := Calls i w e w' ∧ readsWritten w e.op = true

variable {i : ι}

/-- A program of this process that keeps its side and ends like this. -/
abbrev Keeps {α : Type} (i : ι) (P : FileWorld ι → Prop) (p : FileProg α)
    (M : α → FileWorld ι → Prop) (E : PyExc → FileWorld ι → Prop) : Prop :=
  Secure (Timely i) (Rely i) (Guarantee i) (Ends M E) p P

/-- It raises nothing. -/
abbrev never (_ : PyExc) (_ : FileWorld ι) : Prop := False

theorem keeps_sys {o : FileOp} {P : FileWorld ι → Prop} {M : o.Res → FileWorld ι → Prop}
    {E : PyExc → FileWorld ι → Prop} (hM : ∀ a, Stable (Rely i) (M a))
    (hE : ∀ e, Stable (Rely i) (E e))
    (h : ∀ tokens w, P w → readsWritten w o = true →
      Guarantee i w (answer tokens i o w).2 ∧
        Ends M E (answer tokens i o w).1 (answer tokens i o w).2) :
    Keeps i P (sys o) M E := by
  refine Prog.secure_call hM hE fun r w w' hw hS => ?_
  obtain ⟨⟨tokens, hanswer⟩, hread⟩ := hS
  have hr : r = (answer tokens i o w).1 := congrArg Prod.fst hanswer
  have hw' : w' = (answer tokens i o w).2 := congrArg Prod.snd hanswer
  rw [hr, hw']
  exact h tokens w hw hread

/-- The metadata of a file these programs made. -/
def privateMetadata : Metadata := ⟨.regular, true, 0o600⟩

theorem keeps_mkdir : Keeps i Proper (sys .mkdir) (fun _ => Opened) never := by
  refine keeps_sys (fun _ => stable_opened) (fun _ => stable_false _) fun tokens w hw _ => ?_
  have hproper : Proper { w with directory := some (w.directory.getD ⟨.directory, true, 0o700⟩) } := by
    refine ⟨fun metadata h => ?_, hw.metadata, hw.content⟩
    cases hdir : w.directory with
    | none =>
        rw [hdir] at h
        cases h
        rfl
    | some found =>
        rw [hdir] at h
        cases h
        exact hw.directory _ hdir
  exact ⟨⟨fun _ => hproper, fun _ => by simp [answer],
    fun _ file h => ⟨file, h, rfl, fun _ => rfl, fun _ => rfl⟩⟩, hproper, by simp [answer]⟩

theorem keeps_lstatDirectory :
    Keeps i Opened (sys .lstatDirectory)
      (fun metadata w => metadata = ⟨.directory, true, 0o700⟩ ∧ Opened w) never := by
  refine keeps_sys (fun _ => stable_and stable_opened) (fun _ => stable_false _)
    fun tokens w hw _ => ?_
  cases hdir : w.directory with
  | none => exact absurd hdir hw.2
  | some metadata =>
      have hanswer : answer tokens i .lstatDirectory w = (.ok metadata, w) := by
        rw [answer, hdir]
      rw [hanswer]
      exact ⟨grows_refl _ w, hw.1.directory _ hdir, hw⟩

theorem answer_lstat {name : FileName} {tokens : Tokens} {w : FileWorld ι}
    {file : PrivateFile ι} (hfile : w.file name = some file) :
    answer tokens i (.lstat name) w = (.ok file.metadata, w) := by
  rw [answer, hfile]

theorem keeps_lstat_present (name : FileName) :
    Keeps i (Present name) (sys (.lstat name))
      (fun metadata w => metadata = privateMetadata ∧ Present name w) never := by
  refine keeps_sys (fun _ => stable_and (stable_present name)) (fun _ => stable_false _)
    fun tokens w hw _ => ?_
  cases hfile : w.file name with
  | none => exact absurd hfile hw.2
  | some file =>
      rw [answer_lstat hfile]
      exact ⟨grows_refl _ w, hw.1.1.metadata name file hfile, hw⟩

theorem keeps_lstat (name : FileName) :
    Keeps i Opened (sys (.lstat name))
      (fun metadata w => metadata = privateMetadata ∧ Present name w)
      (fun e w => isFileNotFound e ∧ Opened w) := by
  refine keeps_sys (fun _ => stable_and (stable_present name)) (fun _ => stable_and stable_opened)
    fun tokens w hw _ => ?_
  cases hfile : w.file name with
  | none =>
      have hanswer : answer tokens i (.lstat name) w = (.error (notFound "lstat"), w) := by
        rw [answer, hfile]
      rw [hanswer]
      exact ⟨grows_refl _ w, rfl, hw⟩
  | some file =>
      rw [answer_lstat hfile]
      exact ⟨grows_refl _ w, hw.1.metadata name file hfile, hw, by rw [hfile]; simp⟩

theorem keeps_readBytes (name : FileName) :
    Keeps i (Present name) (sys (.readBytes name))
      (fun content w => WellFormed name content ∧ Holds name content w) never := by
  refine keeps_sys (fun _ => stable_and (stable_holds name _)) (fun _ => stable_false _)
    fun tokens w hw hread => ?_
  cases hfile : w.file name with
  | none => exact absurd hfile hw.2
  | some file =>
      have hanswer : answer tokens i (.readBytes name) w = (.ok file.content, w) := by
        rw [answer, hfile]
      have hwritten : file.content ≠ ByteArray.empty := by
        rw [readsWritten, hfile] at hread
        intro hempty
        exact of_decide_eq_true hread (by rw [hempty]; rfl)
      rw [hanswer]
      exact ⟨grows_refl _ w, (hw.1.1.content name file hfile).resolve_left hwritten, hw.1,
        hwritten, file, hfile, rfl⟩

theorem keeps_tokenBytes :
    Keeps i Opened (sys .tokenBytes) (fun key w => WellFormed .key key ∧ Opened w) never :=
  keeps_sys (fun _ => stable_and stable_opened) (fun _ => stable_false _)
    fun tokens w hw _ => ⟨grows_refl _ w, tokens.bytes_size, hw⟩

theorem keeps_tokenHex :
    Keeps i Opened (sys .tokenHex) (fun text w => isIdentity text = true ∧ Opened w) never :=
  keeps_sys (fun _ => stable_and stable_opened) (fun _ => stable_false _)
    fun tokens w hw _ => ⟨grows_refl _ w, tokens.hex_identity, hw⟩

omit [DecidableEq ι] in
theorem setFile_file_self (w : FileWorld ι) (name : FileName) (file : PrivateFile ι) :
    (w.setFile name file).file name = some file := by
  show Function.update w.file name (some file) name = _
  rw [Function.update_self]

omit [DecidableEq ι] in
theorem setFile_file_of_ne {name other : FileName} (h : other ≠ name) (w : FileWorld ι)
    (file : PrivateFile ι) : (w.setFile name file).file other = w.file other := by
  show Function.update w.file name (some file) other = _
  rw [Function.update_of_ne h]

omit [DecidableEq ι] in
/-- Setting a file that is new, or one's own and empty. -/
theorem guarantee_setFile {name : FileName} {w : FileWorld ι} {file' : PrivateFile ι}
    (hcreator : file'.creator = i) (hmetadata : file'.metadata = privateMetadata)
    (hcontent : file'.content = ByteArray.empty ∨ WellFormed name file'.content)
    (hold : ∀ file, w.file name = some file → file.creator = i ∧
      (file.content ≠ ByteArray.empty → file'.content = file.content)) :
    Guarantee i w (w.setFile name file') := by
  refine ⟨fun hw => ⟨hw.directory, fun other file h => ?_, fun other file h => ?_⟩, id,
    fun other file h => ?_⟩
  · by_cases heq : other = name
    · rw [heq, setFile_file_self] at h
      cases h
      exact hmetadata
    · rw [setFile_file_of_ne heq] at h
      exact hw.metadata other file h
  · by_cases heq : other = name
    · rw [heq, setFile_file_self] at h
      cases h
      rw [heq]
      exact hcontent
    · rw [setFile_file_of_ne heq] at h
      exact hw.content other file h
  · by_cases heq : other = name
    · rw [heq] at h ⊢
      obtain ⟨hown, hsame⟩ := hold file h
      exact ⟨file', setFile_file_self w name file', by rw [hcreator, hown], hsame,
        fun hne => absurd hown hne⟩
    · exact ⟨file, by rw [setFile_file_of_ne heq, h], rfl, fun _ => rfl, fun _ => rfl⟩

theorem keeps_create (name : FileName) :
    Keeps i Opened (sys (.create name)) (fun _ => Owns i name ByteArray.empty)
      (fun e w => isFileExists e ∧ Present name w) := by
  refine keeps_sys (fun _ => stable_owns i name _) (fun _ => stable_and (stable_present name))
    fun tokens w hw _ => ?_
  cases hdir : w.directory with
  | none => exact absurd hdir hw.2
  | some metadata =>
      cases hfile : w.file name with
      | some file =>
          have hanswer : answer tokens i (.create name) w =
              (.error ⟨"FileExistsError", "open", true⟩, w) := by
            rw [answer, hdir, hfile]
          rw [hanswer]
          exact ⟨grows_refl _ w, rfl, hw, by rw [hfile]; simp⟩
      | none =>
          have hanswer : answer tokens i (.create name) w =
              (.ok (), w.setFile name ⟨privateMetadata, ByteArray.empty, i⟩) := by
            rw [answer, hdir, hfile]
            rfl
          rw [hanswer]
          have hgrows : Guarantee i w (w.setFile name ⟨privateMetadata, ByteArray.empty, i⟩) :=
            guarantee_setFile rfl rfl (.inl rfl) fun file h => by rw [hfile] at h; cases h
          exact ⟨hgrows, stable_opened _ _ hgrows hw, _, setFile_file_self w name _, rfl, rfl⟩

/-- A call on the descriptor of one's own file: the file is empty, or its content stays. -/
theorem keeps_ownFile {name : FileName} {content content' : ByteArray} {w : FileWorld ι}
    {f : PrivateFile ι → PrivateFile ι} (hw : Owns i name content w)
    (hcreator : ∀ file, (f file).creator = file.creator)
    (hmetadata : ∀ file, file.metadata = privateMetadata → (f file).metadata = privateMetadata)
    (hcontent : ∀ file, file.content = content → (f file).content = content')
    (hnew : content' = content ∨ content = ByteArray.empty ∧ WellFormed name content') :
    Guarantee i w (onOwnFile i name f w).2 ∧
      Ends (fun _ => Owns i name content') never (onOwnFile i name f w).1
        (onOwnFile i name f w).2 := by
  obtain ⟨hopened, file, hfile, hown, hold⟩ := hw
  have hanswer : onOwnFile i name f w = (.ok (), w.setFile name (f file)) := by
    rw [onOwnFile, hfile]
    simp [hown]
  have hgrows : Guarantee i w (w.setFile name (f file)) := by
    refine guarantee_setFile (by rw [hcreator, hown])
      (hmetadata file (hopened.1.metadata name file hfile)) ?_ fun other h => ?_
    · rw [hcontent file hold]
      cases hnew with
      | inl h =>
          rw [h, ← hold]
          exact hopened.1.content name file hfile
      | inr h => exact .inr h.2
    · rw [hfile] at h
      cases h
      refine ⟨hown, fun hne => ?_⟩
      rw [hold] at hne ⊢
      rw [hcontent file hold]
      exact hnew.resolve_right fun h => hne h.1
  rw [hanswer]
  exact ⟨hgrows, stable_opened _ _ hgrows hopened, _, setFile_file_self w name _,
    by rw [hcreator, hown], hcontent file hold⟩

theorem keeps_fchmod (name : FileName) (content : ByteArray) :
    Keeps i (Owns i name content) (sys (.fchmod name)) (fun _ => Owns i name content) never := by
  refine keeps_sys (fun _ => stable_owns i name _) (fun _ => stable_false _)
    fun tokens w hw _ => keeps_ownFile hw (fun _ => rfl) (fun file h => ?_) (fun _ h => h) (.inl rfl)
  rw [h]
  rfl

theorem keeps_write {name : FileName} {content : ByteArray} (h : WellFormed name content) :
    Keeps i (Owns i name ByteArray.empty) (sys (.write name content))
      (fun _ => Owns i name content) never := by
  refine keeps_sys (fun _ => stable_owns i name _) (fun _ => stable_false _)
    fun tokens w hw _ => keeps_ownFile hw (fun _ => rfl) (fun _ h => h) (fun file h => ?_)
      (.inr ⟨rfl, h⟩)
  show file.content ++ content = content
  rw [h]
  exact ByteArray.empty_append

theorem keeps_fsync (name : FileName) (content : ByteArray) :
    Keeps i (Owns i name content) (sys (.fsync name)) (fun _ => Owns i name content) never :=
  keeps_sys (fun _ => stable_owns i name _) (fun _ => stable_false _)
    fun _ _ hw _ => keeps_ownFile hw (fun _ => rfl) (fun _ h => h) (fun _ h => h) (.inl rfl)

theorem keeps_close (name : FileName) (content : ByteArray) :
    Keeps i (Owns i name content) (sys (.close name)) (fun _ => Owns i name content) never :=
  keeps_sys (fun _ => stable_owns i name _) (fun _ => stable_false _)
    fun _ _ hw _ => keeps_ownFile hw (fun _ => rfl) (fun _ h => h) (fun _ h => h) (.inl rfl)

theorem keeps_fillPrivateFile {name : FileName} {content : ByteArray}
    (h : WellFormed name content) :
    Keeps i (Owns i name ByteArray.empty) (fillPrivateFile name content)
      (fun _ => Owns i name content) never := by
  refine Secure.andFinally (Secure.bind (keeps_fchmod name _) fun _ =>
    Secure.bind (keeps_write h) fun _ => keeps_fsync name content) fun r => ?_
  cases r with
  | ok u => exact keeps_close name content
  | error e => exact Prog.secure_false

/-! ## Both files -/

theorem WellFormed.ne_empty {name : FileName} {content : ByteArray} (h : WellFormed name content) :
    content ≠ ByteArray.empty := by
  intro hempty
  cases name with
  | key =>
      rw [hempty] at h
      cases h
  | identity =>
      obtain ⟨text, htext, hbytes⟩ := h
      have hnone : text = "" := String.toByteArray_inj.1 (hbytes.symm.trans hempty)
      rw [hnone] at htext
      cases htext

omit [DecidableEq ι] in
theorem owns_holds {name : FileName} {content : ByteArray} {w : FileWorld ι}
    (h : WellFormed name content) (hw : Owns i name content w) : Holds name content w := by
  obtain ⟨hopened, file, hfile, -, hcontent⟩ := hw
  exact ⟨hopened, h.ne_empty, file, hfile, hcontent⟩

theorem keeps_readWhole {name : FileName} {E : PyExc → FileWorld ι → Prop} :
    Keeps i (Present name) (sys (.readBytes name))
      (fun content w => WellFormed name content ∧ Holds name content w) E := by
  refine (keeps_readBytes name).mono fun r w hr => ?_
  cases r with
  | ok content => exact hr
  | error e => exact hr.elim

theorem checkPrivate_privateMetadata (wrongKind foreign broad : String) :
    checkPrivate .regular wrongKind foreign broad privateMetadata = .ok () := rfl

theorem keeps_loadExistingKey {P : FileWorld ι → Prop} {E : PyExc → FileWorld ι → Prop}
    (h : Keeps i P (sys (.lstat .key))
      (fun metadata w => metadata = privateMetadata ∧ Present .key w) E) :
    Keeps i P loadExistingKey (fun key w => WellFormed .key key ∧ Holds .key key w) E := by
  refine Secure.bind h fun metadata => Prog.secure_imp fun hmetadata => ?_
  rw [hmetadata, validatePrivateFile, checkPrivate_privateMetadata, Prog.bind_eq, Prog.bind_ok]
  refine Secure.bind keeps_readWhole fun key => Prog.secure_imp fun hsize => ?_
  rw [if_neg (fun hne => hne hsize)]
  exact Prog.secure_pure fun w hw => ⟨hsize, hw⟩

theorem keeps_loadOrCreateKey :
    Keeps i Opened loadOrCreateKey (fun key w => WellFormed .key key ∧ Holds .key key w)
      never := by
  refine Secure.bind (M := fun loaded w => Ends (fun key w => WellFormed .key key ∧ Holds .key key w)
    (fun _ => Opened) loaded w) (Secure.rescue ((keeps_loadExistingKey (keeps_lstat .key)).mono
      fun r w hr => ?_)) fun loaded => ?_
  · cases r with
    | ok key => exact hr
    | error e =>
        show if isFileNotFound e then _ else _
        rw [if_pos hr.1]
        exact hr.2
  cases loaded with
  | ok key => exact Prog.secure_pure fun w hw => hw
  | error e =>
      refine Secure.bind keeps_tokenBytes fun key => Prog.secure_imp fun hkey => ?_
      refine Secure.bind (M := fun created w => Ends (fun _ => Owns i .key ByteArray.empty)
        (fun _ => Present .key) created w) (Secure.rescue ((keeps_create .key).mono
          fun r w hr => ?_)) fun created => ?_
      · cases r with
        | ok u => exact hr
        | error e =>
            show if isFileExists e then _ else _
            rw [if_pos hr.1]
            exact hr.2
      cases created with
      | error e => exact keeps_loadExistingKey (keeps_lstat_present .key)
      | ok u =>
          refine Secure.bind (keeps_fillPrivateFile hkey) fun _ => ?_
          exact Prog.secure_pure fun w hw => ⟨hkey, owns_holds hkey hw⟩

theorem keeps_openLedger :
    Keeps i Proper openLedger (fun key w => WellFormed .key key ∧ Holds .key key w) never := by
  refine Secure.bind (M := fun _ => Opened) ?_ fun _ => keeps_loadOrCreateKey
  refine Secure.bind keeps_mkdir fun _ => Secure.bind keeps_lstatDirectory fun metadata => ?_
  refine Prog.secure_imp fun hmetadata => ?_
  rw [hmetadata]
  exact Prog.secure_pure fun w hw => hw

theorem decodeAscii_toUTF8 {text : String} (h : isIdentity text = true) :
    decodeAscii text.toUTF8 = .ok text := by
  have hhex : isHex text = true := by
    rw [isIdentity, Bool.and_eq_true] at h
    exact h.2
  rw [decodeAscii, decodeUtf8_toUTF8, except_ok_bind, isAscii_of_isHex hhex]
  rfl

/-- The identity is on disk. -/
def Identified (text : String) (w : FileWorld ι) : Prop :=
  isIdentity text = true ∧ Holds .identity text.toUTF8 w

theorem keeps_readUserIdentity :
    Keeps i (Present .identity) readUserIdentity (fun text => Identified text) never := by
  refine Secure.bind (keeps_lstat_present .identity) fun metadata =>
    Prog.secure_imp fun hmetadata => ?_
  rw [hmetadata, checkPrivate_privateMetadata, Prog.bind_eq, Prog.bind_ok]
  refine Secure.bind keeps_readWhole fun content => Prog.secure_imp fun hcontent => ?_
  obtain ⟨text, htext, rfl⟩ := hcontent
  rw [decodeAscii_toUTF8 htext, Prog.bind_eq, Prog.bind_ok, htext]
  exact Prog.secure_pure fun w hw => ⟨htext, hw⟩

variable (digests : Digests)

/-- The digest is that of the identity on disk. -/
def Enrolled (user : String) (w : FileWorld ι) : Prop :=
  ∃ text, user = userDigest digests text ∧ Identified text w

theorem keeps_userIdentity_present (depth : Nat) :
    Keeps i (Present .identity) (userIdentity digests (depth + 1))
      (fun user => Enrolled digests user) never := by
  rw [userIdentity]
  refine Secure.bind (M := fun found w => Ends (fun _ => Present .identity)
    (fun _ _ => False) found w) (Secure.rescue ((keeps_lstat_present .identity).mono
      fun r w hr => ?_)) fun found => ?_
  · cases r with
    | ok metadata => exact hr.2
    | error e => exact hr.elim
  cases found with
  | error e => exact Prog.secure_false
  | ok metadata =>
      refine Secure.bind keeps_readUserIdentity fun text => ?_
      exact Prog.secure_pure fun w hw => ⟨text, rfl, hw⟩

theorem keeps_userIdentity (depth : Nat) :
    Keeps i Opened (userIdentity digests (depth + 2)) (fun user => Enrolled digests user)
      never := by
  rw [userIdentity]
  refine Secure.bind (M := fun found w => Ends (fun _ => Present .identity) (fun _ => Opened)
    found w) (Secure.rescue ((keeps_lstat .identity).mono fun r w hr => ?_)) fun found => ?_
  · cases r with
    | ok metadata => exact hr.2
    | error e =>
        show if isFileNotFound e then _ else _
        rw [if_pos hr.1]
        exact hr.2
  cases found with
  | ok metadata =>
      refine Secure.bind keeps_readUserIdentity fun text => ?_
      exact Prog.secure_pure fun w hw => ⟨text, rfl, hw⟩
  | error e =>
      refine Secure.bind keeps_tokenHex fun text => Prog.secure_imp fun htext => ?_
      have hwhole : WellFormed .identity text.toUTF8 := ⟨text, htext, rfl⟩
      refine Secure.bind (M := fun created w => Ends (fun _ => Owns i .identity ByteArray.empty)
        (fun _ => Present .identity) created w) (Secure.rescue ((keeps_create .identity).mono
          fun r w hr => ?_)) fun created => ?_
      · cases r with
        | ok u => exact hr
        | error e =>
            show if isFileExists e then _ else _
            rw [if_pos hr.1]
            exact hr.2
      cases created with
      | error e => exact keeps_userIdentity_present digests depth
      | ok u =>
          refine Secure.bind (keeps_fillPrivateFile hwhole) fun _ => ?_
          exact Prog.secure_pure fun w hw => ⟨text, rfl, htext, owns_holds hwhole hw⟩

/-- What a process ends with is what the two files hold. -/
def Agrees (opened : ByteArray × String) (w : FileWorld ι) : Prop :=
  Enrolled digests opened.2 w ∧ opened.1.size = 32 ∧ Holds .key opened.1 w

theorem keeps_openMemory (depth : Nat) :
    Keeps i Proper (openMemory digests (depth + 2)) (fun opened => Agrees digests opened)
      never := by
  refine Secure.bind keeps_openLedger fun key => Prog.secure_imp fun hkey => ?_
  have hframe := Secure.frame (stable_holds .key key) (stable_holds .key key)
    (keeps_userIdentity (i := i) digests depth)
  refine Secure.bind (hframe.weaken fun w hw => ⟨hw.1, hw⟩) fun user => ?_
  exact Prog.secure_pure fun w hw => ⟨hw.1, hkey, hw.2⟩

omit [DecidableEq ι] in
theorem Holds.unique {name : FileName} {a b : ByteArray} {w : FileWorld ι} (ha : Holds name a w)
    (hb : Holds name b w) : a = b := by
  obtain ⟨-, -, file, hfile, hcontent⟩ := ha
  obtain ⟨-, -, file', hfile', hcontent'⟩ := hb
  rw [hfile] at hfile'
  cases hfile'
  rw [← hcontent, hcontent']

omit [DecidableEq ι] in
theorem Agrees.unique {a b : ByteArray × String} {w : FileWorld ι} (ha : Agrees digests a w)
    (hb : Agrees digests b w) : a = b := by
  obtain ⟨⟨text, huser, -, htext⟩, -, hkey⟩ := ha
  obtain ⟨⟨text', huser', -, htext'⟩, -, hkey'⟩ := hb
  have hsame : text = text' := String.toByteArray_inj.1 (htext.unique htext')
  refine Prod.ext (hkey.unique hkey') ?_
  rw [huser, huser', hsame]

/-! ## Any number of processes -/

/-- Processes about to open a memory nobody has opened before, each with room for
at least two calls on its stack. -/
def firstUse (depth : ι → Nat) : Pool ι (FileWorld ι) FileOp FileOp.Res PyExc (ByteArray × String) :=
  ⟨.absent ι, fun i => openMemory digests (depth i + 2)⟩

omit [DecidableEq ι] in
theorem proper_absent : Proper (FileWorld.absent ι) where
  directory _ h := by cases h
  metadata _ _ h := by cases h
  content _ _ h := by cases h

variable {digests}

/-- If no process reads a file another has created and not yet written, then each
that comes to its end has what the two files hold, so all have the same. -/
theorem firstUse_agrees {depth : ι → Nat}
    {pool : Pool ι (FileWorld ι) FileOp FileOp.Res PyExc (ByteArray × String)}
    (h : Turns Calls (fun pool _ o => readsWritten pool.world o = true)
      (firstUse digests depth) pool) :
    (∀ i r, pool.rest i = .done r → ∃ key text, r = .ok (key, userDigest digests text) ∧
      key.size = 32 ∧ isIdentity text = true ∧ Holds .key key pool.world ∧
      Holds .identity text.toUTF8 pool.world) ∧
    ∀ i j r r', pool.rest i = .done r → pool.rest j = .done r' → r = r' := by
  have hend : ∀ i r, pool.rest i = .done r →
      Ends (fun opened => Agrees digests opened) never r pool.world := by
    intro i r hi
    refine (Prog.secure_turns (T := Timely) (R := Rely) (G := Guarantee)
      (Q := fun _ => Ends (fun opened => Agrees digests opened) never)
      (fun i j hne w w' hG => hG.mono fun k hk => ?_)
      (fun pool i o r w' hread hcall => ⟨hcall, hread⟩) h (fun i => ?_) i).ended hi
    · rw [hk]
      exact Ne.symm hne
    · exact ⟨Proper, fun w w' hR => hR.proper, proper_absent, keeps_openMemory digests (depth i)⟩
  constructor
  · intro i r hi
    cases r with
    | error e => exact (hend i _ hi).elim
    | ok opened =>
        obtain ⟨⟨text, huser, htext, hidentity⟩, hsize, hkey⟩ := hend i _ hi
        exact ⟨opened.1, text, by rw [← huser], hsize, htext, hkey, hidentity⟩
  · intro i j r r' hi hj
    cases r with
    | error e => exact (hend i _ hi).elim
    | ok opened =>
        cases r' with
        | error e => exact (hend j _ hj).elim
        | ok opened' => rw [(hend i _ hi).unique digests (hend j _ hj)]

/-! ### Two processes -/

def sampleTokens : Tokens where
  bytes := ⟨Array.replicate 32 9⟩
  hex := String.ofList (List.replicate 64 'a')
  bytes_size := rfl
  hex_identity := by decide +kernel

/-- The processes take turns in this order, and no turn waits. -/
def twoProcesses (order : List Bool) :
    Pool Bool (FileWorld Bool) FileOp FileOp.Res PyExc (ByteArray × String) :=
  Prog.schedule (answer sampleTokens) (fun _ _ _ => True) order
    (firstUse hexDigests fun _ => 998)

theorem turns_twoProcesses (order : List Bool) :
    Turns Calls (fun _ _ _ => True) (firstUse hexDigests fun _ => 998) (twoProcesses order) :=
  Prog.turns_schedule _ _ (fun _ _ _ => ⟨sampleTokens, rfl⟩) order _

/-- One after the other. -/
def oneByOne : Pool Bool (FileWorld Bool) FileOp FileOp.Res PyExc (ByteArray × String) :=
  Prog.schedule (answer sampleTokens) (fun pool _ o => readsWritten pool.world o = true)
    (List.replicate 16 false ++ List.replicate 16 true) (firstUse hexDigests fun _ => 998)

theorem turns_oneByOne :
    Turns Calls (fun pool _ o => readsWritten pool.world o = true)
      (firstUse hexDigests fun _ => 998) oneByOne :=
  Prog.turns_schedule _ _ (fun _ _ _ => ⟨sampleTokens, rfl⟩) _ _

/-- What both of them end with there. -/
def sampleSecrets : ByteArray × String :=
  (sampleTokens.bytes, userDigest hexDigests sampleTokens.hex)

theorem firstUse_agrees_sample :
    oneByOne.rest false = .done (.ok sampleSecrets) ∧
    oneByOne.rest true = .done (.ok sampleSecrets) ∧
    (∃ key text, (.ok sampleSecrets : Except PyExc _) = .ok (key, userDigest hexDigests text) ∧
      key.size = 32 ∧ isIdentity text = true ∧ Holds .key key oneByOne.world ∧
      Holds .identity text.toUTF8 oneByOne.world) :=
  ⟨rfl, rfl, (firstUse_agrees turns_oneByOne).1 true _ rfl⟩

/-- The second finds the key created and nothing in it. -/
theorem firstUse_disagrees :
    ∃ pool : Pool Bool (FileWorld Bool) FileOp FileOp.Res PyExc (ByteArray × String),
      Turns Calls (fun _ _ _ => True) (firstUse hexDigests fun _ => 998) pool ∧
      pool.rest true =
        .done (.error (ledgerError "conversation authentication key is invalid")) :=
  ⟨twoProcesses (List.replicate 5 false ++ List.replicate 4 true),
    turns_twoProcesses _, rfl⟩

end PrivateFiles

end MiniCodeAgent
