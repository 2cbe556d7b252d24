import MiniCodeAgent.Builtins
import MiniCodeAgent.Prog.Concurrent
import MiniCodeAgent.Receipt

/-!
# The first opening of a conversation memory

`conversation_ledger.py` and `conversation_memory.py` where two private files are
made: the key that authenticates the conversations, and the identity the user's
memories are filed under. Whoever opens a memory first makes them. The code runs
one system call after another, and other processes run theirs in between, so it
is a program here and its calls are its effects.
-/

namespace MiniCodeAgent

namespace PrivateFiles

/-! ## System calls -/

inductive FileKind where
  | regular
  | directory
  | symlink
  deriving DecidableEq

/-- What is looked at of an `os.stat_result`. -/
structure Metadata where
  kind : FileKind
  /-- `st_uid == os.getuid()`. -/
  owned : Bool
  /-- `stat.S_IMODE(st_mode)`. -/
  mode : Nat
  deriving DecidableEq

/-- `conversation.key` and `user.identity`. -/
inductive FileName where
  | key
  | identity
  deriving DecidableEq

inductive FileOp where
  | mkdir
  | lstatDirectory
  | lstat (file : FileName)
  /-- `os.open` with `O_CREAT | O_EXCL`. -/
  | create (file : FileName)
  | fchmod (file : FileName)
  | write (file : FileName) (content : ByteArray)
  | fsync (file : FileName)
  | close (file : FileName)
  | readBytes (file : FileName)
  /-- `secrets.token_bytes(32)`. -/
  | tokenBytes
  /-- `secrets.token_hex(32)`. -/
  | tokenHex

abbrev FileOp.Res : FileOp → Type
  | .lstatDirectory => Metadata
  | .lstat _ => Metadata
  | .readBytes _ => ByteArray
  | .tokenBytes => ByteArray
  | .tokenHex => String
  | _ => Unit

abbrev FileProg (α : Type) := Prog FileOp FileOp.Res PyExc α

def sys (o : FileOp) : FileProg o.Res := Prog.call o

/-! ## What both files have in common -/

def ledgerError (message : String) : PyExc := ⟨"ConversationLedgerError", message, true⟩
def permissionError (message : String) : PyExc := ⟨"PermissionError", message, true⟩

def isFileNotFound (exc : PyExc) : Prop := exc.type = "FileNotFoundError"
def isFileExists (exc : PyExc) : Prop := exc.type = "FileExistsError"

instance : DecidablePred isFileNotFound := fun exc => inferInstanceAs (Decidable (exc.type = _))
instance : DecidablePred isFileExists := fun exc => inferInstanceAs (Decidable (exc.type = _))

/-- A file or directory must be of its kind, the user's own, and closed to others. -/
def checkPrivate (kind : FileKind) (wrongKind foreign broad : String) (metadata : Metadata) :
    Except PyExc Unit := do
  raiseIf (metadata.kind ≠ kind) (ledgerError wrongKind)
  raiseIf (metadata.owned = false) (permissionError foreign)
  raiseIf (metadata.mode &&& 0o077 ≠ 0) (permissionError broad)

/-- What is written where the file was created, and the descriptor closed again. -/
def fillPrivateFile (file : FileName) (content : ByteArray) : FileProg Unit :=
  Prog.andFinally
    (do
      sys (.fchmod file)
      sys (.write file content)
      sys (.fsync file))
    (sys (.close file))

/-! ## The ledger's key -/

/-- `_validate_private_file`. -/
def validatePrivateFile (metadata : Metadata) : Except PyExc Unit :=
  checkPrivate .regular "conversation memory file must be regular: conversation.key"
    "conversation memory file is not owned by this user"
    "conversation memory file permissions are too broad" metadata

/-- `_load_existing_key`. -/
def loadExistingKey : FileProg ByteArray := do
  let metadata ← sys (.lstat .key)
  Prog.done (validatePrivateFile metadata)
  let key ← sys (.readBytes .key)
  if key.size ≠ 32 then throw (ledgerError "conversation authentication key is invalid")
  else return key

/-- `_load_or_create_key`. -/
def loadOrCreateKey : FileProg ByteArray := do
  let loaded ← Prog.rescue isFileNotFound loadExistingKey
  match loaded with
  | .ok key => return key
  | .error _ => do
    let key ← sys .tokenBytes
    let created ← Prog.rescue isFileExists (sys (.create .key))
    match created with
    | .error _ => loadExistingKey
    | .ok () => do
      fillPrivateFile .key key
      return key

/-- `_ensure_private_directory`. -/
def ensurePrivateDirectory : FileProg Unit := do
  sys .mkdir
  let metadata ← sys .lstatDirectory
  Prog.done (checkPrivate .directory "conversation memory path must be a real directory"
    "conversation memory path is not owned by this user"
    "conversation memory path permissions are too broad" metadata)

/-- `AuthenticatedConversationLedger(directory, create=True).key`. -/
def openLedger : FileProg ByteArray := do
  ensurePrivateDirectory
  loadOrCreateKey

/-! ## The user's identity -/

/-- `data.decode("ascii")`. -/
def decodeAscii (data : ByteArray) : Except PyExc String := do
  let text ← decodeUtf8 data
  raiseIf (isAscii text = false)
    ⟨"UnicodeDecodeError", "'ascii' codec can't decode", true⟩
  return text

/-- `re.fullmatch(r"[0-9a-f]{64}", text)`. -/
def isIdentity (text : String) : Bool := text.length = 64 && isHex text

/-- `_read_user_identity`. -/
def readUserIdentity : FileProg String := do
  let metadata ← sys (.lstat .identity)
  Prog.done (checkPrivate .regular "user identity must be a regular file"
    "user identity is not owned by this user" "user identity permissions are too broad" metadata)
  let data ← sys (.readBytes .identity)
  let identity ← Prog.done (decodeAscii data)
  if isIdentity identity = false then throw (ledgerError "user identity is invalid")
  else return identity

variable (digests : Digests)

/-- The digest an identity is known by. -/
def userDigest (identity : String) : String := digests.sha256 ("mca-user:" ++ identity).toUTF8

/-- `_user_identity`, with the calls the interpreter's stack has left. -/
def userIdentity : Nat → FileProg String
  | 0 => throw ⟨"RecursionError", "maximum recursion depth exceeded", true⟩
  | depth + 1 => do
    let found ← Prog.rescue isFileNotFound (sys (.lstat .identity))
    match found with
    | .ok _ => do
      let identity ← readUserIdentity
      return userDigest digests identity
    | .error _ => do
      let identity ← sys .tokenHex
      let created ← Prog.rescue isFileExists (sys (.create .identity))
      match created with
      | .error _ => userIdentity depth
      | .ok () => do
        fillPrivateFile .identity identity.toUTF8
        return userDigest digests identity

/-- What `LocalConversationMemory(...)` takes from the two files. -/
def openMemory (depth : Nat) : FileProg (ByteArray × String) := do
  let key ← openLedger
  let user ← userIdentity digests depth
  return (key, user)

/-! ## The directory they share -/

/-- A file, and the process that has it open for writing since it created it. -/
structure PrivateFile (ι : Type) where
  metadata : Metadata
  content : ByteArray
  creator : ι

structure FileWorld (ι : Type) where
  directory : Option Metadata
  file : FileName → Option (PrivateFile ι)

def FileWorld.absent (ι : Type) : FileWorld ι := ⟨none, fun _ => none⟩

variable {ι : Type}

def FileWorld.setFile (w : FileWorld ι) (name : FileName) (file : PrivateFile ι) : FileWorld ι :=
  { w with file := Function.update w.file name (some file) }

def notFound (name : String) : PyExc := ⟨"FileNotFoundError", name, true⟩
def badDescriptor : PyExc := ⟨"OSError", "Bad file descriptor", true⟩

/-- An effect on the file a process has created. -/
def onOwnFile [DecidableEq ι] (i : ι) (name : FileName) (f : PrivateFile ι → PrivateFile ι)
    (w : FileWorld ι) : Except PyExc Unit × FileWorld ι :=
  match w.file name with
  | some file =>
    if file.creator = i then (.ok (), w.setFile name (f file)) else (.error badDescriptor, w)
  | none => (.error badDescriptor, w)

/-- What `secrets` draws. -/
structure Tokens where
  bytes : ByteArray
  hex : String
  bytes_size : bytes.size = 32
  hex_identity : isIdentity hex = true

/-- One system call of a process. All processes are the same user's, and no other
program touches the files. -/
def answer [DecidableEq ι] (tokens : Tokens) (i : ι) :
    (o : FileOp) → FileWorld ι → Except PyExc o.Res × FileWorld ι
  | .mkdir, w => (.ok (), { w with directory := some (w.directory.getD ⟨.directory, true, 0o700⟩) })
  | .lstatDirectory, w =>
    match w.directory with
    | some metadata => (.ok metadata, w)
    | none => (.error (notFound "conversations"), w)
  | .lstat name, w =>
    match w.file name with
    | some file => (.ok file.metadata, w)
    | none => (.error (notFound "lstat"), w)
  | .create name, w =>
    match w.directory, w.file name with
    | none, _ => (.error (notFound "open"), w)
    | some _, some _ => (.error ⟨"FileExistsError", "open", true⟩, w)
    | some _, none => (.ok (), w.setFile name ⟨⟨.regular, true, 0o600⟩, ByteArray.empty, i⟩)
  | .fchmod name, w =>
    onOwnFile i name (fun file => { file with metadata := { file.metadata with mode := 0o600 } }) w
  | .write name content, w =>
    onOwnFile i name (fun file => { file with content := file.content ++ content }) w
  | .fsync name, w => onOwnFile i name id w
  | .close name, w => onOwnFile i name id w
  | .readBytes name, w =>
    match w.file name with
    | some file => (.ok file.content, w)
    | none => (.error (notFound "open"), w)
  | .tokenBytes, w => (.ok tokens.bytes, w)
  | .tokenHex, w => (.ok tokens.hex, w)

/-- What a call may do: a token is any of its length, and everything else is as
the files are. -/
def Calls [DecidableEq ι] (i : ι) (w : FileWorld ι) (e : Event FileOp FileOp.Res PyExc)
    (w' : FileWorld ι) : Prop :=
  ∃ tokens, Prog.Answers (answer tokens i) w e w'

end PrivateFiles

end MiniCodeAgent
