import Mathlib.Logic.Relation
import MiniCodeAgent.Prog.Object
import MiniCodeAgent.Verification
import MiniCodeAgent.Workspace

/-!
# A transaction's access log

`transaction_adapter.py`: an executor that writes down each tool call before it
passes it on, and its outcome afterwards, in the transaction's manifest. The
manifest is one object in memory, saved as a whole, so a call is a program on
that object, and what a call that raised has left in it is what the next one
starts from. A later process starts from the manifest on disk.

Of the manifest only what the adapter reads and writes is here.
-/

namespace MiniCodeAgent

namespace TransactionAdapter

variable {F : Type}

/-! ## Paths -/

/-- A `pathlib` path: its root, which is empty for a relative one, and its parts. -/
structure PyPath where
  root : String
  parts : List String
  deriving DecidableEq

/-- The leading slashes that POSIX tells apart. -/
def rootOf : List Char → String
  | '/' :: '/' :: '/' :: _ => "/"
  | '/' :: '/' :: _ => "//"
  | '/' :: _ => "/"
  | _ => ""

/-- `Path(text)`. -/
def PyPath.ofString (text : String) : PyPath where
  root := rootOf text.toList
  parts := (pathParts text).filter fun part => part ≠ "" ∧ part ≠ "."

def PyPath.isAbsolute (path : PyPath) : Bool := path.root ≠ ""

/-- The text of a relative path with these parts. -/
def posixText (parts : List String) : String :=
  if parts = [] then "." else String.intercalate "/" parts

/-- `path.as_posix()`. -/
def PyPath.asPosix (path : PyPath) : String :=
  if path.isAbsolute then path.root ++ String.intercalate "/" path.parts
  else posixText path.parts

/-- `path.relative_to(directory)`, which raises `ValueError` outside of it. -/
def PyPath.relativeTo (path directory : PyPath) : Option PyPath :=
  if path.root = directory.root ∧ directory.parts <+: path.parts then
    some ⟨"", path.parts.drop directory.parts.length⟩
  else none

/-- A path that `resolve()` has answered, as the workspace's is. -/
structure ResolvedPath extends PyPath where
  absolute : toPyPath.isAbsolute = true
  plain : ".." ∉ parts

/-! ## The manifest -/

/-- A record of the access log. -/
structure AccessEvent where
  sequence : Nat
  tool : String
  phase : String
  atNs : Int
  returncode : Option Int := none
  blocked : Option Bool := none
  deriving DecidableEq

structure AccessManifest where
  accessLog : List AccessEvent
  readSet : List String
  writeSet : List String
  broadRead : Bool
  broadWrite : Bool
  deriving DecidableEq

/-- What `TransactionStore.create` starts with. -/
def AccessManifest.created : AccessManifest where
  accessLog := []
  readSet := []
  writeSet := []
  broadRead := false
  broadWrite := false

/-- The two sets of paths. -/
inductive PathField where
  | readSet
  | writeSet
  deriving DecidableEq

def AccessManifest.paths (manifest : AccessManifest) : PathField → List String
  | .readSet => manifest.readSet
  | .writeSet => manifest.writeSet

/-- A value is added once, and the list sorted again. -/
def addValue (values : List String) (value : String) : List String :=
  if value ∈ values then values else sortPaths (values ++ [value])

def AccessManifest.addPath (manifest : AccessManifest) (value : String) :
    PathField → AccessManifest
  | .readSet => { manifest with readSet := addValue manifest.readSet value }
  | .writeSet => { manifest with writeSet := addValue manifest.writeSet value }

/-! ## Tool calls -/

def readTools : List String := ["read_file"]
def broadReadTools : List String := ["bash", "list_files", "search_files", "git_diff", "run_tests"]
def writeTools : List String := ["bash", "write_file", "apply_patch", "replace_lines"]
def broadWriteTools : List String := ["bash", "run_tests"]

inductive AdapterOp (F : Type) where
  | timeNs
  /-- `path.resolve()`. -/
  | resolve (path : PyPath)
  /-- `self._store.save(manifest)`. -/
  | save (manifest : AccessManifest)
  /-- `self._executor.execute_tool(name, args)`. -/
  | inner (name : String) (args : Dict (Json F))

def AdapterOp.Res : AdapterOp F → Type
  | .timeNs => Int
  | .resolve _ => PyPath
  | .save _ => Unit
  | .inner _ _ => ToolResult F

abbrev AdapterProg (F : Type) (α : Type) :=
  ObjProg (AdapterOp F) AdapterOp.Res PyExc AccessManifest α

def timeNs : AdapterProg F Int := ObjProg.call AdapterOp.timeNs
def resolve (path : PyPath) : AdapterProg F PyPath := ObjProg.call (AdapterOp.resolve path)
def inner (name : String) (args : Dict (Json F)) : AdapterProg F (ToolResult F) :=
  ObjProg.call (AdapterOp.inner name args)
def modify (f : AccessManifest → AccessManifest) : AdapterProg F Unit := ObjProg.modify f

def saveManifest : AdapterProg F Unit := do
  let manifest ← ObjProg.self
  ObjProg.call (AdapterOp.save manifest)

def isValueError (exc : PyExc) : Prop := exc.type = "ValueError"

instance : DecidablePred isValueError := fun exc => inferInstanceAs (Decidable (exc.type = _))

section Call

variable [Json.PyFloat F] (repr : Json F → String) (cwd : PyPath)

/-- `str(args["path"])`, if there is one. -/
def pathArg (args : Dict (Json F)) : Option String :=
  match args.get? "path" with
  | some value => if value.truthy then some (pyStr repr value) else none
  | none => none

/-- The path as it is written down: an absolute one from the workspace on. -/
def relativePath (path : PyPath) : AdapterProg F (Option PyPath) :=
  if path.isAbsolute then do
    let resolved ← Prog.rescue isValueError (resolve path)
    match resolved with
    | .ok target => return target.relativeTo cwd
    | .error _ => return none
  else return some path

/-- `_add_path`. -/
def addPath (field : PathField) (rawPath : String) : AdapterProg F Unit := do
  let relative ← relativePath cwd (PyPath.ofString rawPath)
  match relative with
  | some path => modify fun manifest => manifest.addPath path.asPosix field
  | none => return ()

/-- The path argument of a tool that takes one. -/
def addArgument (tools : List String) (field : PathField) (name : String)
    (args : Dict (Json F)) : AdapterProg F Unit :=
  match pathArg repr args with
  | some rawPath => if name ∈ tools then addPath cwd field rawPath else return ()
  | none => return ()

/-- What a call may touch beside the paths it names. -/
def markBroad (name : String) (manifest : AccessManifest) : AccessManifest :=
  { manifest with
    broadRead := manifest.broadRead || name ∈ broadReadTools
    broadWrite := manifest.broadWrite || name ∈ broadWriteTools }

def appendEvent (event : AccessEvent) (manifest : AccessManifest) : AccessManifest :=
  { manifest with accessLog := manifest.accessLog ++ [event] }

/-- The call is written down as started, and saved so. -/
def beginCall (name : String) (args : Dict (Json F)) : AdapterProg F Nat := do
  let manifest ← ObjProg.self
  let sequence := manifest.accessLog.length + 1
  let atNs ← timeNs
  modify (markBroad name)
  addArgument repr cwd readTools .readSet name args
  addArgument repr cwd writeTools .writeSet name args
  modify (appendEvent ⟨sequence, name, "started", atNs, none, none⟩)
  saveManifest
  return sequence

/-- The set a tool's own path goes to. -/
def fieldOf (name : String) : PathField := if name ∈ writeTools then .writeSet else .readSet

/-- The event a call has appended. -/
def completed (sequence : Nat) (result : ToolResult F) (manifest : AccessManifest) :
    AccessManifest :=
  { manifest with
    accessLog := manifest.accessLog.modify (sequence - 1) fun event =>
      { event with phase := "completed", returncode := some result.returncode,
                   blocked := some result.blocked } }

/-- The path a tool says it worked on. -/
def addResult (name : String) (result : ToolResult F) : AdapterProg F Unit :=
  if result.filePath ≠ "" ∧ name ∈ readTools ++ writeTools then
    addPath cwd (fieldOf name) result.filePath
  else return ()

/-- The outcome is written down, and saved. -/
def endCall (name : String) (sequence : Nat) (result : ToolResult F) : AdapterProg F Unit := do
  addResult cwd name result
  modify (completed sequence result)
  saveManifest

/-- `execute_tool`. -/
def executeTool (name : String) (args : Dict (Json F)) : AdapterProg F (ToolResult F) := do
  let sequence ← beginCall repr cwd name args
  let result ← inner name args
  endCall cwd name sequence result
  return result

end Call

/-! ## The files a call is about -/

/-- `os.path.abspath` of an absolute path: `..` takes the part before it away. -/
def normalParts (parts : List String) : List String :=
  parts.foldl (fun normal part => if part = ".." then normal.dropLast else normal ++ [part]) []

/-- Whether any part of the path below the directory is a symbolic link. -/
def throughLink (links : PyPath → Bool) (directory : PyPath) (parts : List String) : Bool :=
  parts.inits.tail.any fun below => links { directory with parts := directory.parts ++ below }

/-- `SafeWorkspace.resolve(text)`, from the workspace on: the file a tool works on that
is given this path, if the path is accepted. -/
def locate (cwd : PyPath) (links : PyPath → Bool) (text : String) : Option (List String) :=
  let path := PyPath.ofString text
  let candidate : PyPath :=
    if path.isAbsolute then path else { cwd with parts := cwd.parts ++ path.parts }
  match ({ candidate with parts := normalParts candidate.parts } : PyPath).relativeTo cwd with
  | some relative => if throughLink links cwd relative.parts then none else some relative.parts
  | none => none

/-- A call the inner executor was given, with what was on disk then, the symbolic
links there were before and after, and how it ended. -/
structure InnerCall (F : Type) where
  tool : String
  args : Dict (Json F)
  durable : AccessManifest
  links : PyPath → Bool
  linksAfter : PyPath → Bool
  outcome : Except PyExc (ToolResult F)

structure AdapterWorld (F : Type) where
  memory : AccessManifest
  durable : AccessManifest
  links : PyPath → Bool
  calls : List (InnerCall F)

/-- What the adapter's effects do. A save that fails may have replaced the file all
the same. Nothing is known of the tool, and of a resolved path only that one
without links and `..` is its own; the workspace stays where it is. -/
inductive Effects (cwd : PyPath) : AdapterWorld F →
    ObjEvent (AdapterOp F) AdapterOp.Res PyExc AccessManifest → AdapterWorld F → Prop
  | self (w : AdapterWorld F) : Effects cwd w ⟨.self, .ok w.memory⟩ w
  | modify (w : AdapterWorld F) (f : AccessManifest → AccessManifest) :
      Effects cwd w ⟨.modify f, .ok ()⟩ { w with memory := f w.memory }
  | timeNs (w : AdapterWorld F) (r : Except PyExc Int) :
      Effects cwd w ⟨.call .timeNs, r⟩ w
  | resolve (w : AdapterWorld F) (path : PyPath) (r : Except PyExc PyPath)
      (h : ".." ∉ path.parts → throughLink w.links ⟨path.root, []⟩ path.parts = false →
        r = .ok path) : Effects cwd w ⟨.call (.resolve path), r⟩ w
  | saved (w : AdapterWorld F) (manifest : AccessManifest) :
      Effects cwd w ⟨.call (.save manifest), .ok ()⟩ { w with durable := manifest }
  | unsaved (w : AdapterWorld F) (manifest durable' : AccessManifest) (e : PyExc)
      (h : durable' = w.durable ∨ durable' = manifest) :
      Effects cwd w ⟨.call (.save manifest), .error e⟩ { w with durable := durable' }
  | inner (w : AdapterWorld F) (name : String) (args : Dict (Json F))
      (r : Except PyExc (ToolResult F)) (links' : PyPath → Bool)
      (h : throughLink links' ⟨cwd.root, []⟩ cwd.parts = false) :
      Effects cwd w ⟨.call (.inner name args), r⟩
        { w with links := links', calls := w.calls ++ [⟨name, args, w.durable, w.links, links', r⟩] }

section Runs

variable [Json.PyFloat F] (repr : Json F → String) (cwd : PyPath)

/-- One call through an executor, to its end or to a crash, after which, as after the
end of a session, a new executor starts from what is on disk. -/
inductive Session : AdapterWorld F → AdapterWorld F → Prop
  | call {w w' : AdapterWorld F} (name : String) (args : Dict (Json F))
      {r : Except PyExc (ToolResult F)}
      (h : Prog.Run (Effects cwd) (executeTool repr cwd name args) w r w') : Session w w'
  | crash {w w' : AdapterWorld F} (name : String) (args : Dict (Json F))
      (h : Prog.During (Effects cwd) (executeTool repr cwd name args) w w') :
      Session w { w' with memory := w'.durable }
  | restart (w : AdapterWorld F) : Session w { w with memory := w.durable }

/-- A transaction as `create` leaves it. -/
def AdapterWorld.start (links : PyPath → Bool) : AdapterWorld F where
  memory := .created
  durable := .created
  links := links
  calls := []

/-- Any number of sessions. -/
def Sessions : AdapterWorld F → AdapterWorld F → Prop :=
  Relation.ReflTransGen (Session repr cwd)

end Runs

end TransactionAdapter

end MiniCodeAgent
