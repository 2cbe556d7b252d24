import MiniCodeAgent.Prog.Concurrent
import MiniCodeAgent.Proofs.Paths

/-!
# The access log is written ahead

However calls end and wherever a process is stopped, the log on disk has a
record of every call the inner executor was given, made before it was given the
call, and its records are numbered from one without a gap. Once a record says
that its call is completed, the sets on disk have every file the call names, if
it names it by a path without `..`: such a path is written down as it stands,
and `..` in it is not.

The invariant speaks of the manifest in memory and of the one on disk alike, so
that saving keeps it whether it succeeds or not, and so does starting again.
-/

namespace MiniCodeAgent

namespace TransactionAdapter

open Prog (Secure Stable Ends)

variable {F : Type}

/-! ## Sorted sets -/

theorem sortPaths_perm (paths : List String) : (sortPaths paths).Perm paths :=
  List.perm_insertionSort _ _

/-- Sorted, and nothing twice. -/
def Sorted (values : List String) : Prop := values.Pairwise (· < ·)

theorem sorted_addValue {values : List String} (h : Sorted values) (value : String) :
    Sorted (addValue values value) := by
  by_cases hmem : value ∈ values
  · rw [addValue, if_pos hmem]
    exact h
  · rw [addValue, if_neg hmem]
    have hle : (sortPaths (values ++ [value])).Pairwise (· ≤ ·) :=
      List.pairwise_insertionSort _ _
    have hne : (sortPaths (values ++ [value])).Pairwise (· ≠ ·) := by
      refine ((sortPaths_perm _).nodup_iff).2 (List.nodup_append.2 ⟨h.imp fun hlt => hlt.ne,
        List.nodup_singleton _, ?_⟩)
      intro a ha b hb heq
      rw [List.mem_singleton] at hb
      rw [heq, hb] at ha
      exact hmem ha
    exact (hle.and hne).imp fun h => lt_of_le_of_ne h.1 h.2

theorem mem_addValue {values : List String} {value other : String} :
    other ∈ addValue values value ↔ other ∈ values ∨ other = value := by
  by_cases hmem : value ∈ values
  · rw [addValue, if_pos hmem]
    constructor
    · exact .inl
    · intro h
      cases h with
      | inl h => exact h
      | inr h =>
          rw [h]
          exact hmem
  · rw [addValue, if_neg hmem, (sortPaths_perm _).mem_iff]
    simp

/-! ## Where a plain path points -/

theorem throughLink_append (links : PyPath → Bool) (root : String) (a b : List String) :
    throughLink links ⟨root, []⟩ (a ++ b) =
      (throughLink links ⟨root, []⟩ a || throughLink links ⟨root, a⟩ b) := by
  have htail : (a ++ b).inits.tail = a.inits.tail ++ b.inits.tail.map (a ++ ·) := by
    rw [List.inits_append, List.tail_append_of_ne_nil (by cases a <;> simp)]
  rw [throughLink, throughLink, throughLink, htail, List.any_append, List.any_map]
  rfl

/-- A path has no `..` in it. -/
def Plain (text : String) : Prop := ".." ∉ (PyPath.ofString text).parts

variable {cwd : ResolvedPath} {links : PyPath → Bool}

theorem locate_relative {text : String} {parts : List String} (hplain : Plain text)
    (hrel : (PyPath.ofString text).isAbsolute = false)
    (h : locate cwd.toPyPath links text = some parts) :
    (PyPath.ofString text).asPosix = posixText parts := by
  have hnormal : normalParts (cwd.parts ++ (PyPath.ofString text).parts) =
      cwd.parts ++ (PyPath.ofString text).parts :=
    normalParts_plain fun hmem => (List.mem_append.1 hmem).elim cwd.plain hplain
  rw [locate, hrel] at h
  simp only [Bool.false_eq_true, if_false, hnormal, PyPath.relativeTo] at h
  rw [if_pos ⟨trivial, List.prefix_append _ _⟩, List.drop_left] at h
  rw [PyPath.asPosix, hrel, if_neg Bool.false_ne_true]
  split at h
  · next relative heq =>
      cases heq
      split at h
      · cases h
      · cases h
        rfl
  · cases h

theorem locate_absolute {text : String} {parts : List String} (hplain : Plain text)
    (habs : (PyPath.ofString text).isAbsolute = true)
    (hroot : throughLink links ⟨cwd.root, []⟩ cwd.parts = false)
    (h : locate cwd.toPyPath links text = some parts) :
    (PyPath.ofString text).relativeTo cwd.toPyPath = some ⟨"", parts⟩ ∧
      throughLink links ⟨(PyPath.ofString text).root, []⟩ (PyPath.ofString text).parts = false := by
  rw [locate, habs] at h
  simp only [if_true, normalParts_plain hplain] at h
  generalize PyPath.ofString text = path at h
  have hsame : ({ path with parts := path.parts } : PyPath) = path := rfl
  rw [hsame, PyPath.relativeTo] at h
  rw [PyPath.relativeTo]
  by_cases hin : path.root = cwd.root ∧ cwd.parts <+: path.parts
  · rw [if_pos hin] at h ⊢
    obtain ⟨below, hbelow⟩ := hin.2
    rw [← hbelow, List.drop_left] at h ⊢
    by_cases hlink : throughLink links cwd.toPyPath below = true
    · simp [hlink] at h
    · simp only [hlink] at h
      cases h
      refine ⟨rfl, ?_⟩
      rw [hin.1, throughLink_append, hroot, Bool.false_or]
      exact Bool.eq_false_iff.2 hlink
  · rw [if_neg hin] at h
    cases h

/-! ## The invariant -/

section Invariant

variable [Json.PyFloat F] (repr : Json F → String) (cwd : ResolvedPath)

/-- The paths a call of a reading or writing tool names, each with the file it is the
path of: its argument before the call, and what the tool says it worked on after. -/
def InnerCall.named (c : InnerCall F) : List (String × Option (List String)) :=
  if c.tool ∈ readTools ++ writeTools then
    (pathArg repr c.args).toList.map (fun text => (text, locate cwd.toPyPath c.links text)) ++
    match c.outcome with
    | .ok result => if result.filePath ≠ "" then
        [(result.filePath, locate cwd.toPyPath c.linksAfter result.filePath)] else []
    | .error _ => []
  else []

/-- The files a call names are in the set of its tool. -/
def Recorded (c : InnerCall F) (m : AccessManifest) : Prop :=
  ∀ text parts, (text, some parts) ∈ c.named repr cwd → posixText parts ∈ m.paths (fieldOf c.tool)

/-- So are those it names by a plain path. -/
def PlainRecorded (c : InnerCall F) (m : AccessManifest) : Prop :=
  ∀ text parts, (text, some parts) ∈ c.named repr cwd → Plain text →
    posixText parts ∈ m.paths (fieldOf c.tool)

/-- Each file a call names it names by a plain path at least once. -/
def PlainlyNamed (c : InnerCall F) : Prop :=
  ∀ text parts, (text, some parts) ∈ c.named repr cwd →
    ∃ text', (text', some parts) ∈ c.named repr cwd ∧ Plain text'

theorem PlainRecorded.recorded {c : InnerCall F} {m : AccessManifest}
    (h : PlainRecorded repr cwd c m) (hnamed : PlainlyNamed repr cwd c) :
    Recorded repr cwd c m := by
  intro text parts hmem
  obtain ⟨text', hmem', hplain⟩ := hnamed text parts hmem
  exact h text' parts hmem' hplain

/-- Records one to n, and sorted sets. -/
structure Tidy (m : AccessManifest) : Prop where
  numbered : m.accessLog.map AccessEvent.sequence = List.range' 1 m.accessLog.length
  readSorted : Sorted m.readSet
  writeSorted : Sorted m.writeSet

/-- The record a call has in a manifest. -/
def InnerCall.index (c : InnerCall F) : Nat := c.durable.accessLog.length - 1

/-- The manifest has the call's record, and its files once the record is completed. -/
def Logged (c : InnerCall F) (m : AccessManifest) : Prop :=
  ∃ e, m.accessLog[c.index]? = some e ∧ e.tool = c.tool ∧
    (e.phase = "completed" → PlainRecorded repr cwd c m)

/-- The last record on disk was the call's, and it was started. -/
def InnerCall.Announced (c : InnerCall F) : Prop :=
  ∃ e, c.durable.accessLog.getLast? = some e ∧ e.tool = c.tool ∧ e.phase = "started"

/-- The later call has the later record. -/
def Before (c c' : InnerCall F) : Prop :=
  c.durable.accessLog.length < c'.durable.accessLog.length

structure Inv (w : AdapterWorld F) : Prop where
  memoryTidy : Tidy w.memory
  durableTidy : Tidy w.durable
  memoryLogged : ∀ c ∈ w.calls, Logged repr cwd c w.memory
  durableLogged : ∀ c ∈ w.calls, Logged repr cwd c w.durable
  announced : ∀ c ∈ w.calls, c.Announced
  ordered : w.calls.Pairwise Before
  rooted : throughLink w.links ⟨cwd.root, []⟩ cwd.parts = false

variable {repr cwd}

/-! ### What keeps it -/

theorem tidy_addPath {m : AccessManifest} (h : Tidy m) (value : String) (field : PathField) :
    Tidy (m.addPath value field) := by
  cases field with
  | readSet => exact ⟨h.numbered, sorted_addValue h.readSorted value, h.writeSorted⟩
  | writeSet => exact ⟨h.numbered, h.readSorted, sorted_addValue h.writeSorted value⟩

theorem paths_addPath {m : AccessManifest} {value : String} {field other : PathField}
    {path : String} (h : path ∈ m.paths other) : path ∈ (m.addPath value field).paths other := by
  cases field <;> cases other
  · exact mem_addValue.2 (.inl h)
  · exact h
  · exact h
  · exact mem_addValue.2 (.inl h)

theorem mem_addPath (m : AccessManifest) (value : String) (field : PathField) :
    value ∈ (m.addPath value field).paths field := by
  cases field
  · exact mem_addValue.2 (.inr rfl)
  · exact mem_addValue.2 (.inr rfl)

@[simp] theorem accessLog_addPath (m : AccessManifest) (value : String) (field : PathField) :
    (m.addPath value field).accessLog = m.accessLog := by
  cases field <;> rfl

theorem logged_addPath {c : InnerCall F} {m : AccessManifest} (h : Logged repr cwd c m)
    (value : String) (field : PathField) : Logged repr cwd c (m.addPath value field) := by
  obtain ⟨e, he, htool, hdone⟩ := h
  refine ⟨e, by rw [accessLog_addPath]; exact he, htool, fun hphase text parts hmem hplain => ?_⟩
  exact paths_addPath (hdone hphase text parts hmem hplain)

/-- Another manifest in memory. -/
def AdapterWorld.setMemory (w : AdapterWorld F) (m : AccessManifest) : AdapterWorld F :=
  { w with memory := m }

theorem inv_setMemory {w : AdapterWorld F} (h : Inv repr cwd w) {m : AccessManifest}
    (htidy : Tidy m) (hlogged : ∀ c ∈ w.calls, Logged repr cwd c m) :
    Inv repr cwd (w.setMemory m) :=
  ⟨htidy, h.durableTidy, hlogged, h.durableLogged, h.announced, h.ordered, h.rooted⟩

theorem inv_addPath {w : AdapterWorld F} (h : Inv repr cwd w) (value : String)
    (field : PathField) : Inv repr cwd (w.setMemory (w.memory.addPath value field)) :=
  inv_setMemory h (tidy_addPath h.memoryTidy value field)
    fun c hc => logged_addPath (h.memoryLogged c hc) value field

theorem inv_markBroad {w : AdapterWorld F} (h : Inv repr cwd w) (name : String) :
    Inv repr cwd (w.setMemory (markBroad name w.memory)) :=
  inv_setMemory h ⟨h.memoryTidy.numbered, h.memoryTidy.readSorted, h.memoryTidy.writeSorted⟩
    fun c hc => h.memoryLogged c hc

/-- A record at the end, with the next number. -/
theorem inv_appendEvent {w : AdapterWorld F} (h : Inv repr cwd w) {e : AccessEvent}
    (hsequence : e.sequence = w.memory.accessLog.length + 1) :
    Inv repr cwd (w.setMemory (appendEvent e w.memory)) := by
  refine inv_setMemory h ⟨?_, h.memoryTidy.readSorted, h.memoryTidy.writeSorted⟩ fun c hc => ?_
  · show (w.memory.accessLog ++ [e]).map _ = List.range' 1 (w.memory.accessLog ++ [e]).length
    rw [List.map_append, h.memoryTidy.numbered, List.length_append, List.length_singleton,
      List.range'_1_concat]
    simp [hsequence, Nat.add_comm]
  · obtain ⟨e', he', htool, hdone⟩ := h.memoryLogged c hc
    refine ⟨e', ?_, htool, hdone⟩
    show (w.memory.accessLog ++ [e])[c.index]? = some e'
    rw [List.getElem?_append_left (List.getElem?_eq_some_iff.1 he').1]
    exact he'

theorem map_modify_of {α β : Type} {g : α → β} {f : α → α} (hf : ∀ a, g (f a) = g a) (l : List α)
    (i : Nat) : (l.modify i f).map g = l.map g := by
  refine List.ext_getElem? fun j => ?_
  rw [List.getElem?_map, List.getElem?_map, List.getElem?_modify]
  cases l[j]? with
  | none => rfl
  | some a =>
      by_cases hij : i = j
      · simp [hij, hf]
      · simp [hij]

omit [Json.PyFloat F] in
theorem InnerCall.Announced.length_pos {c : InnerCall F} (h : c.Announced) :
    0 < c.durable.accessLog.length := by
  obtain ⟨e, he, -⟩ := h
  exact List.length_pos_of_mem (List.mem_of_getLast? he)

/-- No two calls share a record. -/
theorem eq_of_index {w : AdapterWorld F} (h : Inv repr cwd w) {c c' : InnerCall F}
    (hc : c ∈ w.calls) (hc' : c' ∈ w.calls) (hindex : c.index = c'.index) : c = c' := by
  have hnodup : (w.calls.map fun c => c.durable.accessLog.length).Nodup := by
    rw [List.nodup_iff_pairwise_ne, List.pairwise_map]
    exact h.ordered.imp fun h => ne_of_lt h
  have hpos := (h.announced c hc).length_pos
  have hpos' := (h.announced c' hc').length_pos
  refine List.inj_on_of_nodup_map hnodup hc hc' ?_
  simp only [InnerCall.index] at hindex
  omega

/-- A call's own record, and no other, is completed, when its files are there. -/
theorem inv_completed {w : AdapterWorld F} (h : Inv repr cwd w) {c : InnerCall F}
    (hc : c ∈ w.calls) (result : ToolResult F) (hrecorded : PlainRecorded repr cwd c w.memory) :
    Inv repr cwd (w.setMemory (completed c.durable.accessLog.length result w.memory)) := by
  refine inv_setMemory h ⟨?_, h.memoryTidy.readSorted, h.memoryTidy.writeSorted⟩ fun c' hc' => ?_
  · show (w.memory.accessLog.modify _ _).map _ = List.range' 1 (w.memory.accessLog.modify _ _).length
    rw [List.length_modify, map_modify_of]
    · exact h.memoryTidy.numbered
    · exact fun _ => rfl
  · obtain ⟨e, he, htool, hdone⟩ := h.memoryLogged c' hc'
    have hget : (completed c.durable.accessLog.length result w.memory).accessLog[c'.index]? =
        some (if c.index = c'.index then { e with phase := "completed", returncode := some result.returncode, blocked := some result.blocked } else e) := by
      show (w.memory.accessLog.modify _ _)[c'.index]? = _
      rw [List.getElem?_modify, he]
      show some (if c.index = c'.index then _ else e) = _
      rfl
    by_cases hsame : c.index = c'.index
    · have heq := eq_of_index h hc' hc hsame.symm
      rw [if_pos hsame] at hget
      rw [heq] at htool ⊢
      rw [heq] at hget
      exact ⟨_, hget, htool, fun _ => hrecorded⟩
    · rw [if_neg hsame] at hget
      exact ⟨e, hget, htool, hdone⟩

theorem inv_saved {w : AdapterWorld F} (h : Inv repr cwd w) :
    Inv repr cwd { w with durable := w.memory } :=
  ⟨h.memoryTidy, h.memoryTidy, h.memoryLogged, h.memoryLogged, h.announced, h.ordered, h.rooted⟩

theorem inv_unsaved {w : AdapterWorld F} (h : Inv repr cwd w) {durable' : AccessManifest}
    (hdurable : durable' = w.durable ∨ durable' = w.memory) :
    Inv repr cwd { w with durable := durable' } := by
  cases hdurable with
  | inl heq =>
      rw [heq]
      exact h
  | inr heq =>
      rw [heq]
      exact inv_saved h

theorem inv_restarted {w : AdapterWorld F} (h : Inv repr cwd w) :
    Inv repr cwd (w.setMemory w.durable) :=
  inv_setMemory h h.durableTidy h.durableLogged

/-! ## What one call does -/

/-- A program whose every effect keeps the invariant. -/
abbrev Logs {α : Type} (repr : Json F → String) (cwd : ResolvedPath)
    (P : AdapterWorld F → Prop) (p : AdapterProg F α) (M : α → AdapterWorld F → Prop) : Prop :=
  Secure (Effects cwd.toPyPath) Eq (fun _ w' => Inv repr cwd w')
    (Ends M fun _ w => Inv repr cwd w) p P

omit [Json.PyFloat F] in
theorem stable_eq (P : AdapterWorld F → Prop) : Stable Eq P := by
  intro w w' h hw
  rw [← h]
  exact hw

theorem logs_self {P : AdapterWorld F → Prop} (hP : ∀ w, P w → Inv repr cwd w) :
    Logs repr cwd P ObjProg.self (fun m w => m = w.memory ∧ P w) := by
  refine Prog.secure_call (fun _ => stable_eq _) (fun _ => stable_eq _) fun r w w' hw h => ?_
  cases h with
  | self => exact ⟨hP w hw, rfl, hw⟩

theorem logs_modify {f : AccessManifest → AccessManifest} {P M : AdapterWorld F → Prop}
    (h : ∀ w, P w → M (w.setMemory (f w.memory)))
    (hM : ∀ w, M w → Inv repr cwd w) : Logs repr cwd P (modify f) (fun _ => M) := by
  refine Prog.secure_call (fun _ => stable_eq _) (fun _ => stable_eq _) fun r w w' hw hstep => ?_
  cases hstep with
  | modify => exact ⟨hM _ (h w hw), h w hw⟩

theorem logs_timeNs {P : AdapterWorld F → Prop} (hP : ∀ w, P w → Inv repr cwd w) :
    Logs repr cwd P timeNs (fun _ => P) := by
  refine Prog.secure_call (fun _ => stable_eq _) (fun _ => stable_eq _) fun r w w' hw hstep => ?_
  cases hstep with
  | timeNs =>
      refine ⟨hP w hw, ?_⟩
      cases r with
      | ok a => exact hw
      | error e => exact hP w hw

theorem logs_save {P M : AdapterWorld F → Prop} {m : AccessManifest}
    (hP : ∀ w, P w → Inv repr cwd w)
    (hM : ∀ w, P w → M { w with durable := w.memory }) :
    Logs repr cwd (fun w => m = w.memory ∧ P w) (ObjProg.call (AdapterOp.save m))
      (fun _ => M) := by
  refine Prog.secure_call (fun _ => stable_eq _) (fun _ => stable_eq _) fun r w w' hw hstep => ?_
  obtain ⟨rfl, hw⟩ := hw
  cases hstep with
  | saved => exact ⟨inv_saved (hP w hw), hM w hw⟩
  | unsaved _ durable' e h => exact ⟨inv_unsaved (hP w hw) h, inv_unsaved (hP w hw) h⟩

theorem logs_saveManifest {P M : AdapterWorld F → Prop} (hP : ∀ w, P w → Inv repr cwd w)
    (hM : ∀ w, P w → M { w with durable := w.memory }) :
    Logs repr cwd P saveManifest (fun _ => M) :=
  Secure.bind (logs_self hP) fun _ => logs_save hP hM

/-- What the path comes to is the file the tool works on. -/
def Finds (cwd : ResolvedPath) (text : String) (found : Option PyPath) (w : AdapterWorld F) :
    Prop :=
  Plain text → ∀ parts, locate cwd.toPyPath w.links text = some parts →
    ∃ path, found = some path ∧ path.asPosix = posixText parts

theorem logs_relativePath {P : AdapterWorld F → Prop} (hP : ∀ w, P w → Inv repr cwd w)
    (text : String) :
    Logs repr cwd P (relativePath cwd.toPyPath (PyPath.ofString text))
      (fun found w => Finds cwd text found w ∧ P w) := by
  rw [relativePath]
  by_cases habs : (PyPath.ofString text).isAbsolute = true
  · rw [if_pos habs]
    refine Secure.bind (M := fun resolved w => (∀ parts, Plain text →
      locate cwd.toPyPath w.links text = some parts → resolved = .ok (PyPath.ofString text)) ∧ P w)
      (Secure.rescue (Prog.secure_call (fun _ => stable_eq _) (fun _ => stable_eq _)
        fun r w w' hw hstep => ?_)) fun resolved => ?_
    · cases hstep with
      | resolve _ _ h =>
          have hown : ∀ parts, Plain text → locate cwd.toPyPath w.links text = some parts →
              r = .ok (PyPath.ofString text) := fun parts hplain hlocate =>
            h hplain (locate_absolute hplain habs (hP w hw).rooted hlocate).2
          refine ⟨hP w hw, ?_⟩
          cases r with
          | ok path => exact ⟨hown, hw⟩
          | error e =>
              show if isValueError e then _ else _
              split
              · refine ⟨fun parts hplain hlocate => ?_, hw⟩
                cases hown parts hplain hlocate
              · exact hP w hw
    · cases resolved with
      | ok target =>
          refine Prog.secure_pure fun w hw => ⟨fun hplain parts hlocate => ?_, hw.2⟩
          cases hw.1 parts hplain hlocate
          have hrel := (locate_absolute hplain habs (hP w hw.2).rooted hlocate).1
          exact ⟨_, hrel, rfl⟩
      | error e =>
          refine Prog.secure_pure fun w hw => ⟨fun hplain parts hlocate => ?_, hw.2⟩
          cases hw.1 parts hplain hlocate
  · rw [if_neg habs]
    refine Prog.secure_pure fun w hw => ⟨fun hplain parts hlocate => ?_, hw⟩
    exact ⟨_, rfl, locate_relative hplain (Bool.eq_false_iff.2 habs) hlocate⟩

/-- Whether the sets in memory have one more path makes no difference. -/
def Insensitive (P : AdapterWorld F → Prop) : Prop :=
  ∀ w value field, P w → P (w.setMemory (w.memory.addPath value field))

/-- The file is in the set. -/
def Added (cwd : ResolvedPath) (field : PathField) (text : String) (w : AdapterWorld F) : Prop :=
  Plain text → ∀ parts, locate cwd.toPyPath w.links text = some parts →
    posixText parts ∈ w.memory.paths field

omit [Json.PyFloat F] in
theorem insensitive_added (field : PathField) (text : String) :
    Insensitive (Added (F := F) cwd field text) :=
  fun _ _ _ h hplain parts hlocate => paths_addPath (h hplain parts hlocate)

theorem logs_addPath {P : AdapterWorld F → Prop} (hP : ∀ w, P w → Inv repr cwd w)
    (hinsensitive : Insensitive P) (field : PathField) (text : String) :
    Logs repr cwd P (addPath cwd.toPyPath field text)
      (fun _ w => Added cwd field text w ∧ P w) := by
  refine Secure.bind (logs_relativePath hP text) fun found => ?_
  cases found with
  | none =>
      refine Prog.secure_pure fun w hw => ⟨fun hplain parts hlocate => ?_, hw.2⟩
      obtain ⟨path, hfound, -⟩ := hw.1 hplain parts hlocate
      cases hfound
  | some path =>
      refine logs_modify (fun w hw => ⟨fun hplain parts hlocate => ?_, hinsensitive w _ _ hw.2⟩)
        fun w hw => hP w hw.2
      obtain ⟨path', hfound, htext⟩ := hw.1 hplain parts hlocate
      cases hfound
      rw [← htext]
      exact mem_addPath _ _ _

/-- The argument's file is in the set. -/
def ArgumentAdded (repr : Json F → String) (cwd : ResolvedPath) (field : PathField)
    (args : Dict (Json F)) (w : AdapterWorld F) : Prop :=
  ∀ text, pathArg repr args = some text → Added cwd field text w

theorem logs_addArgument {P : AdapterWorld F → Prop} (hP : ∀ w, P w → Inv repr cwd w)
    (hinsensitive : Insensitive P) (tools : List String) (field : PathField) (name : String)
    (args : Dict (Json F)) :
    Logs repr cwd P (addArgument repr cwd.toPyPath tools field name args)
      (fun _ w => (name ∈ tools → ArgumentAdded repr cwd field args w) ∧ P w) := by
  rw [addArgument]
  cases harg : pathArg repr args with
  | none =>
      refine Prog.secure_pure fun w hw => ⟨fun _ text htext => ?_, hw⟩
      rw [harg] at htext
      cases htext
  | some text =>
      show Logs repr cwd P (if name ∈ tools then _ else _) _
      by_cases hname : name ∈ tools
      · rw [if_pos hname]
        refine (logs_addPath hP hinsensitive field text).mono fun r w h => ?_
        cases r with
        | error e => exact h
        | ok u =>
            refine ⟨fun _ text' htext' => ?_, h.2⟩
            rw [harg] at htext'
            cases htext'
            exact h.1
      · rw [if_neg hname]
        exact Prog.secure_pure fun w hw => ⟨fun h => absurd h hname, hw⟩

/-! ### Before the tool -/

/-- The next record's number. -/
def Fresh (repr : Json F → String) (cwd : ResolvedPath) (sequence : Nat) (w : AdapterWorld F) :
    Prop := Inv repr cwd w ∧ w.memory.accessLog.length + 1 = sequence

theorem insensitive_fresh (sequence : Nat) : Insensitive (Fresh repr cwd sequence) := by
  intro w value field h
  refine ⟨inv_addPath h.1 value field, ?_⟩
  show (w.memory.addPath value field).accessLog.length + 1 = sequence
  rw [accessLog_addPath]
  exact h.2

/-- The argument's file is in the set of its tool. -/
def ArgumentRecorded (repr : Json F → String) (cwd : ResolvedPath) (name : String)
    (args : Dict (Json F)) (links : PyPath → Bool) (m : AccessManifest) : Prop :=
  name ∈ readTools ++ writeTools → ∀ text parts, pathArg repr args = some text → Plain text →
    locate cwd.toPyPath links text = some parts → posixText parts ∈ m.paths (fieldOf name)

/-- The call's record is the last one in memory. -/
structure Appended (repr : Json F → String) (cwd : ResolvedPath) (name : String)
    (args : Dict (Json F)) (sequence : Nat) (w : AdapterWorld F) : Prop where
  inv : Inv repr cwd w
  length : w.memory.accessLog.length = sequence
  last : ∃ e, w.memory.accessLog.getLast? = some e ∧ e.tool = name ∧ e.phase = "started"
  earlier : ∀ c ∈ w.calls, c.durable.accessLog.length < sequence
  argument : ArgumentRecorded repr cwd name args w.links w.memory

/-- So it is on disk. -/
structure Begun (repr : Json F → String) (cwd : ResolvedPath) (name : String)
    (args : Dict (Json F)) (sequence : Nat) (w : AdapterWorld F) : Prop
    extends Appended repr cwd name args sequence w where
  saved : w.durable = w.memory

theorem length_of_logged {c : InnerCall F} {m : AccessManifest} (h : Logged repr cwd c m)
    (hpos : 0 < c.durable.accessLog.length) :
    c.durable.accessLog.length ≤ m.accessLog.length := by
  obtain ⟨e, he, -⟩ := h
  have hlt := (List.getElem?_eq_some_iff.1 he).1
  simp only [InnerCall.index] at hlt
  omega

theorem argumentRecorded_of_added {name : String} {args : Dict (Json F)} {w : AdapterWorld F}
    (hwrite : name ∈ writeTools → ArgumentAdded repr cwd .writeSet args w)
    (hread : name ∈ readTools → ArgumentAdded repr cwd .readSet args w) :
    ArgumentRecorded repr cwd name args w.links w.memory := by
  intro hname text parts htext hplain hlocate
  rw [fieldOf]
  by_cases hw : name ∈ writeTools
  · rw [if_pos hw]
    exact hwrite hw text htext hplain parts hlocate
  · rw [if_neg hw]
    have hr := (List.mem_append.1 hname).resolve_right hw
    exact hread hr text htext hplain parts hlocate

theorem appended_appendEvent {name : String} {args : Dict (Json F)} {sequence : Nat} {atNs : Int}
    {w : AdapterWorld F} (h : Fresh repr cwd sequence w)
    (hargument : ArgumentRecorded repr cwd name args w.links w.memory) :
    Appended repr cwd name args sequence
      (w.setMemory (appendEvent ⟨sequence, name, "started", atNs, none, none⟩ w.memory)) where
  inv := inv_appendEvent h.1 h.2.symm
  length := by
    show (w.memory.accessLog ++ [_]).length = sequence
    rw [List.length_append, List.length_singleton]
    exact h.2
  last := ⟨_, List.getLast?_concat, rfl, rfl⟩
  earlier c hc := by
    have hle := length_of_logged (h.1.memoryLogged c hc) (h.1.announced c hc).length_pos
    have hseq := h.2
    omega
  argument := hargument

theorem logs_beginCall (name : String) (args : Dict (Json F)) :
    Logs repr cwd (Inv repr cwd) (beginCall repr cwd.toPyPath name args)
      (fun sequence => Begun repr cwd name args sequence) := by
  refine Secure.bind (logs_self fun w hw => hw) fun m => ?_
  have hfresh : ∀ w : AdapterWorld F, m = w.memory ∧ Inv repr cwd w →
      Fresh repr cwd (m.accessLog.length + 1) w := fun w hw => ⟨hw.2, by rw [hw.1]⟩
  refine Secure.bind ((logs_timeNs fun w hw => hw.1).weaken hfresh) fun atNs => ?_
  refine Secure.bind (logs_modify (M := Fresh repr cwd (m.accessLog.length + 1))
    (fun w hw => ⟨inv_markBroad hw.1 name, hw.2⟩) fun w hw => hw.1) fun _ => ?_
  refine Secure.bind (logs_addArgument (fun w hw => hw.1) (insensitive_fresh _) _ _ _ _)
    fun _ => ?_
  refine Secure.bind (logs_addArgument (fun w hw => hw.2.1)
    (fun w value field hw => ⟨fun hname text htext => insensitive_added _ _ w value field
      (hw.1 hname text htext), insensitive_fresh _ w value field hw.2⟩) _ _ _ _) fun _ => ?_
  refine Secure.bind (logs_modify (M := Appended repr cwd name args (m.accessLog.length + 1))
    (fun w hw => appended_appendEvent hw.2.2 (argumentRecorded_of_added hw.1 hw.2.1))
    fun w hw => hw.inv) fun _ => ?_
  refine Secure.bind (logs_saveManifest (M := Begun repr cwd name args (m.accessLog.length + 1))
    (fun w hw => hw.inv) fun w hw => ?_) fun _ => Prog.secure_pure fun w hw => hw
  exact ⟨⟨inv_saved hw.inv, hw.length, hw.last, hw.earlier, hw.argument⟩, rfl⟩

/-! ### The tool, and after it -/

/-- The tool has returned, and nothing else has changed. -/
def Returned (repr : Json F → String) (cwd : ResolvedPath) (name : String) (args : Dict (Json F))
    (sequence : Nat) (result : ToolResult F) (w : AdapterWorld F) : Prop :=
  Inv repr cwd w ∧ ∃ c ∈ w.calls, c.tool = name ∧ c.args = args ∧ c.outcome = .ok result ∧
    c.durable.accessLog.length = sequence ∧ c.linksAfter = w.links ∧
    ArgumentRecorded repr cwd name args c.links w.memory

/-- The call now belongs to those the tool was given. -/
theorem inv_inner {name : String} {args : Dict (Json F)} {sequence : Nat} {w : AdapterWorld F}
    (h : Begun repr cwd name args sequence w) (r : Except PyExc (ToolResult F))
    {links' : PyPath → Bool} (hroot : throughLink links' ⟨cwd.root, []⟩ cwd.parts = false) :
    Inv repr cwd { w with
      links := links'
      calls := w.calls ++ [⟨name, args, w.durable, w.links, links', r⟩] } := by
  obtain ⟨e, he, htool, hphase⟩ := h.last
  have hnew : Logged repr cwd (⟨name, args, w.durable, w.links, links', r⟩ : InnerCall F)
      w.memory := by
    refine ⟨e, ?_, htool, fun hdone => ?_⟩
    · rw [List.getLast?_eq_getElem?] at he
      show w.memory.accessLog[w.durable.accessLog.length - 1]? = some e
      rw [h.saved]
      exact he
    · rw [hphase] at hdone
      exact absurd hdone (by decide)
  have hlogged : ∀ c ∈ w.calls ++ [⟨name, args, w.durable, w.links, links', r⟩],
      Logged repr cwd c w.memory := by
    intro c hc
    cases List.mem_append.1 hc with
    | inl hold => exact h.inv.memoryLogged c hold
    | inr hlast =>
        rw [List.mem_singleton.1 hlast]
        exact hnew
  refine ⟨h.inv.memoryTidy, h.inv.durableTidy, hlogged, ?_, ?_, ?_, hroot⟩
  · show ∀ c ∈ _, Logged repr cwd c w.durable
    rw [h.saved]
    exact h.saved ▸ hlogged
  · intro c hc
    cases List.mem_append.1 hc with
    | inl hold => exact h.inv.announced c hold
    | inr hlast =>
        rw [List.mem_singleton.1 hlast]
        refine ⟨e, ?_, htool, hphase⟩
        show w.durable.accessLog.getLast? = some e
        rw [h.saved]
        exact he
  · refine List.pairwise_append.2 ⟨h.inv.ordered, List.pairwise_singleton _ _, fun c hc c' hc' => ?_⟩
    rw [List.mem_singleton.1 hc']
    have hlt := h.earlier c hc
    show c.durable.accessLog.length < w.durable.accessLog.length
    rw [h.saved, h.length]
    exact hlt

theorem logs_inner (name : String) (args : Dict (Json F)) (sequence : Nat) :
    Logs repr cwd (Begun repr cwd name args sequence) (inner name args)
      (fun result => Returned repr cwd name args sequence result) := by
  refine Prog.secure_call (fun _ => stable_eq _) (fun _ => stable_eq _) fun r w w' hw hstep => ?_
  cases hstep with
  | inner _ _ r links' hroot =>
      have hinv := inv_inner hw r hroot
      refine ⟨hinv, ?_⟩
      cases r with
      | error e => exact hinv
      | ok result =>
          refine ⟨hinv, _, List.mem_append_right _ (List.mem_singleton_self _), rfl, rfl, rfl, ?_,
            rfl, hw.argument⟩
          show w.durable.accessLog.length = sequence
          rw [hw.saved, hw.length]

theorem insensitive_returned {name : String} {args : Dict (Json F)} {sequence : Nat}
    {result : ToolResult F} : Insensitive (Returned repr cwd name args sequence result) := by
  intro w value field h
  obtain ⟨hinv, c, hc, htool, hargs, houtcome, hlength, hlinks, hargument⟩ := h
  refine ⟨inv_addPath hinv value field, c, hc, htool, hargs, houtcome, hlength, hlinks, ?_⟩
  intro hname text parts htext hplain hlocate
  exact paths_addPath (hargument hname text parts htext hplain hlocate)

/-- The file the tool says it worked on is in its set. -/
def ResultAdded (cwd : ResolvedPath) (name : String) (result : ToolResult F)
    (w : AdapterWorld F) : Prop :=
  result.filePath ≠ "" → name ∈ readTools ++ writeTools →
    Added cwd (fieldOf name) result.filePath w

theorem logs_addResult (name : String) (args : Dict (Json F)) (sequence : Nat)
    (result : ToolResult F) :
    Logs repr cwd (Returned repr cwd name args sequence result)
      (addResult cwd.toPyPath name result)
      (fun _ w => ResultAdded cwd name result w ∧ Returned repr cwd name args sequence result w) := by
  rw [addResult]
  by_cases h : result.filePath ≠ "" ∧ name ∈ readTools ++ writeTools
  · rw [if_pos h]
    refine (logs_addPath (fun w hw => hw.1) insensitive_returned _ _).mono fun r w hr => ?_
    cases r with
    | error e => exact hr
    | ok u => exact ⟨fun _ _ => hr.1, hr.2⟩
  · rw [if_neg h]
    exact Prog.secure_pure fun w hw => ⟨fun hne hname => absurd ⟨hne, hname⟩ h, hw⟩

theorem plainRecorded_of_added {c : InnerCall F} {result : ToolResult F} {w : AdapterWorld F}
    (houtcome : c.outcome = .ok result) (hlinks : c.linksAfter = w.links)
    (hargument : ArgumentRecorded repr cwd c.tool c.args c.links w.memory)
    (hresult : ResultAdded cwd c.tool result w) : PlainRecorded repr cwd c w.memory := by
  intro text parts hmem hplain
  rw [InnerCall.named] at hmem
  by_cases hname : c.tool ∈ readTools ++ writeTools
  · rw [if_pos hname, houtcome] at hmem
    cases List.mem_append.1 hmem with
    | inl harg =>
        obtain ⟨text', htext', heq⟩ := List.mem_map.1 harg
        obtain ⟨rfl, hlocate⟩ := Prod.mk.inj heq
        exact hargument hname text' parts (Option.mem_toList.1 htext') hplain hlocate
    | inr hfile =>
        simp only at hfile
        by_cases hne : result.filePath ≠ ""
        · rw [if_pos hne, List.mem_singleton] at hfile
          obtain ⟨rfl, hlocate⟩ := Prod.mk.inj hfile
          rw [hlinks] at hlocate
          exact hresult hne hname hplain parts hlocate.symm
        · rw [if_neg hne] at hfile
          cases hfile
  · rw [if_neg hname] at hmem
    cases hmem

theorem logs_endCall (name : String) (args : Dict (Json F)) (sequence : Nat)
    (result : ToolResult F) :
    Logs repr cwd (Returned repr cwd name args sequence result)
      (endCall cwd.toPyPath name sequence result) (fun _ => Inv repr cwd) := by
  refine Secure.bind (logs_addResult name args sequence result) fun _ => ?_
  refine Secure.bind (logs_modify (M := Inv repr cwd) (fun w hw => ?_) fun w hw => hw) fun _ =>
    logs_saveManifest (fun w hw => hw) fun w hw => inv_saved hw
  obtain ⟨hresult, hinv, c, hc, rfl, rfl, houtcome, rfl, hlinks, hargument⟩ := hw
  exact inv_completed hinv hc result (plainRecorded_of_added houtcome hlinks hargument hresult)

theorem logs_executeTool (name : String) (args : Dict (Json F)) :
    Logs repr cwd (Inv repr cwd) (executeTool repr cwd.toPyPath name args)
      (fun _ => Inv repr cwd) := by
  refine Secure.bind (logs_beginCall name args) fun sequence => ?_
  refine Secure.bind (logs_inner name args sequence) fun result => ?_
  exact Secure.bind (logs_endCall name args sequence result) fun _ =>
    Prog.secure_pure fun w hw => hw

/-! ## Any number of calls and processes -/

theorem inv_start {links : PyPath → Bool}
    (hroot : throughLink links ⟨cwd.root, []⟩ cwd.parts = false) :
    Inv repr cwd (AdapterWorld.start (F := F) links) where
  memoryTidy := ⟨rfl, List.Pairwise.nil, List.Pairwise.nil⟩
  durableTidy := ⟨rfl, List.Pairwise.nil, List.Pairwise.nil⟩
  memoryLogged _ h := by cases h
  durableLogged _ h := by cases h
  announced _ h := by cases h
  ordered := List.Pairwise.nil
  rooted := hroot

theorem inv_session {w w' : AdapterWorld F} (h : Session repr cwd.toPyPath w w')
    (hw : Inv repr cwd w) : Inv repr cwd w' := by
  cases h with
  | @call _ name args r hrun =>
      have hend := (logs_executeTool name args).ends hw hrun
      cases r with
      | ok result => exact hend
      | error e => exact hend
  | @crash w' name args hrun =>
      have hkept := (logs_executeTool name args).during hw hrun
      refine inv_restarted ?_
      cases Relation.ReflTransGen.cases_tail hkept with
      | inl heq =>
          rw [heq]
          exact hw
      | inr h =>
          obtain ⟨_, -, hinv⟩ := h
          exact hinv
  | restart => exact inv_restarted hw

theorem inv_sessions {w w' : AdapterWorld F} (h : Sessions repr cwd.toPyPath w w')
    (hw : Inv repr cwd w) : Inv repr cwd w' := by
  induction h with
  | refl => exact hw
  | tail _ hsession ih => exact inv_session hsession ih

/-- What a durable manifest tells of the calls there have been. -/
theorem access_log_complete {links : PyPath → Bool} {w : AdapterWorld F}
    (hroot : throughLink links ⟨cwd.root, []⟩ cwd.parts = false)
    (h : Sessions repr cwd.toPyPath (.start links) w) :
    (∀ c ∈ w.calls, c.Announced) ∧ w.calls.Pairwise Before ∧
    w.durable.accessLog.map AccessEvent.sequence = List.range' 1 w.durable.accessLog.length ∧
    Sorted w.durable.readSet ∧ Sorted w.durable.writeSet ∧
    ∀ c ∈ w.calls, ∃ e, w.durable.accessLog[c.index]? = some e ∧ e.tool = c.tool ∧
      (e.phase = "completed" → PlainlyNamed repr cwd c → Recorded repr cwd c w.durable) := by
  have hinv := inv_sessions h (inv_start hroot)
  refine ⟨hinv.announced, hinv.ordered, hinv.durableTidy.numbered, hinv.durableTidy.readSorted,
    hinv.durableTidy.writeSorted, fun c hc => ?_⟩
  obtain ⟨e, he, htool, hdone⟩ := hinv.durableLogged c hc
  exact ⟨e, he, htool, fun hphase hnamed => (hdone hphase).recorded repr cwd hnamed⟩

end Invariant

/-! ### One call -/

/-- A machine without links, where nothing goes wrong. -/
def answerCall : (o : ObjOp (AdapterOp Unit) AccessManifest) → AdapterWorld Unit →
    Except PyExc (o.Res AdapterOp.Res) × AdapterWorld Unit
  | .self, w => (.ok w.memory, w)
  | .modify f, w => (.ok (), { w with memory := f w.memory })
  | .call .timeNs, w => (.ok (0 : Int), w)
  | .call (.resolve path), w => (.ok path, w)
  | .call (.save manifest), w => (.ok (), { w with durable := manifest })
  | .call (.inner name args), w =>
    let result : ToolResult Unit := { tool := name, output := "", returncode := 0, durationMs := 0 }
    (.ok result, { w with
      links := fun _ => false
      calls := w.calls ++ [⟨name, args, w.durable, w.links, fun _ => false, .ok result⟩] })

def sampleCwd : ResolvedPath where
  root := "/"
  parts := ["w"]
  absolute := rfl
  plain := by decide

theorem effects_answerCall {w w' : AdapterWorld Unit}
    {e : ObjEvent (AdapterOp Unit) AdapterOp.Res PyExc AccessManifest}
    (h : Prog.Answers answerCall w e w') : Effects sampleCwd.toPyPath w e w' := by
  obtain ⟨o, r⟩ := e
  cases o with
  | self =>
      cases h
      exact .self w
  | modify f =>
      cases h
      exact .modify w f
  | call o =>
      cases o with
      | timeNs =>
          cases h
          exact .timeNs w _
      | resolve path =>
          cases h
          exact .resolve w path _ fun _ _ => rfl
      | save manifest =>
          cases h
          exact .saved w manifest
      | inner name args =>
          cases h
          exact .inner w name args _ _ rfl

/-- A file read by a path, on that machine. -/
def readOne (path : String) : Except PyExc (ToolResult Unit) × AdapterWorld Unit :=
  Prog.exec answerCall (executeTool (fun _ => "") sampleCwd.toPyPath "read_file"
    [("path", .str path)]) (.start fun _ => false)

theorem sessions_readOne (path : String) :
    Sessions (fun _ => "") sampleCwd.toPyPath (.start fun _ => false) (readOne path).2 :=
  .single (.call "read_file" [("path", .str path)]
    (((Prog.run_answers _).2 rfl : Prog.Run (Prog.Answers answerCall) _ _ (readOne path).1
      (readOne path).2).mono fun _ _ _ => effects_answerCall))

theorem access_log_complete_sample :
    (readOne "app.py").2.calls.length = 1 ∧ (readOne "app.py").2.durable.readSet = ["app.py"] ∧
    ∀ c ∈ (readOne "app.py").2.calls, ∃ e, (readOne "app.py").2.durable.accessLog[c.index]? = some e ∧
      e.tool = c.tool ∧ (e.phase = "completed" → PlainlyNamed (fun _ => "") sampleCwd c →
        Recorded (fun _ => "") sampleCwd c (readOne "app.py").2.durable) :=
  ⟨by decide +kernel, by decide +kernel,
    (access_log_complete rfl (sessions_readOne "app.py")).2.2.2.2.2⟩

/-- The path is written down with the `..` that is in it. -/
theorem access_log_incomplete :
    ∃ w : AdapterWorld Unit, Sessions (fun _ => "") sampleCwd.toPyPath (.start fun _ => false) w ∧
      ∃ c ∈ w.calls, (∃ e, w.durable.accessLog[c.index]? = some e ∧ e.phase = "completed") ∧
        ("sub/../app.py", some ["app.py"]) ∈ c.named (fun _ => "") sampleCwd ∧
        "app.py" ∉ w.durable.readSet ++ w.durable.writeSet :=
  ⟨(readOne "sub/../app.py").2, sessions_readOne _, _, List.mem_singleton_self _,
    ⟨_, rfl, rfl⟩, List.mem_singleton_self _, by decide +kernel⟩

end TransactionAdapter

end MiniCodeAgent
