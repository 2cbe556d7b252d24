import MiniCodeAgent.Proofs.ChatFrames
import MiniCodeAgent.Proofs.ChatResume
import MiniCodeAgent.Proofs.GateSafety

/-!
# A chat's verified flag

The gate outlives the turns of a session, so what it holds as verified has to be
right at every point a turn can stop at: minted by a `run_tests` call of this
process that passed, with no failing one since. `MintedGate` says so, and every
piece of a turn keeps it but one. Between the answer of a test run and the
assignment that records it the gate does not know of the run, and stopped there it
never will. That is what the result excludes; an exception there is caught and
clears the gate.

A flag is taken from the gate's status right behind a capture, and what is done to
the session before the turn returns neither captures nor tests.
-/

namespace MiniCodeAgent

open Prog ObjProg

variable {F : Type}

/-! ## What a history says -/

def Uninterrupted {α : Type} (r : Except PyExc α) : Prop :=
  ∀ exc, r = .error exc → exc.isException = true

/-- A `run_tests` call the executor has answered. -/
def TestAnswered (e : ChatEvent F) : Prop :=
  ∃ args r, e = ⟨.executor (.executeTool "run_tests" args), r⟩ ∧ Uninterrupted r

/-- What the batch makes of the answer. -/
def testAnswer : Except PyExc (ToolResult F) → ToolResult F
  | .ok result => refuseLegacySubmission "run_tests" result
  | .error exc => toolExceptionResult "run_tests" exc.type exc.describe

/-- The call returned 0, also by what was captured behind it. -/
def Passes (r : Except PyExc (ToolResult F)) (fingerprint : String) : Prop :=
  (checkHandoff (testAnswer r) fingerprint).returncode = 0

/-- An event, with what comes behind it: a `run_tests` call that failed or was
blocked, by its answer or by the capture. -/
def FailedTest (e : ChatEvent F) (after : List (ChatEvent F)) : Prop :=
  ∃ args r, e = ⟨.executor (.executeTool "run_tests" args), r⟩ ∧ Uninterrupted r ∧
    ((testAnswer r).returncode ≠ 0 ∨
      ∃ ignored c rest, after = ⟨.executor (.captureWorkspaceFingerprint ignored), c⟩ :: rest ∧
        Uninterrupted c ∧ ∀ fingerprint, c = .ok fingerprint → ¬ Passes r fingerprint)

/-- The fingerprint was captured right behind a `run_tests` call that returned 0,
and no such call has failed since. -/
def Minted (h : List (ChatEvent F)) (fingerprint : String) : Prop :=
  ∃ before args r ignored since,
    h = before ++ ⟨.executor (.executeTool "run_tests" args), r⟩ ::
      ⟨.executor (.captureWorkspaceFingerprint ignored), .ok fingerprint⟩ :: since ∧
    Passes r fingerprint ∧ ∀ b e a, since = b ++ e :: a → ¬ FailedTest e a

theorem Minted.concat {h : List (ChatEvent F)} {fingerprint : String} (hm : Minted h fingerprint)
    (hrest : NotLast TestAnswered h) {e : ChatEvent F} (he : ¬ TestAnswered e) :
    Minted (h ++ [e]) fingerprint := by
  obtain ⟨before, args, r, ignored, since, rfl, hpassed, hsince⟩ := hm
  refine ⟨before, args, r, ignored, since ++ [e], by simp, hpassed, fun b x a heq => ?_⟩
  rintro ⟨args', r', rfl, hanswered, hfails⟩
  rcases concat_eq_append_cons heq with ⟨-, rfl, -⟩ | ⟨a', rfl, hx⟩
  · exact he ⟨args', r', rfl, hanswered⟩
  · rcases hfails with hcode | ⟨ignored', c, rest, hafter, hc, hpasses⟩
    · exact hsince b _ a' hx ⟨args', r', rfl, hanswered, Or.inl hcode⟩
    · cases a' with
      | nil =>
          -- the run is the last event, and `e` would be its capture
          refine hrest (before ++ ⟨.executor (.executeTool "run_tests" args), r⟩ ::
            ⟨.executor (.captureWorkspaceFingerprint ignored), .ok fingerprint⟩ :: b) _ ?_
            ⟨args', r', rfl, hanswered⟩
          rw [hx]
          simp
      | cons x' a' =>
          rw [List.cons_append] at hafter
          injection hafter with hx' _
          refine hsince b _ _ hx ⟨args', r', rfl, hanswered, Or.inr ⟨ignored', c, a', ?_, hc,
            hpasses⟩⟩
          rw [hx']

def Captures (e : ChatEvent F) : Prop :=
  ∃ ignored fingerprint,
    e = ⟨.executor (.captureWorkspaceFingerprint ignored), .ok fingerprint⟩

/-- The last fingerprint captured behind the first history. -/
def LastCaptured (h₀ h : List (ChatEvent F)) (fingerprint : String) : Prop :=
  ∃ between ignored since,
    h = h₀ ++ between ++
      ⟨.executor (.captureWorkspaceFingerprint ignored), .ok fingerprint⟩ :: since ∧
    ∀ e ∈ since, ¬ Captures e

theorem not_captures {e : ChatEvent F}
    (he : ∀ ignored, e.op ≠ .executor (.captureWorkspaceFingerprint ignored)) :
    ¬ Captures e := by
  rintro ⟨ignored, fingerprint, rfl⟩
  exact he ignored rfl

theorem LastCaptured.concat {h₀ h : List (ChatEvent F)} {fingerprint : String}
    (hl : LastCaptured h₀ h fingerprint) {e : ChatEvent F} (he : ¬ Captures e) :
    LastCaptured h₀ (h ++ [e]) fingerprint := by
  obtain ⟨between, ignored, since, rfl, hsince⟩ := hl
  refine ⟨between, ignored, since ++ [e], by simp, fun e' he' => ?_⟩
  rcases List.mem_append.1 he' with he' | he'
  · exact hsince e' he'
  · rw [List.mem_singleton.1 he']
    exact he

theorem lastCaptured_here {h₀ h : List (ChatEvent F)} (hpre : h₀ <+: h) (ignored : List String)
    (fingerprint : String) :
    LastCaptured h₀
      (h ++ [⟨.executor (.captureWorkspaceFingerprint ignored), .ok fingerprint⟩])
      fingerprint := by
  obtain ⟨between, rfl⟩ := hpre
  exact ⟨between, ignored, [], rfl, by simp⟩

/-! ## The condition, and the states it is about -/

/-- A test run has been answered, and the gate has not been told. -/
def Unrecorded (w : ChatWorld F) : Prop :=
  ∃ before run, TestAnswered run ∧ (w.history = before ++ [run] ∨
    ∃ capture, w.history = before ++ [run, capture] ∧ w.pending ≠ [])

/-- No interruption strikes while a test run is not recorded yet. -/
def Recorded (w : ChatWorld F) (e : ObjEvent (ChatOp F) ChatOp.Res PyExc (Chat F)) : Prop :=
  Unrecorded w → Uninterrupted e.res

def recordedTests : ChatConditions F where
  admits := Recorded
  resumes _ _ := True
  fingerprint _ := True

def MintedGate (w : ChatWorld F) : Prop :=
  w.self.gate.verifiedFingerprint ≠ "" → Minted w.history w.self.gate.verifiedFingerprint

/-- Some way into a turn that found the first history. -/
structure Since (h₀ : List (ChatEvent F)) (w : ChatWorld F) : Prop where
  minted : MintedGate w
  rested : NotLast TestAnswered w.history
  behind : h₀ <+: w.history

/-- The gate's status speaks of the workspace captured last. -/
def Decided (h₀ : List (ChatEvent F)) (w : ChatWorld F) : Prop :=
  ∃ fingerprint, LastCaptured h₀ w.history fingerprint ∧
    (w.self.gate.status = .passed →
      w.self.gate.verifiedFingerprint = fingerprint ∧ fingerprint ≠ "")

/-- What a verified flag claims. -/
def Certified (h₀ h : List (ChatEvent F)) : Prop :=
  ∃ fingerprint, LastCaptured h₀ h fingerprint ∧ Minted h fingerprint

theorem Decided.certified {h₀ : List (ChatEvent F)} {w : ChatWorld F} (h : Decided h₀ w)
    (hgate : MintedGate w) (hpassed : w.self.gate.status = .passed) :
    Certified h₀ w.history := by
  obtain ⟨fingerprint, hlast, hverified⟩ := h
  obtain ⟨rfl, hne⟩ := hverified hpassed
  exact ⟨_, hlast, hgate hne⟩

/-- A gate passes the workspace it verified and no other. -/
theorem sync_passed {g : VerificationGate} {fingerprint : String}
    (h : (g.sync fingerprint).status = .passed) :
    g.verifiedFingerprint = fingerprint ∧ fingerprint ≠ "" := by
  unfold VerificationGate.sync at h
  dsimp only at h
  split at h
  · next hfailed =>
      rw [hfailed] at h
      cases h
  · split at h
    · next hverified => exact ⟨hverified.2.symm, by rw [hverified.2]; exact hverified.1⟩
    · split at h <;> cases h

/-! ## One effect, one assignment -/

section Steps

variable {h₀ : List (ChatEvent F)}

theorem Since.called {w : ChatWorld F} (hw : Since h₀ w) {e : ChatEvent F}
    (he : ¬ TestAnswered e) : Since h₀ (w.called e) where
  minted hne := (hw.minted hne).concat hw.rested he
  rested := NotLast.concat w.history he
  behind := hw.behind.trans (List.prefix_append _ _)

theorem not_testAnswered {e : ChatEvent F}
    (he : ∀ args, e.op ≠ .executor (.executeTool "run_tests" args)) : ¬ TestAnswered e := by
  rintro ⟨args, r, rfl, -⟩
  exact he args rfl

theorem since_call (o : ChatOp F) (ho : ∀ args, o ≠ .executor (.executeTool "run_tests" args)) :
    Triple (Acts interrupts Recorded) (Since h₀) (call o) (fun _ => Since h₀)
      (fun _ => Since h₀) := by
  refine ObjProg.triple_call fun w r hw hadm => ?_
  have hnext := hw.called (e := ⟨o, r⟩) (not_testAnswered ho)
  cases r <;> exact hnext

theorem since_modify {f : Chat F → Chat F}
    (hf : ∀ s, (f s).gate.verifiedFingerprint = s.gate.verifiedFingerprint ∨
      (f s).gate.verifiedFingerprint = "") :
    Triple (Acts interrupts Recorded) (Since h₀) (modify f) (fun _ => Since h₀)
      (fun _ => Since h₀) := by
  refine ObjProg.triple_modify ?_ fun _ _ hw _ _ => hw
  intro w hw
  refine ⟨fun hne => ?_, hw.rested, hw.behind⟩
  rw [ObjWorld.modified_self] at hne ⊢
  rcases hf w.self with hsame | hempty
  · rw [hsame] at hne ⊢
    exact hw.minted hne
  · exact absurd hempty hne

/-- A capture, and the gate brought up to it. -/
theorem since_capture (ignored : List String) :
    Triple (Acts interrupts Recorded) (Since h₀)
      (Chat.captureWorkspaceFingerprint ignored)
      (fun fingerprint w => LastCaptured h₀ w.history fingerprint ∧ Since h₀ w)
      (fun _ => Since h₀) := by
  refine ObjProg.triple_call fun w r hw _ => ?_
  have hnext : Since h₀ (w.called ⟨.executor (.captureWorkspaceFingerprint ignored), r⟩) :=
    hw.called (not_testAnswered fun _ h => by simp at h)
  cases r with
  | ok fingerprint => exact ⟨lastCaptured_here hw.behind ignored fingerprint, hnext⟩
  | error exc => exact hnext

theorem decided_sync {f : VerificationGate → VerificationGate} {fingerprint : String}
    (hf : ∀ g, f g = g.sync fingerprint) :
    Triple (Acts interrupts Recorded)
      (fun w => LastCaptured h₀ w.history fingerprint ∧ Since h₀ w)
      (Chat.updateGate (F := F) f) (fun _ w => Decided h₀ w ∧ Since h₀ w)
      (fun _ => Since h₀) := by
  refine ObjProg.triple_modify ?_ fun _ _ hw _ _ => hw.2
  intro w hw
  simp only [hf]
  refine ⟨⟨fingerprint, hw.1, fun hpassed => ?_⟩, fun hne => ?_, hw.2.rested, hw.2.behind⟩
  · rw [ObjWorld.modified_self, VerificationGate.sync_verifiedFingerprint]
    exact sync_passed hpassed
  · rw [ObjWorld.modified_self, VerificationGate.sync_verifiedFingerprint] at hne ⊢
    exact hw.2.minted hne

theorem since_guarded {α : Type} {p : ChatProg F α} {Q : α → ChatWorld F → Prop}
    (h : Triple (Acts interrupts Recorded) (Since h₀) p Q (fun _ => Since h₀)) :
    Triple (Acts interrupts Recorded) (Since h₀) (Chat.guarded p)
      (Ends Q fun _ => Since h₀) (fun _ => Since h₀) := by
  refine h.rescue.weaken (fun _ hw => hw) ?_ fun _ _ hw => hw.2
  intro r w hw
  cases r with
  | ok a => exact hw
  | error exc => exact hw.2

theorem since_captureFailed : Triple (Acts interrupts Recorded) (Since h₀)
    (Chat.updateGate (F := F) VerificationGate.captureFailed) (fun _ => Since h₀)
    (fun _ => Since h₀) := since_modify fun _ => Or.inr rfl

/-! ## What a batch returns -/

theorem yields_runTool (ignored : List String) (call : NormalizedCall F) :
    Yields (fun result => result.submitted = false) (Chat.runTool ignored call) := by
  refine (yields_true _).bind fun r _ => ?_
  cases r with
  | ok result => exact refuseLegacySubmission_submitted call.name result
  | error exc => exact rfl

theorem yields_recordEdit (call : NormalizedCall F) {result : ToolResult F}
    (h : result.submitted = false) :
    Yields (fun result => result.submitted = false)
      (Chat.recordEdit (some Chat.recordUndo) call result) := by
  unfold Chat.recordEdit
  dsimp only
  split
  · refine (yields_true _).bind fun r _ => ?_
    cases r with
    | ok => exact h
    | error exc => exact rfl
  · exact h

theorem yields_settleCall (name : String) {result : ToolResult F} (h : result.submitted = false)
    (fingerprint : String) :
    Yields (fun result => result.submitted = false)
      (Chat.settleCall name result fingerprint) := by
  unfold Chat.settleCall
  split
  · refine (yields_true _).bind fun _ _ => ?_
    show (checkHandoff result fingerprint).submitted = false
    rw [checkHandoff_submitted, h]
  · exact (yields_true _).bind fun _ _ => h

theorem yields_executeCall (ignored : List String) (call : NormalizedCall F)
    (fingerprint : String) :
    Yields (fun x => x.1.submitted = false)
      (Chat.executeCall ignored (some Chat.recordUndo) call fingerprint) := by
  refine (yields_runTool ignored call).bind fun result hresult => ?_
  refine (yields_recordEdit call hresult).bind fun result hresult => ?_
  refine (yields_true _).bind fun _ _ => ?_
  split
  · refine (yields_true _).bind fun r _ => ?_
    cases r with
    | ok fingerprint =>
        exact (yields_settleCall call.name hresult fingerprint).bind fun _ h => h
    | error exc => exact (yields_true _).bind fun _ _ => rfl
  · exact (yields_settleCall call.name hresult fingerprint).bind fun _ h => h

theorem yields_executeCalls (ignored : List String) (initialCaptureError : String)
    (calls : List (NormalizedCall F)) (fingerprint : String) :
    Yields (LoopResults calls) (Chat.executeCalls ignored (some Chat.recordUndo)
      initialCaptureError calls fingerprint) := by
  induction calls generalizing fingerprint with
  | nil => exact LoopResults.nil
  | cons call calls ih =>
      rw [Chat.executeCalls]
      split
      · next hname => exact (ih fingerprint).bind fun _ h => h.submission hname
      · split
        · exact (ih fingerprint).bind fun _ h => h.result rfl
        · refine (yields_executeCall ignored call fingerprint).bind fun x hx => ?_
          exact (ih x.2).bind fun _ h => h.result hx

/-- Only a submission that was let through can be accepted. -/
theorem yields_executeSubmits (submissionError : Option (String × String))
    {calls : List (NormalizedCall F)} {results : List (Option (ToolResult F))}
    (h : LoopResults calls results) :
    Yields (fun executed => ∀ c ∈ executed, c.result.submitted = true →
        submissionError = none ∧ ∃ call ∈ calls, call.name = "submit")
      (Chat.executeSubmits submissionError calls results) := by
  induction h with
  | nil => exact fun c hc => absurd hc List.not_mem_nil
  | @submission call calls results hname _ ih =>
      have hresult : Yields (fun result => result.submitted = true → submissionError = none)
          (Chat.executeSubmit submissionError call.args) := by
        cases submissionError with
        | some error => exact fun h => absurd h Bool.false_ne_true
        | none => exact (yields_true _).bind fun r _ => by cases r <;> exact fun _ => rfl
      refine hresult.bind fun result hresult => ih.bind fun executed hexecuted => ?_
      intro c hc hsubmitted
      rcases List.mem_cons.1 hc with rfl | hc
      · exact ⟨hresult hsubmitted, call, List.mem_cons_self, hname⟩
      · obtain ⟨hnone, other, hother, hname⟩ := hexecuted c hc hsubmitted
        exact ⟨hnone, other, List.mem_cons_of_mem _ hother, hname⟩
  | @result call calls r results hsub _ ih =>
      refine ih.bind fun executed hexecuted => ?_
      intro c hc hsubmitted
      rcases List.mem_cons.1 hc with rfl | hc
      · rw [hsub] at hsubmitted
        exact absurd hsubmitted Bool.false_ne_true
      · obtain ⟨hnone, other, hother, hname⟩ := hexecuted c hc hsubmitted
        exact ⟨hnone, other, List.mem_cons_of_mem _ hother, hname⟩

/-! ## A test run -/

/-- Right behind the answer of a test run. -/
structure Tested (h₀ : List (ChatEvent F)) (r : Except PyExc (ToolResult F)) (w : ChatWorld F) :
    Prop where
  answered : Uninterrupted r
  behind : h₀ <+: w.history
  last : ∃ before args, w.history = before ++ [⟨.executor (.executeTool "run_tests" args), r⟩]

/-- Right behind its capture. -/
structure Awaited (h₀ : List (ChatEvent F)) (r : Except PyExc (ToolResult F))
    (c : Except PyExc String) (w : ChatWorld F) : Prop where
  answered : Uninterrupted r
  behind : h₀ <+: w.history
  last : ∃ before args ignored, w.history = before ++
    [⟨.executor (.executeTool "run_tests" args), r⟩,
      ⟨.executor (.captureWorkspaceFingerprint ignored), c⟩]
  pending : w.pending ≠ []

variable {r : Except PyExc (ToolResult F)}

theorem Tested.unrecorded {w : ChatWorld F} (h : Tested h₀ r w) : Unrecorded w := by
  obtain ⟨before, args, hlast⟩ := h.last
  exact ⟨before, _, ⟨args, r, rfl, h.answered⟩, Or.inl hlast⟩

theorem Awaited.unrecorded {c : Except PyExc String} {w : ChatWorld F} (h : Awaited h₀ r c w) :
    Unrecorded w := by
  obtain ⟨before, args, ignored, hlast⟩ := h.last
  exact ⟨before, _, ⟨args, r, rfl, h.answered⟩, Or.inr ⟨_, hlast, h.pending⟩⟩

theorem Awaited.rested {c : Except PyExc String} {w : ChatWorld F} (h : Awaited h₀ r c w) :
    NotLast TestAnswered w.history := by
  obtain ⟨before, args, ignored, hlast⟩ := h.last
  rw [hlast, List.append_cons]
  exact NotLast.concat _ (not_testAnswered fun _ h => by simp at h)

/-- The record: what was captured is verified now, or nothing is. -/
theorem awaited_record {c : Except PyExc String} {f : VerificationGate → VerificationGate}
    (hf : ∀ g, (f g).verifiedFingerprint ≠ "" →
      c = .ok (f g).verifiedFingerprint ∧ Passes r (f g).verifiedFingerprint) :
    Triple (Acts interrupts Recorded) (Awaited h₀ r c) (Chat.updateGate (F := F) f)
      (fun _ => Since h₀) (fun _ => Since h₀) := by
  refine ObjProg.triple_modify ?_ ?_
  · intro w hw
    refine ⟨fun hne => ?_, hw.rested, hw.behind⟩
    obtain ⟨hc, hpasses⟩ := hf w.self.gate hne
    obtain ⟨before, args, ignored, hlast⟩ := hw.last
    rw [hc] at hlast
    exact ⟨before, args, r, ignored, [], hlast, hpasses, by simp⟩
  · intro w exc hw hadm hstop
    have hcaught := hadm hw.unrecorded exc rfl
    rw [hstop] at hcaught
    cases hcaught

theorem runTool_test (ignored : List String) {call : NormalizedCall F}
    (hname : call.name = "run_tests") :
    Triple (Acts interrupts Recorded) (Since h₀) (Chat.runTool ignored call)
      (fun result w => ∃ r, testAnswer r = result ∧ Tested h₀ r w) (fun _ => Since h₀) := by
  have hcall : Triple (Acts interrupts Recorded) (Since h₀)
      (Chat.executeTool (F := F) "run_tests" (.verificationIgnorePaths ignored))
      (fun result => Tested h₀ (.ok result))
      (fun exc w => (exc.isException = true → Tested h₀ (.error exc) w) ∧
        (exc.isException = false → Since h₀ w)) := by
    refine ObjProg.triple_call fun w r hw _ => ?_
    have hnext : Uninterrupted r → Tested h₀ r (w.called ⟨.executor (.executeTool "run_tests"
        (.verificationIgnorePaths ignored)), r⟩) := fun hr =>
      ⟨hr, hw.behind.trans (List.prefix_append _ _), w.history, _, rfl⟩
    cases r with
    | ok result => exact hnext fun _ h => by cases h
    | error exc =>
        refine ⟨fun hexc => hnext fun _ h => by cases h; exact hexc, fun hexc => hw.called ?_⟩
        rintro ⟨args, res, he, hanswered⟩
        cases he
        rw [hanswered exc rfl] at hexc
        cases hexc
  unfold Chat.runTool
  dsimp only
  rw [if_pos hname, hname]
  refine Triple.bind (hcall.rescue.weaken (fun _ hw => hw) (fun _ _ hw => hw) ?_) fun r => ?_
  · intro exc w hw
    exact hw.2.2 (by simpa using hw.1)
  cases r with
  | ok result => exact triple_pure fun w hw => ⟨.ok result, rfl, hw⟩
  | error exc => exact triple_pure fun w hw => ⟨.error exc, rfl, hw.2.1 hw.1⟩

/-- A test run that was answered is recorded. -/
theorem executeCall_test (ignored : List String) {call : NormalizedCall F}
    (hname : call.name = "run_tests") (fingerprint : String) :
    Triple (Acts interrupts Recorded) (Since h₀)
      (Chat.executeCall ignored (some Chat.recordUndo) call fingerprint) (fun _ => Since h₀)
      (fun _ => Since h₀) := by
  refine (runTool_test ignored hname).bind fun result => triple_exists fun r =>
    triple_imp fun hresult => ?_
  have hedit : Chat.recordEdit (some Chat.recordUndo) call result = .done (.ok result) := by
    rw [Chat.recordEdit, if_neg (by simp [hname, structuredEditTools])]
    rfl
  have hmutating : call.name ∈ potentiallyMutatingTools := by
    rw [hname]
    decide
  show Triple _ _ (Prog.bind (Chat.recordEdit (some Chat.recordUndo) call result) _) _ _
  rw [hedit, Prog.bind_ok]
  have hnever : ∀ {w : ChatWorld F} {e exc}, Tested h₀ r w → Recorded w e → e.res = .error exc →
      exc.isException ≠ false := by
    intro w e exc hw hadm hres hstop
    rw [hadm hw.unrecorded exc hres] at hstop
    cases hstop
  have hrequire : Triple (Acts interrupts Recorded) (Tested h₀ r)
      (Chat.requireAfterMutation call.name result) (fun _ => Tested h₀ r)
      (fun _ => Since h₀) := by
    unfold Chat.requireAfterMutation
    split
    · exact ObjProg.triple_modify (fun w hw => ⟨hw.answered, hw.behind, hw.last⟩)
        fun w exc hw hadm hstop => absurd hstop (hnever hw hadm rfl)
    · exact triple_pure fun _ hw => hw
  refine hrequire.bind fun _ => ?_
  rw [if_pos hmutating]
  have hcapture : Triple (Acts interrupts Recorded) (Tested h₀ r)
      (Chat.captureWorkspaceFingerprint ignored)
      (fun fingerprint => Awaited h₀ r (.ok fingerprint))
      (fun exc w => exc.isException = true ∧ Awaited h₀ r (.error exc) w) := by
    refine ObjProg.triple_call fun w c hw hadm => ?_
    obtain ⟨before, args, hlast⟩ := hw.last
    have hnext : Awaited h₀ r c (w.called ⟨.executor (.captureWorkspaceFingerprint ignored), c⟩) := by
      refine ⟨hw.answered, hw.behind.trans (List.prefix_append _ _), ⟨before, args, ignored, ?_⟩,
        by simp⟩
      rw [ObjWorld.called_history, hlast, List.append_assoc]
      rfl
    cases c with
    | ok fingerprint => exact hnext
    | error exc => exact ⟨by simpa using hnever hw hadm rfl, hnext⟩
  refine Triple.bind (hcapture.rescue.weaken (fun _ hw => hw) (fun _ _ hw => hw)
    fun _ _ hw => absurd hw.2.1 hw.1) fun c => ?_
  cases c with
  | ok fingerprint =>
      have hsettle : Triple (Acts interrupts Recorded) (Awaited h₀ r (.ok fingerprint))
          (Chat.settleCall call.name result fingerprint) (fun _ => Since h₀)
          (fun _ => Since h₀) := by
        unfold Chat.settleCall
        rw [if_pos hname, ← hresult]
        refine Triple.bind (awaited_record fun g hne => ?_) fun _ => triple_pure fun _ hw => hw
        rw [VerificationGate.recordTest_verifiedFingerprint] at hne ⊢
        split at hne
        · next hpassed =>
            rw [if_pos hpassed]
            exact ⟨rfl, by simpa [Passes] using hpassed⟩
        · exact absurd rfl hne
      exact hsettle.bind fun _ => triple_pure fun _ hw => hw
  | error exc =>
      refine Triple.bind (R := fun _ => Since h₀) ?_ fun _ => triple_pure fun _ hw => hw
      exact (awaited_record (c := .error exc) fun g hne => absurd rfl hne).weaken
        (fun _ hw => hw.2.2) (fun _ _ hw => hw) fun _ _ hw => hw

/-! ## The batch -/

theorem executeCall_other (ignored : List String) {call : NormalizedCall F}
    (hname : call.name ≠ "run_tests") (fingerprint : String) :
    Triple (Acts interrupts Recorded) (Since h₀)
      (Chat.executeCall ignored (some Chat.recordUndo) call fingerprint) (fun _ => Since h₀)
      (fun _ => Since h₀) := by
  have hquiet : ∀ args' args, ChatOp.executor (.executeTool call.name args') ≠
      .executor (.executeTool (F := F) "run_tests" args) := by
    intro args' args h
    injection h with h
    injection h with h
    exact hname h
  have hrun : Triple (Acts interrupts Recorded) (Since h₀) (Chat.runTool ignored call)
      (fun _ => Since h₀) (fun _ => Since h₀) := by
    refine (since_guarded (since_call _ (hquiet _))).bind fun r => ?_
    cases r <;> exact triple_pure fun _ hw => hw
  refine hrun.bind fun result => ?_
  have hedit : Triple (Acts interrupts Recorded) (Since h₀)
      (Chat.recordEdit (some Chat.recordUndo) call result) (fun _ => Since h₀)
      (fun _ => Since h₀) := by
    have hundo : Triple (Acts interrupts Recorded) (Since h₀) (Chat.recordUndo result)
        (fun _ => Since h₀) (fun _ => Since h₀) := by
      unfold Chat.recordUndo
      split
      · split
        · exact triple_pure fun _ hw => hw
        · exact since_modify fun _ => Or.inl rfl
      · exact triple_pure fun _ hw => hw
    unfold Chat.recordEdit
    dsimp only
    split
    · refine (since_guarded hundo).bind fun r => ?_
      cases r <;> exact triple_pure fun _ hw => hw
    · exact triple_pure fun _ hw => hw
  refine hedit.bind fun result => ?_
  have hrequire : Triple (Acts interrupts Recorded) (Since h₀)
      (Chat.requireAfterMutation call.name result) (fun _ => Since h₀) (fun _ => Since h₀) := by
    unfold Chat.requireAfterMutation
    split
    · exact since_modify fun _ => Or.inl rfl
    · exact triple_pure fun _ hw => hw
  refine hrequire.bind fun _ => ?_
  have hsettle : ∀ fingerprint, Triple (Acts interrupts Recorded) (Since h₀)
      (Chat.settleCall call.name result fingerprint) (fun _ => Since h₀) (fun _ => Since h₀) := by
    intro fingerprint
    unfold Chat.settleCall
    rw [if_neg hname]
    exact Triple.bind (R := fun _ => Since h₀) (since_modify fun _ => Or.inl (by simp))
      fun _ => triple_pure fun _ hw => hw
  split
  · refine (since_guarded (since_capture ignored)).bind fun r => ?_
    cases r with
    | ok fingerprint =>
        have hrest := (hsettle fingerprint).bind fun result =>
          triple_pure (a := (result, fingerprint)) (Q := fun _ => Since h₀) fun _ hw => hw
        exact hrest.weaken (fun _ hw => hw.2) (fun _ _ hw => hw) fun _ _ hw => hw
    | error exc => exact since_captureFailed.bind fun _ => triple_pure fun _ hw => hw
  · exact (hsettle fingerprint).bind fun _ => triple_pure fun _ hw => hw

theorem since_executeCall (ignored : List String) (call : NormalizedCall F)
    (fingerprint : String) :
    Triple (Acts interrupts Recorded) (Since h₀)
      (Chat.executeCall ignored (some Chat.recordUndo) call fingerprint) (fun _ => Since h₀)
      (fun _ => Since h₀) := by
  by_cases hname : call.name = "run_tests"
  · exact executeCall_test ignored hname fingerprint
  · exact executeCall_other ignored hname fingerprint

theorem since_executeCalls (ignored : List String) (initialCaptureError : String)
    (calls : List (NormalizedCall F)) (fingerprint : String) :
    Triple (Acts interrupts Recorded) (Since h₀) (Chat.executeCalls ignored
      (some Chat.recordUndo) initialCaptureError calls fingerprint) (fun _ => Since h₀)
      (fun _ => Since h₀) := by
  induction calls generalizing fingerprint with
  | nil => exact triple_pure fun _ hw => hw
  | cons call calls ih =>
      rw [Chat.executeCalls]
      split
      · exact (ih fingerprint).bind fun _ => triple_pure fun _ hw => hw
      · split
        · exact (ih fingerprint).bind fun _ => triple_pure fun _ hw => hw
        · exact (since_executeCall ignored call fingerprint).bind fun x =>
            (ih x.2).bind fun _ => triple_pure fun _ hw => hw

theorem since_initialCapture (ignored : List String) :
    Triple (Acts interrupts Recorded) (Since h₀) (Chat.initialCapture (F := F) ignored)
      (fun _ => Since h₀) (fun _ => Since h₀) := by
  have hinner : Triple (Acts interrupts Recorded) (Since h₀)
      (Prog.bind (Chat.captureWorkspaceFingerprint ignored) fun fingerprint =>
        Prog.bind (Chat.updateGate (F := F) (·.sync fingerprint)) fun _ =>
          .done (.ok fingerprint))
      (fun _ => Since h₀) (fun _ => Since h₀) := by
    refine (since_capture ignored).bind fun fingerprint => ?_
    exact (decided_sync fun _ => rfl).bind fun _ => triple_pure fun _ hw => hw.2
  refine (since_guarded hinner).bind fun r => ?_
  cases r with
  | ok fingerprint => exact triple_pure fun _ hw => hw
  | error exc =>
      exact Idle.read fun s => since_captureFailed.bind fun _ => triple_pure fun _ hw => hw

/-- Where a submission is let through, the gate has been brought up to a capture. -/
def DecidedIf (h₀ : List (ChatEvent F)) (c : Prop) (w : ChatWorld F) : Prop :=
  (c → Decided h₀ w) ∧ Since h₀ w

theorem decided_decideSubmission (ignored : List String) (calls : List (NormalizedCall F)) :
    Triple (Acts interrupts Recorded) (Since h₀) (Chat.decideSubmission ignored calls)
      (fun submissionError => DecidedIf h₀
        (submissionError = none ∧ ∃ call ∈ calls, call.name = "submit"))
      (fun _ => Since h₀) := by
  unfold Chat.decideSubmission
  split
  · have hinner : Triple (Acts interrupts Recorded) (Since h₀)
        (Prog.bind (Chat.captureWorkspaceFingerprint ignored) fun fingerprint =>
          Prog.bind self fun s => Prog.bind (Chat.updateGate (F := F) fun g =>
            (g.submissionError fingerprint).2) fun _ =>
              .done (.ok (s.gate.submissionError fingerprint).1))
        (fun _ w => Decided h₀ w ∧ Since h₀ w) (fun _ => Since h₀) := by
      refine (since_capture ignored).bind fun fingerprint => ?_
      refine Triple.bind (R := fun _ w => LastCaptured h₀ w.history fingerprint ∧ Since h₀ w)
        (ObjProg.triple_self fun _ hw => hw) fun s => ?_
      exact (decided_sync fun g => g.submissionError_snd fingerprint).bind fun _ =>
        triple_pure fun _ hw => hw
    refine (since_guarded hinner).bind fun r => ?_
    cases r with
    | ok submissionError => exact triple_pure fun _ hw => ⟨fun _ => hw.1, hw.2⟩
    | error exc =>
        refine triple_pure fun _ hw => ⟨?_, hw⟩
        rintro ⟨h, -⟩
        cases h
  · next hany =>
      refine triple_pure fun _ hw => ⟨?_, hw⟩
      rintro ⟨-, call, hcall, hname⟩
      exact absurd (List.any_eq_true.2 ⟨call, hcall, by simpa using hname⟩) hany

/-- Nothing else is asked of the executor once that is decided. -/
theorem DecidedIf.called {c : Prop} {w : ChatWorld F} (hw : DecidedIf h₀ c w) {e : ChatEvent F}
    (htest : ¬ TestAnswered e) (hcapture : ¬ Captures e) : DecidedIf h₀ c (w.called e) := by
  refine ⟨fun hc => ?_, hw.2.called htest⟩
  obtain ⟨fingerprint, hlast, hverified⟩ := hw.1 hc
  exact ⟨fingerprint, hlast.concat hcapture, hverified⟩

theorem decided_executeSubmits {c : Prop} (submissionError : Option (String × String))
    (calls : List (NormalizedCall F)) (results : List (Option (ToolResult F))) :
    Triple (Acts interrupts Recorded) (DecidedIf h₀ c)
      (Chat.executeSubmits submissionError calls results) (fun _ => DecidedIf h₀ c)
      (fun _ => Since h₀) := by
  have hsubmit : ∀ args : Json F, Triple (Acts interrupts Recorded) (DecidedIf h₀ c)
      (Chat.executeSubmit submissionError args) (fun _ => DecidedIf h₀ c)
      (fun _ => Since h₀) := by
    intro args
    cases submissionError with
    | some error => exact triple_pure fun _ hw => hw
    | none =>
        have hcall : Triple (Acts interrupts Recorded) (DecidedIf h₀ c)
            (Chat.executeTool "submit" (.given args)) (fun _ => DecidedIf h₀ c)
            (fun _ => DecidedIf h₀ c) := by
          refine ObjProg.triple_call fun w r hw _ => ?_
          have hnext : DecidedIf h₀ c (w.called ⟨.executor (.executeTool "submit" (.given args)), r⟩) :=
            hw.called (not_testAnswered fun _ h => by simp at h)
              (not_captures fun _ h => by simp at h)
          cases r <;> exact hnext
        refine Triple.bind (hcall.rescue.weaken (fun _ hw => hw) (fun _ _ hw => hw)
          fun _ _ hw => hw.2.2) fun r => ?_
        cases r with
        | ok result => exact triple_pure fun _ hw => hw
        | error exc => exact triple_pure fun _ hw => hw.2
  induction calls generalizing results with
  | nil => exact triple_pure fun _ hw => hw
  | cons call calls ih =>
      cases results with
      | nil => exact triple_pure fun _ hw => hw
      | cons result results =>
          cases result with
          | some result => exact (ih results).bind fun _ => triple_pure fun _ hw => hw
          | none =>
              exact (hsubmit call.args).bind fun _ => (ih results).bind fun _ =>
                triple_pure fun _ hw => hw

/-- An accepted submission was decided on the workspace captured last. -/
theorem decided_executeToolBatch (ignored : List String) (toolCalls : List (ToolCall F)) :
    Triple (Acts interrupts Recorded) (Since h₀)
      (Chat.executeToolBatch ignored (some Chat.recordUndo) toolCalls)
      (fun batch => DecidedIf h₀ (batch.submitted = true)) (fun _ => Since h₀) := by
  refine (since_initialCapture ignored).bind fun x => ?_
  refine ((yields_executeCalls ignored x.1 _ x.2).triple
    (since_executeCalls ignored x.1 _ x.2)).bind fun results => triple_imp fun hresults => ?_
  refine (decided_decideSubmission ignored _).bind fun submissionError => ?_
  refine ((yields_executeSubmits submissionError hresults).triple
    (decided_executeSubmits submissionError _ results)).bind fun executed => ?_
  refine triple_pure fun w hw => ⟨fun hsubmitted => ?_, hw.2.2⟩
  obtain ⟨c, hc, hresult⟩ := batchOutcome_submitted hsubmitted
  exact hw.2.1 (hw.1 c hc hresult)

/-! ## The turn -/

/-- What is certified stays so, whatever is saved. -/
def CertifiedIf (h₀ : List (ChatEvent F)) (c : Prop) (w : ChatWorld F) : Prop :=
  (c → Certified h₀ w.history) ∧ Since h₀ w

theorem quiet_of_keepsBooks {o : ChatOp F} (ho : o.KeepsBooks) (r : Except PyExc o.Res) :
    ¬ TestAnswered (⟨o, r⟩ : ChatEvent F) ∧ ¬ Captures (⟨o, r⟩ : ChatEvent F) := by
  refine ⟨not_testAnswered ?_, not_captures ?_⟩
  · rintro args rfl
    exact ho
  · rintro ignored rfl
    exact ho

theorem since_idle : Idle (Since h₀) where
  called {w o r} hw ho := hw.called (quiet_of_keepsBooks ho r).1
  modified hw hf := by
    refine ⟨fun hne => ?_, hw.rested, hw.behind⟩
    rw [ObjWorld.modified_self, hf] at hne ⊢
    exact hw.minted hne

theorem decidedIf_idle (c : Prop) : Idle (DecidedIf h₀ c) where
  called {w o r} hw ho := hw.called (quiet_of_keepsBooks ho r).1 (quiet_of_keepsBooks ho r).2
  modified {w f} hw hf := by
    refine ⟨fun hc => ?_, since_idle.modified hw.2 hf⟩
    obtain ⟨fingerprint, hlast, hverified⟩ := hw.1 hc
    refine ⟨fingerprint, hlast, fun hpassed => ?_⟩
    rw [ObjWorld.modified_self, hf] at hpassed ⊢
    exact hverified hpassed

theorem certifiedIf_idle (c : Prop) : Idle (CertifiedIf h₀ c) where
  called {w o r} hw ho := by
    refine ⟨fun hc => ?_, since_idle.called hw.2 ho⟩
    obtain ⟨fingerprint, hlast, hminted⟩ := hw.1 hc
    exact ⟨fingerprint, hlast.concat (quiet_of_keepsBooks ho r).2,
      hminted.concat hw.2.rested (quiet_of_keepsBooks ho r).1⟩
  modified hw hf := ⟨hw.1, since_idle.modified hw.2 hf⟩

theorem certifiedIf_of_unverified {turn : TurnResult} {w : ChatWorld F}
    (h : turn.verified = false ∧ Since h₀ w) : CertifiedIf h₀ (turn.verified = true) w := by
  refine ⟨fun hverified => ?_, h.2⟩
  rw [h.1] at hverified
  cases hverified

variable [Json.PyFloat F] {env : ChatEnv F}

theorem certified_finish {result : TurnResult} {c : Prop} (hc : result.verified = true → c)
    (exitStatus : String) :
    Triple (Acts interrupts Recorded) (CertifiedIf h₀ c) (Chat.finish env result exitStatus)
      (fun turn => CertifiedIf h₀ (turn.verified = true)) (fun _ => Since h₀) := by
  refine ((certifiedIf_idle c).finish result exitStatus).weaken (fun _ hw => hw) ?_
    fun _ _ hw => hw.2
  rintro turn w ⟨rfl, hw⟩
  exact ⟨fun h => hw.1 (hc h), hw.2⟩

/-- How one pass through the loop leaves its claim. -/
def StepCertified (h₀ : List (ChatEvent F)) : Chat.StepEnd → ChatWorld F → Prop
  | .goOn _, w => Since h₀ w
  | .returned turn, w => CertifiedIf h₀ (turn.verified = true) w

theorem certified_answer (codingMode : Bool) (step : Nat) (finalText : String) :
    Triple (Acts interrupts Recorded) (Since h₀) (Chat.answer env codingMode step finalText)
      (StepCertified h₀) (fun _ => Since h₀) := by
  refine (since_capture env.ignored).bind fun current => ?_
  refine (decided_sync fun _ => rfl).bind fun _ => ?_
  refine Triple.bind (R := fun s w => CertifiedIf h₀ (s.gate.status = .passed) w) ?_ fun s => ?_
  · exact ObjProg.triple_self fun w hw => ⟨hw.1.certified hw.2.minted, hw.2⟩
  split
  · have hsince : Triple (Acts interrupts Recorded) (CertifiedIf h₀ (s.gate.status = .passed))
        (Chat.appendMessage (humanMessage Chat.correction)) (fun _ => Since h₀)
        (fun _ => Since h₀) := (since_idle.appendMessage _).weaken (fun _ hw => hw.2)
      (fun _ _ hw => hw) fun _ _ hw => hw
    refine hsince.bind fun _ => (since_idle.appendEvent _).bind fun _ => ?_
    exact (since_idle.save _).bind fun _ => triple_pure fun _ hw => hw
  · refine (certified_finish (c := s.gate.status = .passed) ?_ _).bind fun turn =>
      triple_pure fun _ hw => hw
    simp

theorem certified_acceptBatch (step : Nat) (text : String) :
    Triple (Acts interrupts Recorded) (DecidedIf h₀ True) (Chat.acceptBatch env step text)
      (fun turn => CertifiedIf h₀ (turn.verified = true)) (fun _ => Since h₀) := by
  refine Triple.bind (R := fun s w => w.self = s ∧ CertifiedIf h₀ (s.gate.status = .passed) w)
    ?_ fun s => ?_
  · exact ObjProg.triple_self fun w hw =>
      ⟨rfl, fun hpassed => (hw.1 trivial).certified hw.2.minted hpassed, hw.2⟩
  refine Triple.bind (R := fun _ => CertifiedIf h₀ (s.gate.status = .passed)) ?_ fun _ => ?_
  · refine ObjProg.triple_modify ?_ fun _ _ hw _ _ => hw.2.2
    rintro w ⟨-, hw⟩
    refine ⟨hw.1, fun hne => ?_, hw.2.rested, hw.2.behind⟩
    -- what is accepted as verified was verified before
    rw [ObjWorld.modified_self] at hne ⊢
    unfold VerificationGate.acceptSubmission at hne ⊢
    dsimp only at hne ⊢
    split at hne
    · next hverified =>
        rw [if_pos hverified, ← hverified.2.2]
        exact hw.2.minted hverified.2.1
    · exact absurd rfl hne
  · exact certified_finish (by simp) _

theorem certified_runCalls (step : Nat) (finalText : String) (calls : List (Dict (Json F))) :
    Triple (Acts interrupts Recorded) (Since h₀) (Chat.runCalls env step finalText calls)
      (StepCertified h₀) (fun _ => Since h₀) := by
  refine (decided_executeToolBatch env.ignored _).bind fun batch => ?_
  have hidle : Idle (DecidedIf h₀ (batch.submitted = true)) := decidedIf_idle _
  have hbooks : ∀ {α : Type} {p : ChatProg F α},
      Triple (Acts interrupts Recorded) (DecidedIf h₀ (batch.submitted = true)) p
        (fun _ => DecidedIf h₀ (batch.submitted = true))
        (fun _ => DecidedIf h₀ (batch.submitted = true)) →
      Triple (Acts interrupts Recorded) (DecidedIf h₀ (batch.submitted = true)) p
        (fun _ => DecidedIf h₀ (batch.submitted = true)) (fun _ => Since h₀) :=
    fun h => h.weaken (fun _ hw => hw) (fun _ _ hw => hw) fun _ _ hw => hw.2
  refine (hbooks (hidle.recordCalls step batch.calls)).bind fun _ => ?_
  refine (hbooks hidle.compact).bind fun _ => (hbooks (hidle.save _)).bind fun _ => ?_
  split
  · next hsubmitted =>
      rw [hsubmitted]
      refine Triple.bind ((certified_acceptBatch step _).weaken
        (fun _ hw => ⟨fun _ => hw.1 rfl, hw.2⟩) (fun _ _ hw => hw) fun _ _ hw => hw)
        fun turn => triple_pure fun _ hw => hw
  · exact triple_pure fun _ hw => hw.2

theorem certified_respondStep (codingMode : Bool) (step : Nat) (finalText : String) :
    Triple (Acts interrupts Recorded) (Since h₀)
      (Chat.respondStep env codingMode step finalText) (StepCertified h₀)
      (fun _ => Since h₀) := by
  refine since_idle.modifyThen (fun _ => rfl) (Idle.read fun s => ?_)
  refine Idle.lift.bind fun messages => ?_
  refine (since_call (ChatOp.invokeModel messages) fun _ h => by simp at h).bind fun reply => ?_
  refine (since_idle.appendMessage _).bind fun _ => (since_idle.appendEvent _).bind fun _ => ?_
  split
  · exact certified_answer _ _ _
  · exact certified_runCalls _ _ _

theorem certified_respondSteps (codingMode : Bool) (n step : Nat) (finalText : String) :
    Triple (Acts interrupts Recorded) (Since h₀)
      (Chat.respondSteps env codingMode n step finalText)
      (fun turn => CertifiedIf h₀ (turn.verified = true)) (fun _ => Since h₀) := by
  induction n generalizing step finalText with
  | zero =>
      exact since_idle.stepLimit.weaken (fun _ hw => hw)
        (fun _ _ hw => certifiedIf_of_unverified hw) fun _ _ hw => hw
  | succ n ih =>
      refine (certified_respondStep codingMode step finalText).bind fun stepEnd => ?_
      cases stepEnd with
      | goOn finalText => exact ih (step + 1) finalText
      | returned result => exact triple_pure fun _ hw => hw

theorem certified_respondTurn (userText : String) (codingMode : Bool) :
    Triple (Acts interrupts Recorded) (Since h₀) (Chat.respondTurn env userText codingMode)
      (fun turn => CertifiedIf h₀ (turn.verified = true)) (fun _ => Since h₀) := by
  refine (since_capture env.ignored).bind fun current => ?_
  refine Triple.bind (R := fun _ => Since h₀) ((decided_sync fun _ => rfl).weaken
    (fun _ hw => hw) (fun _ _ hw => hw.2) fun _ _ hw => hw) fun _ => ?_
  refine (since_idle.appendMessage _).bind fun _ => since_idle.modifyThen (fun _ => rfl) ?_
  refine (certified_respondSteps codingMode _ _ _).catchWith fun exc => ?_
  exact (since_idle.turnStopped exc).weaken (fun _ hw => hw)
    (fun _ _ hw => certifiedIf_of_unverified hw) fun _ _ hw => hw

end Steps

/-! ## Sessions -/

section Sessions

variable [Json.PyFloat F] {env : ChatEnv F}

/-- A restored gate has verified nothing. -/
theorem restored_verifiedFingerprint {data : Json F} {fingerprint : String} {self : Chat F}
    (h : Chat.restore env data fingerprint = .ok self) : self.gate.verifiedFingerprint = "" := by
  unfold Chat.restore at h
  obtain ⟨messages, -, h⟩ := except_bind_ok.1 h
  obtain ⟨events, -, h⟩ := except_bind_ok.1 h
  obtain ⟨skipped, -, h⟩ := except_bind_ok.1 h
  obtain ⟨records, -, h⟩ := except_bind_ok.1 h
  obtain ⟨_, -, h⟩ := except_bind_ok.1 h
  obtain ⟨lastTurn, -, h⟩ := except_bind_ok.1 h
  cases h
  exact VerificationGate.sync_verifiedFingerprint _ _

theorem ChatRun.since {w : ChatWorld F} (hrun : ChatRun env recordedTests w) :
    Since w.history w := by
  have hfresh : ∀ {s : Chat F}, s.gate.verifiedFingerprint = "" → Since [] ⟨s, [], []⟩ :=
    fun hs => ⟨fun hne => absurd hs hne, notLast_nil, List.prefix_refl _⟩
  have hends : ∀ {α : Type} {p : ChatProg F α} {Q : α → ChatWorld F → Prop} {w w' : ChatWorld F}
      {r : Except PyExc α}, Triple (Acts interrupts Recorded) (Since w.history) p Q
        (fun _ => Since w.history) → (∀ a w', Q a w' → Since w.history w') → Since w.history w →
      Run (Acts interrupts Recorded) p w r w' → Since w'.history w' := by
    intro α p Q w w' r hp hQ hw hrun
    have hend := (hp.weaken (fun _ hw => hw) hQ fun _ _ hw => hw) w r w' hw hrun
    have hsince : Since w.history w' := by cases r <;> exact hend
    exact ⟨hsince.minted, hsince.rested, List.prefix_refl _⟩
  induction hrun with
  | start systemPrompt _ => exact hfresh rfl
  | restore _ _ _ hrestore _ => exact hfresh (restored_verifiedFingerprint hrestore)
  | turn _ userText codingMode hrun ih =>
      exact hends (certified_respondTurn userText codingMode) (fun _ _ hw => hw.2) ih hrun
  | clear _ hrun ih => exact hends since_idle.clearContext (fun _ _ hw => hw) ih hrun
  | close _ hrun ih => exact hends since_idle.close (fun _ _ hw => hw) ih hrun

/-- A turn of a session that calls itself verified found the workspace, at its last
capture, as a passing test run of this process left it. -/
theorem chat_verified_certified {w w' : ChatWorld F} {turn : TurnResult} {userText : String}
    {codingMode : Bool} (hrun : ChatRun env recordedTests w)
    (hturn : Run recordedTests.Acts (Chat.respondTurn env userText codingMode) w (.ok turn) w')
    (hverified : turn.verified = true) : Certified w.history w'.history :=
  ((certified_respondTurn userText codingMode).ok hrun.since hturn).1 hverified

end Sessions

/-! ## A test run that is never recorded -/

/-- Whether the last test run failed, or what is said of it before. -/
def failsLast (failed : Bool) : ChatEvent F → Bool
  | ⟨.executor (.executeTool name _), .ok r⟩ =>
    if name = "run_tests" then (testAnswer (.ok r)).returncode ≠ 0 else failed
  | _ => failed

theorem failsLast_since (since : List (ChatEvent F))
    (h : ∀ b e a, since = b ++ e :: a → ¬ FailedTest e a) :
    since.foldl failsLast false = false := by
  induction since with
  | nil => rfl
  | cons e since ih =>
      have hhead : failsLast false e = false := by
        unfold failsLast
        split
        · next name args r =>
            split
            · next hname =>
                by_contra hfailed
                refine h [] _ since rfl ⟨args, .ok r, ?_, fun _ h => (by cases h), Or.inl ?_⟩
                · rw [hname]
                · exact fun hcode => hfailed (decide_eq_false fun h => h hcode)
            · rfl
        · rfl
      rw [List.foldl_cons, hhead]
      exact ih fun b e' a heq => h (e :: b) e' a (by rw [heq, List.cons_append])

theorem not_minted {h : List (ChatEvent F)} (hfailed : h.foldl failsLast false = true)
    (fingerprint : String) : ¬ Minted h fingerprint := by
  rintro ⟨before, args, r, ignored, since, rfl, hpasses, hsince⟩
  have hcode : (testAnswer r).returncode = 0 := by
    by_contra hne
    rw [Passes, checkHandoff, if_neg fun h => hne h.1] at hpasses
    exact hne hpasses
  have hrun : ∀ failed, failsLast failed
      (⟨.executor (.executeTool "run_tests" args), r⟩ : ChatEvent F) = false := by
    intro failed
    cases r with
    | ok result => simpa [failsLast] using hcode
    | error exc => cases hcode
  rw [List.foldl_append, List.foldl_cons, List.foldl_cons, hrun] at hfailed
  rw [show failsLast false (⟨.executor (.captureWorkspaceFingerprint ignored), .ok fingerprint⟩ :
    ChatEvent F) = false from rfl, failsLast_since since hsince] at hfailed
  cases hfailed

namespace ChatSample

def asked (h : List (ChatEvent Unit)) : Nat :=
  h.countP fun e => match e.op with
    | .invokeModel _ => true
    | _ => false

def ran (h : List (ChatEvent Unit)) : Nat :=
  h.countP fun e => match e.op with
    | .executor (.executeTool _ _) => true
    | _ => false

def justRan (h : List (ChatEvent Unit)) : Bool :=
  match h.getLast? with
  | some ⟨.executor (.executeTool _ _), _⟩ => true
  | _ => false

/-- The model has the tests run so many times and answers then. The first run
passes and the second fails, and the capture behind that one is interrupted. -/
def testReply (runs : Nat) (h : List (ChatEvent Unit)) : (o : ChatOp Unit) → Except PyExc o.Res
  | .executor (.captureWorkspaceFingerprint _) =>
    if runs = 2 ∧ ran h = 2 ∧ justRan h then .error interrupt else .ok "f"
  | .executor (.executeTool _ _) => .ok { shown with returncode := ran h }
  | .executor (.onStructuredEdit _) => .ok ()
  | .invokeModel _ => .ok ⟨.str "", if asked h < runs then
      [[("name", .str "run_tests"), ("id", .str "c")]] else [], []⟩
  | .print _ => .ok ()
  | .writeUndoJournal _ => .ok ""
  | .durationMs => .ok (0 : Int)
  | .writeJson _ => .ok ()

/-- The next turn of the session. -/
def nextTurn (runs : Nat) (w : ChatWorld Unit) : Except PyExc TurnResult × ChatWorld Unit :=
  exec (answering (testReply runs)) (Chat.respondTurn (env 60000 true) "hi" false) w

theorem recorded_testReply (w : ChatWorld Unit) (o : ChatOp Unit) :
    Recorded w ⟨.call o, testReply 1 w.history o⟩ := by
  intro _ exc hexc
  cases o with
  | executor o => cases o <;> cases hexc
  | _ => cases hexc

/-- Anything may happen at any time. -/
def unconditional : ChatConditions Unit := ⟨fun _ _ => True, fun _ _ => True, fun _ => True⟩

/-- The tests pass in the first turn, and the second one answers. -/
def tested : ChatWorld Unit := (nextTurn 1 (started 60000 true)).2

def answeredTested : Except PyExc TurnResult × ChatWorld Unit := nextTurn 1 tested

/-- They pass in the first turn and fail in the second, which is interrupted. -/
def stoppedTest : ChatWorld Unit := (nextTurn 2 (nextTurn 2 (started 60000 true)).2).2

def answeredStopped : Except PyExc TurnResult × ChatWorld Unit := nextTurn 2 stoppedTest

theorem run_nextTurn (w : ChatWorld Unit) :
    Run unconditional.Acts (Chat.respondTurn (env 60000 true) "hi" false) w (nextTurn 2 w).1
      (nextTurn 2 w).2 :=
  run_answering (testReply 2) (fun _ _ => trivial) _ _

/-- A turn that returns, and calls itself verified. -/
def ReturnsVerified (r : Except PyExc TurnResult) : Prop :=
  ∃ turn, r = .ok turn ∧ turn.verified = true

theorem returnsVerified {r : Except PyExc TurnResult}
    (h : r.toOption.map (·.verified) = some true) : ReturnsVerified r := by
  cases r with
  | ok turn => exact ⟨turn, rfl, by simpa [Except.toOption] using h⟩
  | error exc => cases h

end ChatSample

open ChatSample

theorem chat_verified_certified_sample :
    ReturnsVerified answeredTested.1 ∧ Certified tested.history answeredTested.2.history := by
  have hverified : ReturnsVerified answeredTested.1 := returnsVerified (by decide +kernel)
  refine ⟨hverified, ?_⟩
  obtain ⟨turn, hturn, hflag⟩ := hverified
  have hrun : Run recordedTests.Acts (Chat.respondTurn (env 60000 true) "hi" false) tested
      answeredTested.1 answeredTested.2 := run_answering (testReply 1) recorded_testReply _ _
  have hfirst : ChatRun (env 60000 true) recordedTests tested :=
    .turn (.start "s" trivial) "hi" false (run_answering (testReply 1) recorded_testReply _ _)
  rw [hturn] at hrun
  exact chat_verified_certified hfirst hrun hflag

/-- The tests failed last, and the interruption behind that run is all there is to
the turn they failed in. The turn after it is verified. -/
theorem chat_verified_uncertified :
    ChatRun (env 60000 true) unconditional stoppedTest ∧
      Run unconditional.Acts (Chat.respondTurn (env 60000 true) "hi" false) stoppedTest
        answeredStopped.1 answeredStopped.2 ∧
      ReturnsVerified answeredStopped.1 ∧
      ¬ Certified stoppedTest.history answeredStopped.2.history := by
  refine ⟨.turn (.turn (.start "s" trivial) "hi" false (run_nextTurn _)) "hi" false
    (run_nextTurn _), run_nextTurn _, returnsVerified (by decide +kernel), ?_⟩
  rintro ⟨fingerprint, -, hminted⟩
  exact not_minted (by decide +kernel) fingerprint hminted

end MiniCodeAgent
