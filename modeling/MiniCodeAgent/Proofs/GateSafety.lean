import MiniCodeAgent.Agent

/-!
# The gate lets a submission through only on a fresh passing test

A batch may edit, test, fail, lose its fingerprint and submit in any order, so
the argument is one invariant of the gate and the trace behind it, `GateInv`:
whatever fingerprint the gate holds was minted by a passing `run_tests` call
of this trace, and no test has run since. Three lemmas carry it, one for each
thing a call can do to the gate: leave its fingerprint alone, clear it, or mint
a new one. The loop is an induction over the calls with these three, and a
submission is accepted on the invariant's word.

The trace is the one since the last resume. Resuming starts both the trace and
the fingerprint over, which is why nothing a trajectory file says can stand in
for a test.
-/

namespace MiniCodeAgent

open Prog

variable {F : Type}

/-! ## One call to the executor -/

theorem trace_guarded {o : ExecutorOp F} {t : List (BatchEvent F)} {r : Except PyExc o.Res} :
    Trace (guarded o) t (.ok r) ↔
      t = [⟨o, r⟩] ∧ ∀ exc, r = .error exc → exc.isException = true := by
  unfold guarded
  rw [trace_op]
  constructor
  · rintro ⟨a, t', rfl, h⟩
    cases a with
    | ok a =>
        obtain ⟨rfl, h⟩ := trace_done.1 h
        cases h
        exact ⟨rfl, by rintro exc ⟨⟩⟩
    | error exc =>
        by_cases hexc : exc.isException = true
        · simp only [hexc, if_true] at h
          obtain ⟨rfl, h⟩ := trace_done.1 h
          cases h
          refine ⟨rfl, ?_⟩
          rintro exc' ⟨⟩
          exact hexc
        · simp only [hexc, Bool.false_eq_true, if_false] at h
          cases (trace_done.1 h).2
  · rintro ⟨rfl, h⟩
    refine ⟨r, [], rfl, ?_⟩
    cases r with
    | ok a => exact trace_done.2 ⟨rfl, rfl⟩
    | error exc =>
        simp only [h exc rfl, if_true]
        exact trace_done.2 ⟨rfl, rfl⟩

/-! ## What a trace says about a fingerprint -/

/-- The executor was asked to run the tests. -/
def TestRun (e : BatchEvent F) : Prop := ∃ args, e.op = .executeTool "run_tests" args

/-- The fingerprint is the one captured right after a `run_tests` call that
passed, with evidence for it where the call brought any, and the tests have not
run since. -/
def MintedBy (t : List (BatchEvent F)) (r : ToolResult F) (fingerprint : String) : Prop :=
  ∃ before args ignored since,
    t = before ++ ⟨.executeTool "run_tests" args, .ok r⟩ ::
      ⟨.captureWorkspaceFingerprint ignored, .ok fingerprint⟩ :: since ∧
    r.returncode = 0 ∧
    (r.verificationBoundaryChecked = true ∨ r.verificationChecks ≠ [] →
      r.verificationFingerprint = fingerprint) ∧
    ∀ e ∈ since, ¬ TestRun e

theorem MintedBy.append {t u : List (BatchEvent F)} {r : ToolResult F} {fingerprint : String}
    (h : MintedBy t r fingerprint) (hu : ∀ e ∈ u, ¬ TestRun e) :
    MintedBy (t ++ u) r fingerprint := by
  obtain ⟨before, args, ignored, since, rfl, hcode, hevidence, hsince⟩ := h
  refine ⟨before, args, ignored, since ++ u, by simp, hcode, hevidence, ?_⟩
  intro e he
  rcases List.mem_append.1 he with he | he
  · exact hsince e he
  · exact hu e he

/-- What holds between the gate, the trace behind it, and the passing tests the
batches have reported along the trace. -/
structure GateInv (g : VerificationGate) (t : List (BatchEvent F))
    (passes : List (ToolResult F)) : Prop where
  required : g.requireVerification = true
  minted : g.verifiedFingerprint ≠ "" →
    ∃ r, MintedBy t r g.verifiedFingerprint ∧ passes.getLast? = some r

theorem GateInv.frame {g g' : VerificationGate} {t u : List (BatchEvent F)}
    {passes : List (ToolResult F)} (h : GateInv g t passes)
    (hrequired : g'.requireVerification = true)
    (hverified : g'.verifiedFingerprint = g.verifiedFingerprint)
    (hu : ∀ e ∈ u, ¬ TestRun e) : GateInv g' (t ++ u) passes := by
  refine ⟨hrequired, ?_⟩
  rw [hverified]
  intro hne
  obtain ⟨r, hr, hlast⟩ := h.minted hne
  exact ⟨r, hr.append hu, hlast⟩

theorem GateInv.cleared {g : VerificationGate} (hrequired : g.requireVerification = true)
    (hverified : g.verifiedFingerprint = "") (t : List (BatchEvent F))
    (passes : List (ToolResult F)) : GateInv g t passes :=
  ⟨hrequired, fun hne => absurd hverified hne⟩

theorem GateInv.mint {g : VerificationGate} {t : List (BatchEvent F)}
    {passes : List (ToolResult F)} {r : ToolResult F} {args : EffectiveArgs F}
    {ignored : List String} (hrequired : g.requireVerification = true)
    (hcode : r.returncode = 0)
    (hevidence : r.verificationBoundaryChecked = true ∨ r.verificationChecks ≠ [] →
      r.verificationFingerprint = g.verifiedFingerprint) :
    GateInv g (t ++ [⟨.executeTool "run_tests" args, .ok r⟩,
      ⟨.captureWorkspaceFingerprint ignored, .ok g.verifiedFingerprint⟩]) (passes ++ [r]) :=
  ⟨hrequired, fun _ => ⟨r, ⟨t, args, ignored, [], rfl, hcode, hevidence, by simp⟩, by simp⟩⟩

/-! ## One turn of the loop -/

theorem refuseLegacySubmission_submitted (name : String) (r : ToolResult F) :
    (refuseLegacySubmission name r).submitted = false := by
  unfold refuseLegacySubmission
  split
  · rfl
  · next h => simpa using h

theorem refuseLegacySubmission_passed {name : String} {r : ToolResult F}
    (h : (refuseLegacySubmission name r).returncode = 0) :
    refuseLegacySubmission name r = r := by
  unfold refuseLegacySubmission at h ⊢
  split at h
  · simp at h
  · next hsub => rw [if_neg hsub]

/-- A tool's answer is never a submission, and one that passed is the
executor's own. -/
theorem runTool_ok {ignored : List String} {call : NormalizedCall F}
    {t : List (BatchEvent F)} {result : ToolResult F}
    (h : Trace (runTool ignored call) t (.ok result)) :
    ∃ args a, t = [⟨.executeTool call.name args, a⟩] ∧ result.submitted = false ∧
      (result.returncode = 0 → a = .ok result) := by
  simp only [runTool, bind_eq, trace_bind_ok, trace_guarded] at h
  obtain ⟨a, t₁, t₂, rfl, ⟨rfl, -⟩, h⟩ := h
  cases a with
  | ok raw =>
      simp only [pure_eq, trace_done] at h
      obtain ⟨rfl, h⟩ := h
      injection h with h
      subst h
      refine ⟨_, _, rfl, refuseLegacySubmission_submitted call.name raw, ?_⟩
      intro hcode
      rw [refuseLegacySubmission_passed hcode]
  | error exc =>
      simp only [pure_eq, trace_done] at h
      obtain ⟨rfl, h⟩ := h
      injection h with h
      subst h
      refine ⟨_, _, rfl, rfl, ?_⟩
      intro hcode
      simp [toolExceptionResult] at hcode

/-- The undo callback can only spoil a structured edit. -/
theorem recordEdit_ok {onStructuredEdit : Bool} {call : NormalizedCall F}
    {result result' : ToolResult F} {t : List (BatchEvent F)}
    (h : Trace (recordEdit onStructuredEdit call result) t (.ok result')) :
    (∀ e ∈ t, ¬ TestRun e) ∧ (result.submitted = false → result'.submitted = false) ∧
      (call.name ∉ structuredEditTools → t = [] ∧ result' = result) := by
  unfold recordEdit at h
  split at h
  · next hedit =>
      simp only [bind_eq, trace_bind_ok, trace_guarded] at h
      obtain ⟨a, t₁, t₂, rfl, ⟨rfl, -⟩, h⟩ := h
      have hnot : ∀ e ∈ ([⟨.onStructuredEdit result, a⟩] : List (BatchEvent F)), ¬ TestRun e := by
        intro e he
        rw [List.mem_singleton] at he
        subst he
        rintro ⟨args, h⟩
        cases h
      cases a with
      | ok _ =>
          simp only [pure_eq, trace_done] at h
          obtain ⟨rfl, h⟩ := h
          injection h with h
          subst h
          exact ⟨by simpa using hnot, id, fun hn => absurd hedit.2.1 hn⟩
      | error exc =>
          simp only [pure_eq, trace_done] at h
          obtain ⟨rfl, h⟩ := h
          injection h with h
          subst h
          exact ⟨by simpa using hnot, fun _ => rfl, fun hn => absurd hedit.2.1 hn⟩
  · simp only [pure_eq, trace_done] at h
    obtain ⟨rfl, h⟩ := h
    injection h with h
    subst h
    exact ⟨by simp, id, fun _ => ⟨rfl, rfl⟩⟩

theorem checkHandoff_submitted (r : ToolResult F) (fingerprint : String) :
    (checkHandoff r fingerprint).submitted = r.submitted := by
  unfold checkHandoff
  split <;> rfl

theorem checkHandoff_passed {r : ToolResult F} {fingerprint : String}
    (h : (checkHandoff r fingerprint).returncode = 0) :
    checkHandoff r fingerprint = r ∧
      (r.verificationBoundaryChecked = true ∨ r.verificationChecks ≠ [] →
        r.verificationFingerprint = fingerprint) := by
  unfold checkHandoff at h ⊢
  split at h
  · simp at h
  · next hn =>
      rw [if_neg hn]
      refine ⟨rfl, fun hevidence => ?_⟩
      by_contra hne
      exact hn ⟨h, hevidence, Or.inr hne⟩

theorem not_testRun_executeTool {name : String} (hname : name ≠ "run_tests")
    {args : EffectiveArgs F} {a : Except PyExc (ToolResult F)} :
    ¬ TestRun (⟨.executeTool name args, a⟩ : BatchEvent F) := by
  rintro ⟨args', h⟩
  injection h with h
  exact hname h

theorem not_testRun_capture {ignored : List String} {a : Except PyExc String} :
    ¬ TestRun (⟨.captureWorkspaceFingerprint ignored, a⟩ : BatchEvent F) := by
  rintro ⟨args, h⟩
  cases h

/-- The result of one call, if it is a passing test. -/
def passOf (name : String) (r : ToolResult F) : List (ToolResult F) :=
  if name = "run_tests" ∧ r.returncode = 0 then [r] else []

/-- A test that is settled in the workspace found after it mints the
fingerprint, or clears it. -/
theorem settleCall_test {result result' : ToolResult F} {s s' : BatchState}
    {t : List (BatchEvent F)} {passes : List (ToolResult F)} {args : EffectiveArgs F}
    {ignored : List String} {a : Except PyExc (ToolResult F)}
    (h : settleCall "run_tests" result s = (result', s'))
    (hrequired : s.gate.requireVerification = true)
    (ha : result.returncode = 0 → a = .ok result) :
    GateInv s'.gate (t ++ [⟨.executeTool "run_tests" args, a⟩,
      ⟨.captureWorkspaceFingerprint ignored, .ok s.currentFingerprint⟩])
      (passes ++ passOf "run_tests" result') := by
  rw [settleCall, if_pos rfl] at h
  injection h with hresult hs
  subst hs
  by_cases hcode : result'.returncode = 0
  · have hpass := checkHandoff_passed (hresult ▸ hcode)
    rw [hresult] at hpass
    obtain ⟨rfl, hevidence⟩ := hpass
    rw [ha hcode, passOf, if_pos ⟨rfl, hcode⟩]
    have hverified : (s.gate.recordTest (decide ((checkHandoff result' s.currentFingerprint).returncode = 0))
        s.currentFingerprint).verifiedFingerprint = s.currentFingerprint := by
      simp [hresult, hcode]
    have hgate : (s.gate.recordTest (decide ((checkHandoff result' s.currentFingerprint).returncode = 0))
        s.currentFingerprint).requireVerification = true := by simpa using hrequired
    have hmint := @GateInv.mint F _ t passes result' args ignored hgate hcode (by rwa [hverified])
    rwa [hverified] at hmint
  · refine GateInv.cleared (by simpa using hrequired) ?_ _ _
    simp [hresult, hcode]

/-- Any other call leaves the fingerprint to be compared with what is there. -/
theorem settleCall_other {name : String} (hname : name ≠ "run_tests")
    {result result' : ToolResult F} {s s' : BatchState}
    (h : settleCall name result s = (result', s')) :
    result' = result ∧ s'.gate = s.gate.sync s.currentFingerprint := by
  rw [settleCall, if_neg hname] at h
  injection h with hresult hs
  exact ⟨hresult.symm, by rw [← hs]⟩

theorem passOf_other {name : String} (hname : name ≠ "run_tests") (r : ToolResult F) :
    passOf name r = [] := if_neg fun h => hname h.1

/-- The step lemma: a call that is no submission keeps the invariant, whatever
the executor makes of it. -/
theorem executeCall_ok {ignored : List String} {onStructuredEdit : Bool}
    {call : NormalizedCall F} {s s' : BatchState} {t u : List (BatchEvent F)}
    {passes : List (ToolResult F)} {result : ToolResult F}
    (h : Trace (executeCall ignored onStructuredEdit call s) u (.ok (result, s')))
    (hs : GateInv s.gate t passes) :
    GateInv s'.gate (t ++ u) (passes ++ passOf call.name result) ∧
      result.submitted = false := by
  simp only [executeCall, bind_eq, trace_bind_ok] at h
  obtain ⟨result₁, u₁, u', rfl, hrun, result₂, u₂, u₃, rfl, hedit, h⟩ := h
  obtain ⟨args, a, rfl, hsub₁, hpass⟩ := runTool_ok hrun
  obtain ⟨hu₂, hsub₂, hnoedit⟩ := recordEdit_ok hedit
  have hrequired := requireAfterMutation_requireVerification call.name result₂ hs.required
  have hverified := requireAfterMutation_verifiedFingerprint call.name result₂ s.gate
  split at h
  · next hmutating =>
      simp only [trace_bind_ok, trace_guarded] at h
      obtain ⟨c, u₄, u₅, rfl, ⟨rfl, -⟩, h⟩ := h
      cases c with
      | ok fingerprint =>
          simp only [pure_eq, trace_done] at h
          obtain ⟨rfl, h⟩ := h
          injection h with hsettle
          by_cases htest : call.name = "run_tests"
          · obtain ⟨rfl, rfl⟩ := hnoedit (by rw [htest]; decide)
            rw [htest] at hsettle hrequired ⊢
            refine ⟨?_, ?_⟩
            · exact settleCall_test hsettle.symm hrequired hpass
            · have hresult : result = _ := congrArg Prod.fst hsettle
              rw [hresult, settleCall, if_pos rfl]
              exact (checkHandoff_submitted _ _).trans hsub₁
          · obtain ⟨rfl, hgate⟩ := settleCall_other htest hsettle.symm
            rw [passOf_other htest, List.append_nil passes]
            refine ⟨hs.frame ?_ ?_ ?_, hsub₂ hsub₁⟩
            · rw [hgate, VerificationGate.sync_requireVerification]
              exact hrequired
            · rw [hgate, VerificationGate.sync_verifiedFingerprint]
              exact hverified
            · simp only [List.singleton_append, List.append_nil, List.mem_cons, List.mem_append,
                List.not_mem_nil, or_false]
              rintro e (rfl | he | rfl)
              · exact not_testRun_executeTool htest
              · exact hu₂ e he
              · exact not_testRun_capture
      | error exc =>
          simp only [pure_eq, trace_done] at h
          obtain ⟨rfl, h⟩ := h
          injection h with h
          injection h with hresult hgate
          subst hresult hgate
          exact ⟨GateInv.cleared (g := VerificationGate.captureFailed _) hrequired rfl _ _, rfl⟩
  · next hmutating =>
      have htest : call.name ≠ "run_tests" := by
        intro htest
        exact hmutating (by rw [htest]; decide)
      simp only [pure_eq, trace_done] at h
      obtain ⟨rfl, h⟩ := h
      injection h with hsettle
      obtain ⟨rfl, hgate⟩ := settleCall_other htest hsettle.symm
      rw [passOf_other htest, List.append_nil passes]
      refine ⟨hs.frame ?_ ?_ ?_, hsub₂ hsub₁⟩
      · rw [hgate, VerificationGate.sync_requireVerification]
        exact hrequired
      · rw [hgate, VerificationGate.sync_verifiedFingerprint]
        exact hverified
      · simp only [List.singleton_append, List.append_nil, List.mem_cons]
        rintro e (rfl | he)
        · exact not_testRun_executeTool htest
        · exact hu₂ e he

/-! ## The batch -/

/-- The passing tests among the results of the calls. -/
def passesOf : List (NormalizedCall F) → List (Option (ToolResult F)) → List (ToolResult F)
  | call :: calls, some r :: results => passOf call.name r ++ passesOf calls results
  | _ :: calls, none :: results => passesOf calls results
  | _, _ => []

/-- The loop fills a place with a result exactly where no submission stands,
and that result is none. -/
inductive LoopResults : List (NormalizedCall F) → List (Option (ToolResult F)) → Prop
  | nil : LoopResults [] []
  | submission {call calls results} (hname : call.name = "submit")
      (h : LoopResults calls results) : LoopResults (call :: calls) (none :: results)
  | result {call calls r results} (hsub : r.submitted = false)
      (h : LoopResults calls results) : LoopResults (call :: calls) (some r :: results)

/-- The run lemma of the loop. -/
theorem executeCalls_ok {ignored : List String} {onStructuredEdit : Bool}
    {initialCaptureError : String} {calls : List (NormalizedCall F)} {s s' : BatchState}
    {t u : List (BatchEvent F)} {passes : List (ToolResult F)}
    {results : List (Option (ToolResult F))}
    (h : Trace (executeCalls ignored onStructuredEdit initialCaptureError calls s) u
      (.ok (results, s')))
    (hs : GateInv s.gate t passes) :
    GateInv s'.gate (t ++ u) (passes ++ passesOf calls results) ∧ LoopResults calls results := by
  induction calls generalizing s t u passes results with
  | nil =>
      simp only [executeCalls, pure_eq, trace_done] at h
      obtain ⟨rfl, h⟩ := h
      injection h with h
      injection h with hresults hs'
      subst hresults hs'
      refine ⟨?_, .nil⟩
      rw [List.append_nil, passesOf, List.append_nil]
      · exact hs
      all_goals simp
  | cons call calls ih =>
      rw [executeCalls] at h
      split at h
      · next hname =>
          simp only [bind_eq, trace_bind_ok] at h
          obtain ⟨⟨rest, s₁⟩, u₁, u₂, rfl, hrest, h⟩ := h
          simp only [pure_eq, trace_done] at h
          obtain ⟨rfl, h⟩ := h
          injection h with h
          injection h with hresults hs'
          subst hresults hs'
          obtain ⟨hinv, hsettled⟩ := ih hrest hs
          rw [List.append_nil]
          exact ⟨hinv, .submission hname hsettled⟩
      · split at h
        · simp only [bind_eq, trace_bind_ok] at h
          obtain ⟨⟨rest, s₁⟩, u₁, u₂, rfl, hrest, h⟩ := h
          simp only [pure_eq, trace_done] at h
          obtain ⟨rfl, h⟩ := h
          injection h with h
          injection h with hresults hs'
          subst hresults hs'
          obtain ⟨hinv, hsettled⟩ := ih hrest hs
          rw [List.append_nil]
          refine ⟨?_, .result rfl hsettled⟩
          rw [passesOf, passOf, if_neg (by simp [toolExceptionResult])]
          exact hinv
        · simp only [bind_eq, trace_bind_ok] at h
          obtain ⟨⟨result, s₁⟩, u₁, u', rfl, hcall, ⟨rest, s₂⟩, u₂, u₃, rfl, hrest, h⟩ := h
          simp only [pure_eq, trace_done] at h
          obtain ⟨rfl, h⟩ := h
          injection h with h
          injection h with hresults hs'
          subst hresults hs'
          obtain ⟨hinv₁, hsub⟩ := executeCall_ok hcall hs
          obtain ⟨hinv, hsettled⟩ := ih hrest hinv₁
          refine ⟨?_, .result hsub hsettled⟩
          rw [passesOf, List.append_nil, ← List.append_assoc, ← List.append_assoc]
          exact hinv

/-- The executor was asked to submit. -/
def SubmitRun (e : BatchEvent F) : Prop := ∃ args, e.op = .executeTool "submit" args

theorem SubmitRun.not_testRun {e : BatchEvent F} (h : SubmitRun e) : ¬ TestRun e := by
  rintro ⟨args, htest⟩
  obtain ⟨args', h⟩ := h
  rw [h] at htest
  injection htest with hname
  exact absurd hname (by decide)

/-- The passing tests a batch reports. -/
def passes (executed : List (ExecutedToolCall F)) : List (ToolResult F) :=
  executed.flatMap fun c => passOf c.name c.result

/-- One submission: the executor is asked only when nothing speaks against it. -/
theorem executeSubmit_ok {submissionError : Option (String × String)} {args : Json F}
    {u : List (BatchEvent F)} {result : ToolResult F}
    (h : Trace (executeSubmit submissionError args) u (.ok result)) :
    (∀ e ∈ u, SubmitRun e) ∧ (result.submitted = true → submissionError = none) := by
  unfold executeSubmit at h
  split at h
  · next exceptionInfo output =>
      simp only [pure_eq, trace_done] at h
      obtain ⟨rfl, h⟩ := h
      injection h with h
      subst h
      exact ⟨by simp, by simp [blockedSubmission]⟩
  · simp only [bind_eq, trace_bind_ok, trace_guarded] at h
    obtain ⟨a, u₁, u₂, rfl, ⟨rfl, -⟩, h⟩ := h
    have hu₂ : u₂ = [] := by
      cases a <;> exact (trace_done.1 h).1
    subst hu₂
    refine ⟨?_, fun _ => rfl⟩
    intro e he
    rw [List.append_nil, List.mem_singleton] at he
    subst he
    exact ⟨_, rfl⟩

theorem executeSubmits_ok {submissionError : Option (String × String)}
    {calls : List (NormalizedCall F)} {results : List (Option (ToolResult F))}
    (hsettled : LoopResults calls results) {u : List (BatchEvent F)}
    {executed : List (ExecutedToolCall F)}
    (h : Trace (executeSubmits submissionError calls results) u (.ok executed)) :
    (∀ e ∈ u, SubmitRun e) ∧ passes executed = passesOf calls results ∧
      ∀ c ∈ executed, c.result.submitted = true →
        submissionError = none ∧ ∃ call ∈ calls, call.name = "submit" := by
  induction hsettled generalizing u executed with
  | nil =>
      simp only [executeSubmits, pure_eq, trace_done] at h
      obtain ⟨rfl, h⟩ := h
      injection h with h
      subst h
      exact ⟨by simp, rfl, by simp⟩
  | submission hname _ ih =>
      simp only [executeSubmits, bind_eq, trace_bind_ok] at h
      obtain ⟨result, u₁, u', rfl, hsubmit, rest, u₂, u₃, rfl, hrest, h⟩ := h
      simp only [pure_eq, trace_done] at h
      obtain ⟨rfl, h⟩ := h
      injection h with h
      subst h
      obtain ⟨hu₁, hnone⟩ := executeSubmit_ok hsubmit
      obtain ⟨hu₂, hpasses, hall⟩ := ih hrest
      refine ⟨?_, ?_, ?_⟩
      · intro e he
        rw [List.append_nil, List.mem_append] at he
        exact he.elim (hu₁ e) (hu₂ e)
      · have htest : "submit" ≠ "run_tests" := by decide
        rw [passes, List.flatMap_cons, hname, passOf_other htest]
        exact hpasses
      · intro c hc hsub
        rcases List.mem_cons.1 hc with rfl | hc
        · exact ⟨hnone hsub, _, List.mem_cons_self, hname⟩
        · obtain ⟨herror, call, hcall, hsubmit⟩ := hall c hc hsub
          exact ⟨herror, call, List.mem_cons_of_mem _ hcall, hsubmit⟩
  | result hsub _ ih =>
      simp only [executeSubmits, bind_eq, trace_bind_ok] at h
      obtain ⟨rest, u₁, u₂, rfl, hrest, h⟩ := h
      simp only [pure_eq, trace_done] at h
      obtain ⟨rfl, h⟩ := h
      injection h with h
      subst h
      obtain ⟨hu₁, hpasses, hall⟩ := ih hrest
      rw [List.append_nil]
      refine ⟨hu₁, ?_, ?_⟩
      · rw [passes, List.flatMap_cons, passesOf]
        exact congrArg _ hpasses
      · intro c hc hc'
        rcases List.mem_cons.1 hc with rfl | hc
        · rw [hsub] at hc'
          cases hc'
        · obtain ⟨herror, call, hcall, hsubmit⟩ := hall c hc hc'
          exact ⟨herror, call, List.mem_cons_of_mem _ hcall, hsubmit⟩

/-- The trace ends in an accepted submission: a last capture, found to be the
fingerprint the gate holds, with nothing but submissions after it. -/
def VerifiedSubmission (t : List (BatchEvent F)) (g : VerificationGate) (r : ToolResult F) :
    Prop :=
  ∃ before ignored fingerprint since,
    t = before ++ ⟨.captureWorkspaceFingerprint ignored, .ok fingerprint⟩ :: since ∧
    (∀ e ∈ since, SubmitRun e) ∧ g.verifiedFingerprint = fingerprint ∧
    MintedBy before r fingerprint

def CapturesNonempty (t : List (BatchEvent F)) : Prop :=
  ∀ ignored fingerprint,
    (⟨.captureWorkspaceFingerprint ignored, .ok fingerprint⟩ : BatchEvent F) ∈ t →
      fingerprint ≠ ""

theorem decideSubmission_ok {ignored : List String} {calls : List (NormalizedCall F)}
    {g g' : VerificationGate} {t u : List (BatchEvent F)} {passes : List (ToolResult F)}
    {submissionError : Option (String × String)}
    (h : Trace (decideSubmission ignored calls g) u (.ok (submissionError, g')))
    (hg : GateInv g t passes) :
    GateInv g' (t ++ u) passes ∧
      (submissionError = none → (∃ call ∈ calls, call.name = "submit") →
        u = [⟨.captureWorkspaceFingerprint ignored, .ok g'.verifiedFingerprint⟩] ∧
          g'.verifiedFingerprint = g.verifiedFingerprint) := by
  unfold decideSubmission at h
  split at h
  · next hany =>
      simp only [bind_eq, trace_bind_ok, trace_guarded] at h
      obtain ⟨a, u₁, u₂, rfl, ⟨rfl, -⟩, h⟩ := h
      have hframe : ∀ e ∈ ([⟨.captureWorkspaceFingerprint ignored, a⟩] : List (BatchEvent F)),
          ¬ TestRun e := by
        intro e he
        rw [List.mem_singleton] at he
        subst he
        exact not_testRun_capture
      cases a with
      | ok fingerprint =>
          change String at fingerprint
          simp only [pure_eq, trace_done] at h
          obtain ⟨rfl, h⟩ := h
          injection h with h
          have hsync := VerificationGate.submissionError_snd g fingerprint
          rw [← h] at hsync
          simp only at hsync
          rw [List.append_nil, hsync]
          refine ⟨hg.frame (by simpa using hg.required) (by simp) hframe, ?_⟩
          rintro rfl -
          have := VerificationGate.submissionError_none h.symm hg.required
          rw [VerificationGate.sync_verifiedFingerprint, this]
          exact ⟨rfl, rfl⟩
      | error exc =>
          simp only [pure_eq, trace_done] at h
          obtain ⟨rfl, h⟩ := h
          injection h with h
          injection h with herror hgate
          subst herror hgate
          rw [List.append_nil]
          exact ⟨hg.frame hg.required rfl hframe, by rintro ⟨⟩⟩
  · next hany =>
      simp only [pure_eq, trace_done] at h
      obtain ⟨rfl, h⟩ := h
      injection h with h
      injection h with herror hgate
      subst herror hgate
      rw [List.append_nil]
      refine ⟨hg, ?_⟩
      rintro - ⟨call, hcall, hname⟩
      exact absurd (List.any_eq_true.2 ⟨call, hcall, by simpa using hname⟩) hany

theorem batchOutcome_submitted {executed : List (ExecutedToolCall F)}
    (h : (batchOutcome executed).submitted = true) :
    ∃ c ∈ executed, c.result.submitted = true := by
  simpa [batchOutcome] using h

theorem initialCapture_ok {ignored : List String} {g : VerificationGate} {s : BatchState}
    {initialCaptureError : String} {t u : List (BatchEvent F)} {passed : List (ToolResult F)}
    (h : Trace (initialCapture ignored g) u (.ok (initialCaptureError, s)))
    (hg : GateInv g t passed) : GateInv s.gate (t ++ u) passed := by
  simp only [initialCapture, bind_eq, trace_bind_ok, trace_guarded] at h
  obtain ⟨a, u₁, u₂, rfl, ⟨rfl, -⟩, h⟩ := h
  cases a with
  | ok fingerprint =>
      change String at fingerprint
      simp only [pure_eq, trace_done] at h
      obtain ⟨rfl, h⟩ := h
      injection h with h
      injection h with _ hs
      subst hs
      refine hg.frame (by simpa using hg.required) (by simp) ?_
      intro e he
      rw [List.append_nil, List.mem_singleton] at he
      subst he
      exact not_testRun_capture
  | error exc =>
      simp only [pure_eq, trace_done] at h
      obtain ⟨rfl, h⟩ := h
      injection h with h
      injection h with _ hs
      subst hs
      exact GateInv.cleared (g := g.captureFailed) hg.required rfl _ _

/-- What a batch does, accepted submissions included. -/
theorem executeToolBatch_ok {ignored : List String} {onStructuredEdit : Bool}
    {calls : List (ToolCall F)} {g g' : VerificationGate} {t u : List (BatchEvent F)}
    {passed : List (ToolResult F)} {outcome : ToolBatchOutcome F}
    (h : Trace (executeToolBatch ignored onStructuredEdit calls g) u (.ok (outcome, g')))
    (hg : GateInv g t passed) :
    GateInv g' (t ++ u) (passed ++ passes outcome.calls) ∧
      (outcome.submitted = true → CapturesNonempty u →
        ∃ r, VerifiedSubmission (t ++ u) g' r ∧
          (passed ++ passes outcome.calls).getLast? = some r) := by
  simp only [executeToolBatch, bind_eq, trace_bind_ok] at h
  obtain ⟨⟨initialCaptureError, s⟩, u₁, v₁, rfl, hcapture, h⟩ := h
  obtain ⟨⟨results, s₁⟩, u₂, v₂, rfl, hcalls, h⟩ := h
  obtain ⟨⟨submissionError, g₁⟩, u₃, v₃, rfl, hdecide, h⟩ := h
  obtain ⟨executed, u₄, v₄, rfl, hsubmits, h⟩ := h
  simp only [pure_eq, trace_done] at h
  obtain ⟨rfl, h⟩ := h
  injection h with h
  injection h with houtcome hgate
  subst houtcome hgate
  have hinv₀ := initialCapture_ok hcapture hg
  obtain ⟨hinv₁, hsettled⟩ := executeCalls_ok hcalls hinv₀
  obtain ⟨hinv₂, hdecision⟩ := decideSubmission_ok hdecide hinv₁
  obtain ⟨hu₄, hpasses, haccepted⟩ := executeSubmits_ok hsettled hsubmits
  have hcallsEq : (batchOutcome executed).calls = executed := rfl
  rw [hcallsEq, hpasses]
  refine ⟨?_, ?_⟩
  · have := hinv₂.frame hinv₂.required rfl fun e he => (hu₄ e he).not_testRun
    simpa [List.append_assoc] using this
  · intro hsubmitted hnonempty
    obtain ⟨c, hc, hsub⟩ := batchOutcome_submitted hsubmitted
    obtain ⟨herror, hcall⟩ := haccepted c hc hsub
    obtain ⟨rfl, hsame⟩ := hdecision herror hcall
    have hne : g'.verifiedFingerprint ≠ "" := hnonempty ignored _ (by simp)
    rw [hsame] at hne
    obtain ⟨r, hminted, hlast⟩ := hinv₁.minted hne
    refine ⟨r, ⟨t ++ u₁ ++ u₂, ignored, _, u₄, ?_, hu₄, rfl, ?_⟩, hlast⟩
    · simp [List.append_assoc]
    · rw [hsame]
      exact hminted

/-! ## Runs -/

/-- Whatever the document said, a resumed gate has verified nothing. -/
theorem restoreState_gate [Json.PyFloat F] {env : AgentEnv F} {data : Json F}
    {task fingerprint : String} {self : AgentSelf F} {state : AgentState F}
    (h : restoreState env data task fingerprint = .ok (self, state)) :
    state.gate.requireVerification = true ∧ state.gate.verifiedFingerprint = "" := by
  obtain ⟨baseline, current, hasChanges, hgate, -⟩ := restoreState_ok h
  rw [hgate, restoreGate]
  simp

/-- The run lemma: along any run the gate's fingerprint is a fresh one. -/
theorem GateRun.inv [Json.PyFloat F] {env : AgentEnv F} {g : VerificationGate}
    {t : List (BatchEvent F)} (h : GateRun env g t) : ∃ passed, GateInv g t passed := by
  induction h with
  | create fingerprint => exact ⟨[], GateInv.cleared rfl rfl _ _⟩
  | batch _ _ _ _ hbatch ih =>
      obtain ⟨passed, hinv⟩ := ih
      exact ⟨_, (executeToolBatch_ok hbatch hinv).1⟩
  | resume _ _ _ _ _ _ _ _ hrestore _ =>
      obtain ⟨hrequired, hverified⟩ := restoreState_gate hrestore
      exact ⟨[], GateInv.cleared hrequired hverified _ _⟩

/-- A batch reports a submission only on a fingerprint captured for it that a
passing test has minted since the last resume, no test having run in between. -/
theorem submitted_verified [Json.PyFloat F] {env : AgentEnv F} {g g' : VerificationGate}
    {t u : List (BatchEvent F)} {ignored : List String} {onStructuredEdit : Bool}
    {calls : List (ToolCall F)} {outcome : ToolBatchOutcome F} (hrun : GateRun env g t)
    (hbatch : Trace (executeToolBatch ignored onStructuredEdit calls g) u
      (.ok (outcome, g')))
    (hnonempty : CapturesNonempty (t ++ u)) (hsubmitted : outcome.submitted = true) :
    ∃ r, VerifiedSubmission (t ++ u) g' r := by
  obtain ⟨passed, hinv⟩ := hrun.inv
  have hu : CapturesNonempty u := fun ignored fingerprint hmem =>
    hnonempty ignored fingerprint (List.mem_append_right t hmem)
  obtain ⟨r, hr, -⟩ := (executeToolBatch_ok hbatch hinv).2 hsubmitted hu
  exact ⟨r, hr⟩

/-! The shortest accepted run: one message that tests and submits. -/

namespace Sample

def env : AgentEnv Unit where
  redactor := ⟨[], id, markedOr_id⟩
  auditToolArgs _ args := args
  saveMessages _ := .ok (.arr [])
  loadMessages _ := .ok []
  loadUndoRecords _ := .ok ()
  resolvePath path := path
  repr _ := ""
  cwd := "/workspace"
  sandbox := "off"
  maxSteps := 50
  ignored := []

def calls : List (ToolCall Unit) := [⟨"run_tests", .obj [], none⟩, ⟨"submit", .obj [], none⟩]

def testPassed : ToolResult Unit where
  tool := "run_tests"
  output := "ok"
  returncode := 0
  durationMs := 5

def submission : ToolResult Unit where
  tool := "submit"
  output := "done"
  returncode := 0
  durationMs := 0
  submitted := true

def trace : List (BatchEvent Unit) :=
  [⟨.captureWorkspaceFingerprint [], .ok "f"⟩,
    ⟨.executeTool "run_tests" (.verificationIgnorePaths []), .ok testPassed⟩,
    ⟨.captureWorkspaceFingerprint [], .ok "f"⟩, ⟨.captureWorkspaceFingerprint [], .ok "f"⟩,
    ⟨.executeTool "submit" (.given (.obj [])), .ok submission⟩]

def gate : VerificationGate := ⟨"f", "f", "f", .passed, false, true⟩

def outcome : ToolBatchOutcome Unit :=
  batchOutcome [⟨"run_tests", .obj [], "tool-1", testPassed⟩,
    ⟨"submit", .obj [], "tool-2", submission⟩]

theorem batch : Trace (executeToolBatch [] true calls (.create "f" true)) trace
    (.ok (outcome, gate)) :=
  .op (.op (.op (.op (.op (.nil _)))))

theorem captures : CapturesNonempty trace := by
  have hne : "f" ≠ "" := by decide
  intro ignored fingerprint h
  simp only [trace, List.mem_cons, List.not_mem_nil, or_false] at h
  rcases h with h | h | h | h | h <;> cases h <;> exact hne

end Sample

theorem submitted_verified_sample : ∃ r, VerifiedSubmission Sample.trace Sample.gate r :=
  submitted_verified (show GateRun Sample.env _ _ from GateRun.create "f") Sample.batch Sample.captures rfl

end MiniCodeAgent
