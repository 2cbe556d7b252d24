import MiniCodeAgent.Checks

/-!
# The verdict of the verification matrix

Every exit of the loop but its end is a failure, and each is taken at an event that the
matrix does not let pass: a capture that raised or found another workspace than the
baseline, a check that raised, was not authorized or reported a fatal exception
(`Undisturbed` is what an event has to be). `runChecks_cons` says so of one turn of the
loop; by induction a run either stopped at such an event, with no check executed after
it, or it went through all the checks without one (`runChecks_ends`).
-/

namespace MiniCodeAgent

open Prog

/-! ## What an event has to be -/

abbrev captured (res : Except PyExc String) : MatrixEvent := ⟨.captureFingerprint, res⟩

abbrev executed (check : VerificationCheck) (res : Except PyExc VerificationCheckExecution) :
    MatrixEvent := ⟨.executeCheck check, res⟩

/-- The check was authorized, and nothing but missing tests is reported of it. -/
def Accepted (item : VerificationCheckEvidence) : Prop :=
  item.blocked = false ∧ item.approved = true ∧
    (item.exceptionInfo = "" ∨ item.exceptionInfo = "NoTestsCollected")

/-- An event that does not stop the matrix. -/
inductive Undisturbed (baseline : String) : MatrixEvent → Prop
  | captured : Undisturbed baseline (captured (.ok baseline))
  | executed {check execution} (h : Accepted execution.evidence) :
      Undisturbed baseline (executed check (.ok execution))

/-- The check an event is the execution of. -/
def checkOf : MatrixEvent → Option VerificationCheck
  | ⟨.captureFingerprint, _⟩ => none
  | ⟨.executeCheck check, _⟩ => some check

/-- The evidence an event brings in. -/
def evidenceOf : MatrixEvent → Option VerificationCheckEvidence
  | ⟨.captureFingerprint, _⟩ => none
  | ⟨.executeCheck _, .ok execution⟩ => some execution.evidence
  | ⟨.executeCheck _, .error _⟩ => none

/-- No check is executed once an event has disturbed the matrix. -/
def StopsWhenDisturbed (baseline : String) (u : List MatrixEvent) : Prop :=
  u.Pairwise fun e later => ¬ Undisturbed baseline e → checkOf later = none

theorem judgeCheck_none {check : VerificationCheck} {item : VerificationCheckEvidence}
    {log : MatrixLog} : judgeCheck check item log = none ↔ Accepted item := by
  unfold judgeCheck Accepted
  split
  · next h =>
      refine ⟨fun hsome => absurd hsome (Option.some_ne_none _), fun hitem => ?_⟩
      rcases h with h | h
      · rw [hitem.1] at h
        cases h
      · rw [hitem.2.1] at h
        cases h
  · next h =>
      rw [not_or, Bool.not_eq_true, Bool.not_eq_false] at h
      split
      · next hfatal =>
          refine ⟨fun hsome => absurd hsome (Option.some_ne_none _), fun hitem => ?_⟩
          exact absurd hitem.2.2 (not_or.2 hfatal)
      · next hfatal =>
          rw [not_and_or, not_not, not_not] at hfatal
          exact ⟨fun _ => ⟨h.1, h.2, hfatal⟩, fun _ => rfl⟩

/-- A failure of the matrix says so, and names no workspace. -/
def Fails (u : List MatrixEvent) (r : Except PyExc VerificationMatrixResult) : Prop :=
  (∃ result, r = .ok result ∧ result.returncode = -1 ∧ result.verificationFingerprint = "") ∨
    ∃ exc, r = .error exc ∧ exc.isException = false ∧ ∃ e ∈ u, e.res = .error exc

theorem fails_matrixFailure (u : List MatrixEvent) (log : MatrixLog)
    (exceptionInfo headline : String) (blocked approved : Bool) :
    Fails u (.ok (matrixFailure log exceptionInfo headline blocked approved)) :=
  Or.inl ⟨_, rfl, rfl, rfl⟩

theorem judgeCheck_some {check : VerificationCheck} {item : VerificationCheckEvidence}
    {log : MatrixLog} {result : VerificationMatrixResult}
    (h : judgeCheck check item log = some result) (u : List MatrixEvent) :
    Fails u (.ok result) := by
  unfold judgeCheck at h
  split at h
  · injection h with h
    exact h ▸ fails_matrixFailure u _ _ _ _ _
  · split at h
    · injection h with h
      exact h ▸ fails_matrixFailure u _ _ _ _ _
    · cases h

theorem fails_raised {o : MatrixOp} {exc : PyExc} {result : VerificationMatrixResult}
    {u : List MatrixEvent} (hresult : Fails u (.ok result)) (hmem : ⟨o, .error exc⟩ ∈ u) :
    Fails u (if exc.isException then .ok result else .error exc) := by
  by_cases hexc : exc.isException = true
  · rw [if_pos hexc]
    exact hresult
  · rw [if_neg hexc]
    rw [Bool.not_eq_true] at hexc
    exact Or.inr ⟨exc, rfl, hexc, _, hmem, rfl⟩

/-! ## One turn of the loop -/

/-- The matrix met an event it does not let pass, and ended there. -/
structure Stopped (baseline : String) (u : List MatrixEvent)
    (r : Except PyExc VerificationMatrixResult) : Prop where
  disturbed : ∃ e ∈ u, ¬ Undisturbed baseline e
  stops : StopsWhenDisturbed baseline u
  fails : Fails u r

theorem not_undisturbed_error {baseline : String} {o : MatrixOp} {exc : PyExc} :
    ¬ Undisturbed baseline ⟨o, .error exc⟩ := by
  intro h
  cases h

theorem not_undisturbed_other {baseline other : String} (hne : other ≠ baseline) :
    ¬ Undisturbed baseline (captured (.ok other)) := by
  intro h
  cases h
  exact hne rfl

theorem undisturbed_executed {baseline : String} {check : VerificationCheck}
    {execution : VerificationCheckExecution}
    (h : Undisturbed baseline (executed check (.ok execution))) :
    Accepted execution.evidence := by
  cases h with
  | executed h => exact h

section

variable {baseline : String} {u : List MatrixEvent} {r : Except PyExc VerificationMatrixResult}

/-- In front of a stop stands an event that is undisturbed, or after which no check is
executed. -/
theorem Stopped.cons {e : MatrixEvent} (h : Stopped baseline u r)
    (he : Undisturbed baseline e ∨ ∀ later ∈ u, checkOf later = none) :
    Stopped baseline (e :: u) r where
  disturbed := by
    obtain ⟨e', hmem, hnot⟩ := h.disturbed
    exact ⟨e', List.mem_cons_of_mem _ hmem, hnot⟩
  stops := by
    refine List.pairwise_cons.2 ⟨fun later hlater hnot => ?_, h.stops⟩
    exact he.elim (fun hgood => absurd hgood hnot) fun hnone => hnone later hlater
  fails := by
    rcases h.fails with hresult | hraised
    · exact Or.inl hresult
    · obtain ⟨exc, hr, hexc, e', hmem, hres⟩ := hraised
      exact Or.inr ⟨exc, hr, hexc, e', List.mem_cons_of_mem _ hmem, hres⟩

/-- A run stopped by its first event executes no check after it. -/
theorem stopped_here {e : MatrixEvent} (he : ¬ Undisturbed baseline e)
    (hquiet : ∀ later ∈ u, checkOf later = none) (h : Fails (e :: u) r) :
    Stopped baseline (e :: u) r where
  disturbed := ⟨e, List.mem_cons_self, he⟩
  stops := by
    refine List.pairwise_cons.2 ⟨fun later hlater _ => hquiet later hlater, ?_⟩
    refine List.pairwise_iff_forall_sublist.2 fun {first later} hsub _ => ?_
    exact hquiet later (hsub.subset (List.mem_cons_of_mem _ (List.mem_singleton_self later)))
  fails := h

theorem stopped_last {e : MatrixEvent} (he : ¬ Undisturbed baseline e) (h : Fails [e] r) :
    Stopped baseline [e] r :=
  stopped_here he (fun _ hlater => absurd hlater List.not_mem_nil) h

/-- One turn of the loop stops the matrix, or it leaves three undisturbed events and the
check's evidence behind. -/
theorem runChecks_cons {check : VerificationCheck} {checks : List VerificationCheck}
    {log : MatrixLog} (h : Trace (runChecks baseline (check :: checks) log) u r) :
    Stopped baseline u r ∨ ∃ execution v,
      u = captured (.ok baseline) :: executed check (.ok execution) ::
        captured (.ok baseline) :: v ∧
      Accepted execution.evidence ∧ Trace (runChecks baseline checks (log.add execution)) v r := by
  have hfound : Undisturbed baseline (captured (.ok baseline)) := .captured
  have hquiet : ∀ res, ∀ later ∈ [captured res], checkOf later = none := by
    intro res later hlater
    rw [List.mem_singleton.1 hlater]
    rfl
  rw [runChecks] at h
  rcases trace_tryExcept.1 h with hbefore | hraised
  swap
  · obtain ⟨exc, rfl, rfl⟩ := hraised
    exact Or.inl (stopped_last not_undisturbed_error
      (fails_raised (fails_matrixFailure _ _ _ _ _ _) (List.mem_singleton_self _)))
  obtain ⟨(before : String), v₁, rfl, hrun⟩ := hbefore
  by_cases hsame : before ≠ baseline
  · rw [if_pos hsame] at hrun
    obtain ⟨rfl, rfl⟩ := trace_done.1 hrun
    exact Or.inl (stopped_last (not_undisturbed_other hsame) (fails_matrixFailure _ _ _ _ _ _))
  rw [if_neg hsame] at hrun
  rw [not_not] at hsame
  subst hsame
  rcases trace_tryExcept.1 hrun with hexecuted | hraised
  swap
  · obtain ⟨exc, rfl, rfl⟩ := hraised
    exact Or.inl ((stopped_last not_undisturbed_error (fails_raised
      (fails_matrixFailure _ _ _ _ _ _) (List.mem_singleton_self _))).cons (Or.inl hfound))
  obtain ⟨(execution : VerificationCheckExecution), v₂, rfl, hcapture⟩ := hexecuted
  rcases trace_tryExcept.1 hcapture with hafter | hraised
  swap
  · obtain ⟨exc, rfl, rfl⟩ := hraised
    exact Or.inl (((stopped_last not_undisturbed_error (fails_raised
      (fails_matrixFailure _ _ _ _ _ _) (List.mem_singleton_self _))).cons
        (Or.inr (hquiet _))).cons (Or.inl hfound))
  obtain ⟨(after : String), v₃, rfl, hrest⟩ := hafter
  by_cases hsame : after ≠ before
  · rw [if_pos hsame] at hrest
    obtain ⟨rfl, rfl⟩ := trace_done.1 hrest
    exact Or.inl (((stopped_last (not_undisturbed_other hsame)
      (fails_matrixFailure _ _ _ _ _ _)).cons (Or.inr (hquiet _))).cons (Or.inl hfound))
  rw [if_neg hsame] at hrest
  rw [not_not] at hsame
  subst hsame
  cases hjudged : judgeCheck check execution.evidence (log.add execution) with
  | none =>
      rw [hjudged] at hrest
      exact Or.inr ⟨execution, v₃, rfl, judgeCheck_none.1 hjudged, hrest⟩
  | some result =>
      rw [hjudged] at hrest
      obtain ⟨rfl, rfl⟩ := trace_done.1 hrest
      have hnot : ¬ Undisturbed after (executed check (.ok execution)) := by
        intro hgood
        rw [judgeCheck_none.2 (undisturbed_executed hgood)] at hjudged
        cases hjudged
      exact Or.inl ((stopped_here hnot (hquiet _) (judgeCheck_some hjudged _)).cons
        (Or.inl hfound))

/-! ## A whole run -/

/-- The matrix went through all the checks, and gave its verdict on their evidence. -/
structure Completed (baseline : String) (checks : List VerificationCheck) (log : MatrixLog)
    (u : List MatrixEvent) (r : Except PyExc VerificationMatrixResult) : Prop where
  undisturbed : ∀ e ∈ u, Undisturbed baseline e
  executions : u.filterMap checkOf = checks
  verdict : ∃ outputs, r = .ok (matrixVerdict baseline
    ⟨log.evidence ++ u.filterMap evidenceOf, log.outputs ++ outputs⟩)

theorem runChecks_ends {checks : List VerificationCheck} {log : MatrixLog}
    (h : Trace (runChecks baseline checks log) u r) :
    Stopped baseline u r ∨ Completed baseline checks log u r := by
  have hfound : Undisturbed baseline (captured (.ok baseline)) := .captured
  induction checks generalizing log u with
  | nil =>
      obtain ⟨rfl, rfl⟩ := trace_done.1 h
      refine Or.inr ⟨fun e he => absurd he List.not_mem_nil, rfl, [], ?_⟩
      rw [List.filterMap_nil, List.append_nil, List.append_nil]
  | cons check checks ih =>
      rcases runChecks_cons h with hstopped | hturn
      · exact Or.inl hstopped
      obtain ⟨execution, v, rfl, haccepted, hrest⟩ := hturn
      have hexecuted : Undisturbed baseline (executed check (.ok execution)) :=
        .executed haccepted
      rcases ih hrest with hstopped | hcompleted
      · exact Or.inl (((hstopped.cons (Or.inl hfound)).cons (Or.inl hexecuted)).cons
          (Or.inl hfound))
      · obtain ⟨outputs, hverdict⟩ := hcompleted.verdict
        refine Or.inr ⟨?_, ?_, execution.output :: outputs, ?_⟩
        · intro e he
          simp only [List.mem_cons] at he
          rcases he with rfl | rfl | rfl | he
          · exact hfound
          · exact hexecuted
          · exact hfound
          · exact hcompleted.undisturbed e he
        · show check :: v.filterMap checkOf = check :: checks
          rw [hcompleted.executions]
        · rw [hverdict]
          show Except.ok (matrixVerdict baseline ⟨log.evidence ++ [execution.evidence] ++
              v.filterMap evidenceOf, log.outputs ++ [execution.output] ++ outputs⟩) =
            .ok (matrixVerdict baseline ⟨log.evidence ++ (execution.evidence ::
              v.filterMap evidenceOf), log.outputs ++ (execution.output :: outputs)⟩)
          simp only [List.append_assoc, List.singleton_append]

/-- The first capture found the baseline. -/
def Based (u : List MatrixEvent) (baseline : String) : Prop :=
  u.head? = some (captured (.ok baseline))

/-- What a verified workspace takes: every capture found the baseline, and every check was
executed once, in its turn, and passed. -/
structure AllPassed (baseline : String) (checks : List VerificationCheck)
    (u : List MatrixEvent) : Prop where
  captures : ∀ res, captured res ∈ u → res = .ok baseline
  executions : u.filterMap checkOf = checks
  passes : ∀ check res, executed check res ∈ u → ∃ execution, res = .ok execution ∧
    Accepted execution.evidence ∧ execution.evidence.returncode = 0

theorem AllPassed.undisturbed {checks : List VerificationCheck}
    (h : AllPassed baseline checks u) : ∀ e ∈ u, Undisturbed baseline e := by
  intro e he
  obtain ⟨o, res⟩ := e
  cases o with
  | captureFingerprint =>
      rw [h.captures res he]
      exact .captured
  | executeCheck check =>
      obtain ⟨execution, hres, haccepted, -⟩ := h.passes check res he
      rw [hres]
      exact .executed haccepted

theorem matrixVerdict_passed {log : MatrixLog} :
    (matrixVerdict baseline log).returncode = 0 ↔ ∀ item ∈ log.evidence, item.returncode = 0 := by
  simp only [matrixVerdict]
  split
  · next h => simpa using h
  · next h => simpa using h

theorem matrixVerdict_fingerprint {log : MatrixLog} :
    (matrixVerdict baseline log).verificationFingerprint =
      if (matrixVerdict baseline log).returncode = 0 then baseline else "" := by
  simp only [matrixVerdict]
  split <;> rfl

end

/-- What a run of the matrix comes to. -/
structure Verdict (checks : List VerificationCheck) (u : List MatrixEvent)
    (r : Except PyExc VerificationMatrixResult) : Prop where
  returns : OnlyExceptions u → ∃ result, r = .ok result
  passed : (∃ result, r = .ok result ∧ result.returncode = 0) ↔
    ∃ baseline, Based u baseline ∧ AllPassed baseline checks u
  fingerprint : ∀ result, r = .ok result → if result.returncode = 0 then
      Based u result.verificationFingerprint
    else result.verificationFingerprint = ""
  stops : ∀ baseline, Based u baseline → StopsWhenDisturbed baseline u
  unbased : (¬ ∃ baseline, Based u baseline) → ∀ e ∈ u, checkOf e = none

section

variable {baseline : String} {checks : List VerificationCheck} {u : List MatrixEvent}
  {r : Except PyExc VerificationMatrixResult}

theorem Based.eq {other : String} (h : Based u baseline) (h' : Based u other) :
    baseline = other := by
  rw [Based, h] at h'
  injection h' with h'
  injection h' with _ hres
  injection hres

theorem Fails.returns (h : Fails u r) (hu : OnlyExceptions u) : ∃ result, r = .ok result := by
  rcases h with hresult | hraised
  · obtain ⟨result, hr, -⟩ := hresult
    exact ⟨result, hr⟩
  · obtain ⟨exc, -, hexc, e, he, hres⟩ := hraised
    rw [hu e he exc hres] at hexc
    cases hexc

theorem Fails.result (h : Fails u r) {result : VerificationMatrixResult} (hr : r = .ok result) :
    result.returncode = -1 ∧ result.verificationFingerprint = "" := by
  rcases h with hresult | hraised
  · obtain ⟨other, hother, hfields⟩ := hresult
    rw [hr] at hother
    injection hother with hother
    rwa [hother]
  · obtain ⟨exc, hexc, -⟩ := hraised
    rw [hr] at hexc
    cases hexc

theorem verdict_stopped (hbased : Based u baseline) (h : Stopped baseline u r) :
    Verdict checks u r where
  returns := h.fails.returns
  passed := by
    refine ⟨fun hpassed => ?_, fun hpassed => ?_⟩
    · obtain ⟨result, hr, hzero⟩ := hpassed
      rw [(h.fails.result hr).1] at hzero
      cases hzero
    · obtain ⟨other, hother, hall⟩ := hpassed
      obtain ⟨e, he, hnot⟩ := h.disturbed
      rw [hbased.eq hother] at hnot
      exact absurd (hall.undisturbed e he) hnot
  fingerprint := by
    intro result hr
    obtain ⟨hcode, hempty⟩ := h.fails.result hr
    rw [hcode, if_neg (by decide)]
    exact hempty
  stops := by
    intro other hother
    rw [← hbased.eq hother]
    exact h.stops
  unbased := fun hnone => absurd ⟨baseline, hbased⟩ hnone

theorem verdict_completed (hbased : Based u baseline)
    (h : Completed baseline checks {} u r) : Verdict checks u r := by
  obtain ⟨outputs, hverdict⟩ := h.verdict
  constructor
  · exact fun _ => ⟨_, hverdict⟩
  · refine ⟨fun hpassed => ⟨baseline, hbased, ?_, h.executions, ?_⟩, fun hpassed => ?_⟩
    · intro res hmem
      cases h.undisturbed _ hmem
      rfl
    · intro check res hmem
      obtain ⟨result, hr, hzero⟩ := hpassed
      rw [hverdict] at hr
      injection hr with hr
      rw [← hr, matrixVerdict_passed] at hzero
      cases h.undisturbed _ hmem with
      | executed haccepted =>
          refine ⟨_, rfl, haccepted, hzero _ ?_⟩
          exact List.mem_append_right _ (List.mem_filterMap.2 ⟨_, hmem, rfl⟩)
    · obtain ⟨other, -, hall⟩ := hpassed
      refine ⟨_, hverdict, matrixVerdict_passed.2 fun item hitem => ?_⟩
      rw [List.nil_append] at hitem
      obtain ⟨e, he, hevidence⟩ := List.mem_filterMap.1 hitem
      obtain ⟨o, res⟩ := e
      cases o with
      | captureFingerprint => cases hevidence
      | executeCheck check =>
          obtain ⟨execution, hres, -, hzero⟩ := hall.passes check res he
          subst hres
          injection hevidence with hevidence
          rwa [← hevidence]
  · intro result hr
    rw [hverdict] at hr
    injection hr with hr
    by_cases hzero : result.returncode = 0
    · rw [if_pos hzero, ← hr, matrixVerdict_fingerprint, hr, if_pos hzero]
      exact hbased
    · rw [if_neg hzero, ← hr, matrixVerdict_fingerprint, hr, if_neg hzero]
  · intro other hother
    rw [← hbased.eq hother]
    refine List.pairwise_iff_forall_sublist.2 fun {first later} hsub hnot => ?_
    exact absurd (h.undisturbed first (hsub.subset List.mem_cons_self)) hnot
  · exact fun hnone => absurd ⟨baseline, hbased⟩ hnone

/-- The baseline could not be captured, and nothing else was asked for. -/
theorem verdict_unbased {exc : PyExc} (h : Fails [captured (.error exc)] r) :
    Verdict checks [captured (.error exc)] r := by
  have hnot : ∀ baseline, ¬ Based [captured (.error exc)] baseline := by
    intro baseline hbased
    injection hbased with hbased
    injection hbased with _ hres
    cases hres
  constructor
  · exact h.returns
  · refine ⟨fun hpassed => ?_, fun hpassed => ?_⟩
    · obtain ⟨result, hr, hzero⟩ := hpassed
      rw [(h.result hr).1] at hzero
      cases hzero
    · obtain ⟨baseline, hbased, -⟩ := hpassed
      exact absurd hbased (hnot baseline)
  · intro result hr
    obtain ⟨hcode, hempty⟩ := h.result hr
    rw [hcode, if_neg (by decide)]
    exact hempty
  · exact fun baseline hbased => absurd hbased (hnot baseline)
  · intro _ e he
    rw [List.mem_singleton.1 he]
    rfl

end

/-- For any checks, any executor and any workspace, the matrix passes exactly when nothing
disturbed it and every check passed in its turn; it names the workspace it verified then,
and no workspace otherwise. -/
theorem matrix_verdict (checks : List VerificationCheck) (u : List MatrixEvent)
    (r : Except PyExc VerificationMatrixResult)
    (h : Trace (runVerificationMatrix checks) u r) : Verdict checks u r := by
  rw [runVerificationMatrix] at h
  rcases trace_tryExcept.1 h with hbased | hraised
  · obtain ⟨(baseline : String), v, rfl, hrest⟩ := hbased
    have hfound : Undisturbed baseline (captured (.ok baseline)) := .captured
    have hhead : Based (captured (.ok baseline) :: v) baseline := rfl
    rcases runChecks_ends hrest with hstopped | hcompleted
    · exact verdict_stopped hhead (hstopped.cons (Or.inl hfound))
    · refine verdict_completed hhead ⟨?_, hcompleted.executions, hcompleted.verdict⟩
      intro e he
      rcases List.mem_cons.1 he with hfirst | hlater
      · rw [hfirst]
        exact hfound
      · exact hcompleted.undisturbed e hlater
  · obtain ⟨exc, rfl, rfl⟩ := hraised
    exact verdict_unbased (fails_raised (fails_matrixFailure _ _ _ _ _ _)
      (List.mem_singleton_self _))

namespace OneCheck

theorem named : isCheckName "tests" = true := by decide

theorem commanded : "pytest" ≠ "" ∧ pyStrip "pytest" = "pytest" := by decide

def tests : VerificationCheck := ⟨"tests", "pytest", named, commanded⟩

def execution : VerificationCheckExecution where
  evidence := ⟨"tests", 0, 5, some 3, "", false, true, ""⟩

def trace : List MatrixEvent :=
  [captured (.ok "f"), captured (.ok "f"), executed tests (.ok execution), captured (.ok "f")]

theorem run : Trace (runVerificationMatrix [tests]) trace
    (.ok (matrixVerdict "f" ⟨[execution.evidence], [""]⟩)) :=
  .op (.op (.op (.op (.nil _))))

end OneCheck

theorem matrix_verdict_sample : Verdict [OneCheck.tests] OneCheck.trace
    (.ok (matrixVerdict "f" ⟨[OneCheck.execution.evidence], [""]⟩)) :=
  matrix_verdict [OneCheck.tests] OneCheck.trace _ OneCheck.run

end MiniCodeAgent
