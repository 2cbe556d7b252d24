import MiniCodeAgent.Proofs.Retention

/-!
# Whether a refusal is called for

What makes room is a matter of the records that stay, and where more of them fit,
fewer do (`FitsBeside.sublist`). The loop drops the shortest part of the candidates
that makes room, so a plan that gives up because dropping them all is not enough is
right to do so.

It also gives up where the loop has dropped a single episodic record, over the
record cap, and finds no second one for a checkpoint. Whether the records of other
classes would have made room by themselves is not asked then (`refusalJustified_iff`): it
depends on where the utility has put that one record among them.
-/

namespace MemoryCore

open MiniCodeAgent

variable {F : Type} [Json.PyFloat F] {policy : LongTermRetentionPolicy}
  {incoming : ContinuityMemory F} {active : List (ContinuityMemory F)}

/-! ## Room for the incoming record -/

variable (policy incoming) in
/-- The incoming record fits beside these. -/
def FitsBeside (kept : List (ContinuityMemory F)) : Prop :=
  (kept.length : Int) + 1 ≤ policy.maxActiveRecords ∧
    sumChars kept + incoming.chars ≤ policy.maxActiveChars

instance (kept : List (ContinuityMemory F)) : Decidable (FitsBeside policy incoming kept) :=
  inferInstanceAs (Decidable (_ ∧ _))

theorem chars_nonneg (item : ContinuityMemory F) : 0 ≤ item.chars := Int.natCast_nonneg _

theorem sumChars_cons (item : ContinuityMemory F) (items : List (ContinuityMemory F)) :
    sumChars (item :: items) = item.chars + sumChars items := by
  simp [sumChars]

theorem sumChars_nonneg (items : List (ContinuityMemory F)) : 0 ≤ sumChars items := by
  induction items with
  | nil => exact le_refl 0
  | cons item items ih =>
      have hitem := chars_nonneg item
      rw [sumChars_cons]
      omega

theorem sumChars_sublist {xs ys : List (ContinuityMemory F)} (h : xs.Sublist ys) :
    sumChars xs ≤ sumChars ys := by
  induction h with
  | slnil => exact le_refl _
  | cons item _ ih =>
      have hitem := chars_nonneg item
      rw [sumChars_cons]
      omega
  | cons_cons item _ ih =>
      rw [sumChars_cons, sumChars_cons]
      omega

/-- Fewer records leave more room. -/
theorem FitsBeside.sublist {xs ys : List (ContinuityMemory F)}
    (h : FitsBeside policy incoming ys) (hsub : xs.Sublist ys) :
    FitsBeside policy incoming xs := by
  have hlength := hsub.length_le
  have hchars := sumChars_sublist hsub
  obtain ⟨hrecords, hsum⟩ := h
  exact ⟨by omega, by omega⟩

/-- What a condition keeps of the records, a stronger one keeps less of. -/
theorem FitsBeside.filter {p q : ContinuityMemory F → Bool}
    (h : FitsBeside policy incoming (active.filter q))
    (hpq : ∀ item ∈ active, p item = true → q item = true) :
    FitsBeside policy incoming (active.filter p) := by
  have hsame : active.filter p = (active.filter q).filter p := by
    rw [List.filter_filter]
    refine List.filter_congr fun item hitem => ?_
    cases hp : p item with
    | false => rfl
    | true => simp [hpq item hitem hp]
  rw [hsame]
  exact h.sublist List.filter_sublist

theorem fits_iff (hids : UniqueIds active) {t : Tally} (h : Counts policy active t) :
    t.fits policy incoming ↔ FitsBeside policy incoming (retained active t.retainedIds) := by
  rw [Tally.fits, FitsBeside, length_retained hids h.ids, h.chars]

/-! ## What stays when a part is dropped -/

theorem mem_startTally (hids : UniqueIds active) {item : ContinuityMemory F}
    (hitem : item ∈ active) :
    item.recordId ∈ (startTally active).retainedIds ↔ item.sourceValid = true := by
  have hin : item.recordId ∈ idsOf active := mem_idsOf.2 ⟨item, hitem, rfl⟩
  have hinvalid : item.recordId ∈ idsOf (active.filter fun item => item.sourceValid = false) ↔
      item.sourceValid = false := by
    rw [mem_idsOf]
    constructor
    · intro h
      obtain ⟨other, hother, heq⟩ := h
      obtain ⟨hmem, hv⟩ := List.mem_filter.1 hother
      rw [← hids.eq hmem hitem heq]
      simpa using hv
    · intro hv
      exact ⟨item, List.mem_filter.2 ⟨hitem, by simpa using hv⟩, rfl⟩
  simp only [startTally, Finset.mem_sdiff, hin, hinvalid, true_and, Bool.not_eq_false]

theorem retained_dropAll (hids : UniqueIds active) (dropped : List (ContinuityMemory F)) :
    retained active (dropAll (startTally active) dropped).retainedIds =
      active.filter fun item => item.sourceValid && item.recordId ∉ idsOf dropped := by
  refine List.filter_congr fun item hitem => ?_
  have hstart := mem_startTally hids hitem
  rw [retainedIds_dropAll]
  by_cases hvalid : item.sourceValid = true
  · simp [hstart.2 hvalid, hvalid]
  · simp [mt hstart.1 hvalid, hvalid]

section

variable (policy active)

/-- What stays when the source-invalid records and the unprotected ones of other
classes are retired. -/
def withEpisodic : List (ContinuityMemory F) :=
  active.filter fun item => item.sourceValid &&
    (item.recordId ∈ protectedIds active policy || item.retentionClass = .episodic)

/-- What stays when the unprotected episodic records go as well. -/
def protectedOnly : List (ContinuityMemory F) :=
  active.filter fun item => item.recordId ∈ protectedIds active policy

def unprotectedEpisodic : List (ContinuityMemory F) :=
  active.filter fun item => awaitsCheckpoint item && item.recordId ∉ protectedIds active policy

/-- `minimum`: the records a checkpoint has to stand for. -/
def checkpointMinimum : Nat := if policy.maxActiveRecords < (active.length : Int) + 1 then 2 else 1

end

theorem valid_of_protected (hids : UniqueIds active) {item : ContinuityMemory F}
    (hitem : item ∈ active) (h : item.recordId ∈ protectedIds active policy) :
    item.sourceValid = true := by
  obtain ⟨other, hother, heq, hvalid⟩ := valid_of_mem_protectedIds h
  rw [← hids.eq hother hitem heq]
  exact hvalid

theorem FitsBeside.protectedOnly (hids : UniqueIds active)
    (h : FitsBeside policy incoming (withEpisodic policy active)) :
    FitsBeside policy incoming (protectedOnly policy active) := by
  refine h.filter fun item hitem hprotected => ?_
  have hprotected := of_decide_eq_true hprotected
  simp [valid_of_protected hids hitem hprotected, hprotected]

/-! ## The candidates -/

section

variable {candidates : List (ContinuityMemory F)} {m : FloatMath F} {nowNs : Int}
  (hids : UniqueIds active) (hcandidates : planCandidates policy m active nowNs = .ok candidates)
include hids hcandidates

theorem mem_candidates {item : ContinuityMemory F} : item ∈ candidates ↔
    item ∈ active ∧ item.sourceValid = true ∧ item.recordId ∉ protectedIds active policy := by
  rw [(planCandidates_perm hcandidates).mem_iff, List.mem_filter, decide_eq_true_eq]
  constructor
  · intro h
    exact ⟨h.1, (mem_startTally hids h.1).1 h.2.2, h.2.1⟩
  · intro h
    exact ⟨h.1, h.2.2, (mem_startTally hids h.1).2 h.2.1⟩

theorem awaiting_candidates :
    (candidates.filter awaitsCheckpoint).Perm (unprotectedEpisodic policy active) := by
  have hperm := (planCandidates_perm hcandidates).filter awaitsCheckpoint
  rw [List.filter_filter] at hperm
  have hsame : (active.filter fun item => awaitsCheckpoint item &&
      decide (item.recordId ∉ protectedIds active policy ∧
        item.recordId ∈ (startTally active).retainedIds)) = unprotectedEpisodic policy active := by
    refine List.filter_congr fun item hitem => ?_
    cases hawaits : awaitsCheckpoint item with
    | false => rfl
    | true =>
        have hvalid : item.sourceValid = true := by
          simp only [awaitsCheckpoint, Bool.and_eq_true] at hawaits
          exact hawaits.2
        simp [(mem_startTally hids hitem).2 hvalid]
  rw [hsame] at hperm
  exact hperm

theorem retained_dropAll_candidates :
    retained active (dropAll (startTally active) candidates).retainedIds =
      protectedOnly policy active := by
  rw [retained_dropAll hids]
  refine List.filter_congr fun item hitem => ?_
  have hgone : item.recordId ∈ idsOf candidates ↔
      item.sourceValid = true ∧ item.recordId ∉ protectedIds active policy := by
    rw [mem_idsOf]
    constructor
    · intro h
      obtain ⟨other, hother, heq⟩ := h
      obtain ⟨hmem, hfree⟩ := (mem_candidates hids hcandidates).1 hother
      rw [← hids.eq hmem hitem heq]
      exact hfree
    · intro h
      exact ⟨item, (mem_candidates hids hcandidates).2 ⟨hitem, h⟩, rfl⟩
  by_cases hprotected : item.recordId ∈ protectedIds active policy
  · simp [hgone, hprotected, valid_of_protected hids hitem hprotected]
  · by_cases hvalid : item.sourceValid = true
    · simp [hgone, hprotected, hvalid]
    · simp [hprotected, hvalid]

end

/-! ## The batch of a checkpoint -/

/-- What the second loop adds to the batch: awaiting candidates that are not in it,
until it is large enough or has them all. -/
theorem fillCheckpoint_spec (minimum : Nat) (candidates : List (ContinuityMemory F))
    {compactions : List String} (hnodup : compactions.Nodup) :
    (fillCheckpoint minimum candidates compactions).Nodup ∧
    (∀ id ∈ compactions, id ∈ fillCheckpoint minimum candidates compactions) ∧
    (∀ id ∈ fillCheckpoint minimum candidates compactions, id ∈ compactions ∨
      id ∈ (candidates.filter awaitsCheckpoint).map (·.recordId)) ∧
    (minimum ≤ (fillCheckpoint minimum candidates compactions).length ∨
      ∀ id ∈ (candidates.filter awaitsCheckpoint).map (·.recordId),
        id ∈ fillCheckpoint minimum candidates compactions) := by
  induction candidates generalizing compactions with
  | nil => exact ⟨hnodup, fun _ h => h, fun _ h => Or.inl h, Or.inr fun _ h => by cases h⟩
  | cons candidate candidates ih =>
      rw [fillCheckpoint]
      by_cases hawaits : awaitsCheckpoint candidate = true
      · have hclass : candidate.retentionClass = .episodic ∧ candidate.sourceValid = true := by
          simpa [awaitsCheckpoint] using hawaits
        have hids : ((candidate :: candidates).filter awaitsCheckpoint).map (·.recordId) =
            candidate.recordId :: (candidates.filter awaitsCheckpoint).map (·.recordId) := by
          rw [List.filter_cons_of_pos hawaits, List.map_cons]
        rw [hids]
        by_cases hin : candidate.recordId ∈ compactions
        · rw [if_neg fun h => h.2.2 hin]
          obtain ⟨h₁, h₂, h₃, h₄⟩ := ih hnodup
          refine ⟨h₁, h₂, fun id hid => ?_, ?_⟩
          · rcases h₃ id hid with h | h
            · exact Or.inl h
            · exact Or.inr (List.mem_cons_of_mem _ h)
          · rcases h₄ with h | h
            · exact Or.inl h
            · exact Or.inr (List.forall_mem_cons.2 ⟨h₂ _ hin, h⟩)
        · rw [if_pos ⟨hclass.1, hclass.2, hin⟩]
          have hmore : (compactions ++ [candidate.recordId]).Nodup := by
            rw [List.nodup_append_comm]
            exact List.nodup_cons.2 ⟨hin, hnodup⟩
          have hfirst : candidate.recordId ∈ compactions ++ [candidate.recordId] := by simp
          by_cases henough : minimum ≤ (compactions ++ [candidate.recordId]).length
          · rw [if_pos henough]
            refine ⟨hmore, fun id hid => List.mem_append_left _ hid, fun id hid => ?_,
              Or.inl henough⟩
            rcases List.mem_append.1 hid with h | h
            · exact Or.inl h
            · rw [List.mem_singleton.1 h]
              exact Or.inr List.mem_cons_self
          · rw [if_neg henough]
            obtain ⟨h₁, h₂, h₃, h₄⟩ := ih hmore
            refine ⟨h₁, fun id hid => h₂ id (List.mem_append_left _ hid), fun id hid => ?_, ?_⟩
            · rcases h₃ id hid with h | h
              · rcases List.mem_append.1 h with h | h
                · exact Or.inl h
                · rw [List.mem_singleton.1 h]
                  exact Or.inr List.mem_cons_self
              · exact Or.inr (List.mem_cons_of_mem _ h)
            · rcases h₄ with h | h
              · exact Or.inl h
              · exact Or.inr (List.forall_mem_cons.2 ⟨h₂ _ hfirst, h⟩)
      · have hclass : ¬ (candidate.retentionClass = .episodic ∧ candidate.sourceValid = true ∧
            candidate.recordId ∉ compactions) := by
          intro h
          exact hawaits (by simp [awaitsCheckpoint, h.1, h.2.1])
        rw [if_neg hclass, List.filter_cons_of_neg hawaits]
        exact ih hnodup

/-- `compactions` behind the second loop, before it is cut to a batch. -/
def checkpointBatch (policy : LongTermRetentionPolicy)
    (active candidates : List (ContinuityMemory F)) (compactions : List String) : List String :=
  if compactions.length < checkpointMinimum policy active then
    fillCheckpoint (checkpointMinimum policy active) candidates compactions
  else compactions

/-- The ways in which a plan ends, once the candidates are known. -/
inductive PlanEnd (policy : LongTermRetentionPolicy) (incoming : ContinuityMemory F)
    (active candidates : List (ContinuityMemory F)) (t : Tally) (decision : RetentionDecision) :
    Prop
  | full (hfits : ¬ t.fits policy incoming)
      (hreason : decision.reason = .protectedCapacityExhausted)
  | lone (hfits : t.fits policy incoming) (hwaits : t.compactions ≠ [])
      (hfew : (checkpointBatch policy active candidates t.compactions).length <
        checkpointMinimum policy active)
      (hreason : decision.reason = .protectedCapacityExhausted)
  | checkpoint (hfits : t.fits policy incoming) (hwaits : t.compactions ≠ [])
      (henough : checkpointMinimum policy active ≤
        (checkpointBatch policy active candidates t.compactions).length)
      (hreason : decision.reason = .checkpointCompactionRequired)
      (hids : decision.compactRecordIds = (checkpointBatch policy active candidates
        t.compactions).take policy.checkpointBatchRecords.toNat)
  | admits (hfits : t.fits policy incoming) (hnone : t.compactions = [])
      (hreason : decision.reason ≠ .protectedCapacityExhausted ∧
        decision.reason ≠ .checkpointCompactionRequired)

theorem decideRetention_ends (policy : LongTermRetentionPolicy) (incoming : ContinuityMemory F)
    (active candidates : List (ContinuityMemory F)) :
    PlanEnd policy incoming active candidates
      (retireUntilFits policy incoming candidates (startTally active))
      (decideRetention policy incoming active candidates) := by
  unfold decideRetention
  dsimp only
  by_cases hfits : (retireUntilFits policy incoming candidates (startTally active)).fits policy
      incoming
  · rw [if_neg (not_not.2 hfits)]
    by_cases hwaits : (retireUntilFits policy incoming candidates (startTally active)).compactions =
        []
    · rw [if_neg (not_not.2 hwaits)]
      refine .admits hfits hwaits ?_
      dsimp only
      split <;> exact ⟨by decide, by decide⟩
    · rw [if_pos hwaits]
      by_cases hfew : (checkpointBatch policy active candidates (retireUntilFits policy incoming
          candidates (startTally active)).compactions).length < checkpointMinimum policy active
      · exact .lone hfits hwaits hfew (congrArg RetentionDecision.reason (if_pos hfew))
      · exact .checkpoint hfits hwaits (not_lt.1 hfew)
          (congrArg RetentionDecision.reason (if_neg hfew))
          (congrArg RetentionDecision.compactRecordIds (if_neg hfew))
  · rw [if_pos hfits]
    exact .full hfits rfl

/-! ## When a plan gives up -/

theorem checkpointBatch_enough (hids : UniqueIds active) {m : FloatMath F} {nowNs : Int}
    {dropped rest : List (ContinuityMemory F)}
    (hcandidates : planCandidates policy m active nowNs = .ok (dropped ++ rest)) :
    checkpointMinimum policy active ≤ (checkpointBatch policy active (dropped ++ rest)
        (dropAll (startTally active) dropped).compactions).length ↔
      checkpointMinimum policy active ≤ (unprotectedEpisodic policy active).length := by
  obtain ⟨hu, -⟩ := planCandidates_ok hids hcandidates
  have hawaiting := (awaiting_candidates hids hcandidates).length_eq
  have hall : (((dropped ++ rest).filter awaitsCheckpoint).map (·.recordId)).Nodup :=
    hu.filter awaitsCheckpoint
  have hcompactions : (dropAll (startTally active) dropped).compactions =
      (dropped.filter awaitsCheckpoint).map (·.recordId) := compactions_dropAll _ _
  have hsub : List.Sublist ((dropped.filter awaitsCheckpoint).map (·.recordId))
      (((dropped ++ rest).filter awaitsCheckpoint).map (·.recordId)) :=
    ((List.sublist_append_left dropped rest).filter awaitsCheckpoint).map _
  have hlength := hsub.length_le
  rw [List.length_map, List.length_map, hawaiting] at hlength
  rw [hcompactions, checkpointBatch]
  by_cases hfew : ((dropped.filter awaitsCheckpoint).map (·.recordId)).length <
      checkpointMinimum policy active
  · rw [if_pos hfew]
    obtain ⟨hnodup, hkeep, hfrom, henough⟩ :=
      fillCheckpoint_spec (checkpointMinimum policy active) (dropped ++ rest) (hsub.nodup hall)
    constructor
    · intro h
      have hle : (fillCheckpoint (checkpointMinimum policy active) (dropped ++ rest)
          ((dropped.filter awaitsCheckpoint).map (·.recordId))).length ≤
          (((dropped ++ rest).filter awaitsCheckpoint).map (·.recordId)).length := by
        refine (hnodup.subperm fun id hid => ?_).length_le
        rcases hfrom id hid with h | h
        · exact hsub.subset h
        · exact h
      rw [List.length_map, hawaiting] at hle
      omega
    · intro h
      rcases henough with h' | h'
      · exact h'
      · have hle := (hall.subperm h').length_le
        rw [List.length_map, hawaiting] at hle
        omega
  · rw [if_neg hfew]
    rw [List.length_map] at hfew ⊢
    omega

section

variable {m : FloatMath F} {nowNs : Int}

/-- `<` on floats goes by their values. -/
def FloatMath.Compares (m : FloatMath F) : Prop :=
  ∀ a b, m.lt a b = true ↔ Json.PyFloat.val a < Json.PyFloat.val b

variable (m nowNs) in
/-- The key of one record, utility and then id, is less than that of the other. -/
def leavesBefore (item other : ContinuityMemory F) : Bool :=
  match retentionUtility m item nowNs, retentionUtility m other nowNs with
  | .ok utility, .ok otherUtility => decide (¬ notAfter m (otherUtility, other) (utility, item))
  | _, _ => false

theorem notAfter_iff (hm : m.Compares) {a b : F × ContinuityMemory F} : notAfter m a b ↔
    Json.PyFloat.val a.1 < Json.PyFloat.val b.1 ∨
      Json.PyFloat.val a.1 = Json.PyFloat.val b.1 ∧ a.2.recordId ≤ b.2.recordId := by
  have hfalse : m.lt a.1 b.1 = false ↔ Json.PyFloat.val b.1 ≤ Json.PyFloat.val a.1 := by
    rw [← not_lt, ← hm, Bool.not_eq_true]
  rw [notAfter, hm, hfalse, ← not_lt (a := b.2.recordId)]
  rcases lt_trichotomy (Json.PyFloat.val a.1) (Json.PyFloat.val b.1) with h | h | h
  · simp only [h, not_lt.2 h.le, not_le.2 h, true_or, false_and, or_self, not_false_eq_true]
  · simp only [h, lt_irrefl, le_refl, true_and, false_or]
  · simp only [h, not_lt.2 h.le, h.ne', true_or, not_true_eq_false, false_and, or_self]

theorem notAfter_total (hm : m.Compares) (a b : F × ContinuityMemory F) :
    notAfter m a b ∨ notAfter m b a := by
  rw [notAfter_iff hm, notAfter_iff hm]
  rcases lt_trichotomy (Json.PyFloat.val a.1) (Json.PyFloat.val b.1) with h | h | h
  · exact Or.inl (Or.inl h)
  · rcases le_total a.2.recordId b.2.recordId with hid | hid
    · exact Or.inl (Or.inr ⟨h, hid⟩)
    · exact Or.inr (Or.inr ⟨h.symm, hid⟩)
  · exact Or.inr (Or.inl h)

theorem notAfter_trans (hm : m.Compares) {a b c : F × ContinuityMemory F}
    (hab : notAfter m a b) (hbc : notAfter m b c) : notAfter m a c := by
  rw [notAfter_iff hm] at hab hbc ⊢
  rcases hab with hab | hab
  · rcases hbc with hbc | hbc
    · exact Or.inl (hab.trans hbc)
    · exact Or.inl (hbc.1 ▸ hab)
  · rcases hbc with hbc | hbc
    · exact Or.inl (hab.1 ▸ hbc)
    · exact Or.inr ⟨hab.1.trans hbc.1, hab.2.trans hbc.2⟩

/-- Two records that neither come after the other have one id. -/
theorem notAfter_antisymm (hm : m.Compares) {a b : F × ContinuityMemory F}
    (hab : notAfter m a b) (hba : notAfter m b a) : a.2.recordId = b.2.recordId := by
  rw [notAfter_iff hm] at hab hba
  rcases hab with hab | hab
  · rcases hba with hba | hba
    · exact absurd hba hab.not_gt
    · exact absurd hba.1 hab.ne'
  · rcases hba with hba | hba
    · exact absurd hab.1 hba.ne'
    · exact le_antisymm hab.2 hba.2

/-- The candidates with their utilities, in order. -/
theorem planCandidates_keyed (hm : m.Compares) {candidates : List (ContinuityMemory F)}
    (h : planCandidates policy m active nowNs = .ok candidates) :
    ∃ keyed : List (F × ContinuityMemory F), keyed.map Prod.snd = candidates ∧
      keyed.Pairwise (notAfter m) ∧
      ∀ pair ∈ keyed, retentionUtility m pair.2 nowNs = .ok pair.1 := by
  obtain ⟨keyed, hkeyed, h⟩ := except_bind_ok.1 h
  injection h with h
  have htotal : Std.Total (notAfter m) := ⟨notAfter_total hm⟩
  have htrans : IsTrans (F × ContinuityMemory F) (notAfter m) :=
    ⟨fun _ _ _ hab hbc => notAfter_trans hm hab hbc⟩
  refine ⟨keyed.insertionSort (notAfter m), h, List.pairwise_insertionSort _ keyed, ?_⟩
  intro pair hpair
  have hpair := (List.perm_insertionSort _ keyed).mem_iff.1 hpair
  obtain ⟨item, -, hitem⟩ := except_mapM_mem_result hkeyed hpair
  obtain ⟨utility, hutility, hitem⟩ := except_bind_ok.1 hitem
  cases hitem
  exact hutility

theorem leavesBefore_eq {item other : ContinuityMemory F} {utility otherUtility : F}
    (hitem : retentionUtility m item nowNs = .ok utility)
    (hother : retentionUtility m other nowNs = .ok otherUtility) :
    leavesBefore m nowNs item other =
      decide (¬ notAfter m (otherUtility, other) (utility, item)) := by
  rw [leavesBefore, hitem, hother]

/-- The candidates before one of them are those whose keys are less. -/
theorem mem_before_iff (hm : m.Compares) (hids : UniqueIds active)
    {before after : List (ContinuityMemory F)} {episode : ContinuityMemory F}
    (hcandidates : planCandidates policy m active nowNs = .ok (before ++ episode :: after))
    {item : ContinuityMemory F} (hitem : item ∈ before ++ episode :: after) :
    item ∈ before ↔ leavesBefore m nowNs item episode = true := by
  obtain ⟨hu, -⟩ := planCandidates_ok hids hcandidates
  obtain ⟨keyed, hkeyed, hsorted, hutility⟩ := planCandidates_keyed hm hcandidates
  obtain ⟨earlier, others, rfl, rfl, hothers⟩ := List.map_eq_append_iff.1 hkeyed
  obtain ⟨pair, later, rfl, rfl, rfl⟩ := List.map_eq_cons_iff.1 hothers
  obtain ⟨-, htail, hearlier⟩ := List.pairwise_append.1 hsorted
  have hlater := (List.pairwise_cons.1 htail).1
  have hepisode := hutility pair (by simp)
  have hnot : ∀ other ∈ pair :: later, leavesBefore m nowNs other.2 pair.2 = false := by
    intro other hother
    rw [leavesBefore_eq (hutility other (List.mem_append_right _ hother)) hepisode,
      decide_eq_false_iff_not, not_not]
    rcases List.mem_cons.1 hother with heq | hother
    · rw [heq]
      exact (notAfter_total hm pair pair).elim id id
    · exact hlater other hother
  constructor
  · intro hmem
    obtain ⟨other, hother, rfl⟩ := List.mem_map.1 hmem
    rw [leavesBefore_eq (hutility other (List.mem_append_left _ hother)) hepisode,
      decide_eq_true_eq]
    intro hback
    have hid := notAfter_antisymm hm (hearlier other hother pair List.mem_cons_self) hback
    have hnd : ((earlier.map Prod.snd).map (·.recordId) ++
        (pair.2 :: later.map Prod.snd).map (·.recordId)).Nodup := by
      rw [← List.map_append]
      exact hu
    exact (List.nodup_append.1 hnd).2.2 _ (List.mem_map_of_mem hmem) _
      (List.mem_map_of_mem List.mem_cons_self) hid
  · intro hless
    rcases List.mem_append.1 hitem with hmem | hmem
    · exact hmem
    · rw [← List.map_cons] at hmem
      obtain ⟨other, hother, rfl⟩ := List.mem_map.1 hmem
      rw [hnot other hother] at hless
      cases hless

end

/-! ## What comes before the candidates -/

section

variable {m : FloatMath F} {nowNs : Int} {records : List (ContinuityMemory F)}
  {decision : RetentionDecision}

/-- The checks that come before the candidates. -/
structure Passes (policy : LongTermRetentionPolicy) (incoming : ContinuityMemory F)
    (records : List (ContinuityMemory F)) (nowNs : Int) : Prop where
  clock : 0 ≤ nowNs
  ids : UniqueIds (activeOf records)
  fresh : incoming.recordId ∉ idsOf (activeOf records)
  valid : incoming.sourceValid = true
  status : incoming.status = "active"
  chars : incoming.chars ≤ policy.maxActiveChars

theorem card_idsOf (hids : UniqueIds active) : (idsOf active).card = active.length := by
  rw [idsOf, List.toFinset_card_of_nodup hids, List.length_map]

theorem Passes.plan_eq (h : Passes policy incoming records nowNs) :
    planLongTermRetention policy incoming m records nowNs = (do
      let candidates ← planCandidates policy m (activeOf records) nowNs
      return decideRetention policy incoming (activeOf records) candidates) := by
  have hclock : raiseIf (nowNs < 0) (valueError "retention clock must not be negative") = .ok () :=
    raiseIf_ok.2 (not_lt.2 h.clock)
  have hids : raiseIf ((idsOf (activeOf records)).card ≠ (activeOf records).length)
      (valueError "continuity record ids must be unique") = .ok () :=
    raiseIf_ok.2 (not_not.2 (card_idsOf h.ids))
  have hfresh : raiseIf (incoming.recordId ∈ idsOf (activeOf records))
      (valueError "incoming continuity record id already exists") = .ok () :=
    raiseIf_ok.2 h.fresh
  unfold planLongTermRetention
  dsimp only
  rw [hclock, hids, hfresh, if_neg (by simp [h.valid]), if_neg (not_not.2 h.status),
    if_neg (not_lt.2 h.chars)]
  rfl

/-- A plan that answers neither of the first three ways has seen the candidates. -/
theorem passes_of_plan (h : planLongTermRetention policy incoming m records nowNs = .ok decision)
    (hinvalid : decision.reason ≠ .incomingSourceInvalid)
    (hinactive : decision.reason ≠ .incomingNotActive)
    (hexceeds : decision.reason ≠ .incomingExceedsCapacity) :
    Passes policy incoming records nowNs := by
  unfold planLongTermRetention at h
  obtain ⟨_, hclock, h⟩ := except_bind_ok.1 h
  obtain ⟨_, hcard, h⟩ := except_bind_ok.1 h
  obtain ⟨_, hfresh, h⟩ := except_bind_ok.1 h
  by_cases hvalid : incoming.sourceValid = false
  · rw [if_pos hvalid] at h
    cases h
    exact absurd rfl hinvalid
  · rw [if_neg hvalid] at h
    by_cases hstatus : incoming.status = "active"
    · rw [if_neg (not_not.2 hstatus)] at h
      by_cases hchars : policy.maxActiveChars < incoming.chars
      · rw [if_pos hchars] at h
        cases h
        exact absurd rfl hexceeds
      · exact ⟨not_lt.1 (raiseIf_ok.1 hclock), uniqueIds_of_card (not_not.1 (raiseIf_ok.1 hcard)),
          raiseIf_ok.1 hfresh, by simpa using hvalid, hstatus, not_lt.1 hchars⟩
    · rw [if_pos hstatus] at h
      cases h
      exact absurd rfl hinactive

theorem Passes.candidates (h : Passes policy incoming records nowNs)
    (hplan : planLongTermRetention policy incoming m records nowNs = .ok decision) :
    ∃ candidates, planCandidates policy m (activeOf records) nowNs = .ok candidates ∧
      decision = decideRetention policy incoming (activeOf records) candidates := by
  rw [h.plan_eq] at hplan
  obtain ⟨candidates, hcandidates, hplan⟩ := except_bind_ok.1 hplan
  cases hplan
  exact ⟨candidates, hcandidates, rfl⟩

end

/-! ## When a refusal is called for -/

section

variable (policy : LongTermRetentionPolicy) (incoming : ContinuityMemory F) (m : FloatMath F)
  (records : List (ContinuityMemory F)) (nowNs : Int)

/-- Where the plan refuses for lack of capacity, retiring all that may be retired
does not make room, and a checkpoint would not either. -/
def RefusalJustified : Prop :=
  ∀ decision, planLongTermRetention policy incoming m records nowNs = .ok decision →
    decision.reason = .protectedCapacityExhausted →
      ¬ FitsBeside policy incoming (withEpisodic policy (activeOf records)) ∧
        ((unprotectedEpisodic policy (activeOf records)).length <
            checkpointMinimum policy (activeOf records) ∨
          ¬ FitsBeside policy incoming (protectedOnly policy (activeOf records)))

/-- The only unprotected episodic record stands where the records that leave
before it do not make room, while all of the other classes together would. -/
structure Stranded (episode : ContinuityMemory F) : Prop where
  passes : Passes policy incoming records nowNs
  utilities : ∀ item ∈ activeOf records, item.sourceValid = true →
    item.recordId ∉ protectedIds (activeOf records) policy →
      ∃ utility, retentionUtility m item nowNs = .ok utility
  crowded : policy.maxActiveRecords < ((activeOf records).length : Int) + 1
  alone : unprotectedEpisodic policy (activeOf records) = [episode]
  room : FitsBeside policy incoming (withEpisodic policy (activeOf records))
  late : ¬ FitsBeside policy incoming ((activeOf records).filter fun item => item.sourceValid &&
    (item.recordId ∈ protectedIds (activeOf records) policy ||
      !leavesBefore m nowNs item episode))

end

section

variable {m : FloatMath F} {nowNs : Int} {records : List (ContinuityMemory F)}

theorem retained_before (hm : m.Compares) (hids : UniqueIds active)
    {before after : List (ContinuityMemory F)} {episode : ContinuityMemory F}
    (hcandidates : planCandidates policy m active nowNs = .ok (before ++ episode :: after)) :
    retained active (dropAll (startTally active) before).retainedIds =
      active.filter fun item => item.sourceValid &&
        (item.recordId ∈ protectedIds active policy || !leavesBefore m nowNs item episode) := by
  rw [retained_dropAll hids]
  refine List.filter_congr fun item hitem => ?_
  cases hvalid : item.sourceValid with
  | false => rfl
  | true =>
      by_cases hprotected : item.recordId ∈ protectedIds active policy
      · have hnot : item.recordId ∉ idsOf before := by
          intro h
          obtain ⟨other, hother, heq⟩ := mem_idsOf.1 h
          have hfree := (mem_candidates hids hcandidates).1 (List.mem_append_left _ hother)
          exact hfree.2.2 (heq ▸ hprotected)
        simp [hnot, hprotected]
      · have hcandidate : item ∈ before ++ episode :: after :=
          (mem_candidates hids hcandidates).2 ⟨hitem, hvalid, hprotected⟩
        have hbefore : item.recordId ∈ idsOf before ↔ item ∈ before := by
          constructor
          · intro h
            obtain ⟨other, hother, heq⟩ := mem_idsOf.1 h
            have hactive := (mem_candidates hids hcandidates).1 (List.mem_append_left _ hother)
            rwa [← hids.eq hactive.1 hitem heq]
          · intro h
            exact mem_idsOf.2 ⟨item, h, rfl⟩
        have hless := mem_before_iff hm hids hcandidates hcandidate
        cases hleaves : leavesBefore m nowNs item episode with
        | false =>
            have hnot : item.recordId ∉ idsOf before := by
              rw [hbefore, hless, hleaves]
              exact Bool.false_ne_true
            simp [hnot]
        | true =>
            have hin : item.recordId ∈ idsOf before := by
              rw [hbefore, hless, hleaves]
            simp [hin, hprotected]

/-- The loop drops a first part of the candidates, and ends with room where
dropping them all makes room. -/
structure Drops (policy : LongTermRetentionPolicy) (incoming : ContinuityMemory F)
    (active dropped rest : List (ContinuityMemory F)) : Prop where
  loop : retireUntilFits policy incoming (dropped ++ rest) (startTally active) =
    dropAll (startTally active) dropped
  fits : (dropAll (startTally active) dropped).fits policy incoming ↔
    FitsBeside policy incoming (retained active (dropAll (startTally active) dropped).retainedIds)
  ends : (dropAll (startTally active) dropped).fits policy incoming ↔
    FitsBeside policy incoming (protectedOnly policy active)
  late : ∀ before candidate after, dropped = before ++ candidate :: after →
    ¬ FitsBeside policy incoming
      (retained active (dropAll (startTally active) before).retainedIds)
  waits : (dropAll (startTally active) dropped).compactions =
    (dropped.filter awaitsCheckpoint).map (·.recordId)

theorem drops_candidates (hids : UniqueIds active) {candidates : List (ContinuityMemory F)}
    (hcandidates : planCandidates policy m active nowNs = .ok candidates) :
    ∃ dropped rest, candidates = dropped ++ rest ∧ Drops policy incoming active dropped rest := by
  obtain ⟨dropped, rest, rfl, hloop, hstop, hlate⟩ :=
    @retireUntilFits_split F _ policy incoming candidates (startTally active)
  obtain ⟨hu, hfree⟩ := planCandidates_ok hids hcandidates
  have hcounts : ∀ first last, dropped ++ rest = first ++ last →
      Counts policy active (dropAll (startTally active) first) := by
    intro first last heq
    rw [heq] at hu hfree
    refine (counts_start hids).dropAll hids ?_ fun candidate hmem =>
      hfree candidate (List.mem_append_left _ hmem)
    exact (List.Sublist.map _ (List.sublist_append_left _ _)).nodup hu
  have hfits := @fits_iff F _ policy incoming active hids _ (hcounts dropped rest rfl)
  refine ⟨dropped, rest, rfl, hloop, hfits, ?_, ?_, compactions_dropAll _ _⟩
  · constructor
    · intro h
      rw [hfits, retained_dropAll hids] at h
      refine h.filter fun item hitem hprotected => ?_
      have hprotected := of_decide_eq_true hprotected
      have hnot : item.recordId ∉ idsOf dropped := by
        intro hin
        obtain ⟨other, hother, heq⟩ := mem_idsOf.1 hin
        exact (hfree other (List.mem_append_left _ hother)).free (heq ▸ hprotected)
      simp [valid_of_protected hids hitem hprotected, hnot]
    · intro h
      rcases hstop with hnil | hfits
      · subst hnil
        rw [List.append_nil] at hcandidates
        rwa [hfits, retained_dropAll_candidates hids hcandidates]
      · exact hfits
  · intro before candidate after heq
    have hcut : dropped ++ rest = before ++ (candidate :: after ++ rest) := by
      rw [heq, List.append_assoc]
    rw [← fits_iff hids (hcounts before _ hcut)]
    exact hlate before candidate after heq

/-- A refusal beside records that leave room comes from the exit where one episodic
record waits and there is no second. -/
theorem stranded_of_refusal (hm : m.Compares) (hpasses : Passes policy incoming records nowNs)
    {candidates : List (ContinuityMemory F)}
    (hcandidates : planCandidates policy m (activeOf records) nowNs = .ok candidates)
    (hreason : (decideRetention policy incoming (activeOf records) candidates).reason =
      .protectedCapacityExhausted)
    (hroom : FitsBeside policy incoming (withEpisodic policy (activeOf records))) :
    ∃ episode, Stranded policy incoming m records nowNs episode := by
  have hids := hpasses.ids
  obtain ⟨dropped, rest, rfl, hdrops⟩ := @drops_candidates F _ policy incoming _ _ _ hids _ hcandidates
  have hend := decideRetention_ends policy incoming (activeOf records) (dropped ++ rest)
  rw [hdrops.loop] at hend
  cases hend with
  | full hfull _ => exact absurd (hdrops.ends.2 (hroom.protectedOnly hids)) hfull
  | checkpoint _ _ _ hother _ =>
      rw [hother] at hreason
      cases hreason
  | admits _ _ hother => exact absurd hreason hother.1
  | lone _ hwaits hfew _ =>
      have hfew := mt (checkpointBatch_enough hids hcandidates).2 (not_le.2 hfew)
      rw [hdrops.waits] at hwaits
      obtain ⟨episode, hepisode⟩ := List.exists_mem_of_ne_nil (dropped.filter awaitsCheckpoint)
        fun h => hwaits (by rw [h]; rfl)
      obtain ⟨hdropped, hawaits⟩ := List.mem_filter.1 hepisode
      have hmem : episode ∈ unprotectedEpisodic policy (activeOf records) :=
        (awaiting_candidates hids hcandidates).subset
          (List.mem_filter.2 ⟨List.mem_append_left _ hdropped, hawaits⟩)
      have hsome := List.length_pos_of_mem hmem
      have hcrowded : policy.maxActiveRecords < ((activeOf records).length : Int) + 1 := by
        by_contra hroomy
        rw [checkpointMinimum, if_neg hroomy] at hfew
        omega
      rw [checkpointMinimum, if_pos hcrowded] at hfew
      have hone : (unprotectedEpisodic policy (activeOf records)).length = 1 := by omega
      obtain ⟨only, honly⟩ := List.length_eq_one_iff.1 hone
      rw [honly, List.mem_singleton] at hmem
      subst hmem
      obtain ⟨before, after, rfl⟩ := List.append_of_mem hdropped
      have hlate := hdrops.late before episode after rfl
      rw [List.append_assoc, List.cons_append] at hcandidates
      rw [retained_before hm hids hcandidates] at hlate
      refine ⟨episode, hpasses, ?_, hcrowded, honly, hroom, hlate⟩
      intro item hitem hvalid hprotected
      obtain ⟨keyed, hkeyed, -, hutility⟩ := planCandidates_keyed hm hcandidates
      have hin := (mem_candidates hids hcandidates).2 ⟨hitem, hvalid, hprotected⟩
      rw [← hkeyed] at hin
      obtain ⟨pair, hpair, rfl⟩ := List.mem_map.1 hin
      exact ⟨pair.1, hutility pair hpair⟩

theorem Stranded.candidates {episode : ContinuityMemory F}
    (h : Stranded policy incoming m records nowNs episode) :
    ∃ candidates, planCandidates policy m (activeOf records) nowNs = .ok candidates := by
  have hmeasured : ∃ keyed, ((activeOf records).filter fun item =>
      item.recordId ∉ protectedIds (activeOf records) policy ∧
        item.recordId ∈ (startTally (activeOf records)).retainedIds).mapM (fun item => do
      let utility ← retentionUtility m item nowNs
      return (utility, item)) = .ok keyed := by
    refine except_mapM_returns fun item hitem => ?_
    obtain ⟨hactive, hfree⟩ := List.mem_filter.1 hitem
    rw [decide_eq_true_eq] at hfree
    obtain ⟨utility, hutility⟩ := h.utilities item hactive
      ((mem_startTally h.passes.ids hactive).1 hfree.2) hfree.1
    exact ⟨(utility, item), by rw [hutility]; rfl⟩
  obtain ⟨keyed, hkeyed⟩ := hmeasured
  exact ⟨_, except_bind_ok.2 ⟨keyed, hkeyed, rfl⟩⟩

/-- Where the lone episode is stranded, the planner drops it and then gives up. -/
theorem Stranded.refused {episode : ContinuityMemory F} (hm : m.Compares)
    (h : Stranded policy incoming m records nowNs episode) :
    ∃ decision, planLongTermRetention policy incoming m records nowNs = .ok decision ∧
      decision.reason = .protectedCapacityExhausted := by
  have hids := h.passes.ids
  obtain ⟨candidates, hcandidates⟩ := h.candidates
  refine ⟨decideRetention policy incoming (activeOf records) candidates, ?_, ?_⟩
  · rw [h.passes.plan_eq, hcandidates]
    rfl
  have hawaits : episode ∈ candidates.filter awaitsCheckpoint := by
    rw [(awaiting_candidates hids hcandidates).mem_iff, h.alone]
    exact List.mem_singleton_self episode
  obtain ⟨dropped, rest, rfl, hdrops⟩ := @drops_candidates F _ policy incoming _ _ _ hids _ hcandidates
  have hend := decideRetention_ends policy incoming (activeOf records) (dropped ++ rest)
  rw [hdrops.loop] at hend
  have hdropped : episode ∈ dropped.filter awaitsCheckpoint := by
    obtain ⟨hepisode, hclass⟩ := List.mem_filter.1 hawaits
    rcases List.mem_append.1 hepisode with hin | hin
    · exact List.mem_filter.2 ⟨hin, hclass⟩
    · exfalso
      obtain ⟨skipped, after, rfl⟩ := List.append_of_mem hin
      have hfits := hdrops.ends.2 (h.room.protectedOnly hids)
      rw [hdrops.fits, retained_dropAll hids] at hfits
      rw [← List.append_assoc] at hcandidates
      apply h.late
      rw [← retained_before hm hids hcandidates, retained_dropAll hids]
      refine hfits.filter fun item _ hkept => ?_
      simp only [idsOf, List.map_append, List.toFinset_append, Finset.mem_union, not_or,
        Bool.and_eq_true, decide_eq_true_eq] at hkept ⊢
      exact ⟨hkept.1, decide_eq_true hkept.2.1⟩
  have hfew : ¬ checkpointMinimum policy (activeOf records) ≤
      (unprotectedEpisodic policy (activeOf records)).length := by
    rw [checkpointMinimum, if_pos h.crowded, h.alone]
    simp
  cases hend with
  | full _ hreason => exact hreason
  | lone _ _ _ hreason => exact hreason
  | checkpoint _ _ henough _ _ =>
      exact absurd ((checkpointBatch_enough hids hcandidates).1 henough) hfew
  | admits _ hnone _ =>
      rw [hdrops.waits, List.map_eq_nil_iff] at hnone
      rw [hnone] at hdropped
      cases hdropped

/-- The second half of what justifies a refusal is kept at both exits. -/
theorem refusal_short (hids : UniqueIds active) {candidates : List (ContinuityMemory F)}
    (hcandidates : planCandidates policy m active nowNs = .ok candidates)
    (hreason : (decideRetention policy incoming active candidates).reason =
      .protectedCapacityExhausted) :
    (unprotectedEpisodic policy active).length < checkpointMinimum policy active ∨
      ¬ FitsBeside policy incoming (protectedOnly policy active) := by
  obtain ⟨dropped, rest, rfl, hdrops⟩ := @drops_candidates F _ policy incoming _ _ _ hids _ hcandidates
  have hend := decideRetention_ends policy incoming active (dropped ++ rest)
  rw [hdrops.loop] at hend
  cases hend with
  | full hfull _ => exact Or.inr (mt hdrops.ends.2 hfull)
  | lone _ _ hfew _ =>
      exact Or.inl (not_le.1 (mt (checkpointBatch_enough hids hcandidates).2 (not_le.2 hfew)))
  | checkpoint _ _ _ hother _ =>
      rw [hother] at hreason
      cases hreason
  | admits _ _ hother => exact absurd hreason hother.1

/-- A refusal for lack of capacity is called for unless the lone unprotected episodic
record stands before records of other classes whose room is needed. -/
theorem refusalJustified_iff (policy : LongTermRetentionPolicy) (incoming : ContinuityMemory F)
    (m : FloatMath F) (hm : m.Compares) (records : List (ContinuityMemory F)) (nowNs : Int) :
    RefusalJustified policy incoming m records nowNs ↔
      ¬ ∃ episode, Stranded policy incoming m records nowNs episode := by
  constructor
  · intro hjustified h
    obtain ⟨episode, hstranded⟩ := h
    obtain ⟨decision, hplan, hreason⟩ := hstranded.refused hm
    exact (hjustified decision hplan hreason).1 hstranded.room
  · intro hnone decision hplan hreason
    have hpasses := passes_of_plan hplan (by simp [hreason]) (by simp [hreason])
      (by simp [hreason])
    obtain ⟨candidates, hcandidates, rfl⟩ := hpasses.candidates hplan
    refine ⟨fun hroom => hnone ?_, refusal_short hpasses.ids hcandidates hreason⟩
    exact stranded_of_refusal hm hpasses hcandidates hreason hroom

end

/-- Floats in halves, from `0.0` to `7.5`. -/
def Halves : Type := Fin 16

namespace Halves

def digit (n : Nat) : Char := Char.ofNat (48 + n)

def repr (a : Fin 16) : Json.NumText :=
  ⟨[], [digit (a.val / 2)], ['.', if a.val % 2 = 0 then '0' else '5'], []⟩

theorem isDigit_repr : ∀ a : Fin 16, (digit (a.val / 2)).isDigit = true ∧
    (digit (a.val / 2) = '0' ∨ digit (a.val / 2) ≠ '0') ∧
    (if a.val % 2 = 0 then '0' else '5' : Char).isDigit = true := by
  decide

theorem repr_ok (a : Fin 16) : (repr a).Ok where
  sign := Or.inl rfl
  whole := by
    obtain ⟨hdigit, hzero | hzero, -⟩ := isDigit_repr a
    · exact Or.inl (by rw [repr, hzero])
    · exact Or.inr ⟨_, [], rfl, hdigit, hzero, by simp⟩
  frac := Or.inr ⟨_, [], rfl, List.forall_mem_singleton.2 (isDigit_repr a).2.2⟩
  exp := Or.inl rfl

def ofText (text : List Char) : Fin 16 :=
  ((List.finRange 16).find? fun a => (repr a).text = text).getD 0

theorem ofText_repr : ∀ a : Fin 16, ofText (repr a).text = a := by
  decide

instance : Json.PyFloat Halves where
  val (a : Fin 16) := (a.val : Rat) / 2
  repr := repr
  ofText := ofText
  repr_ok := repr_ok
  repr_isFloat _ := Or.inl (List.cons_ne_nil _ _)
  ofText_repr := ofText_repr

def of (n : Int) : Halves := Fin.ofNat 16 n.toNat

/-- The operations, exact where no rounding is due. -/
def math : FloatMath Halves where
  lit q := of (q * 2).floor
  ofInt n := .ok (of (n * 2))
  divInt a b := .ok (of (a * 2 / b))
  add (a b : Fin 16) := of (a.val + b.val)
  mul (a b : Fin 16) := of (a.val * b.val / 2)
  div (a b : Fin 16) := of (a.val * 2 / b.val)
  min (a b : Fin 16) := if a.val ≤ b.val then a else b
  log1p (a : Fin 16) := of (a.val / 2)
  log (a : Fin 16) := if a.val = 0 then a else of 9
  lt (a b : Fin 16) := decide (a.val < b.val)

theorem math_compares : math.Compares := by
  intro a b
  show decide (Fin.val (n := 16) a < Fin.val (n := 16) b) = true ↔
    (Fin.val (n := 16) a : Rat) / 2 < (Fin.val (n := 16) b : Rat) / 2
  rw [decide_eq_true_eq, div_lt_div_iff_of_pos_right (by norm_num), Nat.cast_lt]

end Halves

/-- A record as good as new: used now, by nobody yet. -/
def freshFields (recordId : String) (retentionClass : RetentionClass) (worth : Halves) :
    ContinuityFields Halves where
  recordId := recordId
  text := "text"
  retentionClass := retentionClass
  recordedAtNs := 0
  lastUsedAtNs := 0
  useCount := 0
  importance := worth
  confidence := worth
  identityAnchor := ""
  pinned := false
  sourceValid := true
  status := "active"
  authority := .none
  evidenceRefs := []

theorem freshFields_ok {recordId : String} (hid : pyStrip recordId ≠ "") {worth : Halves}
    (hworth : inUnit worth) (retentionClass : RetentionClass) :
    (freshFields recordId retentionClass worth).postInit = .ok () := by
  have htext : pyStrip "text" ≠ "" := pyStrip_ne_empty (c := 't') (by simp) (by decide)
  have hnow : ¬ ((0 : Int) < 0 ∨ (0 : Int) < 0 ∨ (0 : Int) < 0) := by omega
  refine except_bind_ok.2 ⟨(), raiseIf_ok.2 hid, ?_⟩
  refine except_bind_ok.2 ⟨(), raiseIf_ok.2 htext, ?_⟩
  refine except_bind_ok.2 ⟨(), raiseIf_ok.2 hnow, ?_⟩
  exact raiseIf_ok.2 fun h => h.elim (· hworth) (· hworth)

theorem inUnit_ends : inUnit (Halves.of 0) ∧ inUnit (Halves.of 2) := by decide +kernel

theorem dullNote_ok : (freshFields "note" .episodic (.of 0)).postInit = .ok () :=
  freshFields_ok (pyStrip_ne_empty (c := 'n') (by simp) (by decide)) inUnit_ends.1 _

theorem dearTask_ok : (freshFields "task" .transient (.of 2)).postInit = .ok () :=
  freshFields_ok (pyStrip_ne_empty (c := 't') (by simp) (by decide)) inUnit_ends.2 _

theorem newFact_ok : (freshFields "fact" .durable (.of 0)).postInit = .ok () :=
  freshFields_ok (pyStrip_ne_empty (c := 'f') (by simp) (by decide)) inUnit_ends.1 _

def dullNote : ContinuityMemory Halves := ⟨_, dullNote_ok⟩
def dearTask : ContinuityMemory Halves := ⟨_, dearTask_ok⟩
def newFact : ContinuityMemory Halves := ⟨_, newFact_ok⟩

/-- The task has the higher utility, so the note leaves first, and is the only
record a checkpoint could stand for. The task alone would have made room. -/
theorem refusal_not_justified :
    ¬ RefusalJustified samplePolicy newFact Halves.math [dullNote, dearTask] 0 := by
  intro h
  have hplan : planLongTermRetention samplePolicy newFact Halves.math [dullNote, dearTask] 0 =
      .ok ⟨false, .protectedCapacityExhausted, [], [], [], 2, 8⟩ := by
    decide +kernel
  exact (h _ hplan rfl).1 (by decide +kernel)

theorem refusalJustified_iff_sample :
    RefusalJustified samplePolicy newFact Halves.math [dullNote, dearTask] 0 ↔
      ¬ ∃ episode,
        Stranded samplePolicy newFact Halves.math [dullNote, dearTask] 0 episode :=
  refusalJustified_iff samplePolicy newFact Halves.math Halves.math_compares
    [dullNote, dearTask] 0

end MemoryCore
