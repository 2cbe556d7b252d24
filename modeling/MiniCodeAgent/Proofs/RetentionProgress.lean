import MiniCodeAgent.Proofs.RetentionRefusal

/-!
# A plan that asks for a checkpoint gets nearer its end

A host that is asked for a checkpoint writes one record in place of those the plan
names, and plans again. The names are the episodic candidates the loop dropped,
filled up and cut: distinct, and two at least while the records are over their cap,
where the second loop asks for two. So each round over that cap lowers the count.

Within it one record is enough, and it is the characters that have to give way. The
planner cannot know how long a checkpoint will be: the loop ends if what stands for
one record is shorter than it (`rounds_end`), and for a host that writes as much as
it removes it goes round (`rounds_spin`).
-/

namespace MemoryCore

open MiniCodeAgent

variable {F : Type} [Json.PyFloat F] {policy : LongTermRetentionPolicy}
  {incoming : ContinuityMemory F} {active records : List (ContinuityMemory F)}
  {m : FloatMath F} {nowNs : Int} {decision : RetentionDecision}

/-! ## What the plan names -/

/-- Distinct ids of unprotected episodic records with a valid source, no more than
a batch. -/
structure NamesBatch (policy : LongTermRetentionPolicy) (active : List (ContinuityMemory F))
    (ids : List String) : Prop where
  distinct : ids.Nodup
  batch : (ids.length : Int) ≤ policy.checkpointBatchRecords
  named : ∀ id ∈ ids, ∃ item ∈ active, item.recordId = id ∧ item.sourceValid = true ∧
    item.retentionClass = .episodic ∧ id ∉ protectedIds active policy

theorem two_le_batch (policy : LongTermRetentionPolicy) : 2 ≤ policy.checkpointBatchRecords := by
  have hchecked := policy.checked
  unfold RetentionPolicyFields.postInit at hchecked
  obtain ⟨_, -, hbatch⟩ := except_bind_ok.1 hchecked
  have hbatch := raiseIf_ok.1 hbatch
  omega

theorem checkpointMinimum_le (policy : LongTermRetentionPolicy)
    (active : List (ContinuityMemory F)) : 1 ≤ checkpointMinimum policy active ∧
      checkpointMinimum policy active ≤ 2 := by
  unfold checkpointMinimum
  split <;> omega

theorem checkpointBatch_names (hids : UniqueIds active)
    {dropped rest : List (ContinuityMemory F)}
    (hcandidates : planCandidates policy m active nowNs = .ok (dropped ++ rest)) :
    (checkpointBatch policy active (dropped ++ rest)
      ((dropped.filter awaitsCheckpoint).map (·.recordId))).Nodup ∧
    ∀ id ∈ checkpointBatch policy active (dropped ++ rest)
      ((dropped.filter awaitsCheckpoint).map (·.recordId)),
      id ∈ ((dropped ++ rest).filter awaitsCheckpoint).map (·.recordId) := by
  obtain ⟨hu, -⟩ := planCandidates_ok hids hcandidates
  have hsub : List.Sublist ((dropped.filter awaitsCheckpoint).map (·.recordId))
      (((dropped ++ rest).filter awaitsCheckpoint).map (·.recordId)) :=
    ((List.sublist_append_left dropped rest).filter awaitsCheckpoint).map _
  have hnodup := hsub.nodup (hu.filter awaitsCheckpoint)
  unfold checkpointBatch
  by_cases hfew : ((dropped.filter awaitsCheckpoint).map (·.recordId)).length <
      checkpointMinimum policy active
  · rw [if_pos hfew]
    obtain ⟨hfilled, -, hfrom, -⟩ :=
      fillCheckpoint_spec (checkpointMinimum policy active) (dropped ++ rest) hnodup
    refine ⟨hfilled, fun id hid => ?_⟩
    rcases hfrom id hid with h | h
    · exact hsub.subset h
    · exact h
  · rw [if_neg hfew]
    exact ⟨hnodup, fun id hid => hsub.subset hid⟩

/-- The answer that asks for a checkpoint. -/
def AsksCheckpoint (policy : LongTermRetentionPolicy) (incoming : ContinuityMemory F)
    (m : FloatMath F) (records : List (ContinuityMemory F)) (nowNs : Int)
    (decision : RetentionDecision) : Prop :=
  planLongTermRetention policy incoming m records nowNs = .ok decision ∧
    decision.reason = .checkpointCompactionRequired

theorem AsksCheckpoint.passes (h : AsksCheckpoint policy incoming m records nowNs decision) :
    Passes policy incoming records nowNs := by
  obtain ⟨hplan, hreason⟩ := h
  exact passes_of_plan hplan (by simp [hreason]) (by simp [hreason]) (by simp [hreason])

theorem AsksCheckpoint.names (h : AsksCheckpoint policy incoming m records nowNs decision) :
    NamesBatch policy (activeOf records) decision.compactRecordIds ∧
      checkpointMinimum policy (activeOf records) ≤ decision.compactRecordIds.length := by
  have hids := h.passes.ids
  obtain ⟨candidates, hcandidates, rfl⟩ := h.passes.candidates h.1
  have hreason := h.2
  obtain ⟨dropped, rest, rfl, hdrops⟩ := @drops_candidates F _ policy incoming _ _ _ hids _ hcandidates
  have hend := decideRetention_ends policy incoming (activeOf records) (dropped ++ rest)
  rw [hdrops.loop] at hend
  cases hend with
  | full _ hother =>
      rw [hother] at hreason
      cases hreason
  | lone _ _ _ hother =>
      rw [hother] at hreason
      cases hreason
  | admits _ _ hother => exact absurd hreason hother.2
  | checkpoint _ _ henough _ hcompact =>
      rw [hcompact]
      rw [hdrops.waits] at henough ⊢
      obtain ⟨hnodup, hfrom⟩ := checkpointBatch_names hids hcandidates
      have htwo := two_le_batch policy
      have hminimum := checkpointMinimum_le policy (activeOf records)
      refine ⟨⟨(List.take_sublist _ _).nodup hnodup, ?_, fun id hid => ?_⟩, ?_⟩
      · rw [List.length_take]
        omega
      · obtain ⟨item, hitem, rfl⟩ := List.mem_map.1 (hfrom id (List.mem_of_mem_take hid))
        obtain ⟨hcandidate, hawaits⟩ := List.mem_filter.1 hitem
        obtain ⟨hactive, hvalid, hfree⟩ := (mem_candidates hids hcandidates).1 hcandidate
        have hclass : item.retentionClass = .episodic ∧ item.sourceValid = true := by
          simpa [awaitsCheckpoint] using hawaits
        exact ⟨item, hactive, rfl, hvalid, hclass.1, hfree⟩
      · rw [List.length_take]
        omega

/-! ## A round -/

/-- What a host does that is asked for a checkpoint: the named records retire and the
checkpoint is admitted. -/
def applyCompaction (checkpoint : ContinuityMemory F) (records : List (ContinuityMemory F))
    (decision : RetentionDecision) : List (ContinuityMemory F) :=
  applyRetention checkpoint records { decision with retireRecordIds := decision.compactRecordIds }

theorem activeOf_applyCompaction (checkpoint : ContinuityMemory F)
    (decision : RetentionDecision) : activeOf (applyCompaction checkpoint records decision) =
      (activeOf records).filter (fun item => item.recordId ∉ decision.compactRecordIds) ++
        activeOf [checkpoint] :=
  activeOf_applyRetention_append _

/-- Distinct ids of active records that leave take one record each. -/
theorem length_without (hids : UniqueIds active) {ids : List String}
    (hnames : NamesBatch policy active ids) :
    (active.filter fun item => item.recordId ∉ ids).length + ids.length = active.length := by
  have hin : ids.toFinset ⊆ idsOf active := by
    intro id hid
    obtain ⟨item, hitem, heq, -⟩ := hnames.named id (List.mem_toFinset.1 hid)
    exact mem_idsOf.2 ⟨item, hitem, heq⟩
  have hkept : (active.filter fun item => item.recordId ∉ ids) =
      retained active (idsOf active \ ids.toFinset) := by
    refine List.filter_congr fun item hitem => ?_
    have hactive : item.recordId ∈ idsOf active := mem_idsOf.2 ⟨item, hitem, rfl⟩
    simp [hactive]
  have hle := Finset.card_le_card hin
  rw [hkept, length_retained hids Finset.sdiff_subset, Finset.card_sdiff_of_subset hin,
    List.toFinset_card_of_nodup hnames.distinct, card_idsOf hids]
  rw [List.toFinset_card_of_nodup hnames.distinct, card_idsOf hids] at hle
  omega

theorem length_activeOf_singleton (checkpoint : ContinuityMemory F) :
    (activeOf [checkpoint]).length ≤ 1 := List.length_filter_le _ _

theorem AsksCheckpoint.length_lt (h : AsksCheckpoint policy incoming m records nowNs decision)
    (checkpoint : ContinuityMemory F) (htwo : 2 ≤ decision.compactRecordIds.length) :
    (activeOf (applyCompaction checkpoint records decision)).length <
      (activeOf records).length := by
  have hwithout := length_without h.passes.ids h.names.1
  have hone := length_activeOf_singleton checkpoint
  rw [activeOf_applyCompaction, List.length_append]
  omega

/-- One record less, and a checkpoint shorter than it. -/
theorem AsksCheckpoint.chars_lt (h : AsksCheckpoint policy incoming m records nowNs decision)
    {checkpoint : ContinuityMemory F} {id : String} (hone : decision.compactRecordIds = [id])
    (hshort : ∀ item ∈ activeOf records, item.recordId = id → checkpoint.chars < item.chars) :
    (activeOf (applyCompaction checkpoint records decision)).length ≤
        (activeOf records).length ∧
      sumChars (activeOf (applyCompaction checkpoint records decision)) <
        sumChars (activeOf records) := by
  have hids := h.passes.ids
  have hwithout := length_without hids h.names.1
  have hlast := length_activeOf_singleton checkpoint
  have hid : id ∈ decision.compactRecordIds := by
    rw [hone]
    exact List.mem_singleton_self id
  obtain ⟨item, hitem, heq, -⟩ := h.names.1.named id hid
  have hactive : item.recordId ∈ idsOf (activeOf records) := mem_idsOf.2 ⟨item, hitem, rfl⟩
  have hall : retained (activeOf records) (idsOf (activeOf records)) = activeOf records := by
    refine List.filter_eq_self.2 fun other hother => ?_
    exact decide_eq_true (mem_idsOf.2 ⟨other, hother, rfl⟩)
  have herase := sumChars_retained_erase hids hitem hactive
  have hkept : (activeOf records).filter (fun other => other.recordId ∉ decision.compactRecordIds) =
      retained (activeOf records) ((idsOf (activeOf records)).erase item.recordId) := by
    refine List.filter_congr fun other hother => ?_
    have hin : other.recordId ∈ idsOf (activeOf records) := mem_idsOf.2 ⟨other, hother, rfl⟩
    simp [hone, ← heq, hin]
  have hadded : sumChars (activeOf [checkpoint]) ≤ checkpoint.chars := by
    have hsub := sumChars_sublist (List.filter_sublist (p := fun item => item.status = "active")
      (l := [checkpoint]))
    rwa [sumChars_singleton] at hsub
  have hless := hshort item hitem heq
  rw [activeOf_applyCompaction, List.length_append, sumChars_append]
  rw [hall] at herase
  rw [hone] at hwithout hkept ⊢
  rw [hkept] at hwithout ⊢
  refine ⟨?_, by omega⟩
  simp only [List.length_singleton] at hwithout
  omega

/-! ## The loop -/

/-- Plan, write a checkpoint if one is asked for, and plan again. The host may write
what it likes, and the clock may go on. -/
def rounds (policy : LongTermRetentionPolicy) (incoming : ContinuityMemory F) (m : FloatMath F)
    (host : Nat → List (ContinuityMemory F) → RetentionDecision → ContinuityMemory F)
    (clock : Nat → Int) (start : List (ContinuityMemory F)) : Nat → List (ContinuityMemory F)
  | 0 => start
  | round + 1 =>
    let records := rounds policy incoming m host clock start round
    match planLongTermRetention policy incoming m records (clock round) with
    | .ok decision =>
      if decision.reason = .checkpointCompactionRequired then
        applyCompaction (host round records decision) records decision
      else records
    | .error _ => records

section

variable {host : Nat → List (ContinuityMemory F) → RetentionDecision → ContinuityMemory F}
  {clock : Nat → Int} {start : List (ContinuityMemory F)} {round : Nat}

theorem rounds_succ (h : AsksCheckpoint policy incoming m
      (rounds policy incoming m host clock start round) (clock round) decision) :
    rounds policy incoming m host clock start (round + 1) =
      applyCompaction (host round (rounds policy incoming m host clock start round) decision)
        (rounds policy incoming m host clock start round) decision := by
  rw [rounds, h.1]
  exact if_pos h.2

variable (policy incoming m host clock start) in
/-- The round ends with a call for a checkpoint. -/
def Asks (round : Nat) : Prop :=
  ∃ decision, AsksCheckpoint policy incoming m
    (rounds policy incoming m host clock start round) (clock round) decision

variable (policy incoming m host clock start) in
/-- What the host writes in place of a single record is shorter than that record. -/
def Shortens : Prop :=
  ∀ round decision id, AsksCheckpoint policy incoming m
      (rounds policy incoming m host clock start round) (clock round) decision →
    decision.compactRecordIds = [id] →
      ∀ item ∈ activeOf (rounds policy incoming m host clock start round), item.recordId = id →
        (host round (rounds policy incoming m host clock start round) decision).chars < item.chars

variable (policy incoming m host clock start) in
/-- The records and the characters of a round, records first. -/
def weight (round : Nat) : ℕ ×ₗ ℕ :=
  toLex ((activeOf (rounds policy incoming m host clock start round)).length,
    (sumChars (activeOf (rounds policy incoming m host clock start round))).toNat)

theorem two_le_of_crowded (h : AsksCheckpoint policy incoming m records nowNs decision)
    (hcrowded : policy.maxActiveRecords < ((activeOf records).length : Int) + 1) :
    2 ≤ decision.compactRecordIds.length := by
  have hminimum := h.names.2
  rwa [checkpointMinimum, if_pos hcrowded] at hminimum

theorem weight_lt (hshort : Shortens policy incoming m host clock start)
    (hasks : Asks policy incoming m host clock start round) :
    weight policy incoming m host clock start (round + 1) <
      weight policy incoming m host clock start round := by
  obtain ⟨decision, h⟩ := hasks
  have hmany : 1 ≤ decision.compactRecordIds.length :=
    (checkpointMinimum_le policy _).1.trans h.names.2
  rw [weight, weight, Prod.Lex.toLex_lt_toLex, rounds_succ h]
  by_cases htwo : 2 ≤ decision.compactRecordIds.length
  · exact Or.inl (h.length_lt _ htwo)
  · obtain ⟨id, hone⟩ := List.length_eq_one_iff.1
      (show decision.compactRecordIds.length = 1 by omega)
    obtain ⟨hlength, hchars⟩ := h.chars_lt hone (hshort round decision id h hone)
    have hpos := sumChars_nonneg (activeOf (applyCompaction
      (host round (rounds policy incoming m host clock start round) decision)
      (rounds policy incoming m host clock start round) decision))
    rcases Nat.lt_or_eq_of_le hlength with hlength | hlength
    · exact Or.inl hlength
    · exact Or.inr ⟨hlength, by dsimp only; omega⟩

variable (policy incoming m host clock start) in
theorem rounds_within : ∃ round, ¬ Asks policy incoming m host clock start round ∨
    ((activeOf (rounds policy incoming m host clock start round)).length : Int) + 1 ≤
      policy.maxActiveRecords := by
  obtain ⟨round, hround⟩ := WellFounded.not_rel_apply_succ (r := fun a b : Nat => a < b)
    fun round => (activeOf (rounds policy incoming m host clock start round)).length
  refine ⟨round, ?_⟩
  by_contra hgoes
  obtain ⟨hasks, hcrowded⟩ := not_or.1 hgoes
  obtain ⟨decision, h⟩ := not_not.1 hasks
  apply hround
  rw [rounds_succ h]
  exact h.length_lt _ (two_le_of_crowded h (not_le.1 hcrowded))

theorem rounds_end (hshort : Shortens policy incoming m host clock start) :
    ∃ round, ¬ Asks policy incoming m host clock start round := by
  obtain ⟨round, hround⟩ := WellFounded.not_rel_apply_succ (r := fun a b : ℕ ×ₗ ℕ => a < b)
    (weight policy incoming m host clock start)
  exact ⟨round, fun hasks => hround (weight_lt hshort hasks)⟩

end

/-- A call for a checkpoint over the record cap names a batch of two or more, so that
the checkpoint lowers the count. The loop comes to another answer or within that cap,
and to another answer where a checkpoint in place of one record is shorter than it. -/
theorem compaction_progress (policy : LongTermRetentionPolicy) (incoming : ContinuityMemory F)
    (m : FloatMath F)
    (host : Nat → List (ContinuityMemory F) → RetentionDecision → ContinuityMemory F)
    (clock : Nat → Int) (start : List (ContinuityMemory F)) :
    (∀ records nowNs decision, AsksCheckpoint policy incoming m records nowNs decision →
      policy.maxActiveRecords < ((activeOf records).length : Int) + 1 →
        NamesBatch policy (activeOf records) decision.compactRecordIds ∧
          2 ≤ decision.compactRecordIds.length ∧
          ∀ checkpoint, (activeOf (applyCompaction checkpoint records decision)).length <
            (activeOf records).length) ∧
    (∃ round, ¬ Asks policy incoming m host clock start round ∨
      ((activeOf (rounds policy incoming m host clock start round)).length : Int) + 1 ≤
        policy.maxActiveRecords) ∧
    (Shortens policy incoming m host clock start →
      ∃ round, ¬ Asks policy incoming m host clock start round) := by
  refine ⟨fun records nowNs decision h hcrowded => ?_, rounds_within .., rounds_end⟩
  have htwo := two_le_of_crowded h hcrowded
  exact ⟨h.names.1, htwo, fun checkpoint => h.length_lt checkpoint htwo⟩

theorem plan_activeOf (policy : LongTermRetentionPolicy) (incoming : ContinuityMemory F)
    (m : FloatMath F) (records : List (ContinuityMemory F)) (nowNs : Int) :
    planLongTermRetention policy incoming m (activeOf records) nowNs =
      planLongTermRetention policy incoming m records nowNs := by
  have hagain : activeOf (activeOf records) = activeOf records := by simp [activeOf]
  simp only [planLongTermRetention, hagain]

/-! ## A host that writes as much as it removes -/

namespace Wordy

theorem ok (recordId : String) (h : pyStrip recordId ≠ "") :
    (sampleFields recordId .episodic "" true).postInit = .ok () := by
  have htext : pyStrip "text" ≠ "" := pyStrip_ne_empty (c := 't') (by simp) (by decide)
  have hnow : ¬ ((0 : Int) < 0 ∨ (0 : Int) < 0 ∨ (0 : Int) < 0) := by omega
  have hunit : ¬ (¬ inUnit () ∨ ¬ inUnit ()) := by decide
  refine except_bind_ok.2 ⟨(), raiseIf_ok.2 h, ?_⟩
  refine except_bind_ok.2 ⟨(), raiseIf_ok.2 htext, ?_⟩
  exact except_bind_ok.2 ⟨(), raiseIf_ok.2 hnow, raiseIf_ok.2 hunit⟩

theorem first_ok : (sampleFields "first" .episodic "" true).postInit = .ok () :=
  ok "first" (pyStrip_ne_empty (c := 'f') (by simp) (by decide))

theorem second_ok : (sampleFields "second" .episodic "" true).postInit = .ok () :=
  ok "second" (pyStrip_ne_empty (c := 's') (by simp) (by decide))

def first : ContinuityMemory Unit := ⟨_, first_ok⟩
def second : ContinuityMemory Unit := ⟨_, second_ok⟩

/-- Room for two records, and for the text of one. -/
def tight : LongTermRetentionPolicy :=
  { LongTermRetentionPolicy.default with
    maxActiveRecords := 2, maxActiveChars := 7, checked := rfl }

def echo (_ : Nat) (_ : List (ContinuityMemory Unit)) (decision : RetentionDecision) :
    ContinuityMemory Unit :=
  if decision.compactRecordIds = ["first"] then second else first

def asked (recordId : String) : RetentionDecision where
  admitted := false
  reason := .checkpointCompactionRequired
  retireRecordIds := []
  compactRecordIds := [recordId]
  protectedRecordIds := []
  projectedRecords := 1
  projectedChars := 4

theorem plan_alone :
    planLongTermRetention tight sampleTask plainMath [first] 0 = .ok (asked "first") ∧
    planLongTermRetention tight sampleTask plainMath [second] 0 = .ok (asked "second") := by
  decide +kernel

theorem activeOf_rounds (round : Nat) :
    activeOf (rounds tight sampleTask plainMath echo (fun _ => 0) [first] round) = [first] ∨
      activeOf (rounds tight sampleTask plainMath echo (fun _ => 0) [first] round) = [second] := by
  induction round with
  | zero => exact Or.inl rfl
  | succ round ih =>
      generalize hrecords : rounds tight sampleTask plainMath echo (fun _ => 0) [first] round =
        records at ih
      rcases ih with h | h
      · right
        have hplan := plan_activeOf tight sampleTask plainMath records 0
        rw [h, plan_alone.1, ← hrecords] at hplan
        rw [rounds_succ ⟨hplan.symm, rfl⟩, hrecords, activeOf_applyCompaction, h]
        rfl
      · left
        have hplan := plan_activeOf tight sampleTask plainMath records 0
        rw [h, plan_alone.2, ← hrecords] at hplan
        rw [rounds_succ ⟨hplan.symm, rfl⟩, hrecords, activeOf_applyCompaction, h]
        rfl

/-- Each round asks for a checkpoint of the checkpoint before. -/
theorem rounds_spin :
    ¬ ∃ round, ¬ Asks tight sampleTask plainMath echo (fun _ => 0) [first] round := by
  intro hstops
  obtain ⟨round, hround⟩ := hstops
  apply hround
  rcases activeOf_rounds round with h | h
  · refine ⟨asked "first", ?_, rfl⟩
    rw [← plan_activeOf, h, plan_alone.1]
  · refine ⟨asked "second", ?_, rfl⟩
    rw [← plan_activeOf, h, plan_alone.2]

theorem brief_ok :
    { sampleFields "brief" .episodic "" true with text := "t" }.postInit = .ok () := by
  have htext : pyStrip "t" ≠ "" := pyStrip_ne_empty (c := 't') (by simp) (by decide)
  have hid : pyStrip "brief" ≠ "" := pyStrip_ne_empty (c := 'b') (by simp) (by decide)
  have hnow : ¬ ((0 : Int) < 0 ∨ (0 : Int) < 0 ∨ (0 : Int) < 0) := by omega
  have hunit : ¬ (¬ inUnit () ∨ ¬ inUnit ()) := by decide
  refine except_bind_ok.2 ⟨(), raiseIf_ok.2 hid, ?_⟩
  refine except_bind_ok.2 ⟨(), raiseIf_ok.2 htext, ?_⟩
  exact except_bind_ok.2 ⟨(), raiseIf_ok.2 hnow, raiseIf_ok.2 hunit⟩

def brief : ContinuityMemory Unit := ⟨_, brief_ok⟩

theorem plan_brief : planLongTermRetention tight sampleTask plainMath [brief] 0 =
    .ok ⟨true, .fits, [], [], [], 2, 5⟩ := by
  decide +kernel

/-- One brief checkpoint is enough. -/
theorem shortens_brief :
    Shortens tight sampleTask plainMath (fun _ _ _ => brief) (fun _ => 0) [first] := by
  have hlater : ∀ round,
      activeOf (rounds tight sampleTask plainMath (fun _ _ _ => brief) (fun _ => 0) [first]
        (round + 1)) = [brief] := by
    intro round
    induction round with
    | zero =>
        have hplan : AsksCheckpoint tight sampleTask plainMath (rounds tight sampleTask plainMath
            (fun _ _ _ => brief) (fun _ => 0) [first] 0) 0 (asked "first") := ⟨plan_alone.1, rfl⟩
        rw [rounds_succ hplan, activeOf_applyCompaction]
        rfl
    | succ round ih =>
        have hplan := plan_activeOf tight sampleTask plainMath (rounds tight sampleTask plainMath
          (fun _ _ _ => brief) (fun _ => 0) [first] (round + 1)) 0
        rw [ih, plan_brief] at hplan
        rw [rounds, ← hplan]
        exact ih
  intro round decision id hasks hone item hitem hid
  cases round with
  | zero =>
      rw [List.mem_singleton.1 hitem]
      show brief.chars < first.chars
      decide
  | succ round =>
      have hplan := plan_activeOf tight sampleTask plainMath (rounds tight sampleTask plainMath
        (fun _ _ _ => brief) (fun _ => 0) [first] (round + 1)) 0
      rw [hlater round, plan_brief, hasks.1] at hplan
      injection hplan with hplan
      have hreason := hasks.2
      rw [← hplan] at hreason
      cases hreason

theorem compaction_progress_sample :
    (NamesBatch samplePolicy [first, second] ["first", "second"] ∧ 2 ≤ 2 ∧
      ∀ checkpoint, (activeOf (applyCompaction checkpoint [first, second]
        ⟨false, .checkpointCompactionRequired, [], ["first", "second"], [], 2, 8⟩)).length < 2) ∧
    ∃ round, ¬ Asks tight sampleTask plainMath (fun _ _ _ => brief) (fun _ => 0) [first] round :=
  ⟨(compaction_progress samplePolicy sampleTask plainMath echo (fun _ => 0) []).1 [first, second] 0
      ⟨false, .checkpointCompactionRequired, [], ["first", "second"], [], 2, 8⟩
      ⟨by decide +kernel, rfl⟩ (by decide),
    (compaction_progress tight sampleTask plainMath (fun _ _ _ => brief) (fun _ => 0)
      [first]).2.2 shortens_brief⟩

end Wordy

end MemoryCore
