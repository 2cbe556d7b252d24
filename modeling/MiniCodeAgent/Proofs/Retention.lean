import MiniCodeAgent.Continuity
import Mathlib.Data.List.Induction

/-!
# A retention plan keeps what it must keep

Every record id the planner lets go of is either one without a valid source or a
candidate, and a candidate is never protected. So the plan is safe whatever order
the utility puts the candidates in: what follows the loop is one account of its
tally, `Counts`, which every dropped candidate keeps.

The account ties the set of retained ids to the records themselves, and that is
where the planner's own check that ids do not repeat is used: an id names one
active record.
-/

namespace MemoryCore

open MiniCodeAgent

/-! ## Grouping by anchor -/

section Groups

variable {α : Type} (key : α → String)

theorem groupBy_append (items : List α) (x : α) :
    groupBy key (items ++ [x]) = (groupBy key items).set (key x)
      (((groupBy key items).get? (key x)).getD [] ++ [x]) := by
  rw [groupBy, List.foldl_append]
  rfl

theorem nodup_keys_groupBy (items : List α) : (Dict.keys (groupBy key items)).Nodup := by
  induction items using List.reverseRecOn with
  | nil => exact List.nodup_nil
  | append_singleton items x ih =>
      rw [groupBy_append]
      exact Dict.nodup_keys_set ih _ _

/-- A group is what has its key, in order. -/
theorem get?_groupBy (items : List α) (a : String) :
    Dict.get? (groupBy key items) a =
      if items.filter (fun x => key x = a) = [] then none
      else some (items.filter fun x => key x = a) := by
  induction items using List.reverseRecOn with
  | nil => rfl
  | append_singleton items x ih =>
      rw [groupBy_append, Dict.get?_set, List.filter_append]
      by_cases hx : key x = a
      · subst hx
        rw [if_pos rfl, ih]
        by_cases hnil : items.filter (fun y => key y = key x) = []
        · rw [if_pos hnil, hnil]
          simp
        · rw [if_neg hnil, if_neg (by simp)]
          simp
      · simp [hx, ih]

theorem mem_of_mem_groupBy {items : List α} {group : String × List α} {x : α}
    (h : group ∈ groupBy key items) (hx : x ∈ group.2) : x ∈ items ∧ key x = group.1 := by
  have hget := Dict.get?_of_mem (nodup_keys_groupBy key items) (show (group.1, group.2) ∈ _ from h)
  rw [get?_groupBy] at hget
  split at hget
  · cases hget
  · rw [← Option.some.inj hget] at hx
    simpa using List.mem_filter.1 hx

theorem exists_group {items : List α} {x : α} (hx : x ∈ items) :
    ∃ group ∈ groupBy key items, x ∈ group.2 := by
  have hmem : x ∈ items.filter fun y => key y = key x := List.mem_filter.2 ⟨hx, by simp⟩
  have hget : Dict.get? (groupBy key items) (key x) =
      some (items.filter fun y => key y = key x) := by
    rw [get?_groupBy, if_neg (List.ne_nil_of_mem hmem)]
  exact ⟨_, Dict.mem_of_get? hget, hmem⟩

end Groups

variable {F : Type} [Json.PyFloat F]

/-! ## What is protected -/

theorem subset_addSurvivor (kept : Finset String) (anchored : List (ContinuityMemory F)) :
    kept ⊆ addSurvivor kept anchored := by
  unfold addSurvivor
  split
  · exact Finset.Subset.refl _
  · split
    · exact Finset.subset_insert _ _
    · exact Finset.Subset.refl _

theorem mem_addSurvivor {kept : Finset String} {anchored : List (ContinuityMemory F)} {id : String}
    (h : id ∈ addSurvivor kept anchored) :
    id ∈ kept ∨ ∃ item ∈ anchored, item.recordId = id := by
  unfold addSurvivor at h
  split at h
  · exact Or.inl h
  · split at h
    · next survivor heq =>
        rcases Finset.mem_insert.1 h with rfl | h
        · exact Or.inr ⟨survivor, List.argmax_mem heq, rfl⟩
        · exact Or.inl h
    · exact Or.inl h

theorem addSurvivor_covers (kept : Finset String) {anchored : List (ContinuityMemory F)}
    {item : ContinuityMemory F} (hitem : item ∈ anchored) :
    ∃ survivor ∈ anchored, survivor.recordId ∈ addSurvivor kept anchored := by
  unfold addSurvivor
  split
  · next h => exact h
  · split
    · next survivor heq =>
        exact ⟨survivor, List.argmax_mem heq, Finset.mem_insert_self _ _⟩
    · next heq =>
        rw [List.argmax_eq_none] at heq
        exact absurd hitem (by simp [heq])

section Survivors

variable (groups : Dict (List (ContinuityMemory F))) (kept : Finset String)

theorem subset_foldl_addSurvivor :
    kept ⊆ groups.foldl (fun kept group => addSurvivor kept group.2) kept := by
  induction groups generalizing kept with
  | nil => exact Finset.Subset.refl _
  | cons group groups ih => exact (subset_addSurvivor kept group.2).trans (ih _)

variable {groups}

theorem foldl_addSurvivor_covers {group : String × List (ContinuityMemory F)}
    (hgroup : group ∈ groups) {item : ContinuityMemory F} (hitem : item ∈ group.2) :
    ∃ survivor ∈ group.2,
      survivor.recordId ∈ groups.foldl (fun kept group => addSurvivor kept group.2) kept := by
  induction groups generalizing kept with
  | nil => cases hgroup
  | cons first groups ih =>
      rcases List.mem_cons.1 hgroup with rfl | hgroup
      · obtain ⟨survivor, hmem, hkept⟩ := addSurvivor_covers kept hitem
        exact ⟨survivor, hmem, subset_foldl_addSurvivor groups _ hkept⟩
      · exact ih _ hgroup

variable {kept}

theorem mem_foldl_addSurvivor {id : String}
    (h : id ∈ groups.foldl (fun kept group => addSurvivor kept group.2) kept) :
    id ∈ kept ∨ ∃ group ∈ groups, ∃ item ∈ group.2, item.recordId = id := by
  induction groups generalizing kept with
  | nil => exact Or.inl h
  | cons group groups ih =>
      rcases ih h with h | ⟨g, hg, hitem⟩
      · rcases mem_addSurvivor h with h | hitem
        · exact Or.inl h
        · exact Or.inr ⟨group, List.mem_cons_self, hitem⟩
      · exact Or.inr ⟨g, List.mem_cons_of_mem _ hg, hitem⟩

end Survivors

variable {records active : List (ContinuityMemory F)} {policy : LongTermRetentionPolicy}
  {incoming : ContinuityMemory F}

theorem mem_protectedIds_of_class {item : ContinuityMemory F} (hitem : item ∈ records)
    (h : protectedByClass policy item = true) : item.recordId ∈ protectedIds records policy := by
  have hkept : item.recordId ∈
      ((records.filter (protectedByClass policy)).map (·.recordId)).toFinset := by
    rw [List.mem_toFinset]
    exact List.mem_map_of_mem (List.mem_filter.2 ⟨hitem, h⟩)
  unfold protectedIds
  dsimp only
  split
  · exact hkept
  · exact subset_foldl_addSurvivor _ _ hkept

/-- A protected id is that of a record whose source is valid. -/
theorem valid_of_mem_protectedIds {id : String} (h : id ∈ protectedIds records policy) :
    ∃ item ∈ records, item.recordId = id ∧ item.sourceValid = true := by
  have hclass : id ∈ ((records.filter (protectedByClass policy)).map (·.recordId)).toFinset →
      ∃ item ∈ records, item.recordId = id ∧ item.sourceValid = true := by
    intro h
    obtain ⟨item, hitem, rfl⟩ := List.mem_map.1 (List.mem_toFinset.1 h)
    obtain ⟨hmem, hp⟩ := List.mem_filter.1 hitem
    simp only [protectedByClass, Bool.and_eq_true] at hp
    exact ⟨item, hmem, rfl, hp.1⟩
  unfold protectedIds at h
  dsimp only at h
  split at h
  · exact hclass h
  · rcases mem_foldl_addSurvivor h with h | ⟨group, hgroup, item, hitem, rfl⟩
    · exact hclass h
    · obtain ⟨hmem, hanchors⟩ := List.mem_filter.1 (mem_of_mem_groupBy _ hgroup hitem).1
      simp only [anchors, Bool.and_eq_true] at hanchors
      exact ⟨item, hmem, rfl, hanchors.1.1⟩

/-- Each covered anchor has a protected record that covers it. -/
theorem anchor_protected (hpolicy : policy.preserveAnchorCoverage = true)
    {item : ContinuityMemory F} (hitem : item ∈ records) (h : anchors item = true) :
    ∃ keeper ∈ records, anchors keeper = true ∧ keeper.identityAnchor = item.identityAnchor ∧
      keeper.recordId ∈ protectedIds records policy := by
  obtain ⟨group, hgroup, hin⟩ := exists_group (fun x : ContinuityMemory F => x.identityAnchor)
    (List.mem_filter.2 ⟨hitem, h⟩)
  obtain ⟨keeper, hkeeper, hkept⟩ := foldl_addSurvivor_covers
    ((records.filter (protectedByClass policy)).map (·.recordId)).toFinset hgroup hin
  obtain ⟨hmem, hkey⟩ := mem_of_mem_groupBy _ hgroup hkeeper
  obtain ⟨hrecord, hanchors⟩ := List.mem_filter.1 hmem
  refine ⟨keeper, hrecord, hanchors, ?_, ?_⟩
  · rw [hkey, (mem_of_mem_groupBy _ hgroup hin).2]
  · rw [protectedIds, if_neg (by simp [hpolicy])]
    exact hkept

/-! ## The retirement loop -/

/-- An id names one active record. -/
def UniqueIds (records : List (ContinuityMemory F)) : Prop := (records.map (·.recordId)).Nodup

theorem UniqueIds.eq (hids : UniqueIds active) {a b : ContinuityMemory F} (ha : a ∈ active)
    (hb : b ∈ active) (h : a.recordId = b.recordId) : a = b :=
  List.inj_on_of_nodup_map hids ha hb h

theorem UniqueIds.filter (hids : UniqueIds active) (p : ContinuityMemory F → Bool) :
    UniqueIds (active.filter p) :=
  (List.Sublist.map _ List.filter_sublist).nodup hids

theorem uniqueIds_of_card (h : (idsOf active).card = active.length) : UniqueIds active := by
  rw [← List.length_map (fun item : ContinuityMemory F => item.recordId)] at h
  exact Multiset.toFinset_card_eq_card_iff_nodup.1 h

theorem mem_idsOf {id : String} : id ∈ idsOf active ↔ ∃ item ∈ active, item.recordId = id := by
  rw [idsOf, List.mem_toFinset, List.mem_map]

/-- The retained records, as the set of their ids. -/
def retained (active : List (ContinuityMemory F)) (ids : Finset String) :
    List (ContinuityMemory F) :=
  active.filter fun item => item.recordId ∈ ids

theorem length_retained (hids : UniqueIds active) {ids : Finset String} (h : ids ⊆ idsOf active) :
    (retained active ids).length = ids.card := by
  have hset : idsOf (retained active ids) = ids := by
    ext id
    rw [mem_idsOf]
    constructor
    · rintro ⟨item, hitem, rfl⟩
      simpa using (List.mem_filter.1 hitem).2
    · intro hid
      obtain ⟨item, hitem, rfl⟩ := mem_idsOf.1 (h hid)
      exact ⟨item, List.mem_filter.2 ⟨hitem, by simpa using hid⟩, rfl⟩
  have hcard : (idsOf (retained active ids)).card = (retained active ids).length := by
    have hnd : ((retained active ids).map (·.recordId)).Nodup := hids.filter _
    rw [idsOf, List.toFinset_card_of_nodup hnd, List.length_map]
  rw [← hcard, hset]

@[simp] theorem sumChars_nil : sumChars ([] : List (ContinuityMemory F)) = 0 := rfl

@[simp] theorem sumChars_singleton (item : ContinuityMemory F) :
    sumChars [item] = item.chars := by
  simp [sumChars]

@[simp] theorem sumChars_append (xs ys : List (ContinuityMemory F)) :
    sumChars (xs ++ ys) = sumChars xs + sumChars ys := by
  simp [sumChars]

/-- One record less is its characters less. -/
theorem sumChars_retained_erase (hids : UniqueIds active) {candidate : ContinuityMemory F}
    (hmem : candidate ∈ active) {ids : Finset String} (hid : candidate.recordId ∈ ids) :
    sumChars (retained active (ids.erase candidate.recordId)) =
      sumChars (retained active ids) - candidate.chars := by
  obtain ⟨before, after, rfl⟩ := List.append_of_mem hmem
  have hother : ∀ item ∈ before ++ after, item.recordId ≠ candidate.recordId := by
    have hnd : ((before ++ candidate :: after).map (·.recordId)).Nodup := hids
    rw [List.map_append, List.map_cons] at hnd
    have hnd := (List.nodup_middle.1 hnd)
    intro item hitem heq
    refine (List.nodup_cons.1 hnd).1 ?_
    rw [← heq, ← List.map_append]
    exact List.mem_map_of_mem hitem
  have hkeep : ∀ part : List (ContinuityMemory F), (∀ item ∈ part, item ∈ before ++ after) →
      retained part (ids.erase candidate.recordId) = retained part ids := by
    intro part hpart
    refine List.filter_congr fun item hitem => ?_
    have hne := hother item (hpart item hitem)
    simp [Finset.mem_erase, hne]
  have hsplit : ∀ s : Finset String, retained (before ++ candidate :: after) s =
      retained before s ++ (retained [candidate] s ++ retained after s) := by
    intro s
    rw [retained, List.filter_append, ← List.singleton_append, List.filter_append]
    rfl
  rw [hsplit, hsplit, hkeep before fun item h => List.mem_append_left _ h,
    hkeep after fun item h => List.mem_append_right _ h]
  have hgone : retained [candidate] (ids.erase candidate.recordId) = [] := by simp [retained]
  have hthere : retained [candidate] ids = [candidate] := by simp [retained, hid]
  rw [hgone, hthere]
  simp only [sumChars_append, sumChars_nil, sumChars_singleton]
  omega

/-- The account of a tally: what it retains, and why the rest may go. -/
structure Counts (policy : LongTermRetentionPolicy) (active : List (ContinuityMemory F))
    (t : Tally) : Prop where
  ids : t.retainedIds ⊆ idsOf active
  chars : t.retainedChars = sumChars (retained active t.retainedIds)
  left : ∀ item ∈ active,
    item.recordId ∈ t.retainedIds ↔ item.recordId ∉ t.retirements ∧ item.recordId ∉ t.compactions
  retired : ∀ item ∈ active, item.recordId ∈ t.retirements → item.sourceValid = true →
    item.retentionClass ≠ .episodic ∧ item.recordId ∉ protectedIds active policy

theorem counts_start (hids : UniqueIds active) : Counts policy active (startTally active) := by
  have hinvalid : ∀ item ∈ active,
      (item.recordId ∈ idsOf (active.filter fun item => item.sourceValid = false) ↔
        item.sourceValid = false) := by
    intro item hitem
    rw [mem_idsOf]
    constructor
    · rintro ⟨other, hother, heq⟩
      obtain ⟨hmem, hv⟩ := List.mem_filter.1 hother
      rw [← hids.eq hmem hitem heq]
      simpa using hv
    · exact fun hv => ⟨item, List.mem_filter.2 ⟨hitem, by simpa using hv⟩, rfl⟩
  refine ⟨Finset.sdiff_subset, rfl, fun item hitem => ?_, fun item hitem hr hv => ?_⟩
  · have hin : item.recordId ∈ idsOf active := mem_idsOf.2 ⟨item, hitem, rfl⟩
    simp [startTally, sortedIds, hin]
  · have hgone : item.recordId ∈ idsOf (active.filter fun item => item.sourceValid = false) := by
      simpa [startTally, sortedIds] using hr
    rw [hinvalid item hitem, hv] at hgone
    cases hgone

/-- What a candidate is: an active record, still there, and not protected. -/
structure Candidate (policy : LongTermRetentionPolicy) (active : List (ContinuityMemory F))
    (t : Tally) (candidate : ContinuityMemory F) : Prop where
  mem : candidate ∈ active
  there : candidate.recordId ∈ t.retainedIds
  free : candidate.recordId ∉ protectedIds active policy

theorem Counts.drop (hids : UniqueIds active) {t : Tally} (h : Counts policy active t)
    {candidate : ContinuityMemory F} (hc : Candidate policy active t candidate) :
    Counts policy active (t.drop candidate) := by
  have hkeep : ∀ item ∈ active, (item.recordId ∈ t.retainedIds.erase candidate.recordId ↔
      item.recordId ≠ candidate.recordId ∧ item.recordId ∉ t.retirements ∧
        item.recordId ∉ t.compactions) := by
    intro item hitem
    rw [Finset.mem_erase, h.left item hitem]
  have hsub := (Finset.erase_subset candidate.recordId t.retainedIds).trans h.ids
  have hchars := h.chars
  have hless := sumChars_retained_erase hids hc.mem hc.there
  unfold Tally.drop
  dsimp only
  split
  · refine ⟨hsub, by dsimp only; omega, fun item hitem => ?_, h.retired⟩
    rw [hkeep item hitem, List.mem_append, List.mem_singleton]
    tauto
  · next hclass =>
      refine ⟨hsub, by dsimp only; omega, fun item hitem => ?_, fun item hitem hr hv => ?_⟩
      · rw [hkeep item hitem, List.mem_append, List.mem_singleton]
        tauto
      · rcases List.mem_append.1 hr with hr | hr
        · exact h.retired item hitem hr hv
        · have heq := hids.eq hitem hc.mem (List.mem_singleton.1 hr)
          subst heq
          exact ⟨fun hep => hclass ⟨hep, hv⟩, hc.free⟩

/-- A valid episodic record, which waits for a checkpoint. -/
def awaitsCheckpoint (item : ContinuityMemory F) : Bool :=
  item.retentionClass = .episodic && item.sourceValid

def dropAll (t : Tally) (dropped : List (ContinuityMemory F)) : Tally :=
  dropped.foldl Tally.drop t

theorem retainedIds_drop (t : Tally) (candidate : ContinuityMemory F) :
    (t.drop candidate).retainedIds = t.retainedIds.erase candidate.recordId := by
  unfold Tally.drop
  dsimp only
  split <;> rfl

theorem compactions_drop (t : Tally) (candidate : ContinuityMemory F) :
    (t.drop candidate).compactions =
      t.compactions ++ ([candidate].filter awaitsCheckpoint).map (·.recordId) := by
  unfold Tally.drop
  dsimp only
  split
  · next h => simp [awaitsCheckpoint, h]
  · next h =>
      have hnot : awaitsCheckpoint candidate = false := by
        simpa [awaitsCheckpoint] using h
      simp [hnot]

theorem retainedIds_dropAll (t : Tally) (dropped : List (ContinuityMemory F)) :
    (dropAll t dropped).retainedIds = t.retainedIds \ idsOf dropped := by
  induction dropped generalizing t with
  | nil => simp [dropAll, idsOf]
  | cons candidate dropped ih =>
      have hstep : dropAll t (candidate :: dropped) = dropAll (t.drop candidate) dropped := rfl
      rw [hstep, ih, retainedIds_drop]
      ext id
      simp [idsOf, Finset.mem_sdiff, Finset.mem_erase]
      tauto

theorem compactions_dropAll (t : Tally) (dropped : List (ContinuityMemory F)) :
    (dropAll t dropped).compactions =
      t.compactions ++ (dropped.filter awaitsCheckpoint).map (·.recordId) := by
  induction dropped generalizing t with
  | nil => simp [dropAll]
  | cons candidate dropped ih =>
      have hstep : dropAll t (candidate :: dropped) = dropAll (t.drop candidate) dropped := rfl
      rw [hstep, ih, compactions_drop, List.append_assoc, ← List.map_append, ← List.filter_append,
        List.singleton_append]

/-- The loop drops the candidates up to where the incoming record fits, and no
further. -/
theorem retireUntilFits_split (candidates : List (ContinuityMemory F)) (t : Tally) :
    ∃ dropped rest, candidates = dropped ++ rest ∧
      retireUntilFits policy incoming candidates t = dropAll t dropped ∧
      (rest = [] ∨ (dropAll t dropped).fits policy incoming) ∧
      ∀ before candidate after, dropped = before ++ candidate :: after →
        ¬ (dropAll t before).fits policy incoming := by
  induction candidates generalizing t with
  | nil =>
      refine ⟨[], [], rfl, rfl, Or.inl rfl, ?_⟩
      intro before candidate after h
      simp at h
  | cons candidate candidates ih =>
      rw [retireUntilFits]
      by_cases hfits : t.fits policy incoming
      · rw [if_pos hfits]
        refine ⟨[], candidate :: candidates, rfl, rfl, Or.inr hfits, ?_⟩
        intro before next after h
        simp at h
      · rw [if_neg hfits]
        obtain ⟨dropped, rest, hsplit, hloop, hstop, hbefore⟩ := ih (t.drop candidate)
        refine ⟨candidate :: dropped, rest, by rw [hsplit]; rfl, hloop, hstop, ?_⟩
        intro before next after h
        cases before with
        | nil => exact hfits
        | cons first before =>
            injection h with hfirst hrest
            subst hfirst
            exact hbefore before next after hrest

theorem Counts.dropAll (hids : UniqueIds active) {dropped : List (ContinuityMemory F)}
    (hu : UniqueIds dropped) {t : Tally} (h : Counts policy active t)
    (hc : ∀ candidate ∈ dropped, Candidate policy active t candidate) :
    Counts policy active (dropAll t dropped) := by
  induction dropped generalizing t with
  | nil => exact h
  | cons candidate dropped ih =>
      obtain ⟨hnew, hu⟩ := List.nodup_cons.1 hu
      refine ih hu (h.drop hids (hc _ List.mem_cons_self)) fun later hlater => ?_
      have hl := hc later (List.mem_cons_of_mem _ hlater)
      have hne : later.recordId ≠ candidate.recordId := by
        intro heq
        apply hnew
        show candidate.recordId ∈ _
        rw [← heq]
        exact List.mem_map_of_mem hlater
      refine ⟨hl.mem, ?_, hl.free⟩
      rw [retainedIds_drop]
      exact Finset.mem_erase.2 ⟨hne, hl.there⟩

theorem Counts.retireUntilFits (hids : UniqueIds active) {candidates : List (ContinuityMemory F)}
    (hu : UniqueIds candidates) {t : Tally} (h : Counts policy active t)
    (hc : ∀ candidate ∈ candidates, Candidate policy active t candidate) :
    Counts policy active (retireUntilFits policy incoming candidates t) := by
  obtain ⟨dropped, rest, rfl, hloop, -⟩ :=
    @retireUntilFits_split F _ policy incoming candidates t
  rw [hloop]
  refine h.dropAll hids ?_ fun candidate hmem => hc candidate (List.mem_append_left _ hmem)
  exact (List.Sublist.map _ (List.sublist_append_left _ _)).nodup hu

/-! ## The candidates -/

theorem mapM_keyed {m : FloatMath F} {nowNs : Int} {items : List (ContinuityMemory F)}
    {keyed : List (F × ContinuityMemory F)}
    (h : items.mapM (fun item => do
      let utility ← retentionUtility m item nowNs
      return (utility, item)) = .ok keyed) : keyed.map Prod.snd = items := by
  induction items generalizing keyed with
  | nil =>
      cases h
      rfl
  | cons item items ih =>
      rw [List.mapM_cons] at h
      obtain ⟨first, hfirst, h⟩ := except_bind_ok.1 h
      obtain ⟨utility, -, hpair⟩ := except_bind_ok.1 hfirst
      obtain ⟨rest, hrest, h⟩ := except_bind_ok.1 h
      cases hpair
      cases h
      rw [List.map_cons, ih hrest]

/-- Whatever the utility says, the candidates are the unprotected records with a
valid source. -/
theorem planCandidates_perm {m : FloatMath F} {nowNs : Int}
    {candidates : List (ContinuityMemory F)}
    (h : planCandidates policy m active nowNs = .ok candidates) :
    candidates.Perm (active.filter fun item => item.recordId ∉ protectedIds active policy ∧
      item.recordId ∈ (startTally active).retainedIds) := by
  obtain ⟨keyed, hkeyed, h⟩ := except_bind_ok.1 h
  cases h
  rw [← mapM_keyed hkeyed]
  exact (List.perm_insertionSort _ keyed).map Prod.snd

theorem planCandidates_ok {m : FloatMath F} {nowNs : Int} {candidates : List (ContinuityMemory F)}
    (hids : UniqueIds active) (h : planCandidates policy m active nowNs = .ok candidates) :
    UniqueIds candidates ∧
      ∀ candidate ∈ candidates, Candidate policy active (startTally active) candidate := by
  have hperm := planCandidates_perm h
  refine ⟨((hperm.map _).nodup_iff).2 (hids.filter _), fun candidate hmem => ?_⟩
  obtain ⟨hactive, hfree⟩ := List.mem_filter.1 (hperm.mem_iff.1 hmem)
  rw [decide_eq_true_eq] at hfree
  exact ⟨hactive, hfree.2, hfree.1⟩

/-! ## An admitted plan -/

/-- What the planner found when it admits the incoming record. -/
structure Admitted (policy : LongTermRetentionPolicy) (incoming : ContinuityMemory F)
    (active : List (ContinuityMemory F)) (decision : RetentionDecision) (t : Tally) : Prop where
  ids : UniqueIds active
  fresh : incoming.recordId ∉ idsOf active
  valid : incoming.sourceValid = true
  status : incoming.status = "active"
  counts : Counts policy active t
  fits : t.fits policy incoming
  none_waits : t.compactions = []
  retire : decision.retireRecordIds = t.retirements
  compact : decision.compactRecordIds = []
  records : decision.projectedRecords = t.retainedIds.card + 1
  chars : decision.projectedChars = t.retainedChars + incoming.chars

theorem refuse_admitted (reason : RetentionReason) (compactIds protectedIds : List String) :
    (refuse active reason compactIds protectedIds).admitted = false := rfl

theorem decideRetention_admitted {candidates : List (ContinuityMemory F)} (hids : UniqueIds active)
    (hfresh : incoming.recordId ∉ idsOf active) (hvalid : incoming.sourceValid = true)
    (hstatus : incoming.status = "active") (hu : UniqueIds candidates)
    (hc : ∀ candidate ∈ candidates, Candidate policy active (startTally active) candidate)
    (h : (decideRetention policy incoming active candidates).admitted = true) :
    ∃ t, Admitted policy incoming active (decideRetention policy incoming active candidates) t := by
  refine ⟨MemoryCore.retireUntilFits policy incoming candidates (startTally active), ?_⟩
  have hcounts : Counts policy active
      (MemoryCore.retireUntilFits policy incoming candidates (startTally active)) :=
    (counts_start hids).retireUntilFits hids hu hc
  unfold decideRetention at h ⊢
  dsimp only at h ⊢
  split at h
  · cases h
  · next hfits =>
      rw [if_neg hfits]
      split at h
      · simp [apply_ite RetentionDecision.admitted, refuse_admitted] at h
      · next hwaits =>
          rw [if_neg hwaits]
          exact ⟨hids, hfresh, hvalid, hstatus, hcounts, not_not.1 hfits, not_not.1 hwaits,
            rfl, rfl, rfl, rfl⟩

theorem plan_admitted {m : FloatMath F} {nowNs : Int} {decision : RetentionDecision}
    (h : planLongTermRetention policy incoming m records nowNs = .ok decision)
    (hadmitted : decision.admitted = true) :
    ∃ t, Admitted policy incoming (activeOf records) decision t := by
  unfold planLongTermRetention at h
  obtain ⟨_, -, h⟩ := except_bind_ok.1 h
  obtain ⟨_, hcard, h⟩ := except_bind_ok.1 h
  obtain ⟨_, hfresh, h⟩ := except_bind_ok.1 h
  have hids := uniqueIds_of_card (not_not.1 (raiseIf_ok.1 hcard))
  split at h
  · cases h
    cases hadmitted
  · next hvalid =>
      split at h
      · cases h
        cases hadmitted
      · next hstatus =>
          split at h
          · cases h
            cases hadmitted
          · obtain ⟨candidates, hcandidates, h⟩ := except_bind_ok.1 h
            cases h
            obtain ⟨hu, hc⟩ := planCandidates_ok hids hcandidates
            exact decideRetention_admitted hids (raiseIf_ok.1 hfresh) (by simpa using hvalid)
              (not_not.1 hstatus) hu hc hadmitted

/-! ## What the plan leads to -/

theorem activeOf_append (xs ys : List (ContinuityMemory F)) :
    activeOf (xs ++ ys) = activeOf xs ++ activeOf ys := List.filter_append ..

theorem activeOf_applyRetention_append (decision : RetentionDecision) :
    activeOf (applyRetention incoming records decision) =
      (activeOf records).filter (fun item => item.recordId ∉ decision.retireRecordIds) ++
        activeOf [incoming] := by
  rw [applyRetention, activeOf_append]
  congr 1
  induction records with
  | nil => rfl
  | cons item records ih =>
      simp only [activeOf, List.map_cons, List.filter_cons] at ih ⊢
      by_cases hactive : item.status = "active"
      · by_cases hretire : item.recordId ∈ decision.retireRecordIds
        · simp [hactive, hretire, ih]
        · simp [hactive, hretire, ih]
      · simp [hactive, ih]

theorem activeOf_applyRetention (hstatus : incoming.status = "active")
    (decision : RetentionDecision) :
    activeOf (applyRetention incoming records decision) =
      (activeOf records).filter (fun item => item.recordId ∉ decision.retireRecordIds) ++
        [incoming] := by
  have hlast : activeOf [incoming] = [incoming] := by simp [activeOf, hstatus]
  rw [activeOf_applyRetention_append, hlast]

/-- Some active record with a valid source, core or durable, covers the anchor. -/
def Covered (records : List (ContinuityMemory F)) (anchor : String) : Prop :=
  ∃ item ∈ activeOf records, anchors item = true ∧ item.identityAnchor = anchor

/-- What an admitted plan promises of the records it is applied to. -/
structure SafePlan (policy : LongTermRetentionPolicy) (incoming : ContinuityMemory F)
    (records : List (ContinuityMemory F)) (decision : RetentionDecision) : Prop where
  count : ((activeOf (applyRetention incoming records decision)).length : Int) =
    decision.projectedRecords
  chars : sumChars (activeOf (applyRetention incoming records decision)) = decision.projectedChars
  count_le : decision.projectedRecords ≤ policy.maxActiveRecords
  chars_le : decision.projectedChars ≤ policy.maxActiveChars
  protects_class : ∀ item ∈ activeOf records, protectedByClass policy item = true →
    item.recordId ∉ decision.retireRecordIds ∧ item.recordId ∉ decision.compactRecordIds
  protects : ∀ id ∈ protectedIds (activeOf records) policy,
    id ∉ decision.retireRecordIds ∧ id ∉ decision.compactRecordIds
  episodic : ∀ item ∈ activeOf records, item.retentionClass = .episodic →
    item.sourceValid = true → item.recordId ∉ decision.retireRecordIds
  covers : policy.preserveAnchorCoverage = true →
    ∀ anchor, Covered records anchor → Covered (applyRetention incoming records decision) anchor

section

variable {decision : RetentionDecision} {t : Tally}
  (h : Admitted policy incoming (activeOf records) decision t)
include h

/-- What stays active is what the tally retains, and the incoming record. -/
theorem Admitted.activeOf_eq : activeOf (applyRetention incoming records decision) =
    retained (activeOf records) t.retainedIds ++ [incoming] := by
  rw [activeOf_applyRetention h.status, h.retire, retained]
  congr 1
  refine List.filter_congr fun item hitem => ?_
  have hleft := h.counts.left item hitem
  rw [h.none_waits] at hleft
  simp [hleft]

theorem Admitted.protects {id : String} (hid : id ∈ protectedIds (activeOf records) policy) :
    id ∉ decision.retireRecordIds ∧ id ∉ decision.compactRecordIds := by
  rw [h.retire, h.compact]
  refine ⟨fun hr => ?_, List.not_mem_nil⟩
  obtain ⟨item, hitem, rfl, hvalid⟩ := valid_of_mem_protectedIds hid
  exact (h.counts.retired item hitem hr hvalid).2 hid

theorem Admitted.covers (hpolicy : policy.preserveAnchorCoverage = true) {anchor : String}
    (hcovered : Covered records anchor) :
    Covered (applyRetention incoming records decision) anchor := by
  obtain ⟨item, hitem, hanchors, rfl⟩ := hcovered
  obtain ⟨keeper, hkeeper, hk, hsame, hid⟩ := anchor_protected hpolicy hitem hanchors
  refine ⟨keeper, ?_, hk, hsame⟩
  rw [activeOf_applyRetention h.status]
  exact List.mem_append_left _ (List.mem_filter.2 ⟨hkeeper, by simpa using (h.protects hid).1⟩)

theorem Admitted.safe : SafePlan policy incoming records decision where
  count := by
    have hlen := length_retained h.ids h.counts.ids
    rw [h.activeOf_eq, h.records, List.length_append, hlen]
    rfl
  chars := by
    rw [h.activeOf_eq, h.chars, h.counts.chars, sumChars_append, sumChars_singleton]
  count_le := h.records ▸ h.fits.1
  chars_le := h.chars ▸ h.fits.2
  protects_class item hitem hclass := h.protects (mem_protectedIds_of_class hitem hclass)
  protects id hid := h.protects hid
  episodic item hitem hclass hvalid hr :=
    (h.counts.retired item hitem (h.retire ▸ hr) hvalid).1 hclass
  covers hpolicy anchor hcovered := h.covers hpolicy hcovered

end

/-! ## Whole runs -/

/-- The records after a call: an admitted plan is applied, any other answer
leaves them. -/
def afterCall (policy : LongTermRetentionPolicy) (m : FloatMath F)
    (records : List (ContinuityMemory F)) (call : ContinuityMemory F × Int) :
    List (ContinuityMemory F) :=
  match planLongTermRetention policy call.1 m records call.2 with
  | .ok decision => if decision.admitted then applyRetention call.1 records decision else records
  | .error _ => records

def afterCalls (policy : LongTermRetentionPolicy) (m : FloatMath F)
    (start : List (ContinuityMemory F)) (calls : List (ContinuityMemory F × Int)) :
    List (ContinuityMemory F) :=
  calls.foldl (afterCall policy m) start

theorem plan_safe {m : FloatMath F} {nowNs : Int} {decision : RetentionDecision}
    (h : planLongTermRetention policy incoming m records nowNs = .ok decision)
    (hadmitted : decision.admitted = true) : SafePlan policy incoming records decision := by
  obtain ⟨t, ht⟩ := plan_admitted h hadmitted
  exact ht.safe

theorem afterCall_covers {m : FloatMath F} (hpolicy : policy.preserveAnchorCoverage = true)
    {anchor : String} (hcovered : Covered records anchor) (call : ContinuityMemory F × Int) :
    Covered (afterCall policy m records call) anchor := by
  unfold afterCall
  split
  · next decision heq =>
      split
      · next hadmitted => exact (plan_safe heq hadmitted).covers hpolicy anchor hcovered
      · exact hcovered
  · exact hcovered

theorem afterCalls_covers {m : FloatMath F} (hpolicy : policy.preserveAnchorCoverage = true)
    {start : List (ContinuityMemory F)} {anchor : String} (hcovered : Covered start anchor)
    (calls : List (ContinuityMemory F × Int)) :
    Covered (afterCalls policy m start calls) anchor := by
  induction calls generalizing start with
  | nil => exact hcovered
  | cons call calls ih => exact ih (afterCall_covers hpolicy hcovered call)

/-- Every plan admitted in a run is safe for the records it meets, and what the
run started out covering is covered still. -/
theorem retention_run_safe (policy : LongTermRetentionPolicy) (m : FloatMath F)
    (start : List (ContinuityMemory F)) (calls : List (ContinuityMemory F × Int))
    (incoming : ContinuityMemory F) (nowNs : Int) (decision : RetentionDecision)
    (hplan : planLongTermRetention policy incoming m (afterCalls policy m start calls) nowNs =
      .ok decision)
    (hadmitted : decision.admitted = true) :
    SafePlan policy incoming (afterCalls policy m start calls) decision ∧
      (policy.preserveAnchorCoverage = true → ∀ anchor, Covered start anchor →
        Covered (applyRetention incoming (afterCalls policy m start calls) decision) anchor) := by
  have hsafe := plan_safe hplan hadmitted
  refine ⟨hsafe, fun hpolicy anchor hcovered => ?_⟩
  exact hsafe.covers hpolicy anchor (afterCalls_covers hpolicy hcovered calls)

/-- Float operations on the one float there is. -/
def plainMath : FloatMath Unit where
  lit _ := ()
  ofInt _ := .ok ()
  divInt _ _ := .ok ()
  add _ _ := ()
  mul _ _ := ()
  div _ _ := ()
  min _ _ := ()
  log1p _ := ()
  log _ := ()
  lt _ _ := false

def sampleFields (recordId : String) (retentionClass : RetentionClass) (identityAnchor : String)
    (sourceValid : Bool) : ContinuityFields Unit where
  recordId := recordId
  text := "text"
  retentionClass := retentionClass
  recordedAtNs := 0
  lastUsedAtNs := 0
  useCount := 0
  importance := ()
  confidence := ()
  identityAnchor := identityAnchor
  pinned := false
  sourceValid := sourceValid
  status := "active"
  authority := .none
  evidenceRefs := []

def sampleHome : ContinuityMemory Unit := ⟨sampleFields "home" .core "user" true, rfl⟩
def sampleTask : ContinuityMemory Unit := ⟨sampleFields "task" .transient "" true, rfl⟩
def sampleNote : ContinuityMemory Unit := ⟨sampleFields "note" .episodic "" true, rfl⟩

def samplePolicy : LongTermRetentionPolicy :=
  { LongTermRetentionPolicy.default with maxActiveRecords := 2, checked := rfl }

/-- The note takes the place of the task, and the core record stays. -/
theorem retention_run_safe_sample :
    SafePlan samplePolicy sampleNote (afterCalls samplePolicy plainMath [sampleHome]
        [(sampleTask, 0)])
      ⟨true, .retireInvalidOrLowerContinuityUtility, ["task"], [], ["home"], 2, 8⟩ ∧
      (samplePolicy.preserveAnchorCoverage = true → ∀ anchor, Covered [sampleHome] anchor →
        Covered (applyRetention sampleNote (afterCalls samplePolicy plainMath [sampleHome]
          [(sampleTask, 0)])
          ⟨true, .retireInvalidOrLowerContinuityUtility, ["task"], [], ["home"], 2, 8⟩) anchor) :=
  retention_run_safe samplePolicy plainMath [sampleHome] [(sampleTask, 0)] sampleNote 0 _
    (by decide +kernel) rfl

end MemoryCore
