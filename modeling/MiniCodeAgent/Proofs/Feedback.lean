import MiniCodeAgent.MemoryControl
import Mathlib.Tactic.Linarith
import Mathlib.Tactic.Ring
import Mathlib.Tactic.Positivity
import Mathlib.Algebra.Order.Field.Rat
import Mathlib.Algebra.BigOperators.Group.List.Basic

/-!
# Feedback moves the expected utility one way

The utility of a card is a sum of which three terms read its feedback: a success
rate, a mean reward and a harm rate, all over the same number of uses. Over exact
rationals a harmful failure with the least reward lowers all three, a harmless
success with the greatest raises all three, and what clamps the sum is monotone.

What feedback a card has is read off the outcomes of the decisions that selected
it, whatever order the tables give them in; `Reflects` says how, and `Tallies` carries
it through the aggregation.
-/

namespace MiniCodeAgent

variable {F : Type} [Json.PyFloat F]

open Json.PyFloat (val)

/-- Float operations that round nothing. -/
structure FloatOps.Exact (ops : FloatOps F) : Prop where
  val_lit : ∀ q, val (ops.lit q) = q
  val_add : ∀ a b, val (ops.add a b) = val a + val b
  val_sub : ∀ a b, val (ops.sub a b) = val a - val b
  val_mul : ∀ a b, val (ops.mul a b) = val a * val b
  val_div : ∀ a b, val (ops.div a b) = val a / val b
  val_ofInt : ∀ i : Int, val (Json.PyFloat.ofText (Json.dumpInt i) : F) = i

theorem val_floatMin (a b : F) : val (floatMin a b) = min (val a) (val b) := by
  unfold floatMin
  split
  · next h => rw [min_eq_right (le_of_lt h)]
  · next h => rw [min_eq_left (not_lt.1 h)]

theorem val_floatMax (a b : F) : val (floatMax a b) = max (val a) (val b) := by
  unfold floatMax
  split
  · next h => rw [max_eq_right (le_of_lt h)]
  · next h => rw [max_eq_left (not_lt.1 h)]

/-! ## The three terms -/

/-- What the feedback adds to the utility. -/
def feedbackWeight (uses successes harmfulUses : Nat) (rewardTotal : Rat) : Rat :=
  35 / 100 * ((successes + 1) / (uses + 2)) +
    (if uses = 0 then 0 else 1 / 10 * (rewardTotal / uses)) -
    55 / 100 * (harmfulUses / (uses + 2))

/-- A rate over more uses is less, and one more among one more use is more. -/
theorem rate_mono {n u : Rat} (hn : 0 ≤ n) (hu : 0 ≤ u) (h : n ≤ u + 2) :
    n / (u + 1 + 2) ≤ n / (u + 2) ∧ n / (u + 2) ≤ (n + 1) / (u + 1 + 2) := by
  refine ⟨div_le_div_of_nonneg_left hn (by linarith) (by linarith), ?_⟩
  rw [div_le_div_iff₀ (by linarith) (by linarith)]
  linarith

/-- The mean of rewards is not raised by the least reward, nor lowered by the greatest. -/
theorem mean_mono {u t : Rat} (hu : 0 ≤ u) (hlow : -u ≤ t) (hhigh : t ≤ u) :
    (t - 1) / (u + 1) ≤ (if u = 0 then 0 else t / u) ∧
      (if u = 0 then 0 else t / u) ≤ (t + 1) / (u + 1) := by
  split
  · next h =>
      subst h
      have ht : t = 0 := by linarith
      subst ht
      norm_num
  · next h =>
      have hpos : 0 < u := lt_of_le_of_ne hu (Ne.symm h)
      rw [div_le_div_iff₀ (by linarith) hpos, div_le_div_iff₀ hpos (by linarith)]
      refine ⟨?_, ?_⟩
      · linarith
      · linarith

theorem reward_mono {uses : Nat} {t : Rat} (hlow : -uses ≤ t) (hhigh : t ≤ uses) :
    (if uses + 1 = 0 then 0 else 1 / 10 * ((t - 1) / ((uses + 1 : Nat) : Rat))) ≤
        (if uses = 0 then 0 else 1 / 10 * (t / uses)) ∧
      (if uses = 0 then 0 else 1 / 10 * (t / uses)) ≤
        (if uses + 1 = 0 then 0 else 1 / 10 * ((t + 1) / ((uses + 1 : Nat) : Rat))) := by
  have hmean := mean_mono (Nat.cast_nonneg uses) hlow hhigh
  rw [if_neg (Nat.succ_ne_zero uses), if_neg (Nat.succ_ne_zero uses), Nat.cast_add, Nat.cast_one]
  by_cases h : uses = 0
  · rw [if_pos (by rw [h]; rfl)] at hmean
    rw [if_pos h]
    refine ⟨?_, ?_⟩
    · linarith [hmean.1]
    · linarith [hmean.2]
  · rw [if_neg (by exact_mod_cast h)] at hmean
    rw [if_neg h]
    refine ⟨?_, ?_⟩
    · linarith [hmean.1]
    · linarith [hmean.2]

/-- A harmful failure with the least reward. -/
theorem feedbackWeight_failure {uses successes harmfulUses : Nat} {t : Rat}
    (hs : successes ≤ uses) (hh : harmfulUses ≤ uses) (hlow : -uses ≤ t) (hhigh : t ≤ uses) :
    feedbackWeight (uses + 1) successes (harmfulUses + 1) (t - 1) ≤
      feedbackWeight uses successes harmfulUses t := by
  have hs' : (successes : Rat) ≤ uses := by exact_mod_cast hs
  have hh' : (harmfulUses : Rat) ≤ uses := by exact_mod_cast hh
  have hhelp := (rate_mono (n := (successes : Rat) + 1) (by positivity) (Nat.cast_nonneg uses)
    (by linarith)).1
  have hharm := (rate_mono (Nat.cast_nonneg harmfulUses) (Nat.cast_nonneg uses)
    (by linarith)).2
  have hreward := (reward_mono hlow hhigh).1
  unfold feedbackWeight
  push_cast at hreward ⊢
  linarith

/-- A harmless success with the greatest reward. -/
theorem feedbackWeight_success {uses successes harmfulUses : Nat} {t : Rat}
    (hs : successes ≤ uses) (hh : harmfulUses ≤ uses) (hlow : -uses ≤ t) (hhigh : t ≤ uses) :
    feedbackWeight uses successes harmfulUses t ≤
      feedbackWeight (uses + 1) (successes + 1) harmfulUses (t + 1) := by
  have hs' : (successes : Rat) ≤ uses := by exact_mod_cast hs
  have hh' : (harmfulUses : Rat) ≤ uses := by exact_mod_cast hh
  have hhelp := (rate_mono (n := (successes : Rat) + 1) (by positivity) (Nat.cast_nonneg uses)
    (by linarith)).2
  have hharm := (rate_mono (Nat.cast_nonneg harmfulUses) (Nat.cast_nonneg uses)
    (by linarith)).1
  have hreward := (reward_mono hlow hhigh).2
  unfold feedbackWeight
  push_cast at hreward ⊢
  linarith

/-! ## The utility -/

section Utility

variable {env : RetrievalEnv F}

/-- What does not depend on the feedback. -/
def fixedUtility (env : RetrievalEnv F) (item : MemoryContextItem F) (role : String)
    (context : MemoryControlContext) : Rat :=
  55 / 100 * val item.score + val (stageBonus env item role context) -
    val (floatMin (env.floats.lit (2 / 10)) (env.floats.div
      (env.floats.mul (env.floats.lit (15 / 100))
        (env.floats.lit (max 1 (item.value.length / 4) : Nat)))
      (env.floats.lit (max context.tokenBudget 1))))

theorem val_expectedUtility (hexact : env.floats.Exact) (item : MemoryContextItem F)
    (stats : MemoryUtilityStats F) (role : String) (context : MemoryControlContext) :
    val (expectedUtility env item stats role context) =
      max (-1) (min 1 (fixedUtility env item role context + feedbackWeight stats.uses
        stats.successes stats.harmfulUses (val stats.rewardTotal))) := by
  have hreward : val (if stats.uses = 0 then env.floats.lit 0
      else env.floats.mul (env.floats.lit (1 / 10)) (stats.meanReward env)) =
      if stats.uses = 0 then 0 else 1 / 10 * (val stats.rewardTotal / stats.uses) := by
    by_cases h : stats.uses = 0
    · rw [if_pos h, if_pos h, hexact.val_lit]
    · rw [if_neg h, if_neg h, hexact.val_mul, hexact.val_lit, MemoryUtilityStats.meanReward,
        if_neg h, hexact.val_div, hexact.val_lit]
  unfold expectedUtility
  simp only [val_floatMax, val_floatMin (env.floats.lit 1), hexact.val_sub, hexact.val_add, hreward,
    hexact.val_mul (env.floats.lit (55 / 100)), hexact.val_mul (env.floats.lit (35 / 100)),
    hexact.val_div (env.floats.lit _) (env.floats.lit ((stats.uses : Rat) + 2)), hexact.val_lit]
  unfold fixedUtility feedbackWeight
  congr 2
  ring

theorem expectedUtility_mono (hexact : env.floats.Exact) {stats stats' : MemoryUtilityStats F}
    (h : feedbackWeight stats.uses stats.successes stats.harmfulUses (val stats.rewardTotal) ≤
      feedbackWeight stats'.uses stats'.successes stats'.harmfulUses (val stats'.rewardTotal))
    (item : MemoryContextItem F) (role : String) (context : MemoryControlContext) :
    val (expectedUtility env item stats role context) ≤
      val (expectedUtility env item stats' role context) := by
  rw [val_expectedUtility hexact, val_expectedUtility hexact]
  exact max_le_max (le_refl _) (min_le_min (le_refl _) (by linarith))

end Utility

/-! ## The feedback of a card -/

section Tallies

variable (env : RetrievalEnv F)

/-- What the selection of one card makes of the outcome for `cardId`. -/
def usesIn (requested : List String) (cardId : String) (outcome : MemoryStore.OutcomeRow F)
    (selected : Json F) : List (MemoryStore.OutcomeRow F) :=
  match selected with
  | .str id => if id = cardId ∧ ¬ (requested ≠ [] ∧ id ∉ requested) then [outcome] else []
  | _ => []

/-- The uses of the card that the outcome is the outcome of. -/
def usesOf (requested : List String) (decisions : List (MemoryDecisionRecord F)) (cardId : String)
    (outcome : MemoryStore.OutcomeRow F) : List (MemoryStore.OutcomeRow F) :=
  match decisions.reverse.find? fun record => record.id = outcome.decisionId with
  | none => []
  | some decision =>
    if decision.shadow then [] else decision.selectedCardIds.flatMap (usesIn requested cardId outcome)

/-- The statistics count these uses. -/
structure Reflects (stats : MemoryUtilityStats F) (used : List (MemoryStore.OutcomeRow F)) :
    Prop where
  uses : stats.uses = used.length
  successes : stats.successes = used.countP fun outcome => outcome.success ≠ 0
  failures : stats.failures = used.countP fun outcome => outcome.success = 0
  harmfulUses : stats.harmfulUses = used.countP fun outcome => outcome.harmful ≠ 0
  rewardTotal : val stats.rewardTotal = (used.map fun outcome => val outcome.reward).sum

variable {env}

theorem reflects_empty (hexact : env.floats.Exact) (cardId : String) :
    Reflects (MemoryUtilityStats.empty env cardId) [] where
  uses := rfl
  successes := rfl
  failures := rfl
  harmfulUses := rfl
  rewardTotal := hexact.val_lit 0

theorem Reflects.addOutcome (hexact : env.floats.Exact) {stats : MemoryUtilityStats F}
    {used : List (MemoryStore.OutcomeRow F)} (h : Reflects stats used)
    (outcome : MemoryStore.OutcomeRow F) :
    Reflects (stats.addOutcome env outcome) (used ++ [outcome]) where
  uses := by simp [MemoryUtilityStats.addOutcome, h.uses]
  successes := by
    by_cases hs : outcome.success = 0
    · simp [MemoryUtilityStats.addOutcome, h.successes, hs]
    · simp [MemoryUtilityStats.addOutcome, h.successes, hs]
  failures := by
    by_cases hs : outcome.success = 0
    · simp [MemoryUtilityStats.addOutcome, h.failures, hs]
    · simp [MemoryUtilityStats.addOutcome, h.failures, hs]
  harmfulUses := by
    by_cases hh : outcome.harmful = 0
    · simp [MemoryUtilityStats.addOutcome, h.harmfulUses, hh]
    · simp [MemoryUtilityStats.addOutcome, h.harmfulUses, hh]
  rewardTotal := by
    simp [MemoryUtilityStats.addOutcome, hexact.val_add, h.rewardTotal]

theorem Reflects.perm {stats : MemoryUtilityStats F}
    {used used' : List (MemoryStore.OutcomeRow F)} (h : Reflects stats used)
    (hperm : used.Perm used') : Reflects stats used' where
  uses := h.uses.trans hperm.length_eq
  successes := h.successes.trans (hperm.countP_eq _)
  failures := h.failures.trans (hperm.countP_eq _)
  harmfulUses := h.harmfulUses.trans (hperm.countP_eq _)
  rewardTotal := h.rewardTotal.trans (hperm.map _).sum_eq

/-- Every use is a success or a failure. -/
theorem Reflects.total {stats : MemoryUtilityStats F} {used : List (MemoryStore.OutcomeRow F)}
    (h : Reflects stats used) : stats.uses = stats.successes + stats.failures := by
  rw [h.uses, h.successes, h.failures, List.length_eq_countP_add_countP
    fun outcome : MemoryStore.OutcomeRow F => decide (outcome.success ≠ 0)]
  simp

/-- The aggregates hold, under its own name, what reflects each card's uses. -/
structure Tallies (env : RetrievalEnv F) (used : String → List (MemoryStore.OutcomeRow F))
    (aggregates : Dict (MemoryUtilityStats F)) : Prop where
  nodup : aggregates.keys.Nodup
  named : ∀ p ∈ aggregates, p.2.cardId = p.1
  reflects : ∀ cardId, Reflects ((aggregates.get? cardId).getD (.empty env cardId)) (used cardId)

/-- A card that has none has the empty statistics. -/
theorem Tallies.named_getD {used : String → List (MemoryStore.OutcomeRow F)}
    {aggregates : Dict (MemoryUtilityStats F)} (h : Tallies env used aggregates) (cardId : String) :
    ((aggregates.get? cardId).getD (.empty env cardId)).cardId = cardId := by
  cases hget : aggregates.get? cardId with
  | none => rfl
  | some stats => exact h.named _ (Dict.mem_of_get? hget)

theorem Tallies.addOutcomeOf (hexact : env.floats.Exact) {requested : List String}
    {used : String → List (MemoryStore.OutcomeRow F)} {outcome : MemoryStore.OutcomeRow F}
    {aggregates aggregates' : Dict (MemoryUtilityStats F)} {selected : Json F}
    (h : Tallies env used aggregates)
    (hadd : addOutcomeOf env requested outcome aggregates selected = .ok aggregates') :
    Tallies env (fun cardId => used cardId ++ usesIn requested cardId outcome selected)
      aggregates' := by
  unfold MiniCodeAgent.addOutcomeOf at hadd
  split at hadd
  · next id =>
      split at hadd
      · next hskip =>
          cases hadd
          refine ⟨h.nodup, h.named, fun cardId => ?_⟩
          rw [usesIn, if_neg (fun hadded => hadded.2 hskip), List.append_nil]
          exact h.reflects cardId
      · next hkeep =>
          cases hadd
          refine ⟨Dict.nodup_keys_set h.nodup _ _, fun p hp => ?_, fun cardId => ?_⟩
          · have hget := Dict.get?_of_mem (Dict.nodup_keys_set h.nodup _ _) hp
            rw [Dict.get?_set] at hget
            split at hget
            · next hid =>
                rw [← Option.some.inj hget, ← hid]
                exact h.named_getD id
            · exact h.named p (Dict.mem_of_get? hget)
          · rw [Dict.get?_set, usesIn]
            by_cases hid : id = cardId
            · subst hid
              rw [if_pos rfl, if_pos ⟨rfl, hkeep⟩, Option.getD_some]
              exact (h.reflects id).addOutcome hexact outcome
            · rw [if_neg hid, if_neg fun hadded => hid hadded.1, List.append_nil]
              exact h.reflects cardId
  · cases hadd

theorem Tallies.addDecision (hexact : env.floats.Exact) {requested : List String}
    {used : String → List (MemoryStore.OutcomeRow F)} {outcome : MemoryStore.OutcomeRow F}
    {selected : List (Json F)} {aggregates aggregates' : Dict (MemoryUtilityStats F)}
    (h : Tallies env used aggregates)
    (hadd : selected.foldlM (MiniCodeAgent.addOutcomeOf env requested outcome) aggregates =
      .ok aggregates') :
    Tallies env (fun cardId => used cardId ++ selected.flatMap (usesIn requested cardId outcome))
      aggregates' := by
  refine except_foldlM_ok (P := fun done aggregates => Tallies env
    (fun cardId => used cardId ++ done.flatMap (usesIn requested cardId outcome)) aggregates)
    hadd ?_ ?_
  · simp only [List.flatMap_nil, List.append_nil]
    exact h
  · intro before x c c' _ hc hx
    simp only [List.flatMap_append, List.flatMap_singleton, ← List.append_assoc]
    exact hc.addOutcomeOf hexact hx

/-- The dictionary the aggregation starts from. -/
theorem tallies_start (hexact : env.floats.Exact) (requested : List String) :
    Tallies env (fun _ => [])
      (requested.dedup.map fun cardId => (cardId, MemoryUtilityStats.empty env cardId)) := by
  have hkeys : Dict.keys (requested.dedup.map fun cardId =>
      (cardId, MemoryUtilityStats.empty env cardId)) = requested.dedup := by
    rw [Dict.keys, List.map_map]
    exact List.map_id _
  refine ⟨by rw [hkeys]; exact List.nodup_dedup _, fun p hp => ?_, fun cardId => ?_⟩
  · obtain ⟨id, -, rfl⟩ := List.mem_map.1 hp
    rfl
  · cases hget : Dict.get? (requested.dedup.map fun cardId =>
        (cardId, MemoryUtilityStats.empty env cardId)) cardId with
    | none => exact reflects_empty hexact cardId
    | some stats =>
        obtain ⟨id, -, hid⟩ := List.mem_map.1 (Dict.mem_of_get? hget)
        cases hid
        exact reflects_empty hexact cardId

/-- The statistics the controller looks an item's card up in. -/
def feedbackOf (env : RetrievalEnv F) (stats : List (MemoryUtilityStats F)) (cardId : String) :
    MemoryUtilityStats F :=
  (stats.reverse.find? fun stat => stat.cardId = cardId).getD (.empty env cardId)

/-- Every entry of the result is the one its card is looked up by. -/
theorem Tallies.get?_of_mem {used : String → List (MemoryStore.OutcomeRow F)}
    {aggregates : Dict (MemoryUtilityStats F)} (h : Tallies env used aggregates)
    {stat : MemoryUtilityStats F}
    (hstat : stat ∈ (aggregates.insertionSort fun a b => a.1 ≤ b.1).map Prod.snd) :
    aggregates.get? stat.cardId = some stat := by
  obtain ⟨p, hp, rfl⟩ := List.mem_map.1 hstat
  have hp := (List.mem_insertionSort _).1 hp
  rw [h.named p hp]
  exact Dict.get?_of_mem h.nodup hp

theorem Tallies.feedbackOf {used : String → List (MemoryStore.OutcomeRow F)}
    {aggregates : Dict (MemoryUtilityStats F)} (h : Tallies env used aggregates) (cardId : String) :
    MiniCodeAgent.feedbackOf env ((aggregates.insertionSort fun a b => a.1 ≤ b.1).map Prod.snd)
      cardId = (aggregates.get? cardId).getD (.empty env cardId) := by
  unfold MiniCodeAgent.feedbackOf
  cases hfind : ((aggregates.insertionSort fun a b => a.1 ≤ b.1).map Prod.snd).reverse.find?
      fun stat => stat.cardId = cardId with
  | some stat =>
      have hid : stat.cardId = cardId := by simpa using List.find?_some hfind
      rw [← hid, h.get?_of_mem (List.mem_reverse.1 (List.mem_of_find?_eq_some hfind))]
  | none =>
      cases hget : aggregates.get? cardId with
      | none => rfl
      | some stat =>
          refine absurd (h.named _ (Dict.mem_of_get? hget)) ?_
          have hnone := List.find?_eq_none.1 hfind stat (List.mem_reverse.2 (List.mem_map.2
            ⟨(cardId, stat), (List.mem_insertionSort _).2 (Dict.mem_of_get? hget), rfl⟩))
          simpa using hnone

/-! ## One more outcome -/

/-- The feedback's part of the utility, for these uses. -/
def usesWeight (used : List (MemoryStore.OutcomeRow F)) : Rat :=
  feedbackWeight used.length (used.countP fun outcome => outcome.success ≠ 0)
    (used.countP fun outcome => outcome.harmful ≠ 0) (used.map fun outcome => val outcome.reward).sum

theorem Reflects.weight {stats : MemoryUtilityStats F} {used : List (MemoryStore.OutcomeRow F)}
    (h : Reflects stats used) :
    feedbackWeight stats.uses stats.successes stats.harmfulUses (val stats.rewardTotal) =
      usesWeight used := by
  rw [h.uses, h.successes, h.harmfulUses, h.rewardTotal, usesWeight]

/-- The reward is in the range an outcome is recorded with. -/
def Rewarded (outcome : MemoryStore.OutcomeRow F) : Prop :=
  -1 ≤ val outcome.reward ∧ val outcome.reward ≤ 1

theorem rewards_bounded {used : List (MemoryStore.OutcomeRow F)}
    (h : ∀ outcome ∈ used, Rewarded outcome) :
    -(used.length : Rat) ≤ (used.map fun outcome => val outcome.reward).sum ∧
      (used.map fun outcome => val outcome.reward).sum ≤ used.length := by
  induction used with
  | nil => simp
  | cons outcome used ih =>
      obtain ⟨hlow, hhigh⟩ := h outcome List.mem_cons_self
      obtain ⟨ihlow, ihhigh⟩ := ih fun other hother => h other (List.mem_cons_of_mem _ hother)
      simp only [List.map_cons, List.sum_cons, List.length_cons, Nat.cast_add, Nat.cast_one]
      refine ⟨?_, ?_⟩
      · linarith
      · linarith

omit [Json.PyFloat F] in
theorem successes_le (used : List (MemoryStore.OutcomeRow F)) :
    (used.countP fun outcome => outcome.success ≠ 0) ≤ used.length := List.countP_le_length

omit [Json.PyFloat F] in
theorem harms_le (used : List (MemoryStore.OutcomeRow F)) :
    (used.countP fun outcome => outcome.harmful ≠ 0) ≤ used.length := List.countP_le_length

/-- A harmful failure with the least reward. -/
def Harmed (outcome : MemoryStore.OutcomeRow F) : Prop :=
  outcome.success = 0 ∧ outcome.harmful ≠ 0 ∧ val outcome.reward = -1

/-- A harmless success with the greatest reward. -/
def Helped (outcome : MemoryStore.OutcomeRow F) : Prop :=
  outcome.success ≠ 0 ∧ outcome.harmful = 0 ∧ val outcome.reward = 1

theorem usesWeight_harmed {outcome : MemoryStore.OutcomeRow F} (houtcome : Harmed outcome)
    {used : List (MemoryStore.OutcomeRow F)} (h : ∀ other ∈ used, Rewarded other) :
    usesWeight (used ++ [outcome]) ≤ usesWeight used := by
  obtain ⟨hsuccess, hharmful, hreward⟩ := houtcome
  obtain ⟨hlow, hhigh⟩ := rewards_bounded h
  have hweight := feedbackWeight_failure
    (successes_le used) (harms_le used) hlow hhigh
  simpa [usesWeight, hsuccess, hharmful, hreward, sub_eq_add_neg] using hweight

theorem usesWeight_helped {outcome : MemoryStore.OutcomeRow F} (houtcome : Helped outcome)
    {used : List (MemoryStore.OutcomeRow F)} (h : ∀ other ∈ used, Rewarded other) :
    usesWeight used ≤ usesWeight (used ++ [outcome]) := by
  obtain ⟨hsuccess, hharmful, hreward⟩ := houtcome
  obtain ⟨hlow, hhigh⟩ := rewards_bounded h
  have hweight := feedbackWeight_success
    (successes_le used) (harms_le used) hlow hhigh
  simpa [usesWeight, hsuccess, hharmful, hreward] using hweight

/-- An outcome may be of several uses, if its decision names the card more than once. -/
theorem usesWeight_append {P : MemoryStore.OutcomeRow F → Prop} {R : Rat → Rat → Prop}
    (hrefl : ∀ q, R q q) (htrans : ∀ a b c, R a b → R b c → R a c)
    (hP : ∀ outcome, P outcome → Rewarded outcome)
    (hR : ∀ {outcome}, P outcome → ∀ {used : List (MemoryStore.OutcomeRow F)},
      (∀ other ∈ used, Rewarded other) → R (usesWeight used) (usesWeight (used ++ [outcome])))
    {more used : List (MemoryStore.OutcomeRow F)} (hmore : ∀ outcome ∈ more, P outcome)
    (hused : ∀ outcome ∈ used, Rewarded outcome) :
    R (usesWeight used) (usesWeight (used ++ more)) := by
  induction more generalizing used with
  | nil =>
      rw [List.append_nil]
      exact hrefl _
  | cons outcome more ih =>
      have houtcome := hmore outcome List.mem_cons_self
      have hstep := hR houtcome hused
      have hrewarded : ∀ other ∈ used ++ [outcome], Rewarded other := by
        intro other hother
        rcases List.mem_append.1 hother with hother | hother
        · exact hused other hother
        · rw [List.mem_singleton.1 hother]
          exact hP outcome houtcome
      have hrest := ih (fun other hother => hmore other (List.mem_cons_of_mem _ hother)) hrewarded
      rw [List.append_assoc] at hrest
      exact htrans _ _ _ hstep hrest

end Tallies

end MiniCodeAgent
