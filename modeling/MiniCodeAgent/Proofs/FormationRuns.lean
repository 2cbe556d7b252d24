import MiniCodeAgent.Formation
import Mathlib.Data.List.Infix

/-!
# Formation covers a conversation once

The cursor is an id, and a plan looks it up in the order it has just made. What
makes that safe is that later events sort behind the earlier ones: the order of a
grown conversation is the old order with more behind it (`orderedEvents_append`), so
the cursor stays where it was, and everything selected before lies up to it. A plan
takes a segment from there and moves the cursor to its end (`Planned.moves`).

The window of recent events is cut off the end before the segment is, so it never
holds a selected event; and a forced plan stops only when the segment is empty,
which is when all before the window has been taken.
-/

namespace MemoryCore

open MiniCodeAgent

variable {F : Type} [Json.PyFloat F] {events ordered : List (ConversationEvent F)}
  {policy : FormationPolicy} {cursor : Option String} {force : Bool} {plan : FormationPlan F}

/-! ## The order of a conversation that grows -/

theorem orderedInsert_append {α : Type} {r : α → α → Prop} [DecidableRel r] {x : α}
    (xs : List α) {ys : List α} (h : ∀ y ∈ ys, r x y) :
    (xs ++ ys).orderedInsert r x = xs.orderedInsert r x ++ ys := by
  induction xs with
  | nil =>
      cases ys with
      | nil => rfl
      | cons y ys =>
          exact List.orderedInsert_cons_of_le r ys (h y List.mem_cons_self)
  | cons z xs ih =>
      rw [List.cons_append, List.orderedInsert, List.orderedInsert]
      by_cases hz : r x z
      · rw [if_pos hz, if_pos hz]
        rfl
      · rw [if_neg hz, if_neg hz, ih]
        rfl

/-- Events that come later sort behind. -/
theorem orderedEvents_append {added : List (ConversationEvent F)}
    (h : ∀ old ∈ events, ∀ new ∈ added, place old < place new) :
    orderedEvents (events ++ added) = orderedEvents events ++ orderedEvents added := by
  induction events with
  | nil => rfl
  | cons event events ih =>
      have hrest := ih fun old hold => h old (List.mem_cons_of_mem _ hold)
      have hfirst : ∀ new ∈ orderedEvents added, place event ≤ place new := by
        intro new hnew
        have hmem := (List.perm_insertionSort _ added).mem_iff.1 hnew
        exact (h event List.mem_cons_self new hmem).le
      unfold orderedEvents at hrest hfirst ⊢
      rw [List.cons_append, List.insertionSort_cons, List.insertionSort_cons, hrest]
      exact orderedInsert_append _ hfirst

theorem pairwise_orderedEvents (events : List (ConversationEvent F)) :
    (orderedEvents events).Pairwise fun a b => place a ≤ place b := by
  have htotal : Std.Total fun a b : ConversationEvent F => place a ≤ place b :=
    ⟨fun a b => le_total (place a) (place b)⟩
  have htrans : IsTrans (ConversationEvent F) fun a b => place a ≤ place b :=
    ⟨fun _ _ _ hab hbc => hab.trans hbc⟩
  exact List.pairwise_insertionSort _ events

/-! ## The cursor -/

omit [Json.PyFloat F] in
theorem cursorStart_append {n : Nat} (h : cursorStart ordered cursor = .ok n)
    (more : List (ConversationEvent F)) : cursorStart (ordered ++ more) cursor = .ok n := by
  cases cursor with
  | none => exact h
  | some id =>
      unfold cursorStart at h ⊢
      dsimp only at h ⊢
      rw [List.findIdx?_append]
      cases hfound : ordered.findIdx? fun item => item.eventId = id with
      | none =>
          rw [hfound] at h
          cases h
      | some index =>
          rw [hfound] at h
          exact h

omit [Json.PyFloat F] in
theorem cursorStart_le {n : Nat} (h : cursorStart ordered cursor = .ok n) :
    n ≤ ordered.length := by
  cases cursor with
  | none =>
      cases h
      exact Nat.zero_le _
  | some id =>
      unfold cursorStart at h
      dsimp only at h
      cases hfound : ordered.findIdx? fun item => item.eventId = id with
      | none =>
          rw [hfound] at h
          cases h
      | some index =>
          rw [hfound] at h
          cases h
          exact (List.findIdx?_eq_some_iff_getElem.1 hfound).1

omit [Json.PyFloat F] in
/-- Behind an event whose id no earlier one has. -/
theorem cursorStart_mid {before after : List (ConversationEvent F)} {event : ConversationEvent F}
    (h : ∀ other ∈ before, other.eventId ≠ event.eventId) :
    cursorStart (before ++ event :: after) (some event.eventId) = .ok (before.length + 1) := by
  have hnone : before.findIdx? (fun item => item.eventId = event.eventId) = none := by
    rw [List.findIdx?_eq_none_iff]
    intro other hother
    exact decide_eq_false (h other hother)
  unfold cursorStart
  dsimp only
  rw [List.findIdx?_append, hnone, List.findIdx?_cons]
  simp

/-! ## One plan -/

variable (policy ordered) in
/-- `eligible_end`. -/
def eligibleEnd : Nat := ordered.length - min policy.protectRecentMessages.toNat ordered.length

/-- The cursor of the next call: the last event of a batch, or the same as before. -/
def FormationPlan.cursorAfter (plan : FormationPlan F) (cursor : Option String) : Option String :=
  match plan.selected.getLast? with
  | some last => some last.eventId
  | none => cursor

/-- What a plan has found. -/
structure Planned (events : List (ConversationEvent F)) (policy : FormationPolicy)
    (cursor : Option String) (force : Bool) (plan : FormationPlan F) (start : Nat) : Prop where
  ids : ((orderedEvents events).map (·.eventId)).Nodup
  found : cursorStart (orderedEvents events) cursor = .ok start
  held : plan.held = (orderedEvents events).drop (eligibleEnd (orderedEvents events) policy)
  selected : plan.selected = [] ∨ plan.selected =
    (pendingEvents (orderedEvents events) start (eligibleEnd (orderedEvents events) policy)).take
      policy.maxMessagesPerBatch.toNat
  forced : force = true → plan.selected =
    (pendingEvents (orderedEvents events) start (eligibleEnd (orderedEvents events) policy)).take
      policy.maxMessagesPerBatch.toNat

theorem planFormation_ok (h : planFormation events policy cursor force = .ok plan) :
    ∃ start, Planned events policy cursor force plan start := by
  unfold planFormation at h
  obtain ⟨_, -, h⟩ := except_bind_ok.1 h
  obtain ⟨_, hunique, h⟩ := except_bind_ok.1 h
  obtain ⟨start, hstart, h⟩ := except_bind_ok.1 h
  have hunique := raiseIf_ok.1 hunique
  have hids : ((orderedEvents events).map (·.eventId)).Nodup := by
    by_cases hnil : orderedEvents events = []
    · rw [hnil]
      exact List.nodup_nil
    · have hcard : ((orderedEvents events).map (·.eventId)).toFinset.card =
          ((orderedEvents events).map (·.eventId)).length := by
        rw [List.length_map]
        by_contra hne
        exact hunique ⟨hnil, hne⟩
      exact Multiset.toFinset_card_eq_card_iff_nodup.1 hcard
  cases h
  refine ⟨start, hids, hstart, rfl, ?_, ?_⟩
  · dsimp only
    split
    · exact Or.inr rfl
    · exact Or.inl rfl
  · intro hforce
    subst hforce
    exact if_pos (by simp)

omit [Json.PyFloat F] in
theorem pendingEvents_eq (ordered : List (ConversationEvent F)) (start eligibleEnd : Nat) :
    pendingEvents ordered start eligibleEnd = (ordered.take eligibleEnd).drop start := by
  unfold pendingEvents
  by_cases h : start < eligibleEnd
  · rw [if_pos h]
  · have hlength := List.length_take_le eligibleEnd ordered
    rw [if_neg h, List.drop_eq_nil_of_le (by omega)]

section

variable {start : Nat} (h : Planned events policy cursor force plan start)
include h

/-- A batch is the next segment behind the cursor. -/
theorem Planned.segment : ∃ rest, (orderedEvents events).drop start = plan.selected ++ rest := by
  rcases h.selected with hnone | hbatch
  · exact ⟨_, by rw [hnone]; rfl⟩
  · have hsegment : plan.selected <+: (orderedEvents events).drop start := by
      rw [hbatch, pendingEvents_eq, List.drop_take]
      exact (List.take_prefix _ _).trans (List.take_prefix _ _)
    obtain ⟨rest, hrest⟩ := hsegment
    exact ⟨rest, hrest.symm⟩

/-- The cursor moves to the end of the batch. -/
theorem Planned.moves : cursorStart (orderedEvents events) (plan.cursorAfter cursor) =
    .ok (start + plan.selected.length) := by
  unfold FormationPlan.cursorAfter
  cases hlast : plan.selected.getLast? with
  | none =>
      rw [List.getLast?_eq_none_iff.1 hlast]
      exact h.found
  | some last =>
      obtain ⟨batch, hbatch⟩ := List.getLast?_eq_some_iff.1 hlast
      obtain ⟨rest, hrest⟩ := h.segment
      have hle := cursorStart_le h.found
      have hsplit : orderedEvents events =
          ((orderedEvents events).take start ++ batch) ++ last :: rest := by
        have hwhole := List.take_append_drop start (orderedEvents events)
        rw [hrest, hbatch, List.append_assoc, List.singleton_append] at hwhole
        rw [List.append_assoc, hwhole]
      have hlength : ((orderedEvents events).take start).length = start := by
        rw [List.length_take]
        omega
      have hfresh : ∀ other ∈ (orderedEvents events).take start ++ batch,
          other.eventId ≠ last.eventId := by
        intro other hother heq
        have hids := h.ids
        rw [hsplit, List.map_append, List.map_cons] at hids
        exact (List.nodup_append.1 hids).2.2 _ (List.mem_map_of_mem hother) _
          List.mem_cons_self heq
      have hfound := @cursorStart_mid F _ rest last hfresh
      rw [← hsplit] at hfound
      dsimp only
      rw [hfound, hbatch, List.length_append, List.length_append, hlength, List.length_singleton,
        Nat.add_assoc]

/-- What is selected is not held back. -/
theorem Planned.apart : ∀ event ∈ plan.selected, event.eventId ∉ plan.held.map (·.eventId) := by
  intro event hevent hheld
  have hearly : event ∈ (orderedEvents events).take
      (eligibleEnd (orderedEvents events) policy) := by
    rcases h.selected with hnone | hbatch
    · rw [hnone] at hevent
      cases hevent
    · rw [hbatch, pendingEvents_eq] at hevent
      exact List.mem_of_mem_drop (List.mem_of_mem_take hevent)
  have hids := h.ids
  rw [← List.take_append_drop (eligibleEnd (orderedEvents events) policy) (orderedEvents events),
    List.map_append] at hids
  rw [h.held] at hheld
  exact (List.nodup_append.1 hids).2.2 _ (List.mem_map_of_mem hearly) _ hheld rfl

end

/-! ## Calls, one after the other -/

/-- A call, and the events that have come since the last one. -/
structure FormationCall (F : Type) where
  added : List (ConversationEvent F)
  policy : FormationPolicy
  force : Bool

/-- What a host keeps: the conversation, its cursor, and the plans it was given. -/
structure FormationRun (F : Type) where
  events : List (ConversationEvent F)
  cursor : Option String
  plans : List (FormationPlan F)

namespace FormationRun

/-- All that was selected, in the order it was. -/
def selected (run : FormationRun F) : List (ConversationEvent F) := run.plans.flatMap (·.selected)

/-- The cursor moves to the last event of a batch; a plan without one, and a call that
raises, leave it. -/
def call (run : FormationRun F) (c : FormationCall F) : FormationRun F :=
  let events := run.events ++ c.added
  match planFormation events c.policy run.cursor c.force with
  | .error _ => { run with events := events }
  | .ok plan =>
    { events := events
      cursor := plan.cursorAfter run.cursor
      plans := run.plans ++ [plan] }

theorem call_ok {run : FormationRun F} {c : FormationCall F} (h : planFormation
    (run.events ++ c.added) c.policy run.cursor c.force = .ok plan) : run.call c =
      ⟨run.events ++ c.added, plan.cursorAfter run.cursor, run.plans ++ [plan]⟩ := by
  unfold call
  dsimp only
  rw [h]

theorem call_error {run : FormationRun F} {c : FormationCall F} {exc : PyExc}
    (h : planFormation (run.events ++ c.added) c.policy run.cursor c.force = .error exc) :
    run.call c = { run with events := run.events ++ c.added } := by
  unfold call
  dsimp only
  rw [h]

theorem call_events (run : FormationRun F) (c : FormationCall F) :
    (run.call c).events = run.events ++ c.added := by
  unfold call
  dsimp only
  split <;> rfl

omit [Json.PyFloat F] in
theorem selected_append (events : List (ConversationEvent F)) (cursor : Option String)
    (plans : List (FormationPlan F)) (plan : FormationPlan F) :
    selected ⟨events, cursor, plans ++ [plan]⟩ = plans.flatMap (·.selected) ++ plan.selected := by
  simp [selected]

def calls (run : FormationRun F) (cs : List (FormationCall F)) : FormationRun F :=
  cs.foldl call run

end FormationRun

/-- A conversation grows by events with strictly higher sequences. -/
def Grows (events : List (ConversationEvent F)) : List (FormationCall F) → Prop
  | [] => True
  | c :: cs =>
    (∀ old ∈ events, ∀ new ∈ c.added, place old < place new) ∧ Grows (events ++ c.added) cs

/-- What was selected lies up to the cursor, each event once, and apart from what its
plan held back. -/
structure Covers (run : FormationRun F) : Prop where
  behind : run.selected = [] ∨ ∃ n, cursorStart (orderedEvents run.events) run.cursor = .ok n ∧
    run.selected.Sublist ((orderedEvents run.events).take n)
  once : (run.selected.map (·.eventId)).Nodup
  apart : ∀ plan ∈ run.plans, ∀ event ∈ plan.selected,
    event.eventId ∉ plan.held.map (·.eventId)

theorem Covers.call {run : FormationRun F} (h : Covers run) {c : FormationCall F}
    (hgrows : ∀ old ∈ run.events, ∀ new ∈ c.added, place old < place new) :
    Covers (run.call c) := by
  have hordered := orderedEvents_append hgrows
  have hbehind : run.selected = [] ∨ ∃ n,
      cursorStart (orderedEvents (run.events ++ c.added)) run.cursor = .ok n ∧
        run.selected.Sublist ((orderedEvents (run.events ++ c.added)).take n) := by
    rcases h.behind with hnone | hsome
    · exact Or.inl hnone
    · obtain ⟨n, hfound, hsub⟩ := hsome
      rw [hordered]
      refine Or.inr ⟨n, cursorStart_append hfound _, hsub.trans ?_⟩
      rw [List.take_append_of_le_length (cursorStart_le hfound)]
  cases hplan : planFormation (run.events ++ c.added) c.policy run.cursor c.force with
  | error exc =>
      rw [FormationRun.call_error hplan]
      exact ⟨hbehind, h.once, h.apart⟩
  | ok plan =>
      rw [FormationRun.call_ok hplan]
      obtain ⟨start, hplanned⟩ := planFormation_ok hplan
      obtain ⟨rest, hrest⟩ := hplanned.segment
      have hsub : (run.selected ++ plan.selected).Sublist
          ((orderedEvents (run.events ++ c.added)).take (start + plan.selected.length)) := by
        rw [List.take_add, hrest, List.take_left]
        refine List.Sublist.append ?_ (List.Sublist.refl _)
        rcases hbehind with hnone | hsome
        · rw [hnone]
          exact List.nil_sublist _
        · obtain ⟨n, hfound, hsub⟩ := hsome
          rw [hplanned.found] at hfound
          cases hfound
          exact hsub
      refine ⟨?_, ?_, ?_⟩
      · rw [FormationRun.selected_append]
        exact Or.inr ⟨start + plan.selected.length, hplanned.moves, hsub⟩
      · rw [FormationRun.selected_append]
        exact ((hsub.trans (List.take_sublist _ _)).map _).nodup hplanned.ids
      · intro other hother
        rcases List.mem_append.1 hother with hother | hother
        · exact h.apart other hother
        · rw [List.mem_singleton.1 hother]
          exact hplanned.apart

theorem Covers.calls {run : FormationRun F} (h : Covers run) {cs : List (FormationCall F)}
    (hgrows : Grows run.events cs) : Covers (run.calls cs) := by
  induction cs generalizing run with
  | nil => exact h
  | cons c cs ih =>
      obtain ⟨hfirst, hrest⟩ := hgrows
      refine ih (h.call hfirst) ?_
      rw [FormationRun.call_events]
      exact hrest

theorem Covers.in_order {run : FormationRun F} (h : Covers run) :
    run.selected.Pairwise fun a b => place a ≤ place b := by
  rcases h.behind with hnone | hsome
  · rw [hnone]
    exact List.Pairwise.nil
  · obtain ⟨n, -, hsub⟩ := hsome
    exact (pairwise_orderedEvents run.events).sublist (hsub.trans (List.take_sublist _ _))

theorem covers_start (events : List (ConversationEvent F)) (cursor : Option String) :
    Covers (⟨events, cursor, []⟩ : FormationRun F) :=
  ⟨Or.inl rfl, List.nodup_nil, fun plan hplan => by cases hplan⟩

/-! ## A conversation that has stopped growing -/

/-- Forced calls, with nothing new between them. -/
def forcedRun (events : List (ConversationEvent F)) (policy : FormationPolicy)
    (cursor : Option String) (rounds : Nat) : FormationRun F :=
  FormationRun.calls ⟨events, cursor, []⟩ (List.replicate rounds ⟨[], policy, true⟩)

theorem forcedRun_succ (events : List (ConversationEvent F)) (policy : FormationPolicy)
    (cursor : Option String) (rounds : Nat) : forcedRun events policy cursor (rounds + 1) =
      (forcedRun events policy cursor rounds).call ⟨[], policy, true⟩ := by
  unfold forcedRun FormationRun.calls
  rw [List.replicate_succ', List.foldl_append]
  rfl

/-- The events behind the cursor that the window of recent events leaves out. -/
def unprotectedAfter (events : List (ConversationEvent F)) (policy : FormationPolicy)
    (start : Nat) : List (ConversationEvent F) :=
  pendingEvents (orderedEvents events) start (eligibleEnd (orderedEvents events) policy)

theorem one_le_batch (policy : FormationPolicy) : 1 ≤ policy.maxMessagesPerBatch := by
  have hchecked := policy.checked
  unfold FormationPolicyFields.postInit at hchecked
  obtain ⟨_, -, hchecked⟩ := except_bind_ok.1 hchecked
  obtain ⟨_, -, hchecked⟩ := except_bind_ok.1 hchecked
  obtain ⟨_, -, hbatch⟩ := except_bind_ok.1 hchecked
  have hbatch := raiseIf_ok.1 hbatch
  omega

/-- A call that has found its cursor returns, where one of the same conversation did. -/
theorem planFormation_returns {first : Option String}
    (hplan : planFormation events policy first force = .ok plan) {n : Nat}
    (hfound : cursorStart (orderedEvents events) cursor = .ok n) :
    ∃ plan', planFormation events policy cursor true = .ok plan' := by
  unfold planFormation at hplan ⊢
  obtain ⟨_, hone, hplan⟩ := except_bind_ok.1 hplan
  obtain ⟨_, hunique, hplan⟩ := except_bind_ok.1 hplan
  exact ⟨_, except_bind_ok.2 ⟨_, hone, except_bind_ok.2 ⟨_, hunique,
    except_bind_ok.2 ⟨n, hfound, rfl⟩⟩⟩⟩

/-- How far the forced calls have come: what they selected is a first part of what is
behind the first cursor, and each of them has added to it until it is all. -/
structure Forced (events : List (ConversationEvent F)) (policy : FormationPolicy)
    (start : Nat) (run : FormationRun F) (rounds done : Nat) : Prop where
  same : run.events = events
  found : cursorStart (orderedEvents events) run.cursor = .ok (start + done)
  selected : run.selected = (unprotectedAfter events policy start).take done
  done_le : done ≤ (unprotectedAfter events policy start).length
  progress : rounds ≤ done ∨ done = (unprotectedAfter events policy start).length

section

variable {start rounds done : Nat} {run : FormationRun F}

theorem Forced.next (h : Forced events policy start run rounds done)
    (hplan : planFormation events policy run.cursor true = .ok plan) :
    plan.selected = ((unprotectedAfter events policy start).drop done).take
        policy.maxMessagesPerBatch.toNat ∧
      cursorStart (orderedEvents events) (plan.cursorAfter run.cursor) =
        .ok (start + done + plan.selected.length) := by
  obtain ⟨found, hplanned⟩ := planFormation_ok hplan
  have hfound := hplanned.found
  rw [h.found] at hfound
  cases hfound
  have hpending : pendingEvents (orderedEvents events) (start + done)
      (eligibleEnd (orderedEvents events) policy) =
      (unprotectedAfter events policy start).drop done := by
    rw [unprotectedAfter, pendingEvents_eq, pendingEvents_eq, List.drop_drop]
  have hselected := hplanned.forced rfl
  rw [hpending] at hselected
  exact ⟨hselected, hplanned.moves⟩

theorem Forced.call (h : Forced events policy start run rounds done)
    (hplan : planFormation events policy run.cursor true = .ok plan) :
    Forced events policy start (run.call ⟨[], policy, true⟩) (rounds + 1)
      (done + plan.selected.length) := by
  obtain ⟨hselected, hmoves⟩ := h.next hplan
  have hbatch := one_le_batch policy
  have hlength : plan.selected.length = min policy.maxMessagesPerBatch.toNat
      ((unprotectedAfter events policy start).length - done) := by
    rw [hselected, List.length_take, List.length_drop]
  have hcall : run.call ⟨[], policy, true⟩ =
      ⟨events, plan.cursorAfter run.cursor, run.plans ++ [plan]⟩ := by
    have hsame := h.same
    subst hsame
    have hplan' : planFormation (run.events ++ []) policy run.cursor true = .ok plan := by
      rwa [List.append_nil]
    rw [FormationRun.call_ok hplan', List.append_nil]
  have hle := h.done_le
  rw [hcall]
  refine ⟨rfl, ?_, ?_, by omega, ?_⟩
  · rw [← Nat.add_assoc]
    exact hmoves
  · have hbefore : run.plans.flatMap (·.selected) =
        (unprotectedAfter events policy start).take done := h.selected
    rw [FormationRun.selected_append, hbefore, List.take_add]
    congr 1
    rw [hselected, List.length_take, List.take_eq_take_min]
  · rcases h.progress with hprogress | hprogress <;> omega

theorem forced_rounds (hfound : cursorStart (orderedEvents events) cursor = .ok start)
    {first : Option String} (hplan : planFormation events policy first force = .ok plan)
    (rounds : Nat) :
    ∃ done, Forced events policy start (forcedRun events policy cursor rounds) rounds done := by
  induction rounds with
  | zero => exact ⟨0, rfl, hfound, by simp [forcedRun, FormationRun.calls, FormationRun.selected],
      Nat.zero_le _, Or.inl (Nat.le_refl 0)⟩
  | succ rounds ih =>
      obtain ⟨done, hforced⟩ := ih
      obtain ⟨next, hnext⟩ := planFormation_returns hplan hforced.found
      rw [forcedRun_succ]
      exact ⟨done + next.selected.length, hforced.call hnext⟩

end

/-- The next forced plan selects nothing. -/
def SelectsNothing (events : List (ConversationEvent F)) (policy : FormationPolicy)
    (cursor : Option String) (rounds : Nat) : Prop :=
  ∃ plan, planFormation events policy (forcedRun events policy cursor rounds).cursor true =
    .ok plan ∧ plan.selected = []

/-- Forced calls come to an end, and where they do all is selected. -/
theorem forced_covers {start : Nat}
    (hplan : planFormation events policy cursor true = .ok plan)
    (hfound : cursorStart (orderedEvents events) cursor = .ok start) :
    (∃ rounds, SelectsNothing events policy cursor rounds) ∧
      ∀ rounds, SelectsNothing events policy cursor rounds →
        (forcedRun events policy cursor rounds).selected =
          unprotectedAfter events policy start := by
  have hbatch := one_le_batch policy
  constructor
  · refine ⟨(unprotectedAfter events policy start).length, ?_⟩
    obtain ⟨done, hforced⟩ := forced_rounds hfound hplan
      (unprotectedAfter events policy start).length
    obtain ⟨next, hnext⟩ := planFormation_returns hplan hforced.found
    have hle := hforced.done_le
    have hdone : done = (unprotectedAfter events policy start).length := by
      rcases hforced.progress with hprogress | hprogress <;> omega
    refine ⟨next, hnext, ?_⟩
    rw [(hforced.next hnext).1, hdone, List.drop_length, List.take_nil]
  · intro rounds hnothing
    obtain ⟨next, hnext, hnone⟩ := hnothing
    obtain ⟨done, hforced⟩ := forced_rounds hfound hplan rounds
    have hselected := (hforced.next hnext).1
    rw [hnone, eq_comm, List.take_eq_nil_iff] at hselected
    rw [hforced.selected]
    rcases hselected with hzero | hdropped
    · omega
    · exact List.take_of_length_le (List.drop_eq_nil_iff.1 hdropped)

theorem mem_unprotectedAfter {start : Nat} {event : ConversationEvent F}
    (hplan : planFormation events policy cursor force = .ok plan)
    (hevent : event ∈ (orderedEvents events).drop start) (hfree : event ∉ plan.held) :
    event ∈ unprotectedAfter events policy start := by
  obtain ⟨found, hplanned⟩ := planFormation_ok hplan
  rw [hplanned.held] at hfree
  rw [unprotectedAfter, pendingEvents_eq, List.drop_take]
  have hsplit := List.take_append_drop
    (eligibleEnd (orderedEvents events) policy - start) ((orderedEvents events).drop start)
  rw [← hsplit] at hevent
  rcases List.mem_append.1 hevent with h | h
  · exact h
  · rw [List.drop_drop] at h
    refine absurd ?_ hfree
    have hsub : ((orderedEvents events).drop
        (start + (eligibleEnd (orderedEvents events) policy - start))).Sublist
        ((orderedEvents events).drop (eligibleEnd (orderedEvents events) policy)) :=
      List.drop_sublist_drop_left _ (by omega)
    exact hsub.subset h

/-- Over any calls on a conversation that grows, each event is selected once at most,
in sequence order, and never one that its own plan protects. On a conversation that
does not grow, forced calls come to an end and have then selected every unprotected
event behind the first cursor. -/
theorem formation_covers (events : List (ConversationEvent F)) (cursor : Option String) :
    (∀ calls, Grows events calls →
      (((FormationRun.calls ⟨events, cursor, []⟩ calls).selected.map (·.eventId)).Nodup ∧
        ((FormationRun.calls ⟨events, cursor, []⟩ calls).selected.Pairwise
          fun a b => place a ≤ place b) ∧
        ∀ plan ∈ (FormationRun.calls ⟨events, cursor, []⟩ calls).plans,
          ∀ event ∈ plan.selected, event.eventId ∉ plan.held.map (·.eventId))) ∧
    (∀ policy plan start, planFormation events policy cursor true = .ok plan →
      cursorStart (orderedEvents events) cursor = .ok start →
        (∃ rounds, SelectsNothing events policy cursor rounds) ∧
          ∀ rounds, SelectsNothing events policy cursor rounds →
            ∀ event ∈ (orderedEvents events).drop start, event ∉ plan.held →
              event ∈ (forcedRun events policy cursor rounds).selected) := by
  constructor
  · intro calls hgrows
    have hcovers := (covers_start events cursor).calls hgrows
    exact ⟨hcovers.once, hcovers.in_order, hcovers.apart⟩
  · intro policy plan start hplan hfound
    obtain ⟨hends, hall⟩ := forced_covers hplan hfound
    refine ⟨hends, fun rounds hnothing event hevent hfree => ?_⟩
    rw [hall rounds hnothing]
    exact mem_unprotectedAfter hplan hevent hfree

def sampleEvent (eventId : String) (sequence : Int) : ConversationEvent Unit where
  eventId := eventId
  hostId := "host"
  conversationId := "chat"
  sourceRef := "message"
  sourceSha256 := "0000000000000000000000000000000000000000000000000000000000000000"
  sequence := .int sequence
  role := "user"
  content := "hello"
  participantId := .str ""
  createdAt := .str ""
  metadataJson := "\x7b\x7d"

theorem sampleEvent_grows : Grows [sampleEvent "a" 0]
    [⟨[sampleEvent "b" 1], FormationPolicy.default, true⟩] := by
  refine ⟨fun old hold new hnew => ?_, trivial⟩
  rw [List.mem_singleton.1 hold, List.mem_singleton.1 hnew]
  decide +kernel

theorem formation_covers_sample :
    ((FormationRun.calls ⟨[sampleEvent "a" 0], none, []⟩
      [⟨[sampleEvent "b" 1], FormationPolicy.default, true⟩]).selected.map (·.eventId)).Nodup ∧
    ∃ plan, planFormation [sampleEvent "a" 0, sampleEvent "b" 1, sampleEvent "c" 2]
        FormationPolicy.default none true = .ok plan ∧
      ∃ rounds, SelectsNothing [sampleEvent "a" 0, sampleEvent "b" 1, sampleEvent "c" 2]
        FormationPolicy.default none rounds :=
  ⟨((formation_covers [sampleEvent "a" 0] none).1 _ sampleEvent_grows).1,
    _, rfl, ((formation_covers [sampleEvent "a" 0, sampleEvent "b" 1, sampleEvent "c" 2]
      none).2 FormationPolicy.default _ 0 rfl rfl).1⟩

end MemoryCore
