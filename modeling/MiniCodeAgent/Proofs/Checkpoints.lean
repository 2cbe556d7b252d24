import MiniCodeAgent.Formation
import Mathlib.Data.List.Induction

/-!
# The nearest checkpoint that still stands

A checkpoint is accepted only behind a parent that is there already, and nothing is
ever taken out, so a ledger is numbered by the order in which its checkpoints came:
a parent has a lower number than its child (`Numbered`). Both loops go from child to
parent. The number bounds them, which is why the guard against a cycle in
`_lineage_is_valid` never fires and why fuel for as many rounds as there are
checkpoints, and two more, is enough (`latestValid_nearest`).

An id is never blank, so looking up the empty id, as both loops do at a root, finds
nothing.
-/

namespace MemoryCore

open MiniCodeAgent

variable {F : Type} {events : List (ConversationEvent F)}

/-! ## What the search is for -/

/-- The revision that the list has of an event, the last one if it is there twice. -/
def IsCurrent (events : List (ConversationEvent F)) (eventId digest : String) : Prop :=
  ∃ before event after, events = before ++ event :: after ∧ event.eventId = eventId ∧
    event.sourceSha256 = digest ∧ ∀ later ∈ after, later.eventId ≠ eventId

/-- Every source event of the checkpoint is there with the recorded revision. -/
def SourcesCurrent (events : List (ConversationEvent F)) (checkpoint : MemoryCheckpoint) : Prop :=
  ∀ entry ∈ checkpoint.sourceEventRevisions, IsCurrent events entry.1 entry.2

def IsParent (ledger : CheckpointLedger) (child parent : MemoryCheckpoint) : Prop :=
  ∃ parentId, child.parentCheckpointId = some parentId ∧
    ledger.checkpoints.get? parentId = some parent

/-- The checkpoint so many parents up. -/
inductive Above (ledger : CheckpointLedger) : Nat → MemoryCheckpoint → MemoryCheckpoint → Prop
  | self (checkpoint : MemoryCheckpoint) : Above ledger 0 checkpoint checkpoint
  | parent {n : Nat} {child parent ancestor : MemoryCheckpoint}
      (hparent : IsParent ledger child parent) (habove : Above ledger n parent ancestor) :
      Above ledger (n + 1) child ancestor

/-- The sources of the checkpoint and of all its ancestors are current. -/
def Grounded (ledger : CheckpointLedger) (events : List (ConversationEvent F))
    (checkpoint : MemoryCheckpoint) : Prop :=
  ∀ n ancestor, Above ledger n checkpoint ancestor → SourcesCurrent events ancestor

/-- The nearest ancestor of the checkpoint, itself included, that stands. -/
def IsNearest (ledger : CheckpointLedger) (events : List (ConversationEvent F))
    (checkpoint found : MemoryCheckpoint) : Prop :=
  ∃ n, Above ledger n checkpoint found ∧ Grounded ledger events found ∧
    ∀ m other, Above ledger m checkpoint other → Grounded ledger events other → n ≤ m

/-- The ledgers that `append` and `rollback` lead to. -/
inductive Reachable : CheckpointLedger → Prop
  | empty : Reachable .empty
  | append {ledger next : CheckpointLedger} (h : Reachable ledger) {checkpoint : MemoryCheckpoint}
      (hstep : ledger.append checkpoint = .ok next) : Reachable next
  | rollback {ledger next : CheckpointLedger} (h : Reachable ledger) {checkpointId : String}
      {checkpoint : MemoryCheckpoint}
      (hstep : ledger.rollback checkpointId = .ok (next, checkpoint)) : Reachable next

/-! ## The revisions -/

theorem revisionsOf_append (events : List (ConversationEvent F)) (event : ConversationEvent F) :
    CheckpointLedger.revisionsOf (events ++ [event]) =
      (CheckpointLedger.revisionsOf events).set event.eventId event.sourceSha256 := by
  unfold CheckpointLedger.revisionsOf Dict.ofPairs
  rw [List.map_append, List.foldl_append]
  rfl

theorem isCurrent_append {event : ConversationEvent F} {eventId digest : String} :
    IsCurrent (events ++ [event]) eventId digest ↔
      if event.eventId = eventId then event.sourceSha256 = digest
      else IsCurrent events eventId digest := by
  constructor
  · intro h
    obtain ⟨before, found, after, hsplit, hid, hdigest, hlater⟩ := h
    rcases List.eq_nil_or_concat after with hnil | hmore
    · subst hnil
      obtain ⟨-, hlast⟩ := List.append_inj' hsplit rfl
      injection hlast with hlast
      subst hlast
      rw [if_pos hid]
      exact hdigest
    · obtain ⟨rest, last, hrest⟩ := hmore
      rw [hrest, List.concat_eq_append, ← List.cons_append, ← List.append_assoc] at hsplit
      obtain ⟨hevents, hlast⟩ := List.append_inj' hsplit rfl
      injection hlast with hlast
      rw [hrest, List.concat_eq_append] at hlater
      have hne : event.eventId ≠ eventId := by
        rw [hlast]
        exact hlater last (List.mem_append_right _ (List.mem_singleton_self last))
      rw [if_neg hne]
      exact ⟨before, found, rest, hevents, hid, hdigest, fun later hmem =>
        hlater later (List.mem_append_left _ hmem)⟩
  · intro h
    by_cases hid : event.eventId = eventId
    · rw [if_pos hid] at h
      exact ⟨events, event, [], rfl, hid, h, fun later hmem => by cases hmem⟩
    · rw [if_neg hid] at h
      obtain ⟨before, found, after, rfl, hfound, hdigest, hlater⟩ := h
      refine ⟨before, found, after ++ [event], by simp, hfound, hdigest, ?_⟩
      intro later hmem
      rcases List.mem_append.1 hmem with hmem | hmem
      · exact hlater later hmem
      · rw [List.mem_singleton.1 hmem]
        exact hid

theorem revisionsOf_get? {eventId digest : String} :
    (CheckpointLedger.revisionsOf events).get? eventId = some digest ↔
      IsCurrent events eventId digest := by
  induction events using List.reverseRecOn with
  | nil =>
      constructor
      · intro h
        cases h
      · intro h
        obtain ⟨before, event, after, hsplit, -⟩ := h
        simp at hsplit
  | append_singleton events event ih =>
      rw [revisionsOf_append, Dict.get?_set, isCurrent_append]
      by_cases h : event.eventId = eventId
      · rw [if_pos h, if_pos h, Option.some_inj]
      · rw [if_neg h, if_neg h, ih]

/-! ## The order of a ledger -/

/-- The checkpoints are found by their ids and numbered, parents before children. -/
structure Numbered (ledger : CheckpointLedger) (number : String → Nat) : Prop where
  key : ∀ id checkpoint, ledger.checkpoints.get? id = some checkpoint →
    checkpoint.checkpointId = id
  bound : ∀ id checkpoint, ledger.checkpoints.get? id = some checkpoint →
    number id < ledger.checkpoints.length
  parent : ∀ id checkpoint parentId, ledger.checkpoints.get? id = some checkpoint →
    checkpoint.parentCheckpointId = some parentId →
      number parentId < number id ∧ ∃ parent, ledger.checkpoints.get? parentId = some parent

theorem blank_of_postInit {fields : CheckpointFields} (h : fields.postInit = .ok ()) :
    fields.checkpointId ≠ "" := by
  unfold CheckpointFields.postInit at h
  obtain ⟨_, hid, -⟩ := except_bind_ok.1 h
  intro hblank
  rw [hblank] at hid
  exact raiseIf_ok.1 hid rfl

theorem length_set_of_none {α : Type} {d : Dict α} {key : String} (h : d.get? key = none)
    (value : α) : (d.set key value).length = d.length + 1 := by
  rw [Dict.set_of_notMem (Dict.get?_eq_none_iff.1 h), List.length_append]
  rfl

theorem admits_parent {ledger : CheckpointLedger} {checkpoint : MemoryCheckpoint}
    (h : ledger.admits checkpoint = .ok ()) {parentId : String}
    (hparent : checkpoint.parentCheckpointId = some parentId) :
    ∃ parent, ledger.checkpoints.get? parentId = some parent := by
  unfold CheckpointLedger.admits at h
  rw [hparent] at h
  dsimp only at h
  cases hfound : ledger.checkpoints.get? parentId with
  | none =>
      rw [hfound] at h
      cases h
  | some parent => exact ⟨parent, rfl⟩

theorem Numbered.append {ledger next : CheckpointLedger} {number : String → Nat}
    (h : Numbered ledger number) {checkpoint : MemoryCheckpoint}
    (hstep : ledger.append checkpoint = .ok next) : ∃ number', Numbered next number' := by
  unfold CheckpointLedger.append at hstep
  by_cases hknown : (ledger.checkpoints.get? checkpoint.checkpointId).isSome = true
  · rw [if_pos hknown] at hstep
    cases hstep
    exact ⟨number, h.key, h.bound, h.parent⟩
  · rw [if_neg hknown] at hstep
    obtain ⟨_, hadmits, hstep⟩ := except_bind_ok.1 hstep
    cases hstep
    have hnew : ledger.checkpoints.get? checkpoint.checkpointId = none := by
      simpa using hknown
    have hlength := length_set_of_none hnew checkpoint
    refine ⟨Function.update number checkpoint.checkpointId ledger.checkpoints.length, ?_, ?_, ?_⟩
    · intro id found hfound
      rw [Dict.get?_set] at hfound
      by_cases hid : checkpoint.checkpointId = id
      · rw [if_pos hid] at hfound
        cases hfound
        exact hid
      · rw [if_neg hid] at hfound
        exact h.key id found hfound
    · intro id found hfound
      rw [Dict.get?_set] at hfound
      dsimp only
      rw [hlength]
      by_cases hid : checkpoint.checkpointId = id
      · rw [hid, Function.update_self]
        omega
      · rw [if_neg hid] at hfound
        rw [Function.update_of_ne (Ne.symm hid)]
        have hbound := h.bound id found hfound
        omega
    · intro id found parentId hfound hparent
      rw [Dict.get?_set] at hfound
      have hother : ∀ parent, ledger.checkpoints.get? parentId = some parent →
          checkpoint.checkpointId ≠ parentId := by
        intro parent hget heq
        rw [← heq, hnew] at hget
        cases hget
      by_cases hid : checkpoint.checkpointId = id
      · rw [if_pos hid] at hfound
        cases hfound
        obtain ⟨parent, hget⟩ := admits_parent hadmits hparent
        have hne := hother parent hget
        refine ⟨?_, parent, by rw [Dict.get?_set, if_neg hne, hget]⟩
        rw [← hid, Function.update_self, Function.update_of_ne (Ne.symm hne)]
        exact h.bound parentId parent hget
      · rw [if_neg hid] at hfound
        obtain ⟨hless, parent, hget⟩ := h.parent id found parentId hfound hparent
        have hne := hother parent hget
        refine ⟨?_, parent, by rw [Dict.get?_set, if_neg hne, hget]⟩
        rw [Function.update_of_ne (Ne.symm hid), Function.update_of_ne (Ne.symm hne)]
        exact hless

theorem Reachable.numbered {ledger : CheckpointLedger} (h : Reachable ledger) :
    ∃ number, Numbered ledger number := by
  induction h with
  | empty =>
      refine ⟨fun _ => 0, ?_, ?_, ?_⟩
      · intro id checkpoint h
        cases h
      · intro id checkpoint h
        cases h
      · intro id checkpoint parentId h
        cases h
  | append _ hstep ih =>
      obtain ⟨number, hnumbered⟩ := ih
      exact hnumbered.append hstep
  | rollback _ hstep ih =>
      obtain ⟨number, hnumbered⟩ := ih
      unfold CheckpointLedger.rollback at hstep
      split at hstep
      · cases hstep
      · cases hstep
        exact ⟨number, hnumbered.key, hnumbered.bound, hnumbered.parent⟩

/-! ## Parents -/

section

variable {ledger : CheckpointLedger} {child parent : MemoryCheckpoint}

theorem above_root (hroot : child.parentCheckpointId = none) {n : Nat}
    {ancestor : MemoryCheckpoint} (h : Above ledger n child ancestor) : ancestor = child := by
  cases h with
  | self => rfl
  | parent hparent _ =>
      obtain ⟨parentId, hsome, -⟩ := hparent
      rw [hroot] at hsome
      cases hsome

theorem above_child (hparent : IsParent ledger child parent) {n : Nat}
    {ancestor : MemoryCheckpoint} (h : Above ledger n child ancestor) :
    ancestor = child ∧ n = 0 ∨ ∃ m, n = m + 1 ∧ Above ledger m parent ancestor := by
  cases h with
  | self => exact Or.inl ⟨rfl, rfl⟩
  | parent hother habove =>
      obtain ⟨parentId, hsome, hget⟩ := hparent
      obtain ⟨otherId, hsome', hget'⟩ := hother
      rw [hsome] at hsome'
      cases hsome'
      rw [hget] at hget'
      cases hget'
      exact Or.inr ⟨_, rfl, habove⟩

theorem above_unique {n : Nat} {a b : MemoryCheckpoint} (ha : Above ledger n child a)
    (hb : Above ledger n child b) : a = b := by
  induction ha with
  | self =>
      cases hb
      rfl
  | parent hparent _ ih =>
      rcases above_child hparent hb with hself | hup
      · cases hself.2
      · obtain ⟨m, heq, hup⟩ := hup
        cases heq
        exact ih hup

theorem IsNearest.unique {a b : MemoryCheckpoint} (ha : IsNearest ledger events child a)
    (hb : IsNearest ledger events child b) : a = b := by
  obtain ⟨n, habove, hstands, hleast⟩ := ha
  obtain ⟨m, habove', hstands', hleast'⟩ := hb
  have hle := hleast m b habove' hstands'
  have hge := hleast' n a habove hstands
  have heq : n = m := by omega
  subst heq
  exact above_unique habove habove'

theorem stands_root (hroot : child.parentCheckpointId = none) :
    Grounded ledger events child ↔ SourcesCurrent events child := by
  constructor
  · intro hstands
    exact hstands 0 child (.self child)
  · intro hsources n ancestor habove
    rw [above_root hroot habove]
    exact hsources

theorem stands_child (hparent : IsParent ledger child parent) :
    Grounded ledger events child ↔ SourcesCurrent events child ∧ Grounded ledger events parent := by
  constructor
  · intro hstands
    exact ⟨hstands 0 child (.self child), fun n ancestor habove =>
      hstands (n + 1) ancestor (.parent hparent habove)⟩
  · intro hboth n ancestor habove
    rcases above_child hparent habove with hself | hup
    · rw [hself.1]
      exact hboth.1
    · obtain ⟨m, -, habove⟩ := hup
      exact hboth.2 m ancestor habove

end

/-! ## The loops -/

section

variable {ledger : CheckpointLedger} {number : String → Nat} (h : Numbered ledger number)
include h

theorem Numbered.empty_id : ledger.checkpoints.get? "" = none := by
  cases hfound : ledger.checkpoints.get? "" with
  | none => rfl
  | some checkpoint =>
      exact absurd (h.key "" checkpoint hfound) (blank_of_postInit checkpoint.checked)

/-- With fuel for the number of the checkpoint, its lineage is decided. -/
theorem lineageIsValid_stands {fuel : Nat} {checkpoint : MemoryCheckpoint} {seen : List String}
    (hget : ledger.checkpoints.get? checkpoint.checkpointId = some checkpoint)
    (hfuel : number checkpoint.checkpointId < fuel)
    (hseen : ∀ id ∈ seen, number checkpoint.checkpointId < number id) :
    ∃ valid, ledger.lineageIsValid (CheckpointLedger.revisionsOf events) fuel checkpoint seen =
      some valid ∧ (valid = true ↔ Grounded ledger events checkpoint) := by
  induction fuel generalizing checkpoint seen with
  | zero => omega
  | succ fuel ih =>
      have hfresh : checkpoint.checkpointId ∉ seen := by
        intro hmem
        exact absurd (hseen _ hmem) (lt_irrefl _)
      have hsources : (∃ entry ∈ checkpoint.sourceEventRevisions,
          (CheckpointLedger.revisionsOf events).get? entry.1 ≠ some entry.2) ↔
          ¬ SourcesCurrent events checkpoint := by
        simp only [SourcesCurrent, ← revisionsOf_get?, not_forall, exists_prop, ne_eq]
      rw [CheckpointLedger.lineageIsValid, if_neg hfresh]
      by_cases hcurrent : SourcesCurrent events checkpoint
      · rw [if_neg (by rw [hsources]; exact not_not.2 hcurrent)]
        cases hparent : checkpoint.parentCheckpointId with
        | none =>
            refine ⟨true, rfl, ?_⟩
            rw [stands_root hparent]
            simp [hcurrent]
        | some parentId =>
            obtain ⟨hless, parent, hfound⟩ := h.parent _ _ _ hget hparent
            have hkey := h.key parentId parent hfound
            dsimp only
            rw [hfound]
            have hless' : ∀ id ∈ checkpoint.checkpointId :: seen,
                number parent.checkpointId < number id := by
              intro id hid
              rw [hkey]
              rcases List.mem_cons.1 hid with hid | hid
              · rw [hid]
                exact hless
              · exact hless.trans (hseen id hid)
            obtain ⟨valid, hvalid, hiff⟩ := ih (by rw [hkey]; exact hfound) (by rw [hkey]; omega)
              hless'
            refine ⟨valid, hvalid, ?_⟩
            rw [hiff, stands_child ⟨parentId, hparent, hfound⟩]
            simp [hcurrent]
      · rw [if_pos (hsources.2 hcurrent)]
        refine ⟨false, rfl, ?_⟩
        have hnot : ¬ Grounded ledger events checkpoint :=
          fun hstands => hcurrent (hstands 0 checkpoint (.self checkpoint))
        simp [hnot]

/-- The walk up from a checkpoint ends at the nearest one that stands. -/
theorem latestValidFrom_nearest {fuel steps : Nat} {checkpoint : MemoryCheckpoint}
    (hget : ledger.checkpoints.get? checkpoint.checkpointId = some checkpoint)
    (hfuel : ledger.checkpoints.length ≤ fuel)
    (hsteps : number checkpoint.checkpointId + 1 < steps) :
    ∃ found, ledger.latestValidFrom (CheckpointLedger.revisionsOf events) fuel steps
        (some checkpoint) = some found ∧
      (∀ c, found = some c → IsNearest ledger events checkpoint c) ∧
      (found = none ↔ ∀ n c, Above ledger n checkpoint c → ¬ Grounded ledger events c) := by
  induction steps generalizing checkpoint with
  | zero => omega
  | succ steps ih =>
      obtain ⟨valid, hvalid, hiff⟩ : ∃ valid, ledger.lineageIsValid
          (CheckpointLedger.revisionsOf events) fuel checkpoint [] = some valid ∧
          (valid = true ↔ Grounded ledger events checkpoint) :=
        lineageIsValid_stands h hget (lt_of_lt_of_le (h.bound _ _ hget) hfuel)
          fun id hid => absurd hid List.not_mem_nil
      rw [CheckpointLedger.latestValidFrom, hvalid]
      cases valid with
      | true =>
          have hstands := hiff.1 rfl
          refine ⟨some checkpoint, rfl, ?_, ?_⟩
          · intro c hc
            cases hc
            exact ⟨0, .self checkpoint, hstands, fun m other _ _ => Nat.zero_le m⟩
          · constructor
            · intro hnone
              cases hnone
            · intro hnone
              exact absurd hstands (hnone 0 checkpoint (.self checkpoint))
      | false =>
          have hnot : ¬ Grounded ledger events checkpoint := by
            intro hstands
            cases hiff.2 hstands
          dsimp only
          cases hparent : checkpoint.parentCheckpointId with
          | none =>
              rw [Option.getD_none, h.empty_id]
              cases steps with
              | zero => omega
              | succ steps =>
                  have hnone : ∀ n c, Above ledger n checkpoint c → ¬ Grounded ledger events c := by
                    intro n c habove
                    rw [above_root hparent habove]
                    exact hnot
                  refine ⟨none, rfl, ?_, fun _ => hnone, fun _ => rfl⟩
                  intro c hc
                  cases hc
          | some parentId =>
              obtain ⟨hless, parent, hfound⟩ := h.parent _ _ _ hget hparent
              have hkey := h.key parentId parent hfound
              have hup : IsParent ledger checkpoint parent := ⟨parentId, hparent, hfound⟩
              rw [Option.getD_some, hfound]
              obtain ⟨found, hwalk, hnearest, hnone⟩ :=
                ih (by rw [hkey]; exact hfound) (by rw [hkey]; omega)
              refine ⟨found, hwalk, ?_, ?_⟩
              · intro c hc
                obtain ⟨n, habove, hstands, hleast⟩ := hnearest c hc
                refine ⟨n + 1, .parent hup habove, hstands, fun m other hother hstands' => ?_⟩
                rcases above_child hup hother with hself | hfar
                · rw [hself.1] at hstands'
                  exact absurd hstands' hnot
                · obtain ⟨k, rfl, hup'⟩ := hfar
                  exact Nat.succ_le_succ (hleast k other hup' hstands')
              · rw [hnone]
                constructor
                · intro hall n c habove
                  rcases above_child hup habove with hself | hfar
                  · rw [hself.1]
                    exact hnot
                  · obtain ⟨m, -, habove⟩ := hfar
                    exact hall m c habove
                · intro hall n c habove
                  exact hall (n + 1) c (.parent hup habove)

end

/-- What the search answers: the nearest checkpoint that stands, or nothing where
none does. -/
def Answers (ledger : CheckpointLedger) (events : List (ConversationEvent F))
    (found : Option MemoryCheckpoint) : Prop :=
  (∀ c, found = some c → ∃ active, ledger.active = some active ∧
    IsNearest ledger events active c) ∧
  (found = none ↔ ¬ ∃ active n c, ledger.active = some active ∧ Above ledger n active c ∧
    Grounded ledger events c)

theorem Answers.unique {ledger : CheckpointLedger} {a b : Option MemoryCheckpoint}
    (ha : Answers ledger events a) (hb : Answers ledger events b) : a = b := by
  cases a with
  | none =>
      rw [eq_comm, hb.2, ← ha.2]
  | some a =>
      cases b with
      | none =>
          rw [ha.2, ← hb.2]
      | some b =>
          obtain ⟨active, hactive, hnearest⟩ := ha.1 a rfl
          obtain ⟨other, hother, hnearest'⟩ := hb.1 b rfl
          rw [hactive] at hother
          cases hother
          rw [hnearest.unique hnearest']

theorem Numbered.latestValid {ledger : CheckpointLedger} {number : String → Nat}
    (h : Numbered ledger number) (events : List (ConversationEvent F)) {fuel : Nat}
    (hfuel : ledger.checkpoints.length + 2 ≤ fuel) :
    ∃ found, ledger.latestValid events fuel = some found ∧ Answers ledger events found := by
  unfold CheckpointLedger.latestValid
  cases hactive : ledger.active with
  | none =>
      cases fuel with
      | zero => omega
      | succ fuel =>
          refine ⟨none, rfl, ?_, ?_⟩
          · intro c hc
            cases hc
          · simp [hactive]
  | some active =>
      have hid := h.key _ active hactive
      have hget : ledger.checkpoints.get? active.checkpointId = some active := by
        rw [hid]
        exact hactive
      have hbound := h.bound _ _ hget
      obtain ⟨found, hwalk, hnearest, hnone⟩ : ∃ found, ledger.latestValidFrom
          (CheckpointLedger.revisionsOf events) fuel fuel (some active) = some found ∧
          (∀ c, found = some c → IsNearest ledger events active c) ∧
          (found = none ↔ ∀ n c, Above ledger n active c → ¬ Grounded ledger events c) :=
        latestValidFrom_nearest h hget (by omega) (by omega)
      refine ⟨found, hwalk, fun c hc => ⟨active, hactive, hnearest c hc⟩, ?_⟩
      rw [hnone]
      constructor
      · intro hall hsome
        obtain ⟨other, n, c, hother, habove, hstands⟩ := hsome
        rw [hactive] at hother
        cases hother
        exact hall n c habove hstands
      · intro hno n c habove hstands
        exact hno ⟨active, n, c, hactive, habove, hstands⟩

/-- On every ledger that can be reached, and for every list of events, the search
ends, and returns the nearest ancestor of the active checkpoint that stands, itself
included, or nothing just where there is none. -/
theorem latestValid_nearest (ledger : CheckpointLedger) (hreachable : Reachable ledger)
    (events : List (ConversationEvent F)) :
    ∃ found, (∀ fuel, ledger.checkpoints.length + 2 ≤ fuel →
      ledger.latestValid events fuel = some found) ∧ Answers ledger events found := by
  obtain ⟨number, hnumbered⟩ := hreachable.numbered
  obtain ⟨found, -, hanswers⟩ := hnumbered.latestValid events (le_refl _)
  refine ⟨found, fun fuel hfuel => ?_, hanswers⟩
  obtain ⟨other, hother, hanswers'⟩ := hnumbered.latestValid events hfuel
  rw [hother, hanswers'.unique hanswers]

namespace Summary

def fields (checkpointId eventId : String) (parentCheckpointId : Option String) :
    CheckpointFields where
  checkpointId := checkpointId
  conversationId := "chat"
  summary := "summary"
  sourceEventRevisions := [(eventId, "revision")]
  parentCheckpointId := parentCheckpointId
  producer := "unknown"
  createdAt := ""

theorem first_ok : (fields "first" "a" none).postInit = .ok () := by
  rfl

theorem second_ok : (fields "second" "b" (some "first")).postInit = .ok () := by
  rfl

def first : MemoryCheckpoint := ⟨_, first_ok⟩
def second : MemoryCheckpoint := ⟨_, second_ok⟩

/-- The second summary behind the first. -/
def ledger : CheckpointLedger := ⟨[("first", first), ("second", second)], some "second"⟩

theorem ledger_reachable : Reachable ledger := by
  have hfirst : CheckpointLedger.empty.append first = .ok ⟨[("first", first)], some "first"⟩ := rfl
  have hsecond : CheckpointLedger.append ⟨[("first", first)], some "first"⟩ second =
      .ok ledger := rfl
  exact (Reachable.empty.append hfirst).append hsecond

theorem latestValid_nearest_sample : ∃ found, (∀ fuel, 4 ≤ fuel →
    ledger.latestValid ([] : List (ConversationEvent Unit)) fuel = some found) ∧
      Answers ledger ([] : List (ConversationEvent Unit)) found :=
  latestValid_nearest ledger ledger_reachable []

end Summary

end MemoryCore
