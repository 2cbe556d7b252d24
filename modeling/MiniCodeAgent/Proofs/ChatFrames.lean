import MiniCodeAgent.Chat

/-!
# What a turn keeps besides

Much of what a turn does is to keep its books: messages and events are added, the
history is compacted, the session saved. None of that asks the model or the
executor for anything, and none of it touches the gate. A condition on the gate and
on what model and executor have answered is idle there, whatever strikes while the
books are written.
-/

namespace MiniCodeAgent

open Prog ObjProg

variable {F : Type}

/-! ## The end of a history -/

theorem concat_eq_append_cons {α : Type} {u b a : List α} {e x : α}
    (h : u ++ [e] = b ++ x :: a) :
    (u = b ∧ e = x ∧ a = []) ∨ ∃ a', a = a' ++ [e] ∧ u = b ++ x :: a' := by
  rcases List.eq_nil_or_concat a with rfl | ⟨a', y, rfl⟩
  · obtain ⟨hu, he⟩ := List.append_inj' h rfl
    exact Or.inl ⟨hu, List.singleton_inj.1 he, rfl⟩
  · have h' : u ++ [e] = (b ++ x :: a') ++ [y] := by simpa using h
    obtain ⟨hu, he⟩ := List.append_inj' h' rfl
    rw [← List.singleton_inj.1 he]
    exact Or.inr ⟨a', List.concat_eq_append, hu⟩

/-- The last event is none of these. -/
def NotLast (P : ChatEvent F → Prop) (h : List (ChatEvent F)) : Prop :=
  ∀ b e, h = b ++ [e] → ¬ P e

theorem NotLast.concat {P : ChatEvent F → Prop} (h : List (ChatEvent F)) {e : ChatEvent F}
    (he : ¬ P e) : NotLast P (h ++ [e]) := by
  intro b x heq
  obtain ⟨-, hx⟩ := List.append_inj' heq rfl
  rw [← List.singleton_inj.1 hx]
  exact he

theorem notLast_nil {P : ChatEvent F → Prop} : NotLast P [] := by
  intro b e h
  simp at h

/-! ## Bookkeeping -/

/-- What is asked for to tell the user, or to save. -/
def ChatOp.KeepsBooks : ChatOp F → Prop
  | .executor _ => False
  | .invokeModel _ => False
  | .print _ => True
  | .writeUndoJournal _ => True
  | .durationMs => True
  | .writeJson _ => True

/-- A condition bookkeeping has no part in. -/
structure Idle (φ : ChatWorld F → Prop) : Prop where
  called : ∀ {w : ChatWorld F} {o : ChatOp F} {r : Except PyExc o.Res}, φ w → o.KeepsBooks →
    φ (w.called ⟨o, r⟩)
  modified : ∀ {w : ChatWorld F} {f : Chat F → Chat F}, φ w →
    (∀ s, (f s).gate = s.gate) → φ (w.modified f)

namespace Idle

variable {φ : ChatWorld F → Prop}
variable {admits : ChatWorld F → ObjEvent (ChatOp F) ChatOp.Res PyExc (Chat F) → Prop}

theorem call (h : Idle φ) {o : ChatOp F} (ho : o.KeepsBooks) :
    Triple (Acts interrupts admits) φ (ObjProg.call o) (fun _ => φ) (fun _ => φ) := by
  refine ObjProg.triple_call fun w r hw _ => ?_
  have hnext : φ (w.called ⟨o, r⟩) := h.called hw ho
  cases r <;> exact hnext

theorem modify (h : Idle φ) {f : Chat F → Chat F} (hf : ∀ s, (f s).gate = s.gate) :
    Triple (Acts interrupts admits) φ (ObjProg.modify f) (fun _ => φ) (fun _ => φ) :=
  ObjProg.triple_modify (fun _ hw => h.modified hw hf) fun _ _ hw _ _ => hw

theorem modifyThen (h : Idle φ) {f : Chat F → Chat F} {α : Type} {k : Unit → ChatProg F α}
    {Q : α → ChatWorld F → Prop} (hf : ∀ s, (f s).gate = s.gate)
    (hk : Triple (Acts interrupts admits) φ (k ()) Q (fun _ => φ)) :
    Triple (Acts interrupts admits) φ (Prog.bind (ObjProg.modify f) k) Q (fun _ => φ) :=
  (h.modify hf).bind fun _ => hk

theorem lift {α : Type} {x : Except PyExc α} :
    Triple (Acts interrupts admits) φ (ObjProg.lift x) (fun _ => φ) (fun _ => φ) := by
  refine ObjProg.triple_lift fun w hw => ?_
  cases x <;> exact hw

theorem self : Triple (Acts interrupts admits) φ ObjProg.self
    (fun s w => w.self = s ∧ φ w) (fun _ => φ) :=
  ObjProg.triple_self fun _ hw => ⟨rfl, hw⟩

/-- The session is read, and what is done with it does not matter. -/
theorem read {α : Type} {f : Chat F → ChatProg F α} {Q : α → ChatWorld F → Prop}
    {E : PyExc → ChatWorld F → Prop} (hf : ∀ s, Triple (Acts interrupts admits) φ (f s) Q E) :
    Triple (Acts interrupts admits) φ (Prog.bind ObjProg.self f) Q E := by
  refine Triple.bind (R := fun _ => φ) ?_ hf
  exact ObjProg.triple_self fun _ hw => hw

theorem appendMessage (h : Idle φ) (message : BaseMessage F) :
    Triple (Acts interrupts admits) φ (Chat.appendMessage message) (fun _ => φ) (fun _ => φ) :=
  h.modify fun _ => rfl

theorem appendEvent (h : Idle φ) (event : Json F) :
    Triple (Acts interrupts admits) φ (Chat.appendEvent event) (fun _ => φ) (fun _ => φ) :=
  h.modify fun _ => rfl

variable [Json.PyFloat F] {env : ChatEnv F}

theorem compact (h : Idle φ) :
    Triple (Acts interrupts admits) φ (Chat.compact env) (fun _ => φ) (fun _ => φ) :=
  read fun _ => lift.bind fun _ => h.modify fun _ => rfl

theorem save (h : Idle φ) (exitStatus : String) :
    Triple (Acts interrupts admits) φ (Chat.save env exitStatus) (fun _ => φ) (fun _ => φ) := by
  refine h.modifyThen (fun _ => rfl) (h.compact.bind fun _ => ?_)
  have htrim : ∀ s : Chat F, (Chat.trimEvents s).gate = s.gate := by
    intro s
    unfold Chat.trimEvents
    split <;> rfl
  refine h.modifyThen htrim ?_
  split
  · exact triple_pure fun _ hw => hw
  · refine read fun s => ?_
    have hundo : Triple (Acts interrupts admits) φ (Chat.saveUndo s.undoRecords) (fun _ => φ)
        (fun _ => φ) := by
      unfold Chat.saveUndo
      split
      · exact triple_pure fun _ hw => hw
      · exact h.call (o := ChatOp.writeUndoJournal s.undoRecords) trivial
    refine hundo.bind fun _ => ?_
    have hduration : Triple (Acts interrupts admits) φ (Chat.durationMs (F := F)) (fun _ => φ)
        (fun _ => φ) := h.call (o := ChatOp.durationMs) trivial
    exact hduration.bind fun durationMs => h.call trivial

theorem finish (h : Idle φ) (result : TurnResult) (exitStatus : String) :
    Triple (Acts interrupts admits) φ (Chat.finish env result exitStatus)
      (fun turn w => turn = result ∧ φ w) (fun _ => φ) := by
  refine h.modifyThen (fun _ => rfl) ((h.save exitStatus).bind fun _ => ?_)
  exact triple_pure fun _ hw => ⟨rfl, hw⟩

theorem recordCalls (h : Idle φ) (step : Nat) (executed : List (ExecutedToolCall F)) :
    Triple (Acts interrupts admits) φ (Chat.recordCalls env step executed) (fun _ => φ)
      (fun _ => φ) := by
  induction executed with
  | nil => exact triple_pure fun _ hw => hw
  | cons call executed ih =>
      refine (h.appendEvent _).bind fun _ => (h.appendMessage _).bind fun _ => ?_
      split
      · exact ih
      · have hprint : Triple (Acts interrupts admits) φ (Chat.print (Chat.announcement call))
            (fun _ => φ) (fun _ => φ) := h.call (o := ChatOp.print (Chat.announcement call)) trivial
        exact hprint.bind fun _ => ih

theorem stepLimit (h : Idle φ) :
    Triple (Acts interrupts admits) φ (Chat.stepLimit env)
      (fun turn w => turn.verified = false ∧ φ w) (fun _ => φ) := by
  refine read fun s => (h.finish _ _).weaken (fun _ hw => hw) ?_ fun _ _ hw => hw
  rintro turn w ⟨rfl, hw⟩
  exact ⟨rfl, hw⟩

/-- The handlers of a turn, and whatever struck. -/
theorem turnStopped (h : Idle φ) (exc : PyExc) :
    Triple (Acts interrupts admits) φ (Chat.turnStopped env exc)
      (fun turn w => turn.verified = false ∧ φ w) (fun _ => φ) := by
  unfold Chat.turnStopped
  split
  · refine (h.appendEvent _).bind fun _ => read fun s => ?_
    refine (h.finish _ _).weaken (fun _ hw => hw) ?_ fun _ _ hw => hw
    rintro turn w ⟨rfl, hw⟩
    exact ⟨rfl, hw⟩
  · split
    · exact (h.appendEvent _).bind fun _ => (h.save _).bind fun _ => triple_throw fun _ hw => hw
    · exact triple_throw fun _ hw => hw

theorem clearContext (h : Idle φ) :
    Triple (Acts interrupts admits) φ (Chat.clearContext env) (fun _ => φ) (fun _ => φ) :=
  h.modifyThen (fun _ => rfl) (h.save _)

theorem close (h : Idle φ) :
    Triple (Acts interrupts admits) φ (Chat.close env) (fun _ => φ) (fun _ => φ) := by
  refine read fun s => ?_
  split <;> exact h.save _

end Idle

end MiniCodeAgent
