import MiniCodeAgent.Prog.Triple

/-!
# Programs that work on an object

Code that updates an object in place asks for three things: an effect outside,
the object as it is, and an assignment. The object is part of the world, so what
an exception leaves of it is what the assignments before it have made of it. An
assignment is over at once, but the code may be stopped before any of them:
`stops` names the exceptions that strike there, as a signal's do. `admits` limits
what may happen in a world, and is how a result states its assumptions.

The world also keeps the effects there have been, and which of them are pending:
asked for since the last assignment, so that the object cannot tell of them yet.
With the object passed along as a value instead, `threaded` gives back a program
over the outside effects alone.
-/

/-- What code that works on an object asks for. -/
inductive ObjOp (Op σ : Type) where
  | call (o : Op)
  | self
  | modify (f : σ → σ)

def ObjOp.Res {Op σ : Type} (Res : Op → Type) : ObjOp Op σ → Type
  | .call o => Res o
  | .self => σ
  | .modify _ => Unit

abbrev ObjProg (Op : Type) (Res : Op → Type) (ε σ α : Type) :=
  Prog (ObjOp Op σ) (ObjOp.Res Res) ε α

abbrev ObjEvent (Op : Type) (Res : Op → Type) (ε σ : Type) :=
  Event (ObjOp Op σ) (ObjOp.Res Res) ε

/-- The object, and the outside effects there have been, the last ones pending. -/
structure ObjWorld (Op : Type) (Res : Op → Type) (ε σ : Type) where
  self : σ
  history : List (Event Op Res ε)
  pending : List (Event Op Res ε)

namespace ObjWorld

variable {Op : Type} {Res : Op → Type} {ε σ : Type}

def called (w : ObjWorld Op Res ε σ) (e : Event Op Res ε) : ObjWorld Op Res ε σ :=
  { w with history := w.history ++ [e], pending := w.pending ++ [e] }

def modified (w : ObjWorld Op Res ε σ) (f : σ → σ) : ObjWorld Op Res ε σ :=
  { w with self := f w.self, pending := [] }

@[simp] theorem called_self (w : ObjWorld Op Res ε σ) (e : Event Op Res ε) :
    (w.called e).self = w.self := rfl

@[simp] theorem called_history (w : ObjWorld Op Res ε σ) (e : Event Op Res ε) :
    (w.called e).history = w.history ++ [e] := rfl

@[simp] theorem called_pending (w : ObjWorld Op Res ε σ) (e : Event Op Res ε) :
    (w.called e).pending = w.pending ++ [e] := rfl

@[simp] theorem modified_self (w : ObjWorld Op Res ε σ) (f : σ → σ) :
    (w.modified f).self = f w.self := rfl

@[simp] theorem modified_history (w : ObjWorld Op Res ε σ) (f : σ → σ) :
    (w.modified f).history = w.history := rfl

@[simp] theorem modified_pending (w : ObjWorld Op Res ε σ) (f : σ → σ) :
    (w.modified f).pending = [] := rfl

end ObjWorld

namespace ObjProg

open Prog

variable {Op : Type} {Res : Op → Type} {ε σ α β : Type}

def call (o : Op) : ObjProg Op Res ε σ (Res o) := Prog.call (ObjOp.call o)

def self : ObjProg Op Res ε σ σ := Prog.call ObjOp.self

def modify (f : σ → σ) : ObjProg Op Res ε σ Unit := Prog.call (ObjOp.modify f)

/-- A value or an exception that neither object nor effects have a part in. -/
def lift (x : Except ε α) : ObjProg Op Res ε σ α := .done x

section Acts

variable (stops : ε → Prop) (admits : ObjWorld Op Res ε σ → ObjEvent Op Res ε σ → Prop)

/-- What the three effects do. -/
inductive Acts : ObjWorld Op Res ε σ → ObjEvent Op Res ε σ → ObjWorld Op Res ε σ → Prop
  | call (w : ObjWorld Op Res ε σ) (o : Op) (r : Except ε (Res o))
      (h : admits w ⟨.call o, r⟩) : Acts w ⟨.call o, r⟩ (w.called ⟨o, r⟩)
  | self (w : ObjWorld Op Res ε σ) : Acts w ⟨.self, .ok w.self⟩ w
  | modify (w : ObjWorld Op Res ε σ) (f : σ → σ) : Acts w ⟨.modify f, .ok ()⟩ (w.modified f)
  | stopped (w : ObjWorld Op Res ε σ) (f : σ → σ) {e : ε} (h : admits w ⟨.modify f, .error e⟩)
      (he : stops e) : Acts w ⟨.modify f, .error e⟩ w

variable {stops admits}

/-- The history only grows. -/
theorem Acts.history {w w' : ObjWorld Op Res ε σ} {e : ObjEvent Op Res ε σ}
    (h : Acts stops admits w e w') : w.history <+: w'.history := by
  cases h with
  | call o r h => exact List.prefix_append _ _
  | self => exact List.prefix_refl _
  | modify f => exact List.prefix_refl _
  | stopped f h he => exact List.prefix_refl _

variable {P : ObjWorld Op Res ε σ → Prop} {E : ε → ObjWorld Op Res ε σ → Prop}

theorem triple_call {o : Op} {Q : Res o → ObjWorld Op Res ε σ → Prop}
    (h : ∀ w r, P w → admits w ⟨.call o, r⟩ → Ends Q E r (w.called ⟨o, r⟩)) :
    Triple (Acts stops admits) P (call o) Q E := by
  refine Prog.triple_call fun w r w' hw hS => ?_
  cases hS with
  | call _ _ hadm => exact h w r hw hadm

theorem triple_self {Q : σ → ObjWorld Op Res ε σ → Prop} (h : ∀ w, P w → Q w.self w) :
    Triple (Acts stops admits) P self Q E := by
  refine Prog.triple_call fun w r w' hw hS => ?_
  cases hS with
  | self => exact h w hw

theorem triple_modify {f : σ → σ} {Q : Unit → ObjWorld Op Res ε σ → Prop}
    (h : ∀ w, P w → Q () (w.modified f))
    (hstop : ∀ w e, P w → admits w ⟨.modify f, .error e⟩ → stops e → E e w) :
    Triple (Acts stops admits) P (modify f) Q E := by
  refine Prog.triple_call fun w r w' hw hS => ?_
  cases hS with
  | modify => exact h w hw
  | stopped _ hadm he => exact hstop w _ hw hadm he

theorem triple_lift {x : Except ε α} {Q : α → ObjWorld Op Res ε σ → Prop}
    (h : ∀ w, P w → Ends Q E x w) : Triple (Acts stops admits) P (lift x) Q E := by
  cases x with
  | ok a => exact triple_pure h
  | error e => exact triple_throw h

end Acts

/-! ## Effects that answer by themselves -/

section Answering

variable (reply : List (Event Op Res ε) → (o : Op) → Except ε (Res o))

/-- The effects answered from what has been asked before, nothing being stopped. -/
def answering : (o : ObjOp Op σ) → ObjWorld Op Res ε σ →
    Except ε (o.Res Res) × ObjWorld Op Res ε σ
  | .call o, w => (reply w.history o, w.called ⟨o, reply w.history o⟩)
  | .self, w => (.ok w.self, w)
  | .modify f, w => (.ok (), w.modified f)

/-- The run of a program so answered. -/
theorem run_answering {stops : ε → Prop}
    {admits : ObjWorld Op Res ε σ → ObjEvent Op Res ε σ → Prop}
    (h : ∀ w o, admits w ⟨.call o, reply w.history o⟩) (p : ObjProg Op Res ε σ α)
    (w : ObjWorld Op Res ε σ) :
    Run (Acts stops admits) p w (exec (answering reply) p w).1 (exec (answering reply) p w).2 := by
  have hrun : Run (Answers (answering reply)) p w (exec (answering reply) p w).1
      (exec (answering reply) p w).2 := (run_answers _).2 rfl
  refine hrun.mono fun w e w' hstep => ?_
  obtain ⟨o, r⟩ := e
  cases o with
  | call o =>
      cases hstep
      exact .call w o _ (h w o)
  | self =>
      cases hstep
      exact .self w
  | modify f =>
      cases hstep
      exact .modify w f

end Answering

/-! ## The object as a value -/

/-- The same program with the object passed along. -/
def threaded : ObjProg Op Res ε σ α → σ → Prog Op Res ε (α × σ)
  | .done (.ok a), s => .done (.ok (a, s))
  | .done (.error e), _ => .done (.error e)
  | .op (.call o) k, s => .op o fun r => threaded (k r) s
  | .op .self k, s => threaded (k (.ok s)) s
  | .op (.modify f) k, s => threaded (k (.ok ())) (f s)

@[simp] theorem threaded_ok (a : α) (s : σ) :
    threaded (.done (.ok a) : ObjProg Op Res ε σ α) s = .done (.ok (a, s)) := rfl

@[simp] theorem threaded_error (e : ε) (s : σ) :
    threaded (.done (.error e) : ObjProg Op Res ε σ α) s = .done (.error e) := rfl

theorem threaded_bind (p : ObjProg Op Res ε σ α) (f : α → ObjProg Op Res ε σ β) (s : σ) :
    threaded (Prog.bind p f) s = Prog.bind (threaded p s) fun x => threaded (f x.1) x.2 := by
  induction p generalizing s with
  | done r => cases r <;> rfl
  | op o k ih =>
      cases o with
      | call o => exact congrArg (Prog.op o) (funext fun r => ih r s)
      | self => exact ih _ s
      | modify f => exact ih _ (f s)

end ObjProg
