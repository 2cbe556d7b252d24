import Mathlib.Logic.Function.Basic
import Mathlib.Logic.Relation
import MiniCodeAgent.Prog.Triple

/-!
# Programs that take turns

Several parties run programs on one world, one effect at a time and in any
order. What one of them may count on between two of its own effects is what the
others leave alone. `Secure` says of a program alone that it keeps its side: as
long as the others change the world only as `R` allows, every effect of its own
changes it as `G` allows, and it ends with `Q`. If each party's `G` is within
the `R` of every other, then in every interleaving each of them ends as if it
had been alone (`secure_turns`). For each way to build a program there is a rule.
-/

namespace Prog

variable {ι W Op : Type} {Res : Op → Type} {ε α β : Type}

/-- One world, and what each party has left to do. -/
structure Pool (ι W Op : Type) (Res : Op → Type) (ε α : Type) where
  world : W
  rest : ι → Prog Op Res ε α

section Turns

variable [DecidableEq ι] (S : ι → W → Event Op Res ε → W → Prop)
  (allowed : Pool ι W Op Res ε α → ι → Op → Prop)

/-- One party's next effect. -/
inductive Turn : Pool ι W Op Res ε α → Pool ι W Op Res ε α → Prop
  | mk {pool : Pool ι W Op Res ε α} {i : ι} {o : Op} {k : Except ε (Res o) → Prog Op Res ε α}
      {r : Except ε (Res o)} {w' : W} (hi : pool.rest i = .op o k) (hallowed : allowed pool i o)
      (h : S i pool.world ⟨o, r⟩ w') : Turn pool ⟨w', Function.update pool.rest i (k r)⟩

/-- Any number of effects, in any order. -/
def Turns : Pool ι W Op Res ε α → Pool ι W Op Res ε α → Prop :=
  Relation.ReflTransGen (Turn S allowed)

variable {S allowed}

theorem Turns.invariant {I : Pool ι W Op Res ε α → Prop}
    (hI : ∀ pool pool', Turn S allowed pool pool' → I pool → I pool')
    {pool pool' : Pool ι W Op Res ε α} (h : Turns S allowed pool pool') (hpool : I pool) :
    I pool' := by
  induction h with
  | refl => exact hpool
  | tail _ hturn ih => exact hI _ _ hturn ih

/-- A party that runs alone from where it is, and is always allowed to, comes to its end. -/
theorem turns_run {i : ι} {ok : W → Op → Prop}
    (hallowed : ∀ pool o, ok pool.world o → allowed pool i o) {p : Prog Op Res ε α}
    {r : Except ε α} {w' : W} {pool : Pool ι W Op Res ε α} (hi : pool.rest i = p)
    (h : Run (fun w e w' => S i w e w' ∧ ok w e.op) p pool.world r w') :
    Turns S allowed pool ⟨w', Function.update pool.rest i (.done r)⟩ := by
  induction p generalizing pool with
  | done r' =>
      obtain ⟨rfl, rfl⟩ := run_done.1 h
      rw [← hi, Function.update_eq_self]
      exact Relation.ReflTransGen.refl
  | op o k ih =>
      obtain ⟨a, w₁, hstep, hrest⟩ := run_op.1 h
      have hkeeps : (Pool.mk w₁ (Function.update pool.rest i (k a))).rest i = k a :=
        Function.update_self ..
      have hnext := ih a hkeeps hrest
      rw [Function.update_idem] at hnext
      exact Relation.ReflTransGen.head (.mk hi (hallowed pool o hstep.2) hstep.1) hnext

theorem Turns.trans {pool₁ pool₂ pool₃ : Pool ι W Op Res ε α} (h : Turns S allowed pool₁ pool₂)
    (h' : Turns S allowed pool₂ pool₃) : Turns S allowed pool₁ pool₃ :=
  Relation.ReflTransGen.trans h h'

end Turns

/-! ## What a program counts on, and what it keeps to -/

/-- No change that `R` allows makes the condition false. -/
def Stable (R : W → W → Prop) (P : W → Prop) : Prop := ∀ w w', R w w' → P w → P w'

theorem Stable.along {R : W → W → Prop} {P : W → Prop} (h : Stable R P) {w w' : W}
    (hsteps : Relation.ReflTransGen R w w') (hw : P w) : P w' := by
  induction hsteps with
  | refl => exact hw
  | tail _ hstep ih => exact h _ _ hstep ih

section Secure

variable (S : W → Event Op Res ε → W → Prop) (R G : W → W → Prop)

def Secure (Q : Except ε α → W → Prop) : Prog Op Res ε α → (W → Prop) → Prop
  | .done r, P => ∀ w, P w → Q r w
  | .op o k, P => ∀ r, ∃ P', Stable R P' ∧
      (∀ w w', P w → S w ⟨o, r⟩ w' → G w w' ∧ P' w') ∧ Secure Q (k r) P'

variable {S R G} {P P' : W → Prop}

theorem Secure.weaken {Q : Except ε α → W → Prop} {p : Prog Op Res ε α}
    (h : Secure S R G Q p P) (hP : ∀ w, P' w → P w) : Secure S R G Q p P' := by
  cases p with
  | done r => exact fun w hw => h w (hP w hw)
  | op o k =>
      intro r
      obtain ⟨P₁, hstable, hstep, hrest⟩ := h r
      exact ⟨P₁, hstable, fun w w' hw => hstep w w' (hP w hw), hrest⟩

theorem Secure.mono {Q Q' : Except ε α → W → Prop} {p : Prog Op Res ε α}
    (h : Secure S R G Q p P) (hQ : ∀ r w, Q r w → Q' r w) : Secure S R G Q' p P := by
  induction p generalizing P with
  | done r => exact fun w hw => hQ r w (h w hw)
  | op o k ih =>
      intro r
      obtain ⟨P₁, hstable, hstep, hrest⟩ := h r
      exact ⟨P₁, hstable, hstep, ih r hrest⟩

/-- A point that is never reached. -/
theorem secure_false {Q : Except ε α → W → Prop} {p : Prog Op Res ε α} :
    Secure S R G Q p (fun _ => False) := by
  induction p with
  | done r => exact fun w hw => hw.elim
  | op o k ih =>
      intro r
      exact ⟨fun _ => False, fun w w' h hw => hw, fun w w' hw h => hw.elim, ih r⟩

theorem secure_imp {Q : Except ε α → W → Prop} {p : Prog Op Res ε α} {c : Prop}
    (h : c → Secure S R G Q p P) : Secure S R G Q p (fun w => c ∧ P w) := by
  by_cases hc : c
  · exact (h hc).weaken fun w hw => hw.2
  · exact secure_false.weaken fun w hw => hc hw.1

theorem secure_pure {M : α → W → Prop} {E : ε → W → Prop} {a : α} (h : ∀ w, P w → M a w) :
    Secure S R G (Ends M E) (.done (.ok a)) P := h

theorem secure_throw {M : α → W → Prop} {E : ε → W → Prop} {e : ε} (h : ∀ w, P w → E e w) :
    Secure S R G (Ends M E) (.done (.error e) : Prog Op Res ε α) P := h

theorem secure_call {o : Op} {M : Res o → W → Prop} {E : ε → W → Prop}
    (hM : ∀ a, Stable R (M a)) (hE : ∀ e, Stable R (E e))
    (h : ∀ r w w', P w → S w ⟨o, r⟩ w' → G w w' ∧ Ends M E r w') :
    Secure S R G (Ends M E) (call o) P := by
  intro r
  refine ⟨Ends M E r, ?_, h r, fun w hw => hw⟩
  cases r with
  | ok a => exact hM a
  | error e => exact hE e

theorem Secure.bind {p : Prog Op Res ε α} {f : α → Prog Op Res ε β} {M : α → W → Prop}
    {E : ε → W → Prop} {Q : β → W → Prop} (hp : Secure S R G (Ends M E) p P)
    (hf : ∀ a, Secure S R G (Ends Q E) (f a) (M a)) :
    Secure S R G (Ends Q E) (Prog.bind p f) P := by
  induction p generalizing P with
  | done r =>
      cases r with
      | ok a => exact (hf a).weaken hp
      | error e => exact hp
  | op o k ih =>
      intro r
      obtain ⟨P₁, hstable, hstep, hrest⟩ := hp r
      exact ⟨P₁, hstable, hstep, ih r hrest⟩

theorem Secure.catchWith {p : Prog Op Res ε α} {handler : ε → Prog Op Res ε α}
    {Q : α → W → Prop} {M E : ε → W → Prop} (hp : Secure S R G (Ends Q M) p P)
    (hh : ∀ e, Secure S R G (Ends Q E) (handler e) (M e)) :
    Secure S R G (Ends Q E) (Prog.catchWith p handler) P := by
  induction p generalizing P with
  | done r =>
      cases r with
      | ok a => exact hp
      | error e => exact (hh e).weaken hp
  | op o k ih =>
      intro r
      obtain ⟨P₁, hstable, hstep, hrest⟩ := hp r
      exact ⟨P₁, hstable, hstep, ih r hrest⟩

/-- The exception that is caught is handed over, and any other goes on. -/
theorem Secure.rescue {catches : ε → Prop} [DecidablePred catches] {p : Prog Op Res ε α}
    {Q : Except ε α → W → Prop} {E : ε → W → Prop}
    (hp : Secure S R G (Ends (fun a => Q (.ok a))
      fun e w => if catches e then Q (.error e) w else E e w) p P) :
    Secure S R G (Ends Q E) (rescue catches p) P := by
  refine (hp.bind fun a => secure_pure fun w hw => hw).catchWith fun e => ?_
  split
  · exact secure_pure fun w hw => hw
  · exact secure_throw fun w hw => hw

/-- What is done in any case keeps both ends as they are. -/
theorem Secure.andFinally {p : Prog Op Res ε α} {q : Prog Op Res ε Unit} {Q : α → W → Prop}
    {E : ε → W → Prop} (hp : Secure S R G (Ends Q E) p P)
    (hq : ∀ r, Secure S R G (Ends (fun _ => Ends Q E r) E) q (Ends Q E r)) :
    Secure S R G (Ends Q E) (Prog.andFinally p q) P := by
  induction p generalizing P with
  | done r =>
      rw [Prog.andFinally]
      refine ((hq r).weaken hp).bind fun _ => ?_
      cases r with
      | ok a => exact secure_pure fun w hw => hw
      | error e => exact secure_throw fun w hw => hw
  | op o k ih =>
      intro r
      obtain ⟨P₁, hstable, hstep, hrest⟩ := hp r
      exact ⟨P₁, hstable, hstep, ih r hrest⟩

/-- What neither side touches stays true along the way. -/
theorem Secure.frame {p : Prog Op Res ε α} {Q : α → W → Prop} {E : ε → W → Prop}
    {F : W → Prop} (hR : Stable R F) (hG : Stable G F) (hp : Secure S R G (Ends Q E) p P) :
    Secure S R G (Ends (fun a w => Q a w ∧ F w) E) p (fun w => P w ∧ F w) := by
  induction p generalizing P with
  | done r =>
      cases r with
      | ok a => exact fun w hw => ⟨hp w hw.1, hw.2⟩
      | error e => exact fun w hw => hp w hw.1
  | op o k ih =>
      intro r
      obtain ⟨P₁, hstable, hstep, hrest⟩ := hp r
      refine ⟨fun w => P₁ w ∧ F w, fun w w' h hw => ⟨hstable w w' h hw.1, hR w w' h hw.2⟩,
        fun w w' hw h => ?_, ih r hrest⟩
      obtain ⟨hguarantee, hw'⟩ := hstep w w' hw.1 h
      exact ⟨hguarantee, hw', hG w w' hguarantee hw.2⟩

/-! ### Alone -/

/-- A program that runs alone and is stopped anywhere has kept its side till there. -/
theorem Secure.during {Q : Except ε α → W → Prop} {p : Prog Op Res ε α}
    (h : Secure S R G Q p P) {w w' : W} (hw : P w) (hrun : During S p w w') :
    Relation.ReflTransGen G w w' := by
  induction p generalizing P w with
  | done r =>
      rw [during_done.1 hrun]
  | op o k ih =>
      obtain rfl | ⟨r, w₁, hstep, hrest⟩ := during_op.1 hrun
      · exact .refl
      · obtain ⟨P₁, -, hnext, hk⟩ := h r
        obtain ⟨hG, hw₁⟩ := hnext w w₁ hw hstep
        exact .head hG (ih r hk hw₁ hrest)

theorem Secure.ends {Q : Except ε α → W → Prop} {p : Prog Op Res ε α}
    (h : Secure S R G Q p P) {w w' : W} {r : Except ε α} (hw : P w) (hrun : Run S p w r w') :
    Q r w' := by
  induction p generalizing P w with
  | done r' =>
      obtain ⟨rfl, rfl⟩ := run_done.1 hrun
      exact h w' hw
  | op o k ih =>
      obtain ⟨a, w₁, hstep, hrest⟩ := run_op.1 hrun
      obtain ⟨P₁, -, hnext, hk⟩ := h a
      exact ih a hk (hnext w w₁ hw hstep).2 hrest

end Secure

/-! ## All of them together -/

section Parallel

variable [DecidableEq ι] {S T : ι → W → Event Op Res ε → W → Prop}
  {allowed : Pool ι W Op Res ε α → ι → Op → Prop} {R G : ι → W → W → Prop}
  {Q : ι → Except ε α → W → Prop}

/-- The party is at a point where it keeps its side. -/
def OnTrack (S : W → Event Op Res ε → W → Prop) (R G : W → W → Prop)
    (Q : Except ε α → W → Prop) (p : Prog Op Res ε α) (w : W) : Prop :=
  ∃ P, Stable R P ∧ P w ∧ Secure S R G Q p P

/-- Parties whose effects respect what the others count on stay on track. -/
theorem secure_turns (hGR : ∀ i j, i ≠ j → ∀ w w', G i w w' → R j w w')
    (hS : ∀ pool i o r w', allowed pool i o → S i pool.world ⟨o, r⟩ w' →
      T i pool.world ⟨o, r⟩ w')
    {pool pool' : Pool ι W Op Res ε α} (h : Turns S allowed pool pool')
    (hstart : ∀ i, OnTrack (T i) (R i) (G i) (Q i) (pool.rest i) pool.world) :
    ∀ i, OnTrack (T i) (R i) (G i) (Q i) (pool'.rest i) pool'.world := by
  refine h.invariant (I := fun pool => ∀ i, OnTrack (T i) (R i) (G i) (Q i) (pool.rest i)
    pool.world) (fun pool pool' hturn hpool j => ?_) hstart
  cases hturn with
  | @mk i o k r w' hi hallowed hstep =>
      obtain ⟨P, -, hP, hsecure⟩ := hpool i
      rw [hi] at hsecure
      obtain ⟨P', hstable', hnext, hrest⟩ := hsecure r
      obtain ⟨hG, hP'⟩ := hnext _ _ hP (hS _ _ _ _ _ hallowed hstep)
      show OnTrack (T j) (R j) (G j) (Q j) (Function.update pool.rest i (k r) j) w'
      by_cases hij : j = i
      · subst hij
        rw [Function.update_self]
        exact ⟨P', hstable', hP', hrest⟩
      · rw [Function.update_of_ne hij]
        obtain ⟨Pj, hstable, hPj, hsecurej⟩ := hpool j
        exact ⟨Pj, hstable, hstable _ _ (hGR i j (Ne.symm hij) _ _ hG) hPj, hsecurej⟩

/-- A party that has ended did so as its program alone says. -/
theorem OnTrack.ended {S : W → Event Op Res ε → W → Prop} {R G : W → W → Prop}
    {Q : Except ε α → W → Prop} {p : Prog Op Res ε α} {w : W} (h : OnTrack S R G Q p w)
    {r : Except ε α} (hp : p = .done r) : Q r w := by
  obtain ⟨P, -, hP, hsecure⟩ := h
  rw [hp] at hsecure
  exact hsecure w hP

end Parallel

/-! ## Schedules -/

section Schedule

variable [DecidableEq ι] (answer : ι → (o : Op) → W → Except ε (Res o) × W)
  (allowed : Pool ι W Op Res ε α → ι → Op → Prop)
  [∀ pool i o, Decidable (allowed pool i o)]

/-- The parties take their turns as listed; a turn that is not allowed, or that
finds its party at its end, is let pass. -/
def schedule : List ι → Pool ι W Op Res ε α → Pool ι W Op Res ε α
  | [], pool => pool
  | i :: rest, pool =>
    match pool.rest i with
    | .done _ => schedule rest pool
    | .op o k =>
      if allowed pool i o then
        schedule rest ⟨(answer i o pool.world).2,
          Function.update pool.rest i (k (answer i o pool.world).1)⟩
      else schedule rest pool

theorem turns_schedule {S : ι → W → Event Op Res ε → W → Prop}
    (hS : ∀ i o w, S i w ⟨o, (answer i o w).1⟩ (answer i o w).2) (order : List ι)
    (pool : Pool ι W Op Res ε α) : Turns S allowed pool (schedule answer allowed order pool) := by
  induction order generalizing pool with
  | nil => exact Relation.ReflTransGen.refl
  | cons i rest ih =>
      rw [schedule]
      split
      · exact ih pool
      · next o k hi =>
          split
          · next hallowed =>
              exact Relation.ReflTransGen.head (.mk hi hallowed (hS i o pool.world)) (ih _)
          · exact ih pool

end Schedule

end Prog
