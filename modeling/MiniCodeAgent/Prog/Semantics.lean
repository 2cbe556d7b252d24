import MiniCodeAgent.Prog.Basic

/-!
# What a program does to a world

A meaning of the effects says which answers an effect may get in a world, and
what world each answer leaves. `Steps` carries it along a trace; a `Run` is a
program and a trace that agree to the program's end, and `During` speaks of
every world the program passes, which are the worlds a crash can leave. For
both there is one rule for each way to build a program, and they are all that
is needed to take a run apart.

A world that answers by itself is a function, and `exec` runs a program on it.
Its runs are the ones in which nothing fails that need not fail.
-/

namespace Prog

variable {Op : Type} {Res : Op → Type} {ε α β W : Type}

section Relational

variable (S : W → Event Op Res ε → W → Prop)

/-- Under the meaning, the answers of the trace take one world to the other. -/
inductive Steps : W → List (Event Op Res ε) → W → Prop
  | nil (w : W) : Steps w [] w
  | cons {w w₁ w₂ : W} {e : Event Op Res ε} {t : List (Event Op Res ε)} (h : S w e w₁)
      (ht : Steps w₁ t w₂) : Steps w (e :: t) w₂

variable {S}

@[simp] theorem steps_nil {w w' : W} : Steps S w [] w' ↔ w' = w := by
  constructor
  · intro h
    cases h with
    | nil => rfl
  · rintro rfl
    exact .nil _

@[simp] theorem steps_cons {w w' : W} {e : Event Op Res ε} {t : List (Event Op Res ε)} :
    Steps S w (e :: t) w' ↔ ∃ w₁, S w e w₁ ∧ Steps S w₁ t w' := by
  constructor
  · intro h
    cases h with
    | cons h ht => exact ⟨_, h, ht⟩
  · rintro ⟨w₁, h, ht⟩
    exact .cons h ht

theorem steps_append {w w' : W} {t u : List (Event Op Res ε)} :
    Steps S w (t ++ u) w' ↔ ∃ w₁, Steps S w t w₁ ∧ Steps S w₁ u w' := by
  induction t generalizing w with
  | nil => simp
  | cons e t ih =>
      simp only [List.cons_append, steps_cons, ih]
      constructor
      · rintro ⟨w₁, h, w₂, ht, hu⟩
        exact ⟨w₂, ⟨w₁, h, ht⟩, hu⟩
      · rintro ⟨w₂, ⟨w₁, h, ht⟩, hu⟩
        exact ⟨w₁, h, w₂, ht, hu⟩

/-- What every step keeps, a whole trace keeps. -/
theorem Steps.invariant {I : W → Prop} (hI : ∀ {w e w'}, S w e w' → I w → I w') {w w' : W}
    {t : List (Event Op Res ε)} (h : Steps S w t w') (hw : I w) : I w' := by
  induction h with
  | nil => exact hw
  | cons h _ ih => exact ih (hI h hw)

/-! ### Runs -/

variable (S)

/-- The program, started in the one world, can end like this in the other. -/
def Run (p : Prog Op Res ε α) (w : W) (r : Except ε α) (w' : W) : Prop :=
  ∃ t, Trace p t r ∧ Steps S w t w'

/-- The program, started in the one world, can come by the other. -/
def During (p : Prog Op Res ε α) (w w' : W) : Prop :=
  ∃ t q, After p t q ∧ Steps S w t w'

variable {S}

@[simp] theorem run_done {r r' : Except ε α} {w w' : W} :
    Run S (.done r : Prog Op Res ε α) w r' w' ↔ r' = r ∧ w' = w := by
  constructor
  · rintro ⟨t, ht, hs⟩
    obtain ⟨rfl, rfl⟩ := trace_done.1 ht
    exact ⟨rfl, steps_nil.1 hs⟩
  · rintro ⟨rfl, rfl⟩
    exact ⟨[], trace_done.2 ⟨rfl, rfl⟩, .nil _⟩

theorem run_op {o : Op} {k : Except ε (Res o) → Prog Op Res ε α} {r : Except ε α} {w w' : W} :
    Run S (.op o k) w r w' ↔ ∃ a w₁, S w ⟨o, a⟩ w₁ ∧ Run S (k a) w₁ r w' := by
  constructor
  · rintro ⟨t, ht, hs⟩
    obtain ⟨a, t', rfl, hk⟩ := trace_op.1 ht
    obtain ⟨w₁, h, hs⟩ := steps_cons.1 hs
    exact ⟨a, w₁, h, t', hk, hs⟩
  · rintro ⟨a, w₁, h, t', ht, hs⟩
    exact ⟨⟨o, a⟩ :: t', trace_op.2 ⟨a, t', rfl, ht⟩, .cons h hs⟩

@[simp] theorem run_call {o : Op} {r : Except ε (Res o)} {w w' : W} :
    Run S (call o) w r w' ↔ S w ⟨o, r⟩ w' := by
  unfold call
  rw [run_op]
  constructor
  · rintro ⟨a, w₁, h, hd⟩
    obtain ⟨rfl, rfl⟩ := run_done.1 hd
    exact h
  · intro h
    exact ⟨r, w', h, run_done.2 ⟨rfl, rfl⟩⟩

theorem run_bind {p : Prog Op Res ε α} {f : α → Prog Op Res ε β} {r : Except ε β} {w w' : W} :
    Run S (bind p f) w r w' ↔
      (∃ e, Run S p w (.error e) w' ∧ r = .error e) ∨
      ∃ a w₁, Run S p w (.ok a) w₁ ∧ Run S (f a) w₁ r w' := by
  constructor
  · rintro ⟨t, ht, hs⟩
    rcases trace_bind.1 ht with ⟨e, he, rfl⟩ | ⟨a, t₁, t₂, rfl, h₁, h₂⟩
    · exact Or.inl ⟨e, ⟨t, he, hs⟩, rfl⟩
    · obtain ⟨w₁, hs₁, hs₂⟩ := steps_append.1 hs
      exact Or.inr ⟨a, w₁, ⟨t₁, h₁, hs₁⟩, t₂, h₂, hs₂⟩
  · rintro (⟨e, ⟨t, ht, hs⟩, rfl⟩ | ⟨a, w₁, ⟨t₁, h₁, hs₁⟩, t₂, h₂, hs₂⟩)
    · exact ⟨t, trace_bind.2 (Or.inl ⟨e, ht, rfl⟩), hs⟩
    · exact ⟨t₁ ++ t₂, trace_bind.2 (Or.inr ⟨a, t₁, t₂, rfl, h₁, h₂⟩),
        steps_append.2 ⟨w₁, hs₁, hs₂⟩⟩

theorem run_bind_ok {p : Prog Op Res ε α} {f : α → Prog Op Res ε β} {b : β} {w w' : W} :
    Run S (bind p f) w (.ok b) w' ↔
      ∃ a w₁, Run S p w (.ok a) w₁ ∧ Run S (f a) w₁ (.ok b) w' := by
  rw [run_bind]
  constructor
  · rintro (⟨e, -, h⟩ | h)
    · cases h
    · exact h
  · exact Or.inr

/-- A protected program and what follows it in any case. -/
theorem run_andFinally {p : Prog Op Res ε α} {q : Prog Op Res ε Unit} {r : Except ε α}
    {w w' : W} :
    Run S (andFinally p q) w r w' ↔
      ∃ r₁ w₁, Run S p w r₁ w₁ ∧
        ((Run S q w₁ (.ok ()) w' ∧ r = r₁) ∨ ∃ e, Run S q w₁ (.error e) w' ∧ r = .error e) := by
  induction p generalizing w with
  | done r₁ =>
      rw [andFinally, run_bind]
      constructor
      · rintro (⟨e, he, rfl⟩ | ⟨⟨⟩, w₁, hq, hd⟩)
        · exact ⟨r₁, w, run_done.2 ⟨rfl, rfl⟩, Or.inr ⟨e, he, rfl⟩⟩
        · obtain ⟨rfl, rfl⟩ := run_done.1 hd
          exact ⟨_, w, run_done.2 ⟨rfl, rfl⟩, Or.inl ⟨hq, rfl⟩⟩
      · rintro ⟨r₂, w₁, hd, ⟨hq, rfl⟩ | ⟨e, hq, rfl⟩⟩
        · obtain ⟨rfl, rfl⟩ := run_done.1 hd
          exact Or.inr ⟨(), w', hq, run_done.2 ⟨rfl, rfl⟩⟩
        · obtain ⟨rfl, rfl⟩ := run_done.1 hd
          exact Or.inl ⟨e, hq, rfl⟩
  | op o k ih =>
      rw [andFinally, run_op]
      constructor
      · rintro ⟨a, w₁, h, hk⟩
        obtain ⟨r₁, w₂, hp, hq⟩ := (ih a).1 hk
        exact ⟨r₁, w₂, run_op.2 ⟨a, w₁, h, hp⟩, hq⟩
      · rintro ⟨r₁, w₂, hp, hq⟩
        obtain ⟨a, w₁, h, hp⟩ := run_op.1 hp
        exact ⟨a, w₁, h, (ih a).2 ⟨r₁, w₂, hp, hq⟩⟩

theorem run_andFinally_ok {p : Prog Op Res ε α} {q : Prog Op Res ε Unit} {a : α} {w w' : W} :
    Run S (andFinally p q) w (.ok a) w' ↔
      ∃ w₁, Run S p w (.ok a) w₁ ∧ Run S q w₁ (.ok ()) w' := by
  rw [run_andFinally]
  constructor
  · rintro ⟨r₁, w₁, hp, ⟨hq, rfl⟩ | ⟨e, -, h⟩⟩
    · exact ⟨w₁, hp, hq⟩
    · cases h
  · rintro ⟨w₁, hp, hq⟩
    exact ⟨_, w₁, hp, Or.inl ⟨hq, rfl⟩⟩

/-- A protected program and the handler that goes on from its exception. -/
theorem run_catchWith {p : Prog Op Res ε α} {h : ε → Prog Op Res ε α} {r : Except ε α}
    {w w' : W} :
    Run S (catchWith p h) w r w' ↔
      (∃ a, Run S p w (.ok a) w' ∧ r = .ok a) ∨
      ∃ e w₁, Run S p w (.error e) w₁ ∧ Run S (h e) w₁ r w' := by
  induction p generalizing w with
  | done x =>
      cases x with
      | ok a =>
          rw [catchWith, run_done]
          constructor
          · rintro ⟨rfl, rfl⟩
            exact Or.inl ⟨a, run_done.2 ⟨rfl, rfl⟩, rfl⟩
          · rintro (⟨b, hb, rfl⟩ | ⟨e, w₁, he, -⟩)
            · exact run_done.1 hb
            · cases (run_done.1 he).1
      | error e =>
          rw [catchWith]
          constructor
          · exact fun hrun => Or.inr ⟨e, w, run_done.2 ⟨rfl, rfl⟩, hrun⟩
          · rintro (⟨a, ha, rfl⟩ | ⟨e', w₁, he, hrun⟩)
            · cases (run_done.1 ha).1
            · obtain ⟨heq, rfl⟩ := run_done.1 he
              cases heq
              exact hrun
  | op o k ih =>
      rw [catchWith, run_op]
      constructor
      · rintro ⟨a, w₁, hS, hk⟩
        rcases (ih a).1 hk with ⟨b, hb, rfl⟩ | ⟨e, w₂, he, hrun⟩
        · exact Or.inl ⟨b, run_op.2 ⟨a, w₁, hS, hb⟩, rfl⟩
        · exact Or.inr ⟨e, w₂, run_op.2 ⟨a, w₁, hS, he⟩, hrun⟩
      · rintro (⟨b, hb, rfl⟩ | ⟨e, w₂, he, hrun⟩)
        · obtain ⟨a, w₁, hS, hb⟩ := run_op.1 hb
          exact ⟨a, w₁, hS, (ih a).2 (Or.inl ⟨b, hb, rfl⟩)⟩
        · obtain ⟨a, w₁, hS, he⟩ := run_op.1 he
          exact ⟨a, w₁, hS, (ih a).2 (Or.inr ⟨e, w₂, he, hrun⟩)⟩

theorem during_done {r : Except ε α} {w w' : W} :
    During S (.done r : Prog Op Res ε α) w w' ↔ w' = w := by
  constructor
  · rintro ⟨t, q, ht, hs⟩
    cases ht with
    | nil => exact steps_nil.1 hs
  · rintro rfl
    exact ⟨[], _, .nil _, .nil _⟩

theorem during_op {o : Op} {k : Except ε (Res o) → Prog Op Res ε α} {w w' : W} :
    During S (.op o k) w w' ↔ w' = w ∨ ∃ a w₁, S w ⟨o, a⟩ w₁ ∧ During S (k a) w₁ w' := by
  constructor
  · rintro ⟨t, q, ht, hs⟩
    rcases after_op.1 ht with ⟨rfl, rfl⟩ | ⟨a, t', rfl, hk⟩
    · exact Or.inl (steps_nil.1 hs)
    · obtain ⟨w₁, h, hs⟩ := steps_cons.1 hs
      exact Or.inr ⟨a, w₁, h, t', q, hk, hs⟩
  · rintro (rfl | ⟨a, w₁, h, t', q, ht, hs⟩)
    · exact ⟨[], _, .nil _, .nil _⟩
    · exact ⟨⟨o, a⟩ :: t', q, .op ht, .cons h hs⟩

theorem during_start (p : Prog Op Res ε α) (w : W) : During S p w w := ⟨[], p, .nil _, .nil _⟩

/-- A sequence passes what its first part passes, and what its second part
passes after it. -/
theorem during_bind {p : Prog Op Res ε α} {f : α → Prog Op Res ε β} {w w' : W} :
    During S (bind p f) w w' ↔
      During S p w w' ∨ ∃ a w₁, Run S p w (.ok a) w₁ ∧ During S (f a) w₁ w' := by
  induction p generalizing w with
  | done r =>
      cases r with
      | ok a =>
          rw [bind_ok]
          constructor
          · exact fun h => Or.inr ⟨a, w, run_done.2 ⟨rfl, rfl⟩, h⟩
          · rintro (h | ⟨b, w₁, h, hd⟩)
            · rw [during_done.1 h]
              exact during_start _ _
            · obtain ⟨hb, rfl⟩ := run_done.1 h
              cases hb
              exact hd
      | error e =>
          rw [bind_error]
          constructor
          · exact fun h => Or.inl (during_done.2 (during_done.1 h))
          · rintro (h | ⟨b, w₁, h, -⟩)
            · exact during_done.2 (during_done.1 h)
            · cases (run_done.1 h).1
  | op o k ih =>
      rw [bind_op, during_op, during_op]
      constructor
      · rintro (h | ⟨a, w₁, hS, h⟩)
        · exact Or.inl (Or.inl h)
        · rcases (ih a).1 h with h | ⟨b, w₂, hrun, h⟩
          · exact Or.inl (Or.inr ⟨a, w₁, hS, h⟩)
          · exact Or.inr ⟨b, w₂, run_op.2 ⟨a, w₁, hS, hrun⟩, h⟩
      · rintro ((h | ⟨a, w₁, hS, h⟩) | ⟨b, w₂, hrun, h⟩)
        · exact Or.inl h
        · exact Or.inr ⟨a, w₁, hS, (ih a).2 (Or.inl h)⟩
        · obtain ⟨a, w₁, hS, hrun⟩ := run_op.1 hrun
          exact Or.inr ⟨a, w₁, hS, (ih a).2 (Or.inr ⟨b, w₂, hrun, h⟩)⟩

end Relational

/-! ## Worlds that answer by themselves -/

section Functional

variable (answer : (o : Op) → W → Except ε (Res o) × W)

/-- The program's end and the world it leaves. -/
def exec : Prog Op Res ε α → W → Except ε α × W
  | .done r, w => (r, w)
  | .op o k, w => exec (k (answer o w).1) (answer o w).2

@[simp] theorem exec_done (r : Except ε α) (w : W) :
    exec answer (.done r : Prog Op Res ε α) w = (r, w) := rfl

@[simp] theorem exec_op (o : Op) (k : Except ε (Res o) → Prog Op Res ε α) (w : W) :
    exec answer (.op o k) w = exec answer (k (answer o w).1) (answer o w).2 := rfl

theorem exec_call (o : Op) (w : W) : exec answer (call o) w = answer o w := rfl

theorem exec_bind (p : Prog Op Res ε α) (f : α → Prog Op Res ε β) (w : W) :
    exec answer (bind p f) w =
      match exec answer p w with
      | (.ok a, w') => exec answer (f a) w'
      | (.error e, w') => (.error e, w') := by
  induction p generalizing w with
  | done r => cases r <;> rfl
  | op o k ih => exact ih _ _

theorem exec_bind_ok {p : Prog Op Res ε α} {f : α → Prog Op Res ε β} {w w' : W} {a : α}
    (h : exec answer p w = (.ok a, w')) :
    exec answer (bind p f) w = exec answer (f a) w' := by
  rw [exec_bind, h]

theorem exec_bind_error {p : Prog Op Res ε α} {f : α → Prog Op Res ε β} {w w' : W} {e : ε}
    (h : exec answer p w = (.error e, w')) :
    exec answer (bind p f) w = (.error e, w') := by
  rw [exec_bind, h]

theorem exec_andFinally {p : Prog Op Res ε α} {q : Prog Op Res ε Unit} {w w' w'' : W}
    {r : Except ε α} (hp : exec answer p w = (r, w')) (hq : exec answer q w' = (.ok (), w'')) :
    exec answer (andFinally p q) w = (r, w'') := by
  induction p generalizing w with
  | done r' =>
      rw [exec_done] at hp
      injection hp with hr hw
      subst hr hw
      rw [andFinally, exec_bind_ok answer hq, exec_done]
  | op o k ih => exact ih _ hp

/-- A world that answers by itself is a meaning that allows its own answer, and
an exception that changes nothing. -/
def MayFail (w : W) (e : Event Op Res ε) (w' : W) : Prop :=
  (e.res, w') = answer e.op w ∨ (∃ exc, e.res = .error exc) ∧ w' = w

/-- A world where nothing fails that need not fail. -/
def Answers (w : W) (e : Event Op Res ε) (w' : W) : Prop := (e.res, w') = answer e.op w

theorem Answers.mayFail {w w' : W} {e : Event Op Res ε} (h : Answers answer w e w') :
    MayFail answer w e w' := Or.inl h

/-- The function's run is the one run of the world that answers by itself. -/
theorem run_answers {p : Prog Op Res ε α} {w w' : W} {r : Except ε α} :
    Run (Answers answer) p w r w' ↔ exec answer p w = (r, w') := by
  induction p generalizing w with
  | done r₁ =>
      rw [run_done, exec_done, Prod.mk.injEq]
      constructor
      · rintro ⟨rfl, rfl⟩
        exact ⟨rfl, rfl⟩
      · rintro ⟨rfl, rfl⟩
        exact ⟨rfl, rfl⟩
  | op o k ih =>
      rw [run_op, exec_op]
      constructor
      · rintro ⟨a, w₁, h, hk⟩
        have ha : a = (answer o w).1 := congrArg Prod.fst h
        have hw : w₁ = (answer o w).2 := congrArg Prod.snd h
        subst ha hw
        exact (ih _).1 hk
      · intro h
        have hS : Answers answer w ⟨o, (answer o w).1⟩ (answer o w).2 := rfl
        exact ⟨_, _, hS, (ih _).2 h⟩

theorem Steps.mono {S S' : W → Event Op Res ε → W → Prop} (hS : ∀ w e w', S w e w' → S' w e w')
    {w w' : W} {t : List (Event Op Res ε)} (h : Steps S w t w') : Steps S' w t w' := by
  induction h with
  | nil => exact .nil _
  | cons h _ ih => exact .cons (hS _ _ _ h) ih

theorem Run.mono {S S' : W → Event Op Res ε → W → Prop} (hS : ∀ w e w', S w e w' → S' w e w')
    {p : Prog Op Res ε α} {w w' : W} {r : Except ε α} (h : Run S p w r w') : Run S' p w r w' := by
  obtain ⟨t, ht, hs⟩ := h
  exact ⟨t, ht, hs.mono hS⟩

end Functional

end Prog
