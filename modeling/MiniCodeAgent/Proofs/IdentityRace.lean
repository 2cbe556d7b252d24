import MiniCodeAgent.ProjectIdentity

/-!
# Calls for the identity of one project

Two calls that both find no identity both draw one and both write it, and the
one that wrote first has returned an identity nobody will find again. Nothing
else can go wrong: as long as a call writes only where the entry is still unset,
what was written first is what all of them return.

Between its effects a call has few states to be in (`Stage`), and which of them
are possible depends on the entry alone.
-/

namespace MiniCodeAgent

namespace ProjectIdentity

open Prog (Turns Pool)

variable {ι : Type} (digests : Digests) (git root : String)

/-! ## What a strip leaves -/

/-- The line end git puts after a value is stripped again. -/
theorem pyStrip_line {text : String} (h : isHex text = true) : pyStrip (text ++ "\n") = text := by
  have hplain : ∀ c ∈ text.toList, pyIsSpace c = false := by
    intro c hc
    rw [isHex, List.all_eq_true] at h
    exact pyIsSpace_of_isHexDigit (h c hc)
  have hreverse : ∀ c ∈ text.toList.reverse, pyIsSpace c = false := by
    intro c hc
    exact hplain c (List.mem_reverse.1 hc)
  have hends : (text.toList ++ ['\n']).dropWhile pyIsSpace = text.toList ++ ['\n'] ∨
      text.toList = [] := by
    cases htext : text.toList with
    | nil => exact .inr rfl
    | cons c rest =>
        refine .inl ?_
        rw [List.cons_append, List.dropWhile_cons_of_neg]
        simp [hplain c (by rw [htext]; simp)]
  cases hends with
  | inl h =>
      rw [pyStrip, String.toList_append, show "\n".toList = ['\n'] from rfl, h, List.reverse_append]
      show String.ofList ((('\n' :: text.toList.reverse).dropWhile pyIsSpace).reverse) = text
      rw [List.dropWhile_cons_of_pos rfl, dropWhile_of_plain hreverse, List.reverse_reverse,
        String.ofList_toList]
  | inr h =>
      rw [String.toList_eq_nil_iff.1 h]
      rfl

theorem isHex_of_isProjectIdentity {identity : String} (h : isProjectIdentity identity = true) :
    isHex identity = true := by
  rw [isProjectIdentity, Bool.and_eq_true] at h
  exact h.2

theorem ne_empty_of_isProjectIdentity {identity : String}
    (h : isProjectIdentity identity = true) : identity ≠ "" := by
  intro hempty
  rw [hempty] at h
  cases h

theorem storedIdentity_of_set {identity : String} (h : isProjectIdentity identity = true) :
    storedIdentity (some identity) = identity :=
  pyStrip_line (isHex_of_isProjectIdentity h)

/-! ## Where a call can be -/

inductive Stage (config : Config) : ConfigProg String → Prop
  | start : Stage config (identitySha256 digests (some git) root true)
  | drawing : Stage config (Prog.bind (sys .uuid4) fun identity => persistIdentity digests identity)
  | writing {identity : String} (h : isProjectIdentity identity = true) :
      Stage config (persistIdentity digests identity)
  | ended (h : storedIdentity config ≠ "") :
      Stage config (.done (checkedIdentity digests (storedIdentity config)))

/-- Only an entry still unset is written. -/
def writesUnset (config : Config) : ConfigOp → Prop
  | .set _ => storedIdentity config = ""
  | _ => True

theorem answer_get (identity : String) (config : Config) :
    ∃ read : Completed, answer identity .get config = (.ok read, config) ∧
      (read.returncode = 0 ∨ read.returncode = 1) ∧
      pyStrip read.stdout = storedIdentity config := by
  cases config with
  | none => exact ⟨_, rfl, .inr rfl, rfl⟩
  | some value => exact ⟨_, rfl, .inl rfl, rfl⟩

theorem settleIdentity_stored {create : Bool} {read : Completed} {config : Config}
    (hcode : read.returncode = 0 ∨ read.returncode = 1)
    (hread : pyStrip read.stdout = storedIdentity config) (hset : storedIdentity config ≠ "") :
    settleIdentity digests root create read =
      .done (checkedIdentity digests (storedIdentity config)) := by
  rw [settleIdentity, if_neg (by omega), hread, if_neg hset]

theorem settleIdentity_unset {read : Completed} {config : Config}
    (hcode : read.returncode = 0 ∨ read.returncode = 1)
    (hread : pyStrip read.stdout = storedIdentity config) (hunset : storedIdentity config = "") :
    settleIdentity digests root true read =
      Prog.bind (sys .uuid4) fun identity => persistIdentity digests identity := by
  rw [settleIdentity, if_neg (by omega), hread, if_pos hunset]
  rfl

variable {digests git root}

/-- An effect takes its call to the next stage and leaves the others where they are. -/
theorem stage_step {i : ι} {config config' : Config} {o : ConfigOp}
    {k : Except PyExc o.Res → ConfigProg String} {r : Except PyExc o.Res}
    (hstage : Stage digests git root config (.op o k)) (hwrites : writesUnset config o)
    (hcall : Calls i config ⟨o, r⟩ config') :
    Stage digests git root config' (k r) ∧
      ∀ p, Stage digests git root config p → Stage digests git root config' p := by
  obtain ⟨fresh, hfresh, hanswer⟩ := hcall
  generalize hp : Prog.op o k = p at hstage
  cases hstage with
  | start =>
      cases hp
      obtain ⟨read, hget, hcode, hread⟩ := answer_get fresh config
      cases hanswer.trans hget
      refine ⟨?_, fun p h => h⟩
      show Stage digests git root config (settleIdentity digests root true read)
      by_cases hunset : storedIdentity config = ""
      · rw [settleIdentity_unset digests root hcode hread hunset]
        exact .drawing
      · rw [settleIdentity_stored digests root hcode hread hunset]
        exact .ended hunset
  | drawing =>
      cases hp
      cases hanswer
      exact ⟨.writing hfresh, fun p h => h⟩
  | @writing identity hidentity =>
      cases hp
      cases hanswer
      have hstored := storedIdentity_of_set hidentity
      constructor
      · show Stage digests git root (some identity) (.done (checkedIdentity digests identity))
        have hended : Stage digests git root (some identity)
            (.done (checkedIdentity digests (storedIdentity (some identity)))) :=
          .ended (by rw [hstored]; exact ne_empty_of_isProjectIdentity hidentity)
        rw [hstored] at hended
        exact hended
      · intro p h
        cases h with
        | start => exact .start
        | drawing => exact .drawing
        | writing h => exact .writing h
        | ended hset => exact absurd hwrites hset
  | ended hset => cases hp

/-- No identity, or a valid one. -/
def Sound (config : Config) : Prop :=
  storedIdentity config = "" ∨ isProjectIdentity (storedIdentity config) = true

theorem sound_step {i : ι} {config config' : Config} {o : ConfigOp}
    {k : Except PyExc o.Res → ConfigProg String} {r : Except PyExc o.Res}
    (hstage : Stage digests git root config (.op o k)) (hcall : Calls i config ⟨o, r⟩ config')
    (h : Sound config) : Sound config' := by
  obtain ⟨fresh, hfresh, hanswer⟩ := hcall
  generalize hp : Prog.op o k = p at hstage
  cases hstage with
  | start =>
      cases hp
      obtain ⟨read, hget, -⟩ := answer_get fresh config
      cases hanswer.trans hget
      exact h
  | drawing =>
      cases hp
      cases hanswer
      exact h
  | @writing identity hidentity =>
      cases hp
      cases hanswer
      refine .inr ?_
      rw [storedIdentity_of_set hidentity]
      exact hidentity
  | ended hset => cases hp

/-! ## Any number of calls -/

variable (digests git root) in
/-- Calls with `create=True` for a repository whose configuration is this. -/
def identityCalls (ι : Type) (config : Config) :
    Pool ι Config ConfigOp ConfigOp.Res PyExc String :=
  ⟨config, fun _ => identitySha256 digests (some git) root true⟩

variable [DecidableEq ι]

theorem stages_turns {config : Config} {pool : Pool ι Config ConfigOp ConfigOp.Res PyExc String}
    (h : Turns Calls (fun pool _ o => writesUnset pool.world o)
      (identityCalls digests git root ι config) pool) :
    (∀ i, Stage digests git root pool.world (pool.rest i)) ∧
      (Sound config → Sound pool.world) := by
  refine h.invariant (I := fun pool => (∀ i, Stage digests git root pool.world (pool.rest i)) ∧
    (Sound config → Sound pool.world)) (fun pool pool' hturn hpool => ?_)
    ⟨fun _ => .start, fun h => h⟩
  cases hturn with
  | @mk i o k r w' hi hwrites hcall =>
      have hstage := hpool.1 i
      rw [hi] at hstage
      obtain ⟨hnext, hothers⟩ := stage_step hstage hwrites hcall
      refine ⟨fun j => ?_, fun h => sound_step hstage hcall (hpool.2 h)⟩
      show Stage digests git root w' (Function.update pool.rest i (k r) j)
      by_cases hij : j = i
      · subst hij
        rw [Function.update_self]
        exact hnext
      · rw [Function.update_of_ne hij]
        exact hothers _ (hpool.1 j)

omit [DecidableEq ι] in
/-- A call that starts when an identity is there. -/
theorem run_identitySha256_stored {i : ι} {create : Bool} {config config' : Config}
    {r : Except PyExc String} (hset : storedIdentity config ≠ "")
    (h : Prog.Run (Calls i) (identitySha256 digests (some git) root create) config r config') :
    r = checkedIdentity digests (storedIdentity config) := by
  have hrun : Prog.Run (Calls i) (Prog.bind (sys .get) (settleIdentity digests root create))
      config r config' := h
  obtain ⟨e, he, -⟩ | ⟨found, config₁, hfound, hrest⟩ := Prog.run_bind.1 hrun
  · obtain ⟨fresh, -, hanswer⟩ := Prog.run_call.1 he
    obtain ⟨read, hget, -⟩ := answer_get fresh config
    cases hanswer.trans hget
  · obtain ⟨fresh, -, hanswer⟩ := Prog.run_call.1 hfound
    obtain ⟨read, hget, hcode, hread⟩ := answer_get fresh config
    cases hanswer.trans hget
    rw [settleIdentity_stored digests root hcode hread hset] at hrest
    exact (Prog.run_done.1 hrest).1

/-- If a call writes the entry only where it is still unset, then every call that
comes to its end has the identity that is there, and so has every later one. -/
theorem identity_agrees {config : Config}
    {pool : Pool ι Config ConfigOp ConfigOp.Res PyExc String}
    (h : Turns Calls (fun pool _ o => writesUnset pool.world o)
      (identityCalls digests git root ι config) pool) {i : ι} {r : Except PyExc String}
    (hi : pool.rest i = .done r) :
    (∀ j r', pool.rest j = .done r' → r' = r) ∧
    (∀ create r' config', Prog.Run (Calls i) (identitySha256 digests (some git) root create)
      pool.world r' config' → r' = r) ∧
    (Sound config → ∃ identity, isProjectIdentity identity = true ∧
      r = .ok (digests.sha256 ("mca-project:" ++ identity).toUTF8)) := by
  obtain ⟨hstages, hsound⟩ := stages_turns h
  have hend : ∀ j r', pool.rest j = .done r' → storedIdentity pool.world ≠ "" ∧
      r' = checkedIdentity digests (storedIdentity pool.world) := by
    intro j r' hj
    have hstage := hstages j
    rw [hj] at hstage
    generalize hp : Prog.done r' = p at hstage
    cases hstage with
    | start => cases hp
    | drawing => cases hp
    | writing h => cases hp
    | ended hset =>
        cases hp
        exact ⟨hset, rfl⟩
  obtain ⟨hset, hr⟩ := hend i r hi
  refine ⟨fun j r' hj => ?_, fun create r' config' hrun => ?_, fun h => ?_⟩
  · rw [hr, (hend j r' hj).2]
  · rw [hr, run_identitySha256_stored hset hrun]
  · have hvalid := (hsound h).resolve_left hset
    refine ⟨_, hvalid, ?_⟩
    rw [hr, checkedIdentity, hvalid]
    rfl

/-! ### Two calls -/

/-- What each of the two draws. -/
def drawn (second : Bool) : String :=
  String.ofList (List.replicate 32 (if second then 'b' else 'a'))

theorem isProjectIdentity_drawn (second : Bool) : isProjectIdentity (drawn second) = true := by
  cases second <;> decide +kernel

def twoCalls (allowed : Pool Bool Config ConfigOp ConfigOp.Res PyExc String → Bool →
    ConfigOp → Prop) [∀ pool i o, Decidable (allowed pool i o)] (order : List Bool) :
    Pool Bool Config ConfigOp ConfigOp.Res PyExc String :=
  Prog.schedule (fun i => answer (drawn i)) allowed order
    (identityCalls hexDigests "git" "/project" Bool none)

instance (config : Config) (o : ConfigOp) : Decidable (writesUnset config o) :=
  match o with
  | .get => .isTrue trivial
  | .uuid4 => .isTrue trivial
  | .set _ => inferInstanceAs (Decidable (storedIdentity config = ""))

def turnsInOrder : Pool Bool Config ConfigOp ConfigOp.Res PyExc String :=
  twoCalls (fun pool _ o => writesUnset pool.world o) [false, false, false, true]

theorem identity_agrees_sample :
    (turnsInOrder.rest true = .done (checkedIdentity hexDigests (drawn false)) ∧
      turnsInOrder.rest false = .done (checkedIdentity hexDigests (drawn false))) ∧
    ∀ j r', turnsInOrder.rest j = .done r' → r' = checkedIdentity hexDigests (drawn false) :=
  ⟨⟨rfl, rfl⟩, (identity_agrees (i := true) (Prog.turns_schedule _ _
    (fun i _ _ => ⟨drawn i, isProjectIdentity_drawn i, rfl⟩) _ _) rfl).1⟩

/-- Both find no identity, and both write theirs. -/
theorem identity_disagrees :
    ∃ pool, Turns Calls (fun _ _ _ => True)
        (identityCalls hexDigests "git" "/project" Bool none) pool ∧
      ∃ first second, pool.rest false = .done (.ok first) ∧
        pool.rest true = .done (.ok second) ∧ first ≠ second :=
  ⟨twoCalls (fun _ _ _ => True) [false, true, false, true, false, true],
    Prog.turns_schedule _ _ (fun i _ _ => ⟨drawn i, isProjectIdentity_drawn i, rfl⟩) _ _,
    _, _, rfl, rfl, by decide +kernel⟩

end ProjectIdentity

end MiniCodeAgent
