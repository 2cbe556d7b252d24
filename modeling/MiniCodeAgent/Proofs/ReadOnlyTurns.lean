import MiniCodeAgent.Proofs.ChatVerified

/-!
# What a read-only turn does to the gate

In `/ask` mode the access controller answers every call that could change the
workspace itself, but the batch that asked treats the answer as it treats any
other. Over an unchanged workspace that leaves the gate where it was, with two
exceptions. A refused `run_tests` call is recorded as a test run that failed. And
a capture that fails clears the gate, at the start of a batch and behind a call
that was refused.

Both show in the turn's own history as two events next to each other, which is
what `Spoiled` says. The gate of a turn under way is then the one the turn found,
brought up to the workspace, or a failed one, and which of the two it is can be
read off the history at every point but one: between the two events and the
assignment. A turn that returns is past it.
-/

namespace MiniCodeAgent

open Prog ObjProg

variable {F : Type}

/-! ## The turn's history -/

/-- Behind this the next capture is taken at the start of a batch or for a call. -/
def Primes (e : ChatEvent F) : Prop :=
  (∃ name args result, e = ⟨.executor (.executeTool name args), .ok result⟩ ∧
    name ∈ potentiallyMutatingTools) ∨
  ∃ messages reply, e = ⟨.invokeModel messages, .ok reply⟩ ∧ reply.toolCalls ≠ []

/-- A capture behind a refused test run, or one that failed where the batch counts
on it. -/
def Spoils (e capture : ChatEvent F) : Prop :=
  ∃ ignored c, capture = ⟨.executor (.captureWorkspaceFingerprint ignored), c⟩ ∧
    Uninterrupted c ∧
      ((∃ args result, e = ⟨.executor (.executeTool "run_tests" args), .ok result⟩) ∨
        (∃ exc, c = .error exc) ∧ Primes e)

def Spoiled (u : List (ChatEvent F)) : Prop :=
  ∃ b e capture a, u = b ++ e :: capture :: a ∧ Spoils e capture

theorem Spoils.primes {e capture : ChatEvent F} (h : Spoils e capture) : Primes e := by
  obtain ⟨ignored, c, -, -, ⟨args, result, rfl⟩ | ⟨-, hprimes⟩⟩ := h
  · exact Or.inl ⟨_, args, result, rfl, by decide⟩
  · exact hprimes

theorem not_spoiled_nil : ¬ Spoiled ([] : List (ChatEvent F)) := by
  rintro ⟨b, e, capture, a, h, -⟩
  simp at h

/-- What is next to what changes at the end of a history only. -/
theorem spoiled_concat {u : List (ChatEvent F)} {e : ChatEvent F} :
    Spoiled (u ++ [e]) ↔ Spoiled u ∨ ∃ b l, u = b ++ [l] ∧ Spoils l e := by
  constructor
  · rintro ⟨b, x, y, a, heq, hspoils⟩
    have heq' : u ++ [e] = (b ++ [x]) ++ y :: a := by simpa using heq
    rcases concat_eq_append_cons heq' with ⟨hu, rfl, -⟩ | ⟨a', rfl, hu⟩
    · exact Or.inr ⟨b, x, hu, hspoils⟩
    · exact Or.inl ⟨b, x, y, a', by simpa using hu, hspoils⟩
  · rintro (⟨b, x, y, a, rfl, hspoils⟩ | ⟨b, l, rfl, hspoils⟩)
    · exact ⟨b, x, y, a ++ [e], by simp, hspoils⟩
    · exact ⟨b, l, e, [], by simp, hspoils⟩

/-- A capture that is not waited for spoils nothing. -/
theorem NotLast.spoiled_concat {u : List (ChatEvent F)} (h : NotLast Primes u)
    {e : ChatEvent F} : Spoiled (u ++ [e]) ↔ Spoiled u := by
  rw [MiniCodeAgent.spoiled_concat]
  refine ⟨fun hspoiled => hspoiled.elim id ?_, Or.inl⟩
  rintro ⟨b, l, hu, hspoils⟩
  exact absurd hspoils.primes (h b l hu)

/-! ## The gate -/

section Gate

variable (g₀ : VerificationGate) (fingerprint : String)

/-- The gate the turn found, brought up to the workspace, or a failed one. -/
structure GateAt (spoiled : Prop) (g : VerificationGate) : Prop where
  requireVerification : g.requireVerification = g₀.requireVerification
  baselineFingerprint : g.baselineFingerprint = g₀.baselineFingerprint
  failed : spoiled → g.status = .failed ∧ g.verifiedFingerprint = ""
  kept : ¬ spoiled → g.status = (g₀.sync fingerprint).status ∧
    g.verifiedFingerprint = g₀.verifiedFingerprint

/-- What the claim is about: the three fields are those of the gate before. -/
structure VerificationKept (g : VerificationGate) : Prop where
  status : g.status = g₀.status
  verifiedFingerprint : g.verifiedFingerprint = g₀.verifiedFingerprint
  requireVerification : g.requireVerification = g₀.requireVerification

/-- The gate agrees with the unchanged workspace, and where the turn fails it, it
had failed. -/
structure Neutral (u : List (ChatEvent F)) : Prop where
  synced : (g₀.sync fingerprint).status = g₀.status
  spoiled : Spoiled u → g₀.status = .failed ∧ g₀.verifiedFingerprint = ""

variable {g₀ fingerprint}

theorem sync_status_congr {g g' : VerificationGate}
    (hstatus : g.status = .failed ↔ g'.status = .failed)
    (hverified : g.verifiedFingerprint = g'.verifiedFingerprint)
    (hbaseline : g.baselineFingerprint = g'.baselineFingerprint)
    (hrequire : g.requireVerification = g'.requireVerification) (fingerprint : String) :
    (g.sync fingerprint).status = (g'.sync fingerprint).status := by
  unfold VerificationGate.sync
  dsimp only
  rw [hverified, hbaseline, hrequire]
  by_cases hfailed : g'.status = .failed
  · rw [if_pos (hstatus.2 hfailed), if_pos hfailed, hfailed, hstatus.2 hfailed]
  · rw [if_neg fun h => hfailed (hstatus.1 h), if_neg hfailed]

theorem sync_failed_iff {g : VerificationGate} :
    (g.sync fingerprint).status = .failed ↔ g.status = .failed := by
  unfold VerificationGate.sync
  dsimp only
  split
  · rfl
  · next hfailed =>
      refine ⟨fun h => ?_, fun h => absurd h hfailed⟩
      split at h
      · cases h
      · split at h <;> cases h

theorem GateAt.sync {spoiled : Prop} {g : VerificationGate} (h : GateAt g₀ fingerprint spoiled g) :
    GateAt g₀ fingerprint spoiled (g.sync fingerprint) where
  requireVerification := by
    rw [VerificationGate.sync_requireVerification, h.requireVerification]
  baselineFingerprint := by
    rw [VerificationGate.sync_baselineFingerprint, h.baselineFingerprint]
  failed hspoiled := by
    rw [VerificationGate.sync_verifiedFingerprint, sync_failed_iff]
    exact h.failed hspoiled
  kept hspoiled := by
    obtain ⟨hstatus, hverified⟩ := h.kept hspoiled
    rw [VerificationGate.sync_verifiedFingerprint]
    refine ⟨sync_status_congr ?_ hverified h.baselineFingerprint h.requireVerification _, hverified⟩
    rw [hstatus, sync_failed_iff]

/-- The turn's first capture. -/
theorem gateAt_sync : GateAt g₀ fingerprint False (g₀.sync fingerprint) where
  requireVerification := VerificationGate.sync_requireVerification _ _
  baselineFingerprint := VerificationGate.sync_baselineFingerprint _ _
  failed h := h.elim
  kept _ := ⟨rfl, VerificationGate.sync_verifiedFingerprint _ _⟩

theorem GateAt.congr {spoiled spoiled' : Prop} {g : VerificationGate}
    (h : GateAt g₀ fingerprint spoiled g) (hiff : spoiled' ↔ spoiled) :
    GateAt g₀ fingerprint spoiled' g where
  requireVerification := h.requireVerification
  baselineFingerprint := h.baselineFingerprint
  failed hspoiled := h.failed (hiff.1 hspoiled)
  kept hspoiled := h.kept fun h => hspoiled (hiff.2 h)

/-- A failure that is recorded. -/
theorem GateAt.fail {spoiled spoiled' : Prop} {g g' : VerificationGate}
    (h : GateAt g₀ fingerprint spoiled g) (hspoiled : spoiled')
    (hrequire : g'.requireVerification = g.requireVerification)
    (hbaseline : g'.baselineFingerprint = g.baselineFingerprint)
    (hfailed : g'.status = .failed ∧ g'.verifiedFingerprint = "") :
    GateAt g₀ fingerprint spoiled' g' where
  requireVerification := hrequire.trans h.requireVerification
  baselineFingerprint := hbaseline.trans h.baselineFingerprint
  failed _ := hfailed
  kept hnot := absurd hspoiled hnot

theorem GateAt.verificationKept {spoiled : Prop} {g : VerificationGate}
    {u : List (ChatEvent F)} (h : GateAt g₀ fingerprint spoiled g)
    (hspoiled : spoiled → Spoiled u) (hneutral : Neutral g₀ fingerprint u) :
    VerificationKept g₀ g := by
  by_cases hs : spoiled
  · obtain ⟨hstatus, hverified⟩ := h.failed hs
    obtain ⟨hstatus₀, hverified₀⟩ := hneutral.spoiled (hspoiled hs)
    exact ⟨hstatus.trans hstatus₀.symm, hverified.trans hverified₀.symm, h.requireVerification⟩
  · obtain ⟨hstatus, hverified⟩ := h.kept hs
    exact ⟨hstatus.trans hneutral.synced, hverified, h.requireVerification⟩

theorem GateAt.neutral {g : VerificationGate} {u : List (ChatEvent F)}
    (h : GateAt g₀ fingerprint (Spoiled u) g) (hkept : VerificationKept g₀ g) :
    Neutral g₀ fingerprint u := by
  by_cases hspoiled : Spoiled u
  · obtain ⟨hstatus, hverified⟩ := h.failed hspoiled
    have hfailed : g₀.status = .failed := hkept.status.symm.trans hstatus
    refine ⟨?_, fun _ => ⟨hfailed, hkept.verifiedFingerprint.symm.trans hverified⟩⟩
    rw [hfailed, sync_failed_iff.2 hfailed]
  · refine ⟨?_, fun h => absurd h hspoiled⟩
    rw [← (h.kept hspoiled).1, hkept.status]

/-- A gate so kept refuses what it refused before. -/
theorem VerificationKept.submissionError {g : VerificationGate} (h : VerificationKept g₀ g)
    (hbaseline : g.baselineFingerprint = g₀.baselineFingerprint) (later : String) :
    (g.submissionError later).1 = (g₀.submissionError later).1 := by
  have hstatus : (g.sync later).status = (g₀.sync later).status :=
    sync_status_congr (by rw [h.status]) h.verifiedFingerprint hbaseline h.requireVerification later
  have hchanges : (g.sync later).hasChanges = (g₀.sync later).hasChanges := by
    rw [VerificationGate.sync_hasChanges, VerificationGate.sync_hasChanges, hbaseline]
  unfold VerificationGate.submissionError
  dsimp only
  rw [hstatus, hchanges, VerificationGate.sync_requireVerification,
    VerificationGate.sync_requireVerification, VerificationGate.sync_verifiedFingerprint,
    VerificationGate.sync_verifiedFingerprint, h.requireVerification, h.verifiedFingerprint]
  split
  · rfl
  · split <;> rfl

end Gate

/-! ## One effect, one assignment -/

/-- Captures find the one workspace, and the controller answers what it refuses.
A call may still be interrupted. -/
structure ReadOnly (access : ChatAccessController) (fingerprint : String) (w : ChatWorld F)
    (e : ObjEvent (ChatOp F) ChatOp.Res PyExc (Chat F)) : Prop where
  captured : ∀ ignored found,
    e = ⟨.call (.executor (.captureWorkspaceFingerprint ignored)), .ok found⟩ →
      found = fingerprint
  refused : ∀ name args res result, e = ⟨.call (.executor (.executeTool name args)), res⟩ →
    access.refusal name = some result →
      res = .ok result ∨ ∃ exc, res = .error exc ∧ exc.isException = false

variable {access : ChatAccessController} {fingerprint : String}
variable {h₀ : List (ChatEvent F)} {g₀ : VerificationGate}

section Conditions

variable (h₀ g₀ fingerprint)

/-- The history tells which gate it is, and no capture is due. -/
def Calm (w : ChatWorld F) : Prop :=
  ∃ u, w.history = h₀ ++ u ∧ NotLast Primes u ∧ GateAt g₀ fingerprint (Spoiled u) w.self.gate

/-- The same right behind an event that primes. -/
def Primed (e : ChatEvent F) (w : ChatWorld F) : Prop :=
  ∃ b, w.history = h₀ ++ (b ++ [e]) ∧ GateAt g₀ fingerprint (Spoiled (b ++ [e])) w.self.gate

/-- Behind a capture that spoils, and before the assignment. -/
def Due (w : ChatWorld F) : Prop :=
  ∃ u spoiled, w.history = h₀ ++ u ∧ NotLast Primes u ∧ Spoiled u ∧
    GateAt g₀ fingerprint spoiled w.self.gate

/-- Wherever a turn is stopped: a failed gate shows in the history. -/
def Loose (w : ChatWorld F) : Prop :=
  ∃ u, w.history = h₀ ++ u ∧ (w.self.gate = g₀ ∨
    ∃ spoiled, (spoiled → Spoiled u) ∧ GateAt g₀ fingerprint spoiled w.self.gate)

/-- What a handler finds: an exception is raised in a calm turn only. -/
def Raised (exc : PyExc) (w : ChatWorld F) : Prop :=
  (exc.isException = true → Calm fingerprint h₀ g₀ w) ∧ Loose fingerprint h₀ g₀ w

end Conditions

theorem Calm.loose {w : ChatWorld F} (h : Calm fingerprint h₀ g₀ w) :
    Loose fingerprint h₀ g₀ w := by
  obtain ⟨u, hhistory, -, hgate⟩ := h
  exact ⟨u, hhistory, Or.inr ⟨_, id, hgate⟩⟩

theorem Primed.loose {e : ChatEvent F} {w : ChatWorld F} (h : Primed fingerprint h₀ g₀ e w) :
    Loose fingerprint h₀ g₀ w := by
  obtain ⟨b, hhistory, hgate⟩ := h
  exact ⟨b ++ [e], hhistory, Or.inr ⟨_, id, hgate⟩⟩

theorem Due.loose {w : ChatWorld F} (h : Due fingerprint h₀ g₀ w) :
    Loose fingerprint h₀ g₀ w := by
  obtain ⟨u, spoiled, hhistory, -, hspoiled, hgate⟩ := h
  exact ⟨u, hhistory, Or.inr ⟨spoiled, fun _ => hspoiled, hgate⟩⟩

theorem Calm.raised {exc : PyExc} {w : ChatWorld F} (h : Calm fingerprint h₀ g₀ w) :
    Raised fingerprint h₀ g₀ exc w := ⟨fun _ => h, h.loose⟩

theorem Loose.raised {exc : PyExc} {w : ChatWorld F} (h : Loose fingerprint h₀ g₀ w)
    (hexc : exc.isException = false) : Raised fingerprint h₀ g₀ exc w := by
  refine ⟨fun hcaught => ?_, h⟩
  rw [hexc] at hcaught
  cases hcaught

theorem Calm.called {w : ChatWorld F} (h : Calm fingerprint h₀ g₀ w) {e : ChatEvent F}
    (he : ¬ Primes e) : Calm fingerprint h₀ g₀ (w.called e) := by
  obtain ⟨u, hhistory, hlast, hgate⟩ := h
  refine ⟨u ++ [e], ?_, NotLast.concat u he, hgate.congr hlast.spoiled_concat⟩
  rw [ObjWorld.called_history, hhistory, List.append_assoc]

theorem Calm.modified {w : ChatWorld F} (h : Calm fingerprint h₀ g₀ w) {f : Chat F → Chat F}
    (hf : ∀ s, (f s).gate = s.gate ∨ (f s).gate = s.gate.sync fingerprint) :
    Calm fingerprint h₀ g₀ (w.modified f) := by
  obtain ⟨u, hhistory, hlast, hgate⟩ := h
  refine ⟨u, hhistory, hlast, ?_⟩
  rw [ObjWorld.modified_self]
  rcases hf w.self with hsame | hsync
  · rwa [hsame]
  · rw [hsync]
    exact hgate.sync

theorem not_primes_keepsBooks {o : ChatOp F} (ho : o.KeepsBooks) (r : Except PyExc o.Res) :
    ¬ Primes (⟨o, r⟩ : ChatEvent F) := by
  rintro (⟨name, args, result, he, -⟩ | ⟨messages, reply, he, -⟩)
  · cases he
    exact ho
  · cases he
    exact ho

theorem not_primes_capture (ignored : List String)
    (c : Except PyExc (ChatOp.executor (F := F) (.captureWorkspaceFingerprint ignored)).Res) :
    ¬ Primes (⟨.executor (.captureWorkspaceFingerprint ignored), c⟩ : ChatEvent F) := by
  rintro (⟨name, args, result, he, -⟩ | ⟨messages, reply, he, -⟩) <;> cases he

theorem calm_idle : Idle (Calm (F := F) fingerprint h₀ g₀) where
  called hw ho := hw.called (not_primes_keepsBooks ho _)
  modified hw hf := hw.modified fun s => Or.inl (hf s)

theorem spoiled_called {u : List (ChatEvent F)} {o : ChatOp F} (ho : o.KeepsBooks)
    (r : Except PyExc o.Res) : Spoiled (u ++ [⟨o, r⟩]) ↔ Spoiled u := by
  rw [spoiled_concat]
  refine ⟨fun h => h.elim id ?_, Or.inl⟩
  rintro ⟨b, l, -, ignored, c, he, -⟩
  cases he
  exact ho.elim

theorem loose_idle : Idle (Loose (F := F) fingerprint h₀ g₀) where
  called {w o r} hw ho := by
    obtain ⟨u, hhistory, hgate⟩ := hw
    refine ⟨u ++ [⟨o, r⟩], by rw [ObjWorld.called_history, hhistory, List.append_assoc], ?_⟩
    rcases hgate with hsame | ⟨spoiled, hspoiled, hgate⟩
    · exact Or.inl hsame
    · exact Or.inr ⟨spoiled, fun h => (spoiled_called ho r).2 (hspoiled h), hgate⟩
  modified {w f} hw hf := by
    obtain ⟨u, hhistory, hgate⟩ := hw
    refine ⟨u, hhistory, ?_⟩
    rwa [ObjWorld.modified_self, hf]

section Steps

variable {α : Type}

/-- What keeps the turn calm may raise what it likes. -/
theorem Idle.calm {p : ChatProg F α} {Q : α → ChatWorld F → Prop}
    (h : Triple (Acts interrupts (ReadOnly access fingerprint)) (Calm fingerprint h₀ g₀) p Q
      (fun _ => Calm fingerprint h₀ g₀)) :
    Triple (Acts interrupts (ReadOnly access fingerprint)) (Calm fingerprint h₀ g₀) p Q
      (Raised fingerprint h₀ g₀) :=
  h.weaken (fun _ hw => hw) (fun _ _ hw => hw) fun _ _ hw => hw.raised

theorem calm_guarded {P : ChatWorld F → Prop} {p : ChatProg F α} {Q : α → ChatWorld F → Prop}
    (h : Triple (Acts interrupts (ReadOnly access fingerprint)) P p Q
      (Raised fingerprint h₀ g₀)) :
    Triple (Acts interrupts (ReadOnly access fingerprint)) P (Chat.guarded p)
      (Ends Q fun _ => Calm fingerprint h₀ g₀) (Raised fingerprint h₀ g₀) := by
  refine h.rescue.weaken (fun _ hw => hw) ?_ fun _ _ hw => hw.2
  intro r w hw
  cases r with
  | ok a => exact hw
  | error exc => exact hw.2.1 hw.1

theorem calm_sync {f : VerificationGate → VerificationGate} (hf : ∀ g, f g = g.sync fingerprint) :
    Triple (Acts interrupts (ReadOnly access fingerprint)) (Calm fingerprint h₀ g₀)
      (Chat.updateGate (F := F) f) (fun _ => Calm fingerprint h₀ g₀)
      (Raised fingerprint h₀ g₀) :=
  ObjProg.triple_modify (fun _ hw => hw.modified fun s => Or.inr (hf s.gate))
    fun _ _ hw _ _ => hw.raised

theorem calm_call (o : ChatOp F) (ho : ∀ r, ¬ Primes (⟨o, r⟩ : ChatEvent F)) :
    Triple (Acts interrupts (ReadOnly access fingerprint)) (Calm fingerprint h₀ g₀) (call o)
      (fun _ => Calm fingerprint h₀ g₀) (Raised fingerprint h₀ g₀) := by
  refine ObjProg.triple_call fun w r hw _ => ?_
  have hnext := hw.called (ho r)
  cases r with
  | ok a => exact hnext
  | error exc => exact hnext.raised

theorem calm_capture (ignored : List String) :
    Triple (Acts interrupts (ReadOnly access fingerprint)) (Calm fingerprint h₀ g₀)
      (Chat.captureWorkspaceFingerprint (F := F) ignored)
      (fun found w => found = fingerprint ∧ Calm fingerprint h₀ g₀ w)
      (Raised fingerprint h₀ g₀) := by
  refine ObjProg.triple_call fun w r hw hadm => ?_
  have hnext := hw.called (not_primes_capture ignored r)
  cases r with
  | ok found => exact ⟨hadm.captured ignored found rfl, hnext⟩
  | error exc => exact hnext.raised

/-- A capture that is waited for. Behind a test run it spoils the turn, and behind
anything else if it fails. -/
theorem primed_capture {e : ChatEvent F} (he : Primes e) (ignored : List String) :
    Triple (Acts interrupts (ReadOnly access fingerprint)) (Primed fingerprint h₀ g₀ e)
      (Chat.captureWorkspaceFingerprint ignored)
      (fun found w => found = fingerprint ∧
        ((∃ args result, e = ⟨.executor (.executeTool "run_tests" args), .ok result⟩) →
          Due fingerprint h₀ g₀ w) ∧
        ((∀ args result, e ≠ ⟨.executor (.executeTool "run_tests" args), .ok result⟩) →
          Calm fingerprint h₀ g₀ w))
      (fun exc w => (exc.isException = true → Due fingerprint h₀ g₀ w) ∧
        (exc.isException = false → Loose fingerprint h₀ g₀ w)) := by
  refine ObjProg.triple_call fun w c hw hadm => ?_
  obtain ⟨b, hhistory, hgate⟩ := hw
  have hnext : (w.called ⟨.executor (.captureWorkspaceFingerprint ignored), c⟩).history =
      h₀ ++ (b ++ [e] ++ [⟨.executor (.captureWorkspaceFingerprint ignored), c⟩]) := by
    rw [ObjWorld.called_history, hhistory, List.append_assoc]
  have hlast : NotLast Primes
      (b ++ [e] ++ [⟨.executor (.captureWorkspaceFingerprint ignored), c⟩]) :=
    NotLast.concat _ (not_primes_capture ignored c)
  have hspoiled : Spoils e ⟨.executor (.captureWorkspaceFingerprint ignored), c⟩ →
      Due fingerprint h₀ g₀ (w.called ⟨.executor (.captureWorkspaceFingerprint ignored), c⟩) :=
    fun h => ⟨_, _, hnext, hlast, spoiled_concat.2 (Or.inr ⟨b, e, rfl, h⟩), hgate⟩
  cases c with
  | ok found =>
      refine ⟨hadm.captured ignored found rfl, fun htest => hspoiled
        ⟨ignored, _, rfl, fun _ h => (by cases h), Or.inl htest⟩, fun htest => ?_⟩
      refine ⟨_, hnext, hlast, hgate.congr ?_⟩
      rw [spoiled_concat]
      refine ⟨fun h => h.elim id ?_, Or.inl⟩
      rintro ⟨b', l, heq, hspoils⟩
      obtain ⟨-, hl⟩ := List.append_inj' heq rfl
      rw [← List.singleton_inj.1 hl] at hspoils
      obtain ⟨ignored', c, hc, -, ⟨args, result, hrun⟩ | ⟨⟨exc, hexc⟩, -⟩⟩ := hspoils
      · exact absurd hrun (htest args result)
      · rw [hexc] at hc
        cases hc
  | error exc =>
      refine ⟨fun hexc => hspoiled ⟨ignored, _, rfl, ?_, Or.inr ⟨⟨exc, rfl⟩, he⟩⟩,
        fun _ => ⟨_, hnext, Or.inr ⟨_, fun h => spoiled_concat.2 (Or.inl h), hgate⟩⟩⟩
      intro exc' h
      cases h
      exact hexc

/-- The record of a failure. -/
theorem due_fail {f : VerificationGate → VerificationGate}
    (hrequire : ∀ g, (f g).requireVerification = g.requireVerification)
    (hbaseline : ∀ g, (f g).baselineFingerprint = g.baselineFingerprint)
    (hfailed : ∀ g, (f g).status = .failed ∧ (f g).verifiedFingerprint = "") :
    Triple (Acts interrupts (ReadOnly access fingerprint)) (Due fingerprint h₀ g₀)
      (Chat.updateGate (F := F) f) (fun _ => Calm fingerprint h₀ g₀)
      (Raised fingerprint h₀ g₀) := by
  refine ObjProg.triple_modify ?_ fun w exc hw _ hstop => hw.loose.raised hstop
  intro w hw
  obtain ⟨u, spoiled, hhistory, hlast, hspoiled, hgate⟩ := hw
  exact ⟨u, hhistory, hlast, hgate.fail hspoiled (hrequire _) (hbaseline _) (hfailed _)⟩

theorem due_captureFailed : Triple (Acts interrupts (ReadOnly access fingerprint))
    (Due fingerprint h₀ g₀) (Chat.updateGate (F := F) VerificationGate.captureFailed)
    (fun _ => Calm fingerprint h₀ g₀) (Raised fingerprint h₀ g₀) :=
  due_fail (fun _ => rfl) (fun _ => rfl) fun _ => ⟨rfl, rfl⟩

end Steps

/-! ## The batch -/

section Batch

variable (hask : access.askMode = true)

theorem mem_potentiallyMutatingTools {name : String} (h : name ∈ potentiallyMutatingTools) :
    name ∉ readOnlyChatTools := by
  revert name
  decide

include hask

/-- Every other tool is refused, as a call that failed. -/
theorem refusal_some (name : String) (hname : name ∉ readOnlyChatTools) :
    ∃ result : ToolResult F, access.refusal name = some result ∧ result.returncode = -1 ∧
      result.submitted = false := by
  unfold ChatAccessController.refusal
  split
  · exact ⟨_, rfl, rfl, rfl⟩
  · rw [if_pos ⟨hask, hname⟩]
    exact ⟨_, rfl, rfl, rfl⟩

/-- A refused call, up to its result. -/
theorem primed_runTool (ignored : List String) {call : NormalizedCall F}
    (hname : call.name ∈ potentiallyMutatingTools) :
    Triple (Acts interrupts (ReadOnly access fingerprint)) (Calm fingerprint h₀ g₀)
      (Chat.runTool ignored call)
      (fun result w => (result.returncode ≠ 0) ∧ ∃ args answer, Primed fingerprint h₀ g₀
        ⟨.executor (.executeTool call.name args), .ok answer⟩ w)
      (Raised fingerprint h₀ g₀) := by
  obtain ⟨result, hrefusal, hcode, hsubmitted⟩ :=
    refusal_some (F := F) hask call.name (mem_potentiallyMutatingTools hname)
  have hcall : ∀ args, Triple (Acts interrupts (ReadOnly access fingerprint))
      (Calm fingerprint h₀ g₀) (Chat.executeTool call.name args)
      (fun answer w => answer = result ∧ Primed fingerprint h₀ g₀
        ⟨.executor (.executeTool call.name args), .ok answer⟩ w)
      (fun exc w => exc.isException = false ∧ Loose fingerprint h₀ g₀ w) := by
    intro args
    refine ObjProg.triple_call fun w r hw hadm => ?_
    obtain ⟨u, hhistory, hlast, hgate⟩ := hw
    have hnext : (w.called ⟨.executor (.executeTool call.name args), r⟩).history =
        h₀ ++ (u ++ [⟨.executor (.executeTool call.name args), r⟩]) := by
      rw [ObjWorld.called_history, hhistory, List.append_assoc]
    rcases hadm.refused call.name args r result rfl hrefusal with rfl | ⟨exc, rfl, hexc⟩
    · exact ⟨rfl, u, hnext, hgate.congr hlast.spoiled_concat⟩
    · exact ⟨hexc, _, hnext, Or.inr ⟨_, fun h => spoiled_concat.2 (Or.inl h), hgate⟩⟩
  refine Triple.bind ((hcall _).rescue.weaken (fun _ hw => hw) (fun _ _ hw => hw)
    fun _ _ hw => hw.2.2.raised hw.2.1) fun r => ?_
  cases r with
  | ok answer =>
      refine triple_pure fun w hw => ⟨?_, _, _, hw.2⟩
      rw [hw.1, refuseLegacySubmission, if_neg (by simp [hsubmitted]), hcode]
      decide
  | error exc =>
      refine triple_pure fun w hw => ?_
      have hexc := hw.1.symm.trans hw.2.1
      cases hexc

omit hask in
/-- A call that fails or cannot change anything has no record and requires nothing. -/
theorem nothing_changed (call : NormalizedCall F) (result : ToolResult F)
    (h : result.returncode ≠ 0 ∨ call.name ∉ potentiallyMutatingTools) :
    Chat.recordEdit (some Chat.recordUndo) call result = .done (.ok result) ∧
      Chat.requireAfterMutation call.name result = .done (.ok ()) := by
  have hedit : ¬ (result.returncode = 0 ∧ call.name ∈ structuredEditTools) := fun hedited =>
    h.elim (fun hcode => hcode hedited.1) fun hname => hname (List.mem_append_left _ hedited.2)
  have hrequire : ¬ (call.name ∈ potentiallyMutatingTools ∧ result.returncode = 0 ∧
      result.approved ∧ result.exceptionInfo ≠ "ReadOnlyChatMode") := fun hmutated =>
    h.elim (fun hcode => hcode hmutated.2.1) fun hname => hname hmutated.1
  refine ⟨?_, ?_⟩
  · rw [Chat.recordEdit, if_neg hedit]
    rfl
  · rw [Chat.requireAfterMutation, if_neg hrequire]
    rfl

omit hask in
theorem calm_settleCall {name : String} (htest : name ≠ "run_tests") (result : ToolResult F) :
    Triple (Acts interrupts (ReadOnly access fingerprint)) (Calm fingerprint h₀ g₀)
      (Chat.settleCall name result fingerprint) (fun _ => Calm fingerprint h₀ g₀)
      (Raised fingerprint h₀ g₀) := by
  unfold Chat.settleCall
  rw [if_neg htest]
  exact (calm_sync fun _ => rfl).bind fun _ => triple_pure fun _ hw => hw

omit hask in
/-- A test run that failed is recorded as one. -/
theorem due_settleCall {name : String} (htest : name = "run_tests") {result : ToolResult F}
    (hcode : result.returncode ≠ 0) :
    Triple (Acts interrupts (ReadOnly access fingerprint)) (Due fingerprint h₀ g₀)
      (Chat.settleCall name result fingerprint) (fun _ => Calm fingerprint h₀ g₀)
      (Raised fingerprint h₀ g₀) := by
  have hflag : decide (result.returncode = 0) = false := decide_eq_false hcode
  unfold Chat.settleCall
  rw [if_pos htest, checkHandoff, if_neg fun h => hcode h.1]
  dsimp only
  rw [hflag]
  refine Triple.bind (R := fun _ => Calm fingerprint h₀ g₀) ?_ fun _ => triple_pure fun _ hw => hw
  exact due_fail (fun g => g.recordTest_requireVerification false fingerprint)
    (fun g => g.recordTest_baselineFingerprint false fingerprint) fun _ => ⟨rfl, rfl⟩

theorem calm_refusedCall (ignored : List String) {call : NormalizedCall F}
    (hname : call.name ∈ potentiallyMutatingTools) :
    Triple (Acts interrupts (ReadOnly access fingerprint)) (Calm fingerprint h₀ g₀)
      (Chat.executeCall ignored (some Chat.recordUndo) call fingerprint)
      (fun x w => x.2 = fingerprint ∧ Calm fingerprint h₀ g₀ w)
      (Raised fingerprint h₀ g₀) := by
  refine (primed_runTool hask ignored hname).bind fun result => triple_imp fun hcode =>
    triple_exists fun args => triple_exists fun answer => ?_
  obtain ⟨hedit, hrequire⟩ := nothing_changed call result (Or.inl hcode)
  show Triple _ _ (Prog.bind (Chat.recordEdit (some Chat.recordUndo) call result) _) _ _
  rw [hedit, Prog.bind_ok]
  show Triple _ _ (Prog.bind (Chat.requireAfterMutation call.name result) _) _ _
  rw [hrequire, Prog.bind_ok, if_pos hname]
  have hprimes : Primes (⟨.executor (.executeTool call.name args), .ok answer⟩ : ChatEvent F) :=
    Or.inl ⟨_, _, _, rfl, hname⟩
  refine Triple.bind ((primed_capture hprimes ignored).rescue.weaken (fun _ hw => hw)
    (fun _ _ hw => hw) fun _ _ hw => ?_) fun c => ?_
  · have hexc := Bool.eq_false_of_not_eq_true hw.1
    exact (hw.2.2 hexc).raised hexc
  cases c with
  | ok found =>
      refine triple_imp fun hfound => ?_
      rw [hfound]
      by_cases htest : call.name = "run_tests"
      · refine Triple.bind ((due_settleCall htest hcode).weaken
          (fun _ hw => hw.1 ⟨args, answer, by rw [htest]⟩) (fun _ _ hw => hw)
          fun _ _ hw => hw) fun _ => triple_pure fun _ hw => ⟨rfl, hw⟩
      · refine Triple.bind ((calm_settleCall htest result).weaken (fun _ hw => hw.2 ?_)
          (fun _ _ hw => hw) fun _ _ hw => hw) fun _ => triple_pure fun _ hw => ⟨rfl, hw⟩
        intro args' answer' h
        injection h with hop
        injection hop with hop
        injection hop with hrun
        exact htest hrun
  | error exc =>
      exact Triple.bind (due_captureFailed.weaken (fun _ hw => hw.2.1 hw.1)
        (fun _ _ hw => hw) fun _ _ hw => hw) fun _ => triple_pure fun _ hw => ⟨rfl, hw⟩

omit hask in
theorem calm_allowedCall (ignored : List String) {call : NormalizedCall F}
    (hname : call.name ∉ potentiallyMutatingTools) :
    Triple (Acts interrupts (ReadOnly access fingerprint)) (Calm fingerprint h₀ g₀)
      (Chat.executeCall ignored (some Chat.recordUndo) call fingerprint)
      (fun x w => x.2 = fingerprint ∧ Calm fingerprint h₀ g₀ w)
      (Raised fingerprint h₀ g₀) := by
  have htest : call.name ≠ "run_tests" := by
    intro h
    rw [h] at hname
    exact hname (by decide)
  have hcall : ∀ args, Triple (Acts interrupts (ReadOnly access fingerprint))
      (Calm fingerprint h₀ g₀) (Chat.executeTool call.name args)
      (fun _ => Calm fingerprint h₀ g₀) (Raised fingerprint h₀ g₀) := by
    refine fun args => calm_call _ fun r => ?_
    rintro (⟨name, args', result, he, hmem⟩ | ⟨messages, reply, he, -⟩)
    · cases he
      exact hname hmem
    · cases he
  have hrun : Triple (Acts interrupts (ReadOnly access fingerprint)) (Calm fingerprint h₀ g₀)
      (Chat.runTool ignored call) (fun _ => Calm fingerprint h₀ g₀)
      (Raised fingerprint h₀ g₀) := by
    refine (calm_guarded (hcall _)).bind fun r => ?_
    cases r <;> exact triple_pure fun _ hw => hw
  refine hrun.bind fun result => ?_
  obtain ⟨hedit, hrequire⟩ := nothing_changed call result (Or.inr hname)
  show Triple _ _ (Prog.bind (Chat.recordEdit (some Chat.recordUndo) call result) _) _ _
  rw [hedit, Prog.bind_ok]
  show Triple _ _ (Prog.bind (Chat.requireAfterMutation call.name result) _) _ _
  rw [hrequire, Prog.bind_ok, if_neg hname]
  exact (calm_settleCall htest result).bind fun _ => triple_pure fun _ hw => ⟨rfl, hw⟩

theorem calm_executeCalls (ignored : List String) (initialCaptureError : String)
    (calls : List (NormalizedCall F)) {found : String}
    (hfound : initialCaptureError = "" → found = fingerprint) :
    Triple (Acts interrupts (ReadOnly access fingerprint)) (Calm fingerprint h₀ g₀)
      (Chat.executeCalls ignored (some Chat.recordUndo) initialCaptureError calls found)
      (fun _ => Calm fingerprint h₀ g₀) (Raised fingerprint h₀ g₀) := by
  induction calls generalizing found with
  | nil => exact triple_pure fun _ hw => hw
  | cons call calls ih =>
      rw [Chat.executeCalls]
      split
      · exact (ih hfound).bind fun _ => triple_pure fun _ hw => hw
      · split
        · exact (ih hfound).bind fun _ => triple_pure fun _ hw => hw
        · next hcaptured =>
            have hcall : Triple (Acts interrupts (ReadOnly access fingerprint))
                (Calm fingerprint h₀ g₀)
                (Chat.executeCall ignored (some Chat.recordUndo) call fingerprint)
                (fun x w => x.2 = fingerprint ∧ Calm fingerprint h₀ g₀ w)
                (Raised fingerprint h₀ g₀) := by
              by_cases hname : call.name ∈ potentiallyMutatingTools
              · exact calm_refusedCall hask ignored hname
              · exact calm_allowedCall ignored hname
            rw [hfound (not_not.1 hcaptured)]
            refine hcall.bind fun x => triple_imp fun hx => ?_
            exact (ih fun _ => hx).bind fun _ => triple_pure fun _ hw => hw

omit hask in
/-- The start of a batch: it goes on with the one fingerprint, or with an error. -/
theorem primed_initialCapture {e : ChatEvent F} (he : Primes e)
    (htest : ∀ args result, e ≠ ⟨.executor (.executeTool "run_tests" args), .ok result⟩)
    (ignored : List String) :
    Triple (Acts interrupts (ReadOnly access fingerprint)) (Primed fingerprint h₀ g₀ e)
      (Chat.initialCapture ignored)
      (fun x w => (x.1 = "" → x.2 = fingerprint) ∧ Calm fingerprint h₀ g₀ w)
      (Raised fingerprint h₀ g₀) := by
  have hinner : Triple (Acts interrupts (ReadOnly access fingerprint))
      (Primed fingerprint h₀ g₀ e)
      (Prog.bind (Chat.captureWorkspaceFingerprint ignored) fun found =>
        Prog.bind (Chat.updateGate (F := F) (·.sync found)) fun _ => .done (.ok found))
      (fun found w => found = fingerprint ∧ Calm fingerprint h₀ g₀ w)
      (fun exc w => (exc.isException = true → Due fingerprint h₀ g₀ w) ∧
        (exc.isException = false → Loose fingerprint h₀ g₀ w)) := by
    refine (primed_capture he ignored).bind fun found => triple_imp fun hfound => ?_
    rw [hfound]
    refine Triple.bind (R := fun _ => Calm fingerprint h₀ g₀) ?_ fun _ =>
      triple_pure fun _ hw => ⟨rfl, hw⟩
    refine ObjProg.triple_modify (fun _ hw => (hw.2 htest).modified fun _ => Or.inr rfl) ?_
    intro w exc hw _ hstop
    refine ⟨fun hcaught => ?_, fun _ => (hw.2 htest).loose⟩
    rw [hstop] at hcaught
    cases hcaught
  refine Triple.bind (hinner.rescue.weaken (fun _ hw => hw) (fun _ _ hw => hw)
    fun _ _ hw => ?_) fun r => ?_
  · have hexc := Bool.eq_false_of_not_eq_true hw.1
    exact (hw.2.2 hexc).raised hexc
  cases r with
  | ok found => exact triple_pure fun _ hw => ⟨fun _ => hw.1, hw.2⟩
  | error exc =>
      have hdescribe : exc.describe ≠ "" := by
        intro h
        have hlength := congrArg String.length h
        simp [PyExc.describe] at hlength
      refine Triple.bind (R := fun _ => Due fingerprint h₀ g₀) ?_ fun s => ?_
      · exact ObjProg.triple_self fun _ hw => hw.2.1 hw.1
      · exact due_captureFailed.bind fun _ => triple_pure fun _ hw =>
          ⟨fun h => absurd h hdescribe, hw⟩

omit hask in
theorem calm_decideSubmission (ignored : List String) (calls : List (NormalizedCall F)) :
    Triple (Acts interrupts (ReadOnly access fingerprint)) (Calm fingerprint h₀ g₀)
      (Chat.decideSubmission ignored calls) (fun _ => Calm fingerprint h₀ g₀)
      (Raised fingerprint h₀ g₀) := by
  unfold Chat.decideSubmission
  split
  · have hinner : Triple (Acts interrupts (ReadOnly access fingerprint))
        (Calm fingerprint h₀ g₀)
        (Prog.bind (Chat.captureWorkspaceFingerprint ignored) fun found =>
          Prog.bind self fun s => Prog.bind (Chat.updateGate (F := F) fun g =>
            (g.submissionError found).2) fun _ => .done (.ok (s.gate.submissionError found).1))
        (fun _ => Calm fingerprint h₀ g₀) (Raised fingerprint h₀ g₀) := by
      refine (calm_capture ignored).bind fun found => triple_imp fun hfound => ?_
      rw [hfound]
      refine Idle.read fun s => ?_
      exact (calm_sync fun g => g.submissionError_snd fingerprint).bind fun _ =>
        triple_pure fun _ hw => hw
    refine (calm_guarded hinner).bind fun r => ?_
    cases r <;> exact triple_pure fun _ hw => hw
  · exact triple_pure fun _ hw => hw

/-- Submissions are refused too. -/
theorem calm_executeSubmits (submissionError : Option (String × String))
    {calls : List (NormalizedCall F)} {results : List (Option (ToolResult F))}
    (h : LoopResults calls results) :
    Triple (Acts interrupts (ReadOnly access fingerprint)) (Calm fingerprint h₀ g₀)
      (Chat.executeSubmits submissionError calls results)
      (fun executed w => (∀ c ∈ executed, c.result.submitted = false) ∧
        Calm fingerprint h₀ g₀ w) (Raised fingerprint h₀ g₀) := by
  obtain ⟨refused, hrefusal, -, hsubmitted⟩ :=
    refusal_some (F := F) hask "submit" (by decide)
  have hsubmit : ∀ args, Triple (Acts interrupts (ReadOnly access fingerprint))
      (Calm fingerprint h₀ g₀) (Chat.executeSubmit submissionError args)
      (fun result w => result.submitted = false ∧ Calm fingerprint h₀ g₀ w)
      (Raised fingerprint h₀ g₀) := by
    intro args
    cases submissionError with
    | some error => exact triple_pure fun _ hw => ⟨rfl, hw⟩
    | none =>
        have hcall : Triple (Acts interrupts (ReadOnly access fingerprint))
            (Calm fingerprint h₀ g₀) (Chat.executeTool "submit" (.given args))
            (fun answer w => answer.submitted = false ∧ Calm fingerprint h₀ g₀ w)
            (Raised fingerprint h₀ g₀) := by
          refine ObjProg.triple_call fun w r hw hadm => ?_
          have hnext := hw.called (e := ⟨.executor (.executeTool "submit" (.given args)), r⟩) (by
            rintro (⟨name, args', result, he, hmem⟩ | ⟨messages, reply, he, -⟩)
            · cases he
              revert hmem
              decide
            · cases he)
          rcases hadm.refused "submit" _ r refused rfl hrefusal with rfl | ⟨exc, rfl, hexc⟩
          · exact ⟨hsubmitted, hnext⟩
          · exact hnext.raised
        refine (calm_guarded hcall).bind fun r => ?_
        cases r with
        | ok answer => exact triple_pure fun _ hw => hw
        | error exc => exact triple_pure fun _ hw => ⟨rfl, hw⟩
  have hcons : ∀ {call : NormalizedCall F} {result : ToolResult F}
      {executed : List (ExecutedToolCall F)}, result.submitted = false →
      (∀ c ∈ executed, c.result.submitted = false) →
      ∀ c ∈ (⟨call.name, call.args, call.toolCallId, result⟩ : ExecutedToolCall F) :: executed,
        c.result.submitted = false := by
    intro call result executed hresult hexecuted c hc
    rcases List.mem_cons.1 hc with rfl | hc
    · exact hresult
    · exact hexecuted c hc
  induction h with
  | nil => exact triple_pure fun _ hw => ⟨fun c hc => absurd hc List.not_mem_nil, hw⟩
  | @submission call calls results _ _ ih =>
      refine (hsubmit call.args).bind fun result => triple_imp fun hresult => ?_
      exact ih.bind fun executed => triple_pure fun _ hw => ⟨hcons hresult hw.1, hw.2⟩
  | result hsub _ ih =>
      exact ih.bind fun executed => triple_pure fun _ hw => ⟨hcons hsub hw.1, hw.2⟩

/-- No batch of a read-only turn is accepted. -/
theorem primed_executeToolBatch {e : ChatEvent F} (he : Primes e)
    (htest : ∀ args result, e ≠ ⟨.executor (.executeTool "run_tests" args), .ok result⟩)
    (ignored : List String) (toolCalls : List (ToolCall F)) :
    Triple (Acts interrupts (ReadOnly access fingerprint)) (Primed fingerprint h₀ g₀ e)
      (Chat.executeToolBatch ignored (some Chat.recordUndo) toolCalls)
      (fun batch w => batch.submitted = false ∧ Calm fingerprint h₀ g₀ w)
      (Raised fingerprint h₀ g₀) := by
  refine (primed_initialCapture he htest ignored).bind fun x => triple_imp fun hx => ?_
  refine ((yields_executeCalls ignored x.1 _ x.2).triple
    (calm_executeCalls hask ignored x.1 _ hx)).bind fun results => triple_imp fun hresults => ?_
  refine (calm_decideSubmission ignored _).bind fun submissionError => ?_
  refine (calm_executeSubmits hask submissionError hresults).bind fun executed => ?_
  refine triple_pure fun w hw => ⟨?_, hw.2⟩
  by_contra hsubmitted
  obtain ⟨c, hc, hresult⟩ := batchOutcome_submitted (Bool.eq_true_of_not_eq_false hsubmitted)
  rw [hw.1 c hc] at hresult
  cases hresult

end Batch

/-! ## The turn -/

section Turn

theorem primed_modify {e : ChatEvent F} {f : Chat F → Chat F} (hf : ∀ s, (f s).gate = s.gate) :
    Triple (Acts interrupts (ReadOnly access fingerprint)) (Primed fingerprint h₀ g₀ e)
      (modify f) (fun _ => Primed fingerprint h₀ g₀ e) (Raised fingerprint h₀ g₀) := by
  refine ObjProg.triple_modify ?_ fun w exc hw _ hstop => hw.loose.raised hstop
  intro w hw
  obtain ⟨b, hhistory, hgate⟩ := hw
  refine ⟨b, hhistory, ?_⟩
  rwa [ObjWorld.modified_self, hf]

/-- A reply primes if it asks for tools. -/
theorem calm_invokeModel (messages : List (BaseMessage F)) :
    Triple (Acts interrupts (ReadOnly access fingerprint)) (Calm fingerprint h₀ g₀)
      (Chat.invokeModel messages)
      (fun reply w => (reply.toolCalls = [] ∧ Calm fingerprint h₀ g₀ w) ∨
        (reply.toolCalls ≠ [] ∧ Primed fingerprint h₀ g₀ ⟨.invokeModel messages, .ok reply⟩ w))
      (Raised fingerprint h₀ g₀) := by
  refine ObjProg.triple_call fun w r hw _ => ?_
  cases r with
  | ok reply =>
      by_cases hcalls : reply.toolCalls = []
      · refine Or.inl ⟨hcalls, hw.called ?_⟩
        rintro (⟨name, args, result, he, -⟩ | ⟨messages', reply', he, hne⟩)
        · cases he
        · cases he
          exact hne hcalls
      · obtain ⟨u, hhistory, hlast, hgate⟩ := hw
        refine Or.inr ⟨hcalls, u, ?_, hgate.congr hlast.spoiled_concat⟩
        rw [ObjWorld.called_history, hhistory, List.append_assoc]
        rfl
  | error exc =>
      refine (hw.called ?_).raised
      rintro (⟨name, args, result, he, -⟩ | ⟨messages', reply', he, -⟩) <;> cases he

variable [Json.PyFloat F] {env : ChatEnv F}

theorem replyMessage_toolCalls_nil {reply : AIMessage F} :
    (Chat.replyMessage env.repr reply).toolCalls = [] ↔ reply.toolCalls = [] := by
  unfold Chat.replyMessage
  split
  · rfl
  · simp [maxToolCallsPerMessage]

theorem calm_answer (codingMode : Bool) (step : Nat) (finalText : String) :
    Triple (Acts interrupts (ReadOnly access fingerprint)) (Calm fingerprint h₀ g₀)
      (Chat.answer env codingMode step finalText) (fun _ => Calm fingerprint h₀ g₀)
      (Raised fingerprint h₀ g₀) := by
  refine (calm_capture env.ignored).bind fun current => triple_imp fun hcurrent => ?_
  rw [hcurrent]
  refine (calm_sync fun _ => rfl).bind fun _ => Idle.read fun s => ?_
  split
  · refine (Idle.calm (calm_idle.appendMessage _)).bind fun _ => ?_
    refine (Idle.calm (calm_idle.appendEvent _)).bind fun _ => ?_
    exact (Idle.calm (calm_idle.save _)).bind fun _ => triple_pure fun _ hw => hw
  · exact (Idle.calm (calm_idle.finish _ _)).bind fun _ => triple_pure fun _ hw => hw.2

variable (hask : access.askMode = true)

include hask

theorem primed_runCalls {messages : List (BaseMessage F)} {reply : AIMessage F}
    (hcalls : reply.toolCalls ≠ []) (step : Nat) (finalText : String)
    (calls : List (Dict (Json F))) :
    Triple (Acts interrupts (ReadOnly access fingerprint))
      (Primed fingerprint h₀ g₀ ⟨.invokeModel messages, .ok reply⟩)
      (Chat.runCalls env step finalText calls) (fun _ => Calm fingerprint h₀ g₀)
      (Raised fingerprint h₀ g₀) := by
  have hprimes : Primes (⟨.invokeModel messages, .ok reply⟩ : ChatEvent F) :=
    Or.inr ⟨messages, reply, rfl, hcalls⟩
  refine (primed_executeToolBatch hask hprimes (fun _ _ h => by cases h) env.ignored _).bind
    fun batch => triple_imp fun hsubmitted => ?_
  refine (Idle.calm (calm_idle.recordCalls step batch.calls)).bind fun _ => ?_
  refine (Idle.calm calm_idle.compact).bind fun _ => ?_
  refine (Idle.calm (calm_idle.save _)).bind fun _ => ?_
  rw [if_neg (by simp [hsubmitted])]
  exact triple_pure fun _ hw => hw

theorem calm_respondStep (codingMode : Bool) (step : Nat) (finalText : String) :
    Triple (Acts interrupts (ReadOnly access fingerprint)) (Calm fingerprint h₀ g₀)
      (Chat.respondStep env codingMode step finalText) (fun _ => Calm fingerprint h₀ g₀)
      (Raised fingerprint h₀ g₀) := by
  refine Triple.bind (R := fun _ => Calm fingerprint h₀ g₀)
    (Idle.calm (calm_idle.modify fun _ => rfl)) fun _ => Idle.read fun s => ?_
  refine (Idle.calm Idle.lift).bind fun messages => ?_
  refine (calm_invokeModel messages).bind fun reply => triple_or ?_ ?_
  · refine triple_imp fun hcalls => ?_
    refine (Idle.calm (calm_idle.appendMessage _)).bind fun _ => ?_
    refine (Idle.calm (calm_idle.appendEvent _)).bind fun _ => ?_
    rw [if_pos (by rw [replyMessage_toolCalls_nil.2 hcalls]; rfl)]
    exact calm_answer _ _ _
  · refine triple_imp fun hcalls => ?_
    have hnonempty : (Chat.replyMessage env.repr reply).toolCalls ≠ [] := fun h =>
      hcalls (replyMessage_toolCalls_nil.1 h)
    refine Triple.bind (R := fun _ => Primed fingerprint h₀ g₀ ⟨.invokeModel messages, .ok reply⟩)
      (primed_modify fun _ => rfl) fun _ => ?_
    refine Triple.bind (R := fun _ => Primed fingerprint h₀ g₀ ⟨.invokeModel messages, .ok reply⟩)
      (primed_modify fun _ => rfl) fun _ => ?_
    rw [if_neg (by simpa using hnonempty)]
    exact primed_runCalls hask hcalls _ _ _

theorem calm_respondSteps (codingMode : Bool) (n step : Nat) (finalText : String) :
    Triple (Acts interrupts (ReadOnly access fingerprint)) (Calm fingerprint h₀ g₀)
      (Chat.respondSteps env codingMode n step finalText) (fun _ => Calm fingerprint h₀ g₀)
      (Raised fingerprint h₀ g₀) := by
  induction n generalizing step finalText with
  | zero =>
      exact (Idle.calm calm_idle.stepLimit).weaken (fun _ hw => hw) (fun _ _ hw => hw.2)
        fun _ _ hw => hw
  | succ n ih =>
      refine (calm_respondStep hask codingMode step finalText).bind fun stepEnd => ?_
      cases stepEnd with
      | goOn finalText => exact ih (step + 1) finalText
      | returned result => exact triple_pure fun _ hw => hw

omit hask in
theorem calm_turnStopped (exc : PyExc) :
    Triple (Acts interrupts (ReadOnly access fingerprint)) (Raised fingerprint h₀ g₀ exc)
      (Chat.turnStopped env exc) (fun _ => Calm fingerprint h₀ g₀)
      (fun _ => Loose fingerprint h₀ g₀) := by
  by_cases hexc : exc.isException = true
  · exact (calm_idle.turnStopped exc).weaken (fun _ hw => hw.1 hexc) (fun _ _ hw => hw.2)
      fun _ _ hw => hw.loose
  · -- the turn does not return
    unfold Chat.turnStopped
    rw [if_neg hexc]
    split
    · refine Triple.bind ((loose_idle.appendEvent _).weaken (fun _ hw => hw.2) (fun _ _ hw => hw)
        fun _ _ hw => hw) fun _ => ?_
      exact (loose_idle.save _).bind fun _ => triple_throw fun _ hw => hw
    · exact triple_throw fun _ hw => hw.2

theorem calm_respondTurn (userText : String) (codingMode : Bool) :
    Triple (Acts interrupts (ReadOnly access fingerprint))
      (fun w => w.history = h₀ ∧ w.self.gate = g₀)
      (Chat.respondTurn env userText codingMode) (fun _ => Calm fingerprint h₀ g₀)
      (fun _ => Loose fingerprint h₀ g₀) := by
  have hcapture : Triple (Acts interrupts (ReadOnly access fingerprint))
      (fun w => w.history = h₀ ∧ w.self.gate = g₀)
      (Chat.captureWorkspaceFingerprint (F := F) env.ignored)
      (fun found w => found = fingerprint ∧ (∃ c : ChatEvent F, w.history = h₀ ++ [c] ∧
        ¬ Primes c) ∧ w.self.gate = g₀) (fun _ => Loose fingerprint h₀ g₀) := by
    refine ObjProg.triple_call fun w r hw hadm => ?_
    have hnext : (w.called ⟨.executor (.captureWorkspaceFingerprint env.ignored), r⟩).history =
        h₀ ++ [⟨.executor (.captureWorkspaceFingerprint env.ignored), r⟩] := by
      rw [ObjWorld.called_history, hw.1]
    cases r with
    | ok found =>
        exact ⟨hadm.captured env.ignored found rfl, ⟨_, hnext, not_primes_capture _ _⟩, hw.2⟩
    | error exc => exact ⟨_, hnext, Or.inl hw.2⟩
  refine hcapture.bind fun current => triple_imp fun hcurrent => ?_
  rw [hcurrent]
  refine Triple.bind (R := fun _ => Calm fingerprint h₀ g₀) ?_ fun _ => ?_
  · refine ObjProg.triple_modify ?_ ?_
    · intro w hw
      obtain ⟨⟨c, hhistory, hprimes⟩, hgate⟩ := hw
      refine ⟨[c], hhistory, NotLast.concat [] hprimes, ?_⟩
      rw [ObjWorld.modified_self, hgate]
      refine gateAt_sync.congr ⟨?_, False.elim⟩
      intro hspoiled
      rcases (spoiled_concat (u := [])).1 hspoiled with h | ⟨b, l, h, -⟩
      · exact not_spoiled_nil h
      · simp at h
    · intro w exc hw _ _
      obtain ⟨⟨c, hhistory, -⟩, hgate⟩ := hw
      exact ⟨[c], hhistory, Or.inl hgate⟩
  have hbooks : ∀ {α : Type} {p : ChatProg F α},
      Triple (Acts interrupts (ReadOnly access fingerprint)) (Calm fingerprint h₀ g₀) p
        (fun _ => Calm fingerprint h₀ g₀) (fun _ => Calm fingerprint h₀ g₀) →
      Triple (Acts interrupts (ReadOnly access fingerprint)) (Calm fingerprint h₀ g₀) p
        (fun _ => Calm fingerprint h₀ g₀) (fun _ => Loose fingerprint h₀ g₀) :=
    fun h => h.weaken (fun _ hw => hw) (fun _ _ hw => hw) fun _ _ hw => hw.loose
  refine (hbooks (calm_idle.appendMessage _)).bind fun _ => ?_
  refine Triple.bind (R := fun _ => Calm fingerprint h₀ g₀)
    (hbooks (calm_idle.modify fun _ => rfl)) fun _ => ?_
  exact (calm_respondSteps hask codingMode _ _ _).catchWith calm_turnStopped

/-- A read-only turn leaves the gate's verification alone if it is neutral for it,
and where it returns only then. What may be submitted later is then the same too. -/
theorem readOnlyTurn_verificationKept {w w' : ChatWorld F} {r : Except PyExc TurnResult}
    {userText : String} {codingMode : Bool}
    (hturn : Run (Acts interrupts (ReadOnly access fingerprint))
      (Chat.respondTurn env userText codingMode) w r w') :
    ∃ u, w'.history = w.history ++ u ∧
      (Neutral w.self.gate fingerprint u → VerificationKept w.self.gate w'.self.gate ∧
        ∀ later, (w'.self.gate.submissionError later).1 =
          (w.self.gate.submissionError later).1) ∧
      ∀ turn, r = .ok turn → VerificationKept w.self.gate w'.self.gate →
        Neutral w.self.gate fingerprint u := by
  have hend : Ends (fun _ => Calm fingerprint w.history w.self.gate)
      (fun _ => Loose fingerprint w.history w.self.gate) r w' :=
    calm_respondTurn hask userText codingMode w r w' ⟨rfl, rfl⟩ hturn
  have hloose : Loose fingerprint w.history w.self.gate w' := by
    cases r with
    | ok turn => exact Calm.loose hend
    | error exc => exact hend
  have hkept : ∀ {u : List (ChatEvent F)}, Neutral w.self.gate fingerprint u → (w'.self.gate = w.self.gate ∨
      ∃ spoiled, (spoiled → Spoiled u) ∧ GateAt w.self.gate fingerprint spoiled w'.self.gate) →
      VerificationKept w.self.gate w'.self.gate ∧ ∀ later,
        (w'.self.gate.submissionError later).1 = (w.self.gate.submissionError later).1 := by
    intro u hneutral hgate
    rcases hgate with hsame | ⟨spoiled, hspoiled, hgate⟩
    · rw [hsame]
      exact ⟨⟨rfl, rfl, rfl⟩, fun _ => rfl⟩
    · have hkept := hgate.verificationKept hspoiled hneutral
      exact ⟨hkept, hkept.submissionError hgate.baselineFingerprint⟩
  cases r with
  | ok turn =>
      obtain ⟨u, hhistory, -, hgate⟩ : Calm fingerprint w.history w.self.gate w' := hend
      exact ⟨u, hhistory, fun h => hkept h (Or.inr ⟨_, id, hgate⟩), fun _ _ h => hgate.neutral h⟩
  | error exc =>
      obtain ⟨u, hhistory, hgate⟩ := hloose
      exact ⟨u, hhistory, fun h => hkept h hgate, fun _ h => by cases h⟩

end Turn

/-! ## A refused test run -/

namespace ChatSample

def askAccess : ChatAccessController := ⟨true, true⟩

/-- The controller over an unchanged workspace, and a model that calls one tool. -/
def askReply (tool : String) (_ : List (ChatEvent Unit)) : (o : ChatOp Unit) → Except PyExc o.Res
  | .executor (.captureWorkspaceFingerprint _) => .ok "f"
  | .executor (.executeTool name _) => .ok ((askAccess.refusal name).getD shown)
  | .executor (.onStructuredEdit _) => .ok ()
  | .invokeModel _ => .ok ⟨.str "", [[("name", .str tool), ("id", .str "c")]], []⟩
  | .print _ => .ok ()
  | .writeUndoJournal _ => .ok ""
  | .durationMs => .ok (0 : Int)
  | .writeJson _ => .ok ()

/-- A read-only turn behind one that passed the tests. -/
def askedTurn (tool : String) : Except PyExc TurnResult × ChatWorld Unit :=
  exec (answering (askReply tool)) (Chat.respondTurn (env 60000 true) "hi" false) tested

theorem run_askedTurn (tool : String) :
    Run (Acts interrupts (ReadOnly askAccess "f")) (Chat.respondTurn (env 60000 true) "hi" false)
      tested (askedTurn tool).1 (askedTurn tool).2 := by
  refine run_answering (askReply tool) (fun w o => ⟨?_, ?_⟩) _ _
  · rintro ignored found ⟨⟩
    rfl
  · rintro name args res result ⟨⟩ hrefusal
    refine Or.inl ?_
    show Except.ok ((askAccess.refusal name).getD shown) = _
    rw [hrefusal]
    rfl

end ChatSample

open ChatSample

theorem readOnlyTurn_verificationKept_sample :
    ∃ u, (askedTurn "read_file").2.history = tested.history ++ u ∧
      Neutral tested.self.gate "f" u := by
  obtain ⟨u, hhistory, -, hneutral⟩ :=
    readOnlyTurn_verificationKept (show askAccess.askMode = true from rfl)
      (run_askedTurn "read_file")
  obtain ⟨hreturned, hstatus, hverified, hrequire⟩ :
      (askedTurn "read_file").1.toOption.isSome = true ∧
      (askedTurn "read_file").2.self.gate.status = tested.self.gate.status ∧
      (askedTurn "read_file").2.self.gate.verifiedFingerprint =
        tested.self.gate.verifiedFingerprint ∧
      (askedTurn "read_file").2.self.gate.requireVerification =
        tested.self.gate.requireVerification := by decide +kernel
  cases hturn : (askedTurn "read_file").1 with
  | ok turn => exact ⟨u, hhistory, hneutral turn hturn ⟨hstatus, hverified, hrequire⟩⟩
  | error exc =>
      rw [hturn] at hreturned
      cases hreturned

/-- The refusal of `run_tests` is recorded, and the tests have failed. -/
theorem readOnlyTurn_fails :
    Run (Acts interrupts (ReadOnly askAccess "f"))
        (Chat.respondTurn (env 60000 true) "hi" false) tested (askedTurn "run_tests").1
        (askedTurn "run_tests").2 ∧
      tested.self.gate.status = .passed ∧ tested.self.gate.verifiedFingerprint = "f" ∧
      (askedTurn "run_tests").2.self.gate.status = .failed ∧
      (askedTurn "run_tests").2.self.gate.verifiedFingerprint = "" ∧
      ¬ VerificationKept tested.self.gate (askedTurn "run_tests").2.self.gate := by
  have hpassed : tested.self.gate.status = .passed := by decide +kernel
  obtain ⟨hfailed, hcleared⟩ : (askedTurn "run_tests").2.self.gate.status = .failed ∧
      (askedTurn "run_tests").2.self.gate.verifiedFingerprint = "" := by decide +kernel
  refine ⟨run_askedTurn _, hpassed, by decide +kernel, hfailed, hcleared, fun h => ?_⟩
  have hstatus := h.status
  rw [hpassed, hfailed] at hstatus
  cases hstatus

end MiniCodeAgent
