import MiniCodeAgent.Prog.Frame
import MiniCodeAgent.Proofs.TransactionLifecycle

/-!
# How a commit can end

A commit runs alone under the lock, any of its effects may fail, and it may be
stopped anywhere. What it can have left on the machine then is one of three
things: what was there before, or the patch landed and the manifest as it was, or
the patch landed and the manifest written. The patch has passed every check before
it lands, and the tree is what the prepare has projected before the manifest is
written. A commit that returns has come to the third.
-/

namespace MiniCodeAgent

namespace Protocol

open Prog (Run During Only)

variable {F : Type} [Json.PyFloat F] {P : Platform F} {id : String} {git : Git} {pid : Nat}

/-! ## What most of it leaves alone -/

/-- The effect has nothing to do with what outlives the process. -/
def calm (o : TxOp) : Prop := aloof o = true ∨ o = .lock ∨ o = .unlock

omit [Json.PyFloat F] in
theorem mayFail_calm {w w' : TxWorld} {e : TxEvent} (h : TxMayFail P.digests git pid w e w')
    (hcalm : calm e.op) : durable w' = durable w := by
  obtain ⟨o, r⟩ := e
  rcases h with hanswer | ⟨-, hsame⟩
  · have hw' : w' = (answer P.digests git pid o w).2 := congrArg Prod.snd hanswer
    rw [hw']
    rcases hcalm with haloof | hlock | hunlock
    · exact (answer_aloof git haloof w).2
    · obtain rfl : o = .lock := hlock
      rw [answer]
      cases hacquire : w.acquire pid with
      | none => rfl
      | some held =>
          rw [(TxWorld.acquire_eq hacquire).2]
          rfl
    · obtain rfl : o = .unlock := hunlock
      rfl
  · rw [hsame]

/-- A program that does nothing to what outlives it. -/
abbrev Calm {α : Type} (p : TxProg α) : Prop := Only calm p

omit [Json.PyFloat F] in
theorem Calm.during {α : Type} {p : TxProg α} (hp : Calm p) {w w' : TxWorld}
    (h : During (TxMayFail P.digests git pid) p w w') : durable w' = durable w :=
  Only.during (fun hS hcalm => mayFail_calm hS hcalm) hp h

section Calm

variable {manifest : Manifest F} {source : String}

end Calm

/-! ## What the rest of it does -/

section Points

variable {manifest : Manifest F} {source : String} {patch : ByteArray} {w v : TxWorld}

/-- A patch with something in it is applied to the source as it is. -/
def Applies (git : Git) (source : String) (patch : ByteArray) (d d' : Durable) : Prop :=
  (patch.size = 0 ∧ d' = d) ∨
    (patch.size ≠ 0 ∧ ∃ repo tree, d.repos source = some repo ∧
      git.apply patch repo.tree = some tree ∧ d' = d.setTree source repo patch tree)

/-- The source's content is what the prepare has projected. -/
def Projected (P : Platform F) (manifest : Manifest F) (source : String) (d : Durable) : Prop :=
  ∃ repo, d.repos source = some repo ∧ Dict.get? manifest "prepared_source_fingerprint" =
    some (.str (fingerprint F P.digests (contentSnapshot P.digests repo)))

/-- What a commit can have left. -/
inductive Outcome (P : Platform F) (id : String) (git : Git) (d : Durable) : Durable → Prop
  | untouched : Outcome P id git d d
  | landed {manifest : Manifest F} {source : String} {patch : ByteArray} {d' : Durable}
      (h : Checked P id manifest source patch d) (happlies : Applies git source patch d d') :
      Outcome P id git d d'
  | recorded {manifest : Manifest F} {source : String} {patch : ByteArray} {d' : Durable}
      (h : Checked P id manifest source patch d) (happlies : Applies git source patch d d')
      (hprojected : Projected P manifest source d') (committedAt now : Int) :
      Outcome P id git d (d'.save (committedManifest manifest committedAt) now)

end Points

/-- What a commit that returns has done. -/
structure Recorded (P : Platform F) (id : String) (git : Git) (d : Durable) (w : TxWorld)
    (result manifest : Manifest F) (source : String) (patch : ByteArray) (d' : Durable)
    (committedAt now : Int) : Prop where
  checked : Checked P id manifest source patch d
  applies : Applies git source patch d d'
  projected : Projected P manifest source d'
  left : durable w = d'.save (committedManifest manifest committedAt) now
  result : result = stamped (committedManifest manifest committedAt) now
  workspace : w.workspace = none

end Protocol

namespace Small

open Protocol

end Small

end MiniCodeAgent
