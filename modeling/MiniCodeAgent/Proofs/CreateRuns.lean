import MiniCodeAgent.Prog.AllOrNothing
import MiniCodeAgent.Proofs.CommitOutcomes

/-!
# How a create can end

A create takes no lock: the transaction it makes has no name yet that anyone else
could know. The manifest is the last file it writes, and after an exception it
removes what it has made. So wherever it is stopped there is either no manifest, or
all of the transaction: the manifest of an open one, the baseline it is going to be
compared with, and a worktree of the source's commit. The source is never touched.
-/

namespace MiniCodeAgent

open Prog

variable {F : Type} [Json.PyFloat F] {P : Platform F}

section Runs

variable {digests : Digests} {git : Git} {pid : Nat}
variable {S : TxWorld → TxEvent → TxWorld → Prop}
variable (hS : OkAnswers digests git pid S)

/-! ## The effects -/

section Effects

include hS

end Effects

/-! ## The functions -/

/-- The identity a transaction of the source gets. -/
def identityOf (P : Platform F) (w : TxWorld) (source memoryMode : String) : String :=
  if memoryMode = "local" then w.identities source else P.digests.sha256 source.toUTF8

end Runs

namespace Protocol

variable {git : Git} {pid : Nat}

/-! ## What a create that returns has made -/

/-- The transaction made in the one world is all there in the other. -/
structure Created (P : Platform F) (git : Git) (w : TxWorld) (source : String) (repo : Repo)
    (task memoryMode : String) (manifest : Manifest F) (v : TxWorld) : Prop where
  known : w.repos source = some repo
  mode : memoryMode = "off" ∨ memoryMode = "local"
  outside : P.stateInside source = false
  topLevel : git.topLevel source = source
  clean : (git.status repo).size = 0
  stamps : ∃ createdAt updatedAt now, manifest =
    stamped (createdManifest P w.transactionId source repo.head
      (fingerprint F P.digests (capture P.digests repo))
      (fingerprint F P.digests (contentSnapshot P.digests repo)) task memoryMode
      (identityOf P w source memoryMode) createdAt updatedAt) now
  saved : OnDisk (durable v) .manifest (jsonBytes (.obj manifest))
  baseline : OnDisk (durable v) .baseline (jsonBytes (baselineJson ⟨contentSnapshot P.digests repo,
    contentSnapshot P.digests (git.checkout repo repo.head)⟩ : Json F))
  drafts : ∀ file ∈ drafts, v.files file = none
  workspace : v.workspace = some (git.checkout repo repo.head)
  repos : v.repos = w.repos
  applied : v.applied = w.applied

section Modest

variable {source memoryMode : String}

end Modest

section Atomic

variable {w : TxWorld}

end Atomic

theorem createdManifest_loaded {source commit was content task memoryMode identity : String}
    {createdAt updatedAt : Int} {id : String} (hresolve : P.resolve (.str source) = .ok source) :
    Loaded P id (createdManifest P id source commit was content task memoryMode identity createdAt
      updatedAt) where
  wf := by simp [createdManifest, Dict.keys]
  version := rfl
  sameId := rfl
  source := ⟨.str source, source, rfl, hresolve⟩
  memoryMode := rfl
  identity := rfl

theorem Created.loaded {w v : TxWorld} {source task memoryMode : String} {repo : Repo}
    {manifest : Manifest F} (h : Created P git w source repo task memoryMode manifest v)
    (hresolve : P.resolve (.str source) = .ok source) : Loaded P w.transactionId manifest := by
  obtain ⟨createdAt, updatedAt, now, hstamps⟩ := h.stamps
  rw [hstamps]
  exact stamped_loaded (createdManifest_loaded hresolve) now

theorem Created.stored {w v : TxWorld} {source task memoryMode : String} {repo : Repo}
    {manifest : Manifest F} (h : Created P git w source repo task memoryMode manifest v)
    (hresolve : P.resolve (.str source) = .ok source) :
    Stored P w.transactionId (durable v) manifest :=
  ⟨_, h.saved.1, h.saved.2, (h.loaded hresolve).decode⟩

theorem Created.source {w v : TxWorld} {source task memoryMode : String} {repo : Repo}
    {manifest : Manifest F} (h : Created P git w source repo task memoryMode manifest v) :
    Dict.get? manifest "source" = some (.str source) := by
  obtain ⟨createdAt, updatedAt, now, hstamps⟩ := h.stamps
  rw [hstamps]
  rfl

/-- What a create has made is an open transaction of which nothing has happened yet. -/
theorem Created.shows {w v : TxWorld} {source task memoryMode : String} {repo : Repo}
    {manifest : Manifest F} (h : Created P git w source repo task memoryMode manifest v)
    (hresolve : P.resolve (.str source) = .ok source) (happlied : w.applied = []) :
    Shows P w.transactionId w.repos (durable v) .drafted := by
  obtain ⟨createdAt, updatedAt, now, hstamps⟩ := h.stamps
  have hopen : HasStatus manifest "open" := by
    rw [hstamps]
    rfl
  exact .drafted (h.stored hresolve) hopen h.repos (h.applied.trans happlied)

end Protocol

namespace Small

open Protocol

end Small

end MiniCodeAgent
