import MiniCodeAgent.Json.Overlay
import MiniCodeAgent.Proofs.CreateRuns
import MiniCodeAgent.Proofs.PrepareAccepts

/-!
# What a transaction does to its source

A create has seen the source and a fresh worktree of its commit, a prepare the
worktree as the agent has left it. The tree a commit leaves is the source with the
worktree's changes laid over it: wherever the agent has changed the worktree, what
the agent has left there, and everywhere else what the source had when the
transaction began. A commit compares fingerprints, so this needs digests that do not
collide and nothing of Git at all: a patch that does anything else is refused.
-/

namespace MiniCodeAgent

/-! ## What a prepare expects of the source -/

section Expected

variable {before after : Dict String} {path : String}

end Expected

/-! ## Digests that do not collide -/

section Injective

variable {F : Type} [Json.PyFloat F] {digests : Digests}

/-- A scan of the repository names no path twice. -/
structure Repo.Sound (repo : Repo) : Prop extends repo.Ok where
  names : (Dict.keys repo.controls).Nodup

theorem keys_entryTexts (nodes : Dict Entry) :
    Dict.keys (entryTexts digests nodes) = Dict.keys nodes := by
  rw [entryTexts, Dict.keys, Dict.keys, List.map_map]
  rfl

theorem Repo.Sound.nodup {repo : Repo} (h : repo.Sound) :
    (Dict.keys (contentSnapshot digests repo)).Nodup := by
  have htree : (Dict.keys ((repo.tree.filter fun entry => entry.1 ≠ ".git").filter
      fun entry => scanned entry.1 entry.2)).Nodup :=
    h.distinct.sublist ((List.filter_sublist.trans List.filter_sublist).map _)
  have hkeys : Dict.keys (contentSnapshot digests repo) =
      Dict.keys ((repo.tree.filter fun entry => entry.1 ≠ ".git").filter
        fun entry => scanned entry.1 entry.2) ++ Dict.keys repo.controls := by
    rw [contentSnapshot, capture, Dict.keys, List.map_append]
    exact congrArg₂ _ (keys_entryTexts _) (keys_entryTexts _)
  rw [hkeys]
  refine List.nodup_append.2 ⟨htree, h.names, fun name hname control hcontrol heq => ?_⟩
  -- a scan of the tree does not get to a control
  obtain ⟨entry, hentry, rfl⟩ := List.mem_map.1 hname
  have hscanned : scanned entry.1 entry.2 = true := (List.mem_filter.1 hentry).2
  rw [not_scanned_of_skipped (h.controls entry.1 (heq ▸ hcontrol))
    (show ".git" ∈ skipDirs by decide)] at hscanned
  cases hscanned

/-! ## What a snapshot says of a file -/

end Injective

/-! ## From a create to a commit -/

section Baseline

variable {F : Type} [Json.PyFloat F]

end Baseline

namespace Protocol

open Prog (Run)

variable {F : Type} [Json.PyFloat F] {P : Platform F} {git : Git}

end Protocol

namespace Small

open Protocol
open Prog (Run)

end Small

end MiniCodeAgent
