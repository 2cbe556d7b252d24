import MiniCodeAgent.Builtins

/-!
# The memory's vocabulary

`memory_models.py`: the words a memory row may hold, the dataclasses the store
hands out, and the two rules about authority. A word comes from a caller as a
text and is looked up, so that an unknown one is an error and not impossible.
-/

namespace MiniCodeAgent

def memoryKinds : List String := ["semantic", "episodic", "procedural", "state"]
def memoryOrigins : List String := ["user", "trusted_tool", "agent", "external"]
def memoryAuthorities : List String := ["none", "inform", "act"]
def memoryStatuses : List String := ["active", "superseded", "disputed", "stale", "tombstoned"]
def memoryRelations : List String :=
  ["derived_from", "supports", "contradicts", "supersedes", "related_to"]
def memoryControlOperations : List String :=
  ["retrieve", "retrieve_with_warning", "requery", "no_memory"]

/-- `_AUTHORITY_RANK`. -/
def authorityRanks : Dict Nat := [("none", 0), ("inform", 1), ("act", 2)]

/-- `_ORIGIN_MAX_AUTHORITY`. -/
def originMaxAuthority : Dict String :=
  [("external", "none"), ("agent", "inform"), ("trusted_tool", "inform"), ("user", "act")]

def integrityError (message : String) : PyExc := ⟨"MemoryIntegrityError", message, true⟩
def notInitializedError (message : String) : PyExc := ⟨"MemoryNotInitializedError", message, true⟩

/-- `_AUTHORITY_RANK[authority]`. -/
def authorityRank (authority : String) : Except PyExc Nat :=
  match authorityRanks.get? authority with
  | some rank => .ok rank
  | none => .error (keyError authority)

/-- `_ORIGIN_MAX_AUTHORITY[origin]`. -/
def maxAuthority (origin : String) : Except PyExc String :=
  match originMaxAuthority.get? origin with
  | some authority => .ok authority
  | none => .error (keyError origin)

def validateAuthority (origin authority : String) : Except PyExc Unit := do
  raiseIf (origin ∉ memoryOrigins) (valueError ("unsupported memory origin: " ++ origin))
  raiseIf (authority ∉ memoryAuthorities)
    (valueError ("unsupported memory authority: " ++ authority))
  let maximum ← maxAuthority origin
  let rank ← authorityRank authority
  let maximumRank ← authorityRank maximum
  raiseIf (rank > maximumRank)
    (valueError ("origin '" ++ origin ++ "' cannot create '" ++ authority ++ "' authority memory"))

def validateDerivedAuthority (authority : String) (sourceAuthorities : List String) :
    Except PyExc Unit :=
  match sourceAuthorities with
  | [] => .ok ()
  | first :: rest => do
    raiseIf (authority ∉ memoryAuthorities ∨
        ∃ item ∈ sourceAuthorities, item ∉ memoryAuthorities)
      (valueError "unsupported memory authority")
    let firstRank ← authorityRank first
    let ranks ← rest.mapM authorityRank
    let rank ← authorityRank authority
    raiseIf (rank > ranks.foldl min firstRank)
      (valueError "derived memory cannot increase source authority")

structure MemoryCard (F : Type) where
  id : String
  kind : String
  subtype : String
  scope : String
  scopeKey : String
  value : String
  abstraction : String
  cueAnchors : List (Json F)
  origin : String
  authority : String
  confidence : F
  importance : F
  validFrom : Option String
  validTo : Option String
  recordedAtNs : Int
  contentSha256 : String
  status : String

structure EvidenceSource where
  sourceType : String
  sourceRef : String
  sourceSha256 : String
  origin : String
  id : String
  cardId : String
  recordedAtNs : Int
  deriving DecidableEq

structure MemoryEdge where
  id : String
  sourceId : String
  targetId : String
  relation : String
  recordedAtNs : Int
  deriving DecidableEq

structure MemoryVerification where
  ok : Bool
  checkedCards : Nat
  checkedSources : Nat
  checkedEdges : Nat
  checkedEvents : Nat
  errors : List String
  deriving DecidableEq

/-! ## Ranks

Authorities are compared by rank, and a rank is a number once the word is one
of the three. -/

/-- One authority is at most another: both are known and their ranks compare. -/
def AuthorityLE (a b : String) : Prop :=
  ∃ ra rb, authorityRank a = .ok ra ∧ authorityRank b = .ok rb ∧ ra ≤ rb

theorem AuthorityLE.trans {a b c : String} (h : AuthorityLE a b) (h' : AuthorityLE b c) :
    AuthorityLE a c := by
  obtain ⟨ra, rb, ha, hb, hle⟩ := h
  obtain ⟨rb', rc, hb', hc, hle'⟩ := h'
  rw [hb] at hb'
  cases hb'
  exact ⟨ra, rc, ha, hc, le_trans hle hle'⟩

/-- An authority that was accepted for an origin is at most the origin's. -/
theorem validateAuthority_ok {origin authority : String}
    (h : validateAuthority origin authority = .ok ()) :
    ∃ maximum, maxAuthority origin = .ok maximum ∧ AuthorityLE authority maximum := by
  unfold validateAuthority at h
  obtain ⟨_, -, h⟩ := except_bind_ok.1 h
  obtain ⟨_, -, h⟩ := except_bind_ok.1 h
  obtain ⟨maximum, hmax, h⟩ := except_bind_ok.1 h
  obtain ⟨rank, hrank, h⟩ := except_bind_ok.1 h
  obtain ⟨maximumRank, hmaxRank, h⟩ := except_bind_ok.1 h
  exact ⟨maximum, hmax, rank, maximumRank, hrank, hmaxRank, not_lt.1 (raiseIf_ok.1 h)⟩

theorem foldl_min_le (ranks : List Nat) (r : Nat) :
    ranks.foldl min r ≤ r ∧ ∀ x ∈ ranks, ranks.foldl min r ≤ x := by
  induction ranks generalizing r with
  | nil => exact ⟨le_refl r, fun x hx => absurd hx List.not_mem_nil⟩
  | cons y ranks ih =>
      obtain ⟨hr, hx⟩ := ih (min r y)
      refine ⟨le_trans hr (min_le_left r y), fun x hmem => ?_⟩
      rcases List.mem_cons.1 hmem with rfl | hmem
      · exact le_trans hr (min_le_right r x)
      · exact hx x hmem

/-- A derived authority that was accepted is at most that of every source. -/
theorem validateDerivedAuthority_ok {authority : String} {sources : List String}
    (h : validateDerivedAuthority authority sources = .ok ()) {source : String}
    (hsource : source ∈ sources) : AuthorityLE authority source := by
  cases sources with
  | nil => cases hsource
  | cons first rest =>
      rw [validateDerivedAuthority] at h
      obtain ⟨_, -, h⟩ := except_bind_ok.1 h
      obtain ⟨firstRank, hfirst, h⟩ := except_bind_ok.1 h
      obtain ⟨ranks, hranks, h⟩ := except_bind_ok.1 h
      obtain ⟨rank, hrank, h⟩ := except_bind_ok.1 h
      have hle := not_lt.1 (raiseIf_ok.1 h)
      obtain ⟨hr, hx⟩ := foldl_min_le ranks firstRank
      rcases List.mem_cons.1 hsource with rfl | hmem
      · exact ⟨rank, firstRank, hrank, hfirst, le_trans hle hr⟩
      · obtain ⟨other, hother, hrankOther⟩ := except_mapM_mem hranks hmem
        exact ⟨rank, other, hrank, hrankOther, le_trans hle (hx other hother)⟩

end MiniCodeAgent
