import MiniCodeAgent.SillyTavern

/-!
# Tavern Helper data

`memory_core/adapters/tavern_helper.py`, as far as it reads the data of a script and
the variables of an export: both are flattened into candidates.
-/

namespace MemoryCore

open MiniCodeAgent

variable {F : Type} [Json.PyFloat F] (env : ImportEnv F)

structure TavernHelperDataCandidate where
  sourceId : String
  sourceKind : String
  jsonPointer : String
  valueJson : String
  sourceSha256 : String
  suggestedScope : String
  authority : String
  deriving DecidableEq

/-- `_data_leaves`. -/
def dataLeaves (maxDepth : Int) (value : Json F) : Except PyExc (List (String × Json F)) :=
  leavesOf (valueError "Tavern Helper data exceeds the nesting limit") maxDepth value "" 0

/-- Both loops over `_data_leaves`, with the candidates so far. -/
def addDataCandidates (candidates : List TavernHelperDataCandidate) (data : Dict (Json F))
    (sourceId sourceKind sourceSha256 suggestedScope : String) (maxCandidates maxDepth : Int) :
    Except PyExc (List TavernHelperDataCandidate × Nat) := do
  let leaves ← dataLeaves maxDepth (.obj data)
  takeLeaves env (valueError "Tavern Helper export exceeds the candidate limit") maxCandidates
    (fun pointer valueJson => ⟨sourceId, sourceKind, pointer, valueJson, sourceSha256,
      suggestedScope, "none"⟩) candidates leaves

/-- The loop over the data of a script. -/
def addScriptData (candidates : List TavernHelperDataCandidate) (data : Dict (Json F))
    (scriptId sourceSha256 suggestedScope : String) (maxCandidates maxDepth : Int) :
    Except PyExc (List TavernHelperDataCandidate × Nat) :=
  addDataCandidates env candidates data scriptId "script_data" sourceSha256 suggestedScope
    maxCandidates maxDepth

/-- The loop over the variables of an export, whose settings are of this kind. -/
def addVariableData (candidates : List TavernHelperDataCandidate) (values : Dict (Json F))
    (settingsKind detectedScope : String) (maxCandidates maxDepth : Int) :
    Except PyExc (List TavernHelperDataCandidate × Nat) :=
  addDataCandidates env candidates values ("tavern-helper:" ++ settingsKind ++ ":variables")
    settingsKind (digestJson env.digests
      (.obj [("source_kind", .str settingsKind), ("variables", .obj values)])) detectedScope
    maxCandidates maxDepth

end MemoryCore
