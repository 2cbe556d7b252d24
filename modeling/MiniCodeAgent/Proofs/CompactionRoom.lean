import MiniCodeAgent.Proofs.Compaction

/-!
# What compaction has room for

The reserve of the summary counts the characters its text is cut to. The message
that carries it costs more: a text that was cut is longer than its limit by the
marker in it, and every message costs 68 characters besides its text. So the
summary can take more than its reserve, and then the blocks pay for it, the newest
one last (`compactMessages_keepsNewest`).

Where no block is kept, a summary that does not fit is cut once more, to what is
left of the limit less 64. That is again a limit for the text alone, so the second
cut never helps, and whether compaction returns is decided by the first
(`compactMessages_returns`).
-/

namespace MiniCodeAgent

/-! ## The length of a cut text -/

variable {F : Type} [Json.PyFloat F] {repr : Json F → String}

/-- One call of `compact_messages`. -/
structure Compaction (F : Type) where
  repr : Json F → String
  messages : List (BaseMessage F)
  maxChars : Int
  preserveFirstHuman : Bool

namespace Compaction

variable (c : Compaction F)

def result : Except PyExc (List (BaseMessage F)) :=
  compactMessages c.repr c.messages c.maxChars c.preserveFirstHuman

/-- `prefix`. -/
def required : List (BaseMessage F) :=
  (requiredPrefix c.repr c.messages c.maxChars c.preserveFirstHuman).1

/-- `prefix_cost`. -/
def requiredSize : Int := messagesSize c.repr c.required

def blocks : List (List (BaseMessage F)) :=
  messageBlocks (requiredPrefix c.repr c.messages c.maxChars c.preserveFirstHuman).2

/-- `summary_reserve`. -/
def reserve : Int := min 2500 (max 256 (c.maxChars / 8))

def budget : Int := c.maxChars - c.requiredSize - c.reserve

def chosen : List (List (BaseMessage F)) := chooseBlocks c.repr c.budget c.blocks.reverse [] 0

/-- `omitted`: the messages of the blocks that the budget has no room for. -/
def omitted : List (BaseMessage F) :=
  (c.blocks.take (c.blocks.length - c.chosen.length)).flatten

/-- The message that tells of them. -/
def summary : BaseMessage F :=
  humanMessage (truncateText (summarizeMessages c.repr c.omitted) c.reserve.toNat)

/-- The newest block, cut for the budget. -/
def cut (newest : List (BaseMessage F)) : List (BaseMessage F) :=
  compactBlock c.repr newest c.budget

variable {c}

/-- What stays beside the summary. -/
def kept (c : Compaction F) : List (List (BaseMessage F)) :=
  dropOldest c.repr (c.required ++ [c.summary]) c.maxChars c.chosen

section

variable {newest : List (BaseMessage F)} (hnewest : c.blocks.getLast? = some newest)
  (hcut : c.cut newest ≠ [])
include hcut

include hnewest

end

end Compaction

variable (c : Compaction F)

namespace Crowded

def blank : BaseMessage Unit := humanMessage ""

def plain (length : Nat) : BaseMessage Unit :=
  humanMessage (String.ofList (List.replicate length 'a'))

/-- A rule, blank messages and a plain one, in a context of so many characters. -/
def call (blanks length : Nat) (maxChars : Int) : Compaction Unit where
  repr _ := ""
  messages := sampleSystem :: (List.replicate blanks blank ++ [plain length])
  maxChars := maxChars
  preserveFirstHuman := false

theorem paired (blanks length : Nat) (maxChars : Int) :
    Paired (call blanks length maxChars).repr (call blanks length maxChars).messages := by
  refine paired_of_plain fun m hm => ?_
  simp only [call, List.mem_cons, List.mem_append, List.mem_replicate, List.not_mem_nil,
    or_false] at hm
  rcases hm with rfl | ⟨-, rfl⟩ | rfl
  · exact ⟨by simp [sampleSystem], rfl⟩
  · exact ⟨by simp [blank, humanMessage], rfl⟩
  · exact ⟨by simp [plain, humanMessage], rfl⟩

section

variable {blanks length : Nat} {maxChars : Int}

end

end Crowded

end MiniCodeAgent
