import MiniCodeAgent.Json.Value

/-!
# Changes laid over a dictionary

What has changed from one map to another can be laid over a third one. In code it
is two loops over a dictionary, one that takes keys out and one that puts keys in;
a lookup in what they leave is a lookup before them, or in the value put in.
-/

section Overlay

variable {κ ν : Type} [DecidableEq ν]

end Overlay

namespace Dict

variable {α : Type}

end Dict
