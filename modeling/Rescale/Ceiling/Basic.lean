import Rescale.Decimal.Shortest
import Rescale.Memory.Size

/-!
# Ceilings

Why a proposal would not fit.

## Main definitions

* `Ceiling`: The ceilings that a proposal can run into.
* `Ceiling.text`: Their wording.
-/

namespace Rescale

/-- The ceiling that a proposal runs into. -/
inductive Ceiling where
  /-- The job has not reported yet how many task slots it uses. -/
  | slotsUnknown
  /-- The cluster cannot host the additional task managers. -/
  | cluster (current target : Nat)
  | cpuQuota (required quota : Float)
  /-- In bytes. -/
  | memoryQuota (required quota : Nat)
  deriving DecidableEq, Repr

namespace Ceiling

/-- The wording of a ceiling. -/
def text : Ceiling → String
  | slotsUnknown => "task slot usage not reported yet"
  | cluster current target =>
    "cluster cannot grow from " ++ toString current ++ " to " ++ toString target
      ++ " task managers"
  | cpuQuota required quota =>
    "CPU quota " ++ Decimal.plain quota ++ " reached, " ++ Decimal.plain required ++ " required"
  | memoryQuota required quota =>
    "memory quota " ++ MemorySize.text quota ++ " reached, " ++ MemorySize.text required
      ++ " required"

end Ceiling

end Rescale
