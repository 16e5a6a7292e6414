import Rescale.Config.Basic
import Rescale.Job.Metric

/-!
# Job Context

What a decision cycle knows about its job from outside.

## Main definitions

* `JobContext`: Identity, options and task-manager size of a job.
* `JobContext.processSize?`: The process memory of a task manager.
-/

namespace Rescale

/-- Identity, options and task-manager size of a job. -/
structure JobContext where
  id : JobId
  config : Config := {}
  /-- CPU cores of a task manager, if known. -/
  cores : Option Float := none
  /-- Process memory of a task manager in bytes, if known. -/
  memory : Option Nat := none
  deriving DecidableEq

namespace JobContext

/-- The process memory of a task manager under some memory options: the
    configured size, or else the size that the job reports. -/
def processSize? (ctx : JobContext) (options : Config.Memory) : Option Nat :=
  options.processSize.or ctx.memory

end JobContext

end Rescale
