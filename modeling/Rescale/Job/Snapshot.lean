import Rescale.Job.Context
import Rescale.Job.Topology

/-!
# Snapshots

What a source delivers about a job for one cycle.

## Main definitions

* `Snapshot`: Readings, graph and task-manager size of a job.
* `Source`: Where snapshots come from.
* `Source.ofSnapshots`: A source with a fixed set of snapshots.
-/

namespace Rescale

/-- Readings, graph and task-manager size of a job for one cycle. -/
structure Snapshot where
  job : JobId
  readings : JobReadings := {}
  topology : Topology := {}
  /-- CPU cores of a task manager. -/
  cores : Option Float := none
  /-- Process memory of a task manager in bytes. -/
  memory : Option Nat := none
  deriving DecidableEq

/-- Where snapshots come from. Either question may fail, with a reason. -/
structure Source where
  /-- The jobs that are known now. -/
  jobs : Except String (List JobId)
  /-- The latest snapshot of a job, if there is one yet. -/
  snapshot? : JobId → Except String (Option Snapshot)

namespace Source

/-- A source with a fixed set of snapshots. -/
def ofSnapshots (snapshots : SortedMap JobId Snapshot) : Source where
  jobs := .ok snapshots.keys
  snapshot? job := .ok (snapshots.get? job)

end Source

end Rescale
