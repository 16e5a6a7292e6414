import Rescale.Ceiling.Basic
import Rescale.Config.Basic
import Rescale.Decision.Error
import Rescale.Job.Change
import Rescale.Placement.Capacity

/-!
# Cluster Capacity Ceiling

Whether the cluster has room for a proposal.

The proposal is turned into task slots and these into task managers. With all
vertices sharing slots, a job uses as many slots as its highest parallelism. A
job that uses more has several sharing groups, and then its usage is scaled by
the change of the highest parallelism, rounded up. The product of usage and
parallelism is taken without a bound, so what is said here is about jobs for which
it has 64 bits.

## Main definitions

* `ceilDiv`: A quotient rounded up.
* `taskManagers`: Task managers for a number of slots.
* `slotsAfter`: Task slots after a proposal.
* `clusterCeiling`: The ceiling that the cluster puts on a proposal.
-/

namespace Rescale

/-- The least natural `r` with `a ≤ r * b`, for a positive `b`. -/
def ceilDiv (a b : Nat) : Nat := (a + b - 1) / b

/-- Task managers needed for a number of task slots. -/
def taskManagers (slots slotsPerTaskManager : Nat) : Nat :=
  ceilDiv slots (max slotsPerTaskManager 1)

/-- The highest parallelism over all vertices, as reported and after a
    proposal. -/
def highestParallelism (p : Proposal) :
    List (VertexId × Readings) → Except DecisionError (Nat × Nat)
  | [] => .ok (0, 0)
  | (v, readings) :: rest => do
    let r ← requireReading v readings .parallelism
    let current := countOf r.current
    let target := match p.get? v with
      | some change => change.target
      | none => current
    let (currents, targets) ← highestParallelism p rest
    return (max current currents, max target targets)

/-- Task slots in use after a proposal, from the number in use now and the
    highest parallelism before and after. -/
def scaledSlots (used current target : Nat) : Nat :=
  if current == 0 then used
  else if used ≤ current then target
  else ceilDiv (used * target) current

/-- Task slots in use after a proposal, when `used` are in use now. -/
def slotsAfter (readings : JobReadings) (p : Proposal) (used : Nat) : Except DecisionError Nat := do
  let (current, target) ← highestParallelism p readings.vertices.toList
  return scaledSlots used current target

/-- The ceiling that the cluster puts on a proposal. Without the size of a task
    manager there is none; without the number of slots in use there is no
    answer, which counts as one. -/
def clusterCeiling (options : Config.Scaling) (cores : Option Float) (memory : Option Nat)
    (readings : JobReadings) (p : Proposal) (capacity : Capacity) :
    Except DecisionError (Option Ceiling) :=
  match cores.filter (0.0 < ·), memory.filter (0 < ·) with
  | some cores, some memory =>
    match readings.overall? .numTaskSlotsUsed with
    | none => .ok (some .slotsUnknown)
    | some reported => do
      let used := countOf reported.current
      let after ← slotsAfter readings p used
      let current := taskManagers used options.slotsPerTaskManager
      let target := taskManagers after options.slotsPerTaskManager
      return if capacity.hasRoom current target cores memory then none
        else some (.cluster current target)
  | _, _ => .ok none

end Rescale
