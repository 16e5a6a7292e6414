import Rescale.Ceiling.Basic
import Rescale.Config.Basic
import Rescale.Job.Change
import Rescale.Job.Topology

/-!
# Resource Quotas

Whether a proposal stays within the quotas of its job.

Each slot-sharing group needs as many slots as the highest parallelism among its
changed members, and a group without changed members counts for nothing, before
and after. Task managers are counted in whole multiples of their slots, so one
that is only partly filled does not count. Quotas bind only a job that grows.

## Main definitions

* `groupSlots`: Slots of one group, before and after.
* `quotaSlots`: Slots of all groups, before and after.
* `quotaCeiling`: The ceiling that the quotas put on a proposal.
-/

namespace Rescale

/-- The slots that the changed members of a group need, before and after. -/
def groupSlots (p : Proposal) (members : List VertexId) : Nat × Nat :=
  (members.filterMap p.get?).foldl
    (fun highest c => (max highest.1 c.current, max highest.2 c.target)) (0, 0)

/-- The slots that the groups of a topology need, before and after. -/
def quotaSlots (t : Topology) (p : Proposal) : Nat × Nat :=
  t.groups.toList.foldl
    (fun total group =>
      let (current, target) := groupSlots p group.2.keys
      (total.1 + current, total.2 + target))
    (0, 0)

/-- Memory of some task managers, at most the largest size there is. -/
def memoryOf (perTaskManager taskManagers : Nat) : Nat :=
  min (perTaskManager * taskManagers) (Text.wordLimit - 1)

/-- The CPU quota, if some task managers need more. -/
def cpuQuotaCeiling (quota : Option Float) (cores : Option Float) (taskManagers : Nat) :
    Option Ceiling :=
  match quota with
  | some quota =>
    let required := cores.getD 0.0 * Float.ofNat taskManagers
    if required > quota then some (.cpuQuota required quota) else none
  | none => none

/-- The memory quota, if some task managers need more. -/
def memoryQuotaCeiling (quota memory : Option Nat) (taskManagers : Nat) : Option Ceiling :=
  match quota with
  | some quota =>
    let required := memoryOf (memory.getD 0) taskManagers
    if quota < required then some (.memoryQuota required quota) else none
  | none => none

/-- The ceiling that the quotas put on a proposal. A job without slot-sharing
    groups, or one that does not grow, has none. -/
def quotaCeiling (options : Config) (cores : Option Float) (memory : Option Nat) (t : Topology)
    (p : Proposal) : Option Ceiling :=
  let perTaskManager := max options.scaling.slotsPerTaskManager 1
  let (currentSlots, targetSlots) := quotaSlots t p
  -- Whole task managers count, so a few slots more need not be growth.
  let target := targetSlots / perTaskManager
  if target ≤ currentSlots / perTaskManager then none
  else
    (cpuQuotaCeiling options.quota.cpu cores target).or
      (memoryQuotaCeiling options.quota.memory memory target)

end Rescale
