import Rescale.SortedMap.Basic

/-!
# Nodes and Shapes

The nodes of a cluster and the task managers placed on them.

A node has a capacity of CPU and memory and a part of it in use. More may be in
use than there is, and then nothing is free. A task manager asks for a shape of
CPU and memory; fractions of cores are rounded up to whole thousandths.

## Main definitions

* `Node`: Capacity and use of one node.
* `Shape`: What one task manager asks for.
* `Node.allocate`: Reserve a shape on a node.
-/

namespace Rescale

/-- Capacity and use of one node of the cluster; CPU in thousandths of a core,
    memory in bytes. -/
structure Node where
  id : String
  cpuCapacity : Nat
  memoryCapacity : Nat
  cpuUsed : Nat
  memoryUsed : Nat
  labels : SortedMap String String := ∅
  /-- A cordoned node takes no new task managers. -/
  unschedulable : Bool := false
  deriving DecidableEq

/-- What one task manager asks for; CPU in thousandths of a core, memory in
    bytes. -/
structure Shape where
  cpu : Nat
  memory : Nat
  deriving DecidableEq, Repr

namespace Shape

/-- The shape of some cores and some memory. -/
def ofCores (cores : Float) (memory : Nat) : Shape :=
  ⟨(cores * 1000.0).ceil.toUInt64.toNat, memory⟩

end Shape

namespace Node

/-- The CPU that is not in use. -/
def cpuFree (n : Node) : Nat := n.cpuCapacity - n.cpuUsed

/-- The memory that is not in use. -/
def memoryFree (n : Node) : Nat := n.memoryCapacity - n.memoryUsed

/-- Reserve one shape on the node. -/
def allocate (n : Node) (s : Shape) : Node :=
  { n with cpuUsed := n.cpuUsed + s.cpu, memoryUsed := n.memoryUsed + s.memory }

end Node

end Rescale
