import Rescale.Placement.Node
import Rescale.Record.Job

/-!
# Node Records

Nodes of the cluster as JSON.

Labels and the mark of a cordoned node may be missing; a node without them has no
labels and takes task managers.

## Main definitions

* `Node.toJson`, `Node.ofJson?`: A node of the cluster.
-/

namespace Rescale

/-- A node as JSON. -/
def Node.toJson (n : Node) : Json :=
  .object
    [("id", .string n.id),
      ("capacity_cpu_millis", .nat n.cpuCapacity),
      ("capacity_memory_bytes", .nat n.memoryCapacity),
      ("used_cpu_millis", .nat n.cpuUsed),
      ("used_memory_bytes", .nat n.memoryUsed),
      ("labels", Overrides.toJson n.labels),
      ("unschedulable", .bool n.unschedulable)]

/-- Read a node. -/
def Node.ofJson? (j : Json) : Option Node := do
  let fields ←
    j.fields?
      ["id", "capacity_cpu_millis", "capacity_memory_bytes", "used_cpu_millis",
        "used_memory_bytes", "labels", "unschedulable"]
  let size (name : String) : Option Nat := Json.required fields name (Json.nat? Text.wordLimit)
  return {
    id := ← Json.required fields "id" Json.string?
    cpuCapacity := ← size "capacity_cpu_millis"
    memoryCapacity := ← size "capacity_memory_bytes"
    cpuUsed := ← size "used_cpu_millis"
    memoryUsed := ← size "used_memory_bytes"
    labels := ← Json.fieldOr fields "labels" ∅ Overrides.ofJson?
    unschedulable := ← Json.fieldOr fields "unschedulable" false Json.bool? }

end Rescale
