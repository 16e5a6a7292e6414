import Rescale.Job.Snapshot
import Rescale.Json.Reader
import Rescale.Record.Readings

/-!
# Snapshot Records

Snapshots as JSON documents.

A snapshot needs the identifier of its job; readings, graph and task-manager size
may be missing. All its numbers are finite, since a document cannot spell others
and a number too large for a double is refused.

## Main definitions

* `Snapshot.toJson`: A snapshot as JSON.
* `Snapshot.ofText?`: Read a snapshot document.
-/

namespace Rescale

/-- A stage as JSON. -/
def Stage.toJson (s : Stage) : Json :=
  .object
    [("inputs", .array (s.inputs.keys.map .string)),
      ("slot_sharing_group", .ofOption .string s.group)]

/-- Read a stage. -/
def Stage.ofJson? (j : Json) : Option Stage := do
  let fields ← j.fields? ["inputs", "slot_sharing_group"]
  let inputs ← Json.fieldOr fields "inputs" [] fun j => do (← j.array?).mapM Json.string?
  let group ← Json.fieldOr fields "slot_sharing_group" none (Json.nullable? Json.string?)
  return { inputs := SortedMap.ofList (inputs.map fun v => (v, ())), group }

/-- A graph as JSON. -/
def Topology.toJson (t : Topology) : Json :=
  .object [("vertices", Json.ofMap id Stage.toJson t.stages)]

/-- Read a graph. -/
def Topology.ofJson? (j : Json) : Option Topology := do
  let fields ← j.fields? ["vertices"]
  return ⟨← Json.required fields "vertices" (Json.map? Json.textKey? Stage.ofJson?)⟩

namespace Snapshot

/-- A snapshot as JSON. -/
def toJson (s : Snapshot) : Json :=
  .object
    [("job_id", .string s.job),
      ("metrics", s.readings.toJson),
      ("topology", s.topology.toJson),
      ("task_manager_cpu", .ofOption .float s.cores),
      ("task_manager_memory", .ofOption .nat s.memory)]

/-- Read a snapshot. -/
def ofJson? (j : Json) : Option Snapshot := do
  let fields ←
    j.fields? ["job_id", "metrics", "topology", "task_manager_cpu", "task_manager_memory"]
  return {
    job := ← Json.required fields "job_id" Json.string?
    readings := ← Json.fieldOr fields "metrics" {} (JobReadings.ofJson? Json.float?)
    topology := ← Json.fieldOr fields "topology" {} Topology.ofJson?
    cores := ← Json.fieldOr fields "task_manager_cpu" none (Json.nullable? Json.float?)
    memory :=
      ← Json.fieldOr fields "task_manager_memory" none
        (Json.nullable? (Json.nat? Text.wordLimit)) }

/-- Read a snapshot document. -/
def ofText? (s : String) : Option Snapshot := do ofJson? (← Json.ofText? s)

end Snapshot

end Rescale
