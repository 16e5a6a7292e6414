import Rescale.Job.Metric
import Rescale.Json.Basic

/-!
# Readings in Records

Readings and slot profiles as JSON, and numbers that may be missing.

Every record writes a reading as an object with its value and its average, under
the name of the metric. How a number is read depends on where the record comes
from, so the reader of numbers is an argument: a snapshot has the coarse rule, and
the file of a store gives back what was written into it.

## Main definitions

* `Reading.toJson`, `Reading.ofJson?`: A reading.
* `Readings.toJson`, `Readings.ofJson?`: The readings of a vertex.
* `Json.storedFloat?`: A number of a record that was written before.
-/

namespace Rescale

namespace Json

/-- A number of a record that was written before, which is the nearest double of
    its numeral. What was not finite was written as null, and it is read as what
    is no number. -/
def storedFloat? : Json → Option Float
  | null => some (0.0 / 0.0)
  | number n => some n.nearest
  | _ => none

/-- The name of a map's key that is text already. -/
def textKey? (s : String) : Option String := some s

end Json

/-- A reading as JSON. -/
def Reading.toJson (r : Reading) : Json :=
  .object [("current", .float r.current), ("average", .float r.average)]

/-- Read a reading. -/
def Reading.ofJson? (number? : Json → Option Float) (j : Json) : Option Reading := do
  let fields ← j.fields? ["current", "average"]
  return ⟨← Json.required fields "current" number?, ← Json.required fields "average" number?⟩

/-- The readings of a vertex as JSON. -/
def Readings.toJson (r : Readings) : Json := Json.ofMap Metric.key Reading.toJson r

/-- Read the readings of a vertex. -/
def Readings.ofJson? (number? : Json → Option Float) (j : Json) : Option Readings :=
  j.map? Metric.ofKey? (Reading.ofJson? number?)

/-- The readings of a cycle as JSON. -/
def JobReadings.toJson (r : JobReadings) : Json :=
  .object
    [("vertex_metrics", Json.ofMap id Readings.toJson r.vertices),
      ("global_metrics", Readings.toJson r.overall)]

/-- Read the readings of a cycle. -/
def JobReadings.ofJson? (number? : Json → Option Float) (j : Json) : Option JobReadings := do
  let fields ← j.fields? ["vertex_metrics", "global_metrics"]
  return {
    vertices :=
      ← Json.fieldOr fields "vertex_metrics" ∅ (Json.map? Json.textKey? (Readings.ofJson? number?))
    overall := ← Json.fieldOr fields "global_metrics" ∅ (Readings.ofJson? number?) }

end Rescale
