import Rescale.Config.Resolve
import Rescale.Elastic.Stance
import Rescale.Job.Change
import Rescale.Job.PendingScaleDowns
import Rescale.Job.RestartLog
import Rescale.Record.Readings

/-!
# Records of a Job

What is remembered of a job, as JSON.

Instants are RFC 3339 texts, spans have whole seconds and nanoseconds, and a
value that may be missing is null. Fields that a record does not know are passed
over when it is read. As with readings, the reader of doubles is an argument.

## Main definitions

* `History.toJson`, `History.ofJson?`: The applied changes.
* `RestartLog.toJson`, `RestartLog.ofJson?`: The restart log.
* `Overrides.toJson`, `Overrides.ofJson?`: Values by name.
* `PendingScaleDowns.toJson`, `PendingScaleDowns.ofJson?`: The pending scale-downs.
* `Generation.toJson`, `Generation.ofJson?`: A generation of the elastic policy.
-/

namespace Rescale

/-! ### Parts -/

/-- A span as JSON. -/
def Span.toJson (s : Span) : Json :=
  .object [("secs", .nat s.wholeSeconds), ("nanos", .nat s.nanos)]

/-- Read a span. -/
def Span.ofJson? (j : Json) : Option Span := do
  let fields ← j.fields? ["secs", "nanos"]
  let seconds ← Json.required fields "secs" (Json.nat? Text.wordLimit)
  let nanos ← Json.required fields "nanos" (Json.nat? Text.halfWordLimit)
  return ⟨seconds * 1000 + nanos / 1000000⟩

/-- An instant as JSON. -/
def Instant.toJson (i : Instant) : Json := .string i.recordText

/-- Read an instant. -/
def Instant.ofJson? (j : Json) : Option Instant := do Instant.ofText? (← j.string?)

/-- A slot profile as JSON. -/
def SlotProfile.toJson (p : SlotProfile) : Json :=
  .object
    [("cpu_cores", .float p.cpuCores),
      ("task_heap_mb", .nat p.taskHeap),
      ("task_off_heap_mb", .nat p.taskOffHeap),
      ("managed_mb", .nat p.managed),
      ("network_mb", .nat p.network)]

/-- Read a slot profile. -/
def SlotProfile.ofJson? (number? : Json → Option Float) (j : Json) : Option SlotProfile := do
  let fields ←
    j.fields? ["cpu_cores", "task_heap_mb", "task_off_heap_mb", "managed_mb", "network_mb"]
  let size (name : String) : Option Nat := Json.required fields name (Json.nat? Text.wordLimit)
  return {
    cpuCores := ← Json.required fields "cpu_cores" number?
    taskHeap := ← size "task_heap_mb"
    taskOffHeap := ← size "task_off_heap_mb"
    managed := ← size "managed_mb"
    network := ← size "network_mb" }

/-! ### Changes -/

/-- A change as JSON. -/
def Change.toJson (c : Change) : Json :=
  .object
    [("current_parallelism", .nat c.current),
      ("new_parallelism", .nat c.target),
      ("current_resource_profile", .ofOption SlotProfile.toJson c.currentProfile),
      ("new_resource_profile", .ofOption SlotProfile.toJson c.targetProfile),
      ("metrics", Readings.toJson c.readings)]

/-- Read a change. -/
def Change.ofJson? (number? : Json → Option Float) (j : Json) : Option Change := do
  let fields ←
    j.fields?
      ["current_parallelism", "new_parallelism", "current_resource_profile",
        "new_resource_profile", "metrics"]
  let parallelism (name : String) : Option Nat :=
    Json.required fields name (Json.nat? Text.halfWordLimit)
  let profile (name : String) : Option (Option SlotProfile) :=
    Json.fieldOr fields name none (Json.nullable? (SlotProfile.ofJson? number?))
  return {
    current := ← parallelism "current_parallelism"
    target := ← parallelism "new_parallelism"
    currentProfile := ← profile "current_resource_profile"
    targetProfile := ← profile "new_resource_profile"
    readings := ← Json.required fields "metrics" (Readings.ofJson? number?) }

/-- The applied changes of one vertex as JSON. -/
def VertexHistory.toJson (h : VertexHistory) : Json :=
  Json.ofMap Instant.recordText Change.toJson h

/-- The applied changes of a job as JSON. -/
def History.toJson (h : History) : Json := Json.ofMap id VertexHistory.toJson h

/-- Read the applied changes of a job. -/
def History.ofJson? (number? : Json → Option Float) (j : Json) : Option History :=
  j.map? Json.textKey? (Json.map? Instant.ofText? (Change.ofJson? number?))

/-! ### Restarts and holds -/

/-- An observed restart time as JSON. -/
def RestartLog.entryJson (restart : Option Span) : Json :=
  .object [("restart_duration", .ofOption Span.toJson restart)]

/-- Read an observed restart time. -/
def RestartLog.restart? (j : Json) : Option (Option Span) := do
  let fields ← j.fields? ["restart_duration"]
  Json.fieldOr fields "restart_duration" none (Json.nullable? Span.ofJson?)

/-- A restart log as JSON. -/
def RestartLog.toJson (log : RestartLog) : Json :=
  .object [("records", Json.ofMap Instant.recordText RestartLog.entryJson log)]

/-- Read a restart log. -/
def RestartLog.ofJson? (j : Json) : Option RestartLog := do
  let fields ← j.fields? ["records"]
  Json.fieldOr fields "records" ∅ (Json.map? Instant.ofText? RestartLog.restart?)

/-- A hold as JSON. -/
def Hold.toJson (h : Hold) : Json :=
  .object
    [("first_triggered", h.since.toJson), ("max_recommended_parallelism", .nat h.peak)]

/-- Read a hold. -/
def Hold.ofJson? (j : Json) : Option Hold := do
  let fields ← j.fields? ["first_triggered", "max_recommended_parallelism"]
  return {
    since := ← Json.required fields "first_triggered" Instant.ofJson?
    peak := ← Json.required fields "max_recommended_parallelism" (Json.nat? Text.halfWordLimit) }

/-- Holds as JSON. -/
def Holds.toJson (h : Holds) : Json := .object [("delayed", Json.ofMap id Hold.toJson h)]

/-- Read holds. -/
def Holds.ofJson? (j : Json) : Option Holds := do
  let fields ← j.fields? ["delayed"]
  Json.fieldOr fields "delayed" ∅ (Json.map? Json.textKey? Hold.ofJson?)

/-- Pending scale-downs as JSON. The mark that they were changed is not kept. -/
def PendingScaleDowns.toJson (p : PendingScaleDowns) : Json := p.holds.toJson

/-- Read pending scale-downs. -/
def PendingScaleDowns.ofJson? (j : Json) : Option PendingScaleDowns :=
  (Holds.ofJson? j).map PendingScaleDowns.ofHolds

/-! ### Overrides -/

/-- Values by name as JSON. -/
def Overrides.toJson (o : Overrides) : Json := Json.ofMap id Json.string o

/-- Read values by name. -/
def Overrides.ofJson? (j : Json) : Option Overrides := j.map? Json.textKey? Json.string?

/-- Changed options as JSON. -/
def Overrides.changesJson (o : Overrides) : Json := .object [("overrides", Overrides.toJson o)]

/-- Read changed options. -/
def Overrides.ofChangesJson? (j : Json) : Option Overrides := do
  let fields ← j.fields? ["overrides"]
  Json.fieldOr fields "overrides" ∅ Overrides.ofJson?

/-! ### Generations -/

/-- A stance as JSON. -/
def Stance.toJson (s : Stance) : Json :=
  .object
    [("parallelism", .nat s.parallelism),
      ("memory_level", .int s.memoryLevel),
      ("avg_cache_hit_rate", .float s.hitRate),
      ("avg_state_latency", .float s.latency),
      ("avg_throughput", .float s.throughput),
      ("vertical_scaling", .bool s.vertical),
      ("horizontal_scaling", .bool s.horizontal),
      ("stop_vertical_scaling", .bool s.stopVertical)]

/-- Read a stance. -/
def Stance.ofJson? (number? : Json → Option Float) (j : Json) : Option Stance := do
  let fields ←
    j.fields?
      ["parallelism", "memory_level", "avg_cache_hit_rate", "avg_state_latency",
        "avg_throughput", "vertical_scaling", "horizontal_scaling", "stop_vertical_scaling"]
  let number (name : String) : Option Float := Json.required fields name number?
  let mark (name : String) : Option Bool := Json.required fields name Json.bool?
  return {
    parallelism := ← Json.required fields "parallelism" (Json.nat? Text.halfWordLimit)
    memoryLevel := ← Json.required fields "memory_level" Json.int?
    hitRate := ← number "avg_cache_hit_rate"
    latency := ← number "avg_state_latency"
    throughput := ← number "avg_throughput"
    vertical := ← mark "vertical_scaling"
    horizontal := ← mark "horizontal_scaling"
    stopVertical := ← mark "stop_vertical_scaling" }

/-- A generation as JSON. -/
def Generation.toJson (g : Generation) : Json :=
  .object [("period", .nat g.period), ("scaling", Json.ofMap id Stance.toJson g.stances)]

/-- Read a generation. -/
def Generation.ofJson? (number? : Json → Option Float) (j : Json) : Option Generation := do
  let fields ← j.fields? ["period", "scaling"]
  return {
    period := ← Json.required fields "period" (Json.nat? Text.wordLimit)
    stances :=
      ← Json.required fields "scaling" (Json.map? Json.textKey? (Stance.ofJson? number?)) }

end Rescale
