import Rescale.Memory.Size
import Rescale.Time.Blackout

/-!
# Configuration

The options of the autoscaler, with their defaults.

An option that is left out keeps the default of its field here. Not every value
of these types is a configuration to run with: `Config.Resolve` says which ones
are accepted.

## Main definitions

* `Config`: All options, by section.
-/

namespace Rescale

namespace Config

/-- When to scale at all, and which vertices. -/
structure Scaling where
  /-- When false, decisions are computed and reported but never applied. -/
  enabled : Bool := true
  /-- Daily windows during which no scaling is applied. -/
  blackouts : List Blackout := []
  /-- The least span between repeated events with the same key. -/
  eventInterval : Span := Span.ofMinutes 30
  slotsPerTaskManager : Nat := 1
  gcPressureThreshold : Float := 0.3
  heapUsageThreshold : Float := 1.0
  /-- Vertices that are never scaled. -/
  excluded : List String := []
  deriving DecidableEq

/-- The memory of a task manager. -/
structure Memory where
  tuningEnabled : Bool := false
  /-- Process memory of a task manager in bytes, if it is set here. -/
  processSize : Option Nat := none
  /-- The heap usage ratio that tuning aims for. -/
  targetHeapUsage : Float := 0.7
  /-- The least process memory that tuning may choose. -/
  minProcessSize : Nat := MemorySize.gibibyte
  deriving DecidableEq

/-- Ceilings on the resources of a job. -/
structure Quota where
  cpu : Option Float := none
  memory : Option Nat := none
  deriving DecidableEq

/-- How long restarts take and how fast their backlog is worked off. -/
structure Restart where
  restartTime : Span := Span.ofMinutes 5
  /-- Prefer observed restart times over the configured one. -/
  preferTracked : Bool := false
  /-- The longest restart time that an observation can stand for. -/
  trackedLimit : Span := Span.ofMinutes 30
  catchUp : Span := Span.ofMinutes 30
  deriving DecidableEq

/-- Bounds and pace of the parallelism of a vertex. -/
structure Vertex where
  minParallelism : Nat := 1
  maxParallelism : Nat := 200
  targetUtilization : Float := 0.7
  /-- How long a scale-down has to be proposed before it is applied. -/
  scaleDownInterval : Span := Span.ofMinutes 60
  /-- The largest part of its parallelism a vertex may lose in one decision. -/
  maxScaleDownFactor : Float := 0.6
  /-- The part of the expected gain below which a scale-up was ineffective. -/
  ineffectiveThreshold : Float := 0.1
  deriving DecidableEq

/-- Thresholds of the elastic policy. -/
structure Elastic where
  enabled : Bool := false
  minHitRate : Float := 0.8
  maxHitRate : Float := 0.95
  /-- The gain in hit rate that counts as an improvement. -/
  improvedHitRate : Float := 0.05
  /-- The relative gain in throughput that counts as an improvement. -/
  improvedThroughput : Float := 0.1
  /-- State access latency in milliseconds above which memory is short. -/
  latencyThreshold : Float := 1.0
  /-- The memory level that climbing has to stay below. -/
  maxLevel : Int := 4
  deriving DecidableEq

end Config

/-- The options of the autoscaler. -/
structure Config where
  scaling : Config.Scaling := {}
  memory : Config.Memory := {}
  quota : Config.Quota := {}
  restart : Config.Restart := {}
  vertex : Config.Vertex := {}
  elastic : Config.Elastic := {}
  deriving DecidableEq

namespace Config

instance : Inhabited Config := ⟨{}⟩

/-- Whether an instant lies in one of the blackout windows. -/
def inBlackout (c : Config) (now : Instant) : Bool :=
  c.scaling.blackouts.any fun w => w.covers now

end Config

end Rescale
