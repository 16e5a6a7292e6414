import Rescale.Job.Metric
import Rescale.Memory.SlotProfile

/-!
# Stances

Where the elastic policy stands with each vertex of a job.

Each applied decision makes a generation: the stance of every vertex, under the
number of the decision. A stance holds the parallelism and memory level that the
policy settled on, the measurements it saw, and which way it moved.

## Main definitions

* `Stance`: The policy's view of one vertex in one generation.
* `Stance.ofReadings`: A fresh stance, from a proposal and its readings.
* `Generation`: The stances of one decision.
-/

namespace Rescale

/-- The policy's view of one vertex in one generation. -/
structure Stance where
  parallelism : Nat
  /-- The level of the memory ladder; below zero for a vertex without state. -/
  memoryLevel : Int
  hitRate : Float
  /-- State access latency in milliseconds. -/
  latency : Float
  throughput : Float
  /-- The move was up the memory ladder. -/
  vertical : Bool
  /-- The move was to the proposed parallelism. -/
  horizontal : Bool
  /-- Climbing did not help and was rolled back. -/
  stopVertical : Bool
  deriving DecidableEq, Repr

namespace Stance

/-- The memory level that vertices start from. -/
def baseLevel : Int := 0

/-- A fresh stance for a vertex proposed to run at `parallelism`. A metric that
    is missing counts as zero. -/
def ofReadings (parallelism : Nat) (readings : Readings) : Stance :=
  let average (m : Metric) : Float := ((readings.get? m).map (·.average)).getD 0.0
  { parallelism
    memoryLevel := baseLevel
    hitRate := average .cacheHitRate
    latency := average .stateAccessLatency
    throughput := average .trueProcessingRate
    vertical := false
    horizontal := false
    stopVertical := false }

/-- A vertex that never hits its state cache has no state to cache. -/
def isStateless (s : Stance) : Bool := s.hitRate == 0.0

/-- Change every number in the stance that is a double. -/
def mapFloats (f : Float → Float) (s : Stance) : Stance :=
  { s with hitRate := f s.hitRate, latency := f s.latency, throughput := f s.throughput }

/-- Whether every number in the stance is finite. -/
def isFinite (s : Stance) : Bool :=
  s.hitRate.isFinite && s.latency.isFinite && s.throughput.isFinite

end Stance

/-- The stances of one decision. -/
structure Generation where
  /-- The number of the decision, from zero. -/
  period : Nat
  stances : SortedMap VertexId Stance := ∅
  deriving DecidableEq

namespace Generation

instance : Inhabited Generation := ⟨{ period := 0 }⟩

/-- Change every number in the generation that is a double. -/
def mapFloats (f : Float → Float) (g : Generation) : Generation :=
  { g with stances := g.stances.mapValues fun _ s => s.mapFloats f }

/-- Whether every number in the generation is finite. -/
def isFinite (g : Generation) : Bool := g.stances.values.all Stance.isFinite

end Generation

end Rescale
