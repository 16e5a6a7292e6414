import Rescale.Decision.Error
import Rescale.Job.Change
import Rescale.Job.Context
import Rescale.Vertex.KeyGroups

/-!
# Demand

The parallelism that a vertex needs for its load.

The capacity a vertex needs is its incoming rate over the target utilization,
plus what it takes to work off the backlog of a restart in time. The present
parallelism is scaled by the ratio of that capacity to the rate at which the
vertex truly processes, but never down by more than the configured part. The
result is rounded up, kept within the bounds of the vertex, and for a vertex
with inputs aligned to its key groups.

A vertex whose true rate is not a positive finite number has no demand to speak
of.

## Main definitions

* `VertexRequest`: What is known of a vertex in one cycle.
* `Bounds`: The range of parallelisms of a vertex.
* `scaleFactor`: The ratio by which the parallelism is scaled.
* `instancesFor`: The number of instances that a need is rounded up to.
* `Demand`: The present and the needed parallelism.
* `demandOf`: The demand of a vertex.
-/

namespace Rescale

/-- What is known of a vertex in one cycle. -/
structure VertexRequest where
  vertex : VertexId
  /-- The vertices that feed it. -/
  inputs : SortedSet VertexId := ∅
  readings : Readings
  history : VertexHistory := ∅
  /-- The restart time to reckon with. -/
  restart : Span := ⟨0⟩
  now : Instant
  deriving DecidableEq

/-- The larger of two numbers; one that is not a number gives way. -/
def larger (x y : Float) : Float :=
  if x.isNaN then y else if y.isNaN then x else if x < y then y else x

/-- The smaller of two numbers; one that is not a number gives way. -/
def smaller (x y : Float) : Float :=
  if x.isNaN then y else if y.isNaN then x else if y < x then y else x

/-- The range of parallelisms of a vertex. -/
structure Bounds where
  lower : Nat
  upper : Nat
  deriving DecidableEq, Repr

namespace Bounds

/-- The nearest parallelism in the range. -/
def clamp (b : Bounds) (n : Nat) : Nat := max b.lower (min n b.upper)

/-- The bounds of a vertex, from the options and the number of key groups that
    limits it, if that is known. -/
def ofOptions (options : Config.Vertex) (keyGroups : Option Nat) : Bounds :=
  let upper := match keyGroups with
    | some n => min n options.maxParallelism
    | none => options.maxParallelism
  ⟨min options.minParallelism upper, upper⟩

end Bounds

/-- The number of key groups of a vertex, which is its highest parallelism. -/
def keyGroups? (readings : Readings) : Option Nat :=
  (readings.get? .maxParallelism).map fun r => max (parallelismOf r.current) 1

/-- The bounds of the vertex of a request. -/
def VertexRequest.bounds (r : VertexRequest) (options : Config.Vertex) : Bounds :=
  Bounds.ofOptions options (keyGroups? r.readings)

/-- The ratio by which the parallelism is scaled for a load. -/
def scaleFactor (config : Config) (restart : Span) (trueRate targetRate : Float) : Float :=
  let catchUp := config.restart.catchUp.seconds
  let backlog := if 0.0 < catchUp then targetRate * restart.seconds / catchUp else 0.0
  let required := targetRate / config.vertex.targetUtilization + backlog
  larger (required / trueRate) (1.0 - config.vertex.maxScaleDownFactor)

/-- The number of instances, with 32 bits, that a need is rounded up to. What is
    not a number asks for as many as there can be. -/
def instancesFor (need : Float) : Nat :=
  if need.isNaN then 4294967295
  else
    let whole := need.toUInt32
    if whole.toFloat < need then min (whole.toNat + 1) 4294967295 else whole.toNat

/-- The parallelism for a scale factor, rounded up and with 32 bits. -/
def scaledParallelism (current : Nat) (factor : Float) : Nat :=
  instancesFor (Float.ofNat current * factor)

/-- What a vertex needs. -/
inductive Demand where
  /-- The true rate cannot be used. -/
  | unusable
  /-- The present and the needed parallelism, at a true rate. -/
  | needs (current target : Nat) (trueRate : Float)
  deriving DecidableEq, Repr

/-- The needed parallelism of a vertex before it is aligned to key groups. -/
def boundedTarget (config : Config) (r : VertexRequest) (current : Nat)
    (trueRate targetRate : Float) : Nat :=
  (r.bounds config.vertex).clamp
    (scaledParallelism current (scaleFactor config r.restart trueRate targetRate))

/-- Align a target to the key groups of a vertex, if it has inputs. -/
def alignedTarget (config : Config) (r : VertexRequest) (target : Nat) : Nat :=
  match keyGroups? r.readings with
  | some n =>
    if r.inputs.isEmpty then target
    else alignToKeyGroups target n (r.bounds config.vertex).upper
  | none => target

/-- The demand of a vertex. -/
def demandOf (config : Config) (r : VertexRequest) : Except DecisionError Demand := do
  let current ← currentParallelism r.vertex r.readings
  let trueRate := (← requireReading r.vertex r.readings .trueProcessingRate).average
  let targetRate := (← requireReading r.vertex r.readings .targetDataRate).average
  if !trueRate.isFinite || trueRate ≤ 0.0 then return .unusable
  else
    let target := alignedTarget config r (boundedTarget config r current trueRate targetRate)
    return .needs current target trueRate

end Rescale
