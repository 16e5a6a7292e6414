import Rescale.Decimal.Places
import Rescale.Decision.Session
import Rescale.Job.Topology
import Rescale.Placement.Capacity
import Rescale.Tuning
import Rescale.Vertex.Scaler

/-!
# Proposals

Which changes a cycle proposes.

While garbage collection or the heap is under pressure, measured rates say
little and nothing is proposed. Otherwise each vertex that is not excluded gets
its decision, in the order of the vertices. The proposal stands unless all
vertices that it changes already process within the band spanned by their two
rate thresholds; then it is dropped as a whole.

## Main definitions

* `Engine`: How a decision finds targets, sizes and room.
* `pressure?`: The event that tells of memory pressure.
* `withinBand`: Whether all of some vertices run within their bands.
* `Engine.propose`: The changes that a cycle proposes.
-/

namespace Rescale

/-- How a decision finds targets, sizes task managers and looks for room. -/
structure Engine where
  scaler : Scaler := .rate
  tuner : Tuner := .heap
  capacity : Capacity := .unlimited
  deriving DecidableEq

namespace Engine

instance : Inhabited Engine := ⟨{}⟩

end Engine

/-- An event about memory pressure. -/
def pressureEvent (ctx : JobContext) (what key : String) (level : Float) : Event where
  job := ctx.id
  severity := .normal
  reason := "MemoryPressure"
  message :=
    what ++ " is " ++ Decimal.places 3 level
      ++ ", above the threshold; scaling decisions are suspended until it recovers"
  key := some key
  interval := some ctx.config.scaling.eventInterval

/-- The event that tells of memory pressure, if there is any. Garbage collection
    counts by its present value and comes first, the heap by its average. -/
def pressure? (ctx : JobContext) (readings : JobReadings) : Option Event :=
  let options := ctx.config.scaling
  let gc := ((readings.overall? .gcPressure).map (·.current)).filter
    (· > options.gcPressureThreshold)
  let heap := ((readings.overall? .heapMaxUsageRatio).map (·.average)).filter
    (· > options.heapUsageThreshold)
  (gc.map (pressureEvent ctx "GC pressure" "gcPressure")).or
    (heap.map (pressureEvent ctx "Heap usage" "heapUsage"))

/-- Whether a vertex processes within the band of its two rate thresholds. -/
def vertexWithinBand (v : VertexId) (readings : Readings) : Except DecisionError Bool := do
  let rate := (← requireReading v readings .trueProcessingRate).average
  let up := (← requireReading v readings .scaleUpRateThreshold).current
  let down := (← requireReading v readings .scaleDownRateThreshold).current
  return !(rate < smaller up down || rate > larger up down)

/-- Whether all of some vertices process within their bands. The first one that
    does not settles it, and vertices without readings do not count. -/
def withinBand (readings : JobReadings) : List VertexId → Except DecisionError Bool
  | [] => .ok true
  | v :: rest =>
    match readings.vertices.get? v with
    | none => withinBand readings rest
    | some r => do
      if ← vertexWithinBand v r then withinBand readings rest else return false

namespace Engine

/-- The change proposed for one vertex, if any. -/
def proposeVertex (e : Engine) (ctx : JobContext) (topology : Topology) (restart : Span)
    (now : Instant) (v : VertexId) (readings : Readings) : Step (Option Change) := do
  match topology.get? v with
  | none => throw (.unknownVertex v)
  | some stage =>
    -- Both steps that can fail come before the holds are set.
    let current ← Step.ofExcept (currentParallelism v readings)
    let s ← get
    let request : VertexRequest :=
      { vertex := v, inputs := stage.inputs, readings, history := s.history.ofVertex v, restart,
        now }
    let decision ← Step.ofExcept (e.scaler.decide ctx request s.pending)
    set { s with pending := decision.pending, events := s.events ++ decision.event.toList }
    return decision.target.bind fun target => (Change.of? current target readings).toOption

/-- The changes proposed for a list of vertices. -/
def proposeEach (e : Engine) (ctx : JobContext) (topology : Topology) (restart : Span)
    (now : Instant) : List (VertexId × Readings) → Step Proposal
  | [] => return ∅
  | (v, readings) :: rest =>
    if ctx.config.scaling.excluded.contains v then e.proposeEach ctx topology restart now rest
    else do
      let change ← e.proposeVertex ctx topology restart now v readings
      let others ← e.proposeEach ctx topology restart now rest
      return match change with
        | some c => others.insert v c
        | none => others

/-- The changes that a cycle proposes, none if nothing should move. -/
def propose (e : Engine) (ctx : JobContext) (topology : Topology) (restart : Span)
    (now : Instant) : Step Proposal := do
  let s ← get
  match pressure? ctx s.readings with
  | some event =>
    Step.tell [event]
    return ∅
  | none =>
    let proposal ← e.proposeEach ctx topology restart now s.readings.vertices.toList
    -- Holds and events of the loop stay, even if the band then drops the proposal.
    if ← Step.ofExcept (withinBand s.readings proposal.keys) then return ∅ else return proposal

end Engine

end Rescale
