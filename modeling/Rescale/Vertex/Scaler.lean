import Rescale.Decimal.Places
import Rescale.Event.Basic
import Rescale.Job.PendingScaleDowns
import Rescale.Vertex.Demand

/-!
# Vertex Scalers

From demand to a decision about one vertex.

More demand is followed at once, unless the last scale-up of the vertex brought
less than the expected part of its gain: then scaling up further is refused and
an event says so. Less demand only opens or raises a hold. Once the hold has
lasted for the scale-down interval it is followed, at the highest parallelism
recommended meanwhile, as long as that is still a scale-down. Demand that is not
below the present parallelism ends the hold.

## Main definitions

* `gains`: The expected and the actual gain of the last scale-up.
* `shortfall?`: The gains, if the last scale-up was ineffective.
* `VertexDecision`: A decision about one vertex.
* `Demand.decide`: The decision that follows a demand.
* `Scaler`: How targets are found.
-/

namespace Rescale

/-- A decision about one vertex. -/
structure VertexDecision where
  /-- The parallelism to change to, if any. -/
  target : Option Nat
  /-- The holds of the job afterwards. -/
  pending : PendingScaleDowns
  event : Option Event := none
  deriving DecidableEq

/-- The expected and the actual gain in rate of a scale-up that started at
    `lastRate`. Rates are expected to grow like the parallelism. -/
def gains (change : Change) (lastRate trueRate : Float) : Float × Float :=
  let expected := lastRate * Float.ofNat change.target / Float.ofNat change.current
  (expected - lastRate, trueRate - lastRate)

/-- The expected and the actual gain of the last scale-up, if it led to the
    present parallelism and brought less than the required part of its gain. -/
def shortfall? (threshold : Float) (history : VertexHistory) (current : Nat) (trueRate : Float) :
    Option (Float × Float) :=
  match history.last? with
  | none => none
  | some (_, last) =>
    if !last.isScaleUp || last.target != current || last.current == 0 then none
    else
      match last.readings.get? .trueProcessingRate with
      | none => none
      | some rate =>
        let (expected, actual) := gains last rate.average trueRate
        if expected ≤ 0.0 then none
        else if actual / expected ≥ threshold then none
        else some (expected, actual)

/-- The event that says that a scale-up was ineffective. -/
def ineffectiveEvent (ctx : JobContext) (v : VertexId) (expected actual : Float) : Event where
  job := ctx.id
  severity := .warning
  reason := "IneffectiveScaling"
  message :=
    "Ineffective scaling detected for " ++ v ++ ": expected processing rate increase "
      ++ Decimal.places 2 expected ++ ", actual " ++ Decimal.places 2 actual
      ++ ". Blocking further scale-up."
  key := some v
  interval := some ctx.config.scaling.eventInterval

/-- What a hold allows: nothing until it has lasted for the interval, then its
    peak if that is below the present parallelism. -/
def Hold.allowed? (hold : Hold) (now : Instant) (interval : Span) (current : Nat) : Option Nat :=
  if (now.since hold.since).millis < interval.millis then none
  else if current ≤ hold.peak then none
  else some hold.peak

namespace Demand

/-- The decision that follows a demand. -/
def decide (d : Demand) (ctx : JobContext) (r : VertexRequest) (pending : PendingScaleDowns) :
    VertexDecision :=
  match d with
  | unusable => ⟨none, pending, none⟩
  | needs current target trueRate =>
    if target == current then ⟨none, pending.release r.vertex, none⟩
    else if current < target then
      match shortfall? ctx.config.vertex.ineffectiveThreshold r.history current trueRate with
      | some (expected, actual) =>
        ⟨none, pending.release r.vertex, some (ineffectiveEvent ctx r.vertex expected actual)⟩
      | none => ⟨some target, pending.release r.vertex, none⟩
    else
      let hold := pending.proposed r.vertex r.now target
      ⟨hold.allowed? r.now ctx.config.vertex.scaleDownInterval current,
        pending.propose r.vertex r.now target, none⟩

end Demand

/-- How the target of a vertex is found. -/
inductive Scaler where
  /-- By the ratio of needed to observed rates. -/
  | rate
  /-- From a list, with no change for vertices that are not on it. -/
  | listed (targets : SortedMap VertexId Nat)
  deriving DecidableEq

namespace Scaler

/-- The decision about one vertex. -/
def decide (s : Scaler) (ctx : JobContext) (r : VertexRequest) (pending : PendingScaleDowns) :
    Except DecisionError VertexDecision :=
  match s with
  | rate => do
    let demand ← demandOf ctx.config r
    return demand.decide ctx r pending
  | listed targets => .ok ⟨targets.get? r.vertex, pending, none⟩

end Scaler

end Rescale
