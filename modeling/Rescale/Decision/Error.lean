import Rescale.Config.Error
import Rescale.Job.Metric
import Rescale.Store.Error

/-!
# Decision Errors

What aborts a decision cycle.

That there is nothing to do, or that a decision is blocked or too large, is an
outcome and not an error.

## Main definitions

* `DecisionError`: The causes.
* `DecisionError.message`: Their wording.
* `requireReading`: A reading that a computation cannot do without.
-/

namespace Rescale

/-- What aborts a decision cycle. -/
inductive DecisionError where
  | store (cause : StoreError)
  | config (cause : ConfigError)
  /-- A vertex has readings but is not in the graph of its job. -/
  | unknownVertex (vertex : VertexId)
  | missingMetric (vertex : VertexId) (metric : Metric)
  /-- The source of snapshots failed. -/
  | source (why : String)
  deriving DecidableEq, Repr

namespace DecisionError

/-- The wording of an error. -/
def message : DecisionError → String
  | store cause => "state store error: " ++ cause.message
  | config cause => "config error: " ++ cause.message
  | unknownVertex v => "vertex " ++ v ++ " is not part of the job topology"
  | missingMetric v m => "metric " ++ m.title ++ " missing for vertex " ++ v
  | source why => "metrics source error: " ++ why

end DecisionError

/-- A reading that a computation cannot do without. -/
def requireReading (v : VertexId) (readings : Readings) (m : Metric) :
    Except DecisionError Reading :=
  match readings.get? m with
  | some r => .ok r
  | none => .error (.missingMetric v m)

/-- The parallelism that a vertex reports. -/
def currentParallelism (v : VertexId) (readings : Readings) : Except DecisionError Nat := do
  let r ← requireReading v readings .parallelism
  return parallelismOf r.current

end Rescale
