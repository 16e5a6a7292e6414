import Rescale.Job.Change

/-!
# Events

What the autoscaler tells about its decisions.

An event belongs to a job and has a reason, a message and, where repeats are
unwanted, the interval that should pass before it is told again. Repeats are
recognised by the event's key, or by its message where it has none.

## Main definitions

* `Event`: Something that was noticed or decided.
* `Event.scalingReport`: The event that lists the changes of a proposal.
-/

namespace Rescale

/-- How serious an event is. -/
inductive Severity where
  | normal
  | warning
  deriving DecidableEq, Repr

/-- Something that was noticed or decided about a job. -/
structure Event where
  job : JobId
  severity : Severity
  reason : String
  message : String
  /-- What makes two events repeats of each other, if not the message. -/
  key : Option String := none
  /-- The least span between repeats; without one, every event is told. -/
  interval : Option Span := none
  deriving DecidableEq, Repr

namespace Event

/-- The event that lists the changes of a proposal under a heading. -/
def scalingReport (job : JobId) (heading : String) (p : Proposal) (interval : Span) : Event where
  job
  severity := .normal
  reason := "ScalingReport"
  message := heading ++ p.report
  interval := some interval

end Event

end Rescale
