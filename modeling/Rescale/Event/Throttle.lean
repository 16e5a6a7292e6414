import Rescale.Event.Basic

/-!
# Throttling

Which events are logged when they repeat.

An event with an interval is logged unless an event with the same job, reason
and key was logged less than that interval ago. Only logged events with an
interval count for later ones: an event that is dropped starts no new interval,
and one without an interval is always logged and leaves no trace.

How long ago that was is told by a clock that does not run backwards, which need
not be the calendar's.

## Main definitions

* `EventKey`: What makes two events repeats.
* `Tick`: A reading of the clock.
* `Throttle`: The last time each key was logged.
* `Throttle.accept`: Whether an event is logged now.
* `LogLine`: A logged event.
-/

namespace Rescale

/-- What makes two events repeats of each other. -/
structure EventKey where
  job : JobId
  reason : String
  detail : String
  deriving DecidableEq, Repr

namespace Event

/-- The key by which repeats of an event are recognised. -/
def throttleKey (e : Event) : EventKey := ⟨e.job, e.reason, e.key.getD e.message⟩

end Event

/-- A reading of a clock that does not run backwards, in nanoseconds from some
    start. -/
structure Tick where
  nanos : Nat
  deriving DecidableEq, Repr

/-- The last time that each key was logged. -/
structure Throttle where
  logged : List (EventKey × Tick) := []
  deriving DecidableEq

namespace Throttle

/-- When a key was logged last. -/
def last? (t : Throttle) (key : EventKey) : Option Tick := t.logged.lookup key

/-- Note that a key is logged now. -/
def note (t : Throttle) (key : EventKey) (now : Tick) : Throttle :=
  ⟨(key, now) :: t.logged.filter fun e => e.1 != key⟩

/-- Whether an event is logged now, and what is remembered afterwards. -/
def accept (t : Throttle) (e : Event) (now : Tick) : Bool × Throttle :=
  match e.interval with
  | none => (true, t)
  | some interval =>
    match t.last? e.throttleKey with
    | some last =>
      if now.nanos - last.nanos < interval.millis * 1000000 then (false, t)
      else (true, t.note e.throttleKey now)
    | none => (true, t.note e.throttleKey now)

end Throttle

/-- A logged event. -/
structure LogLine where
  severity : Severity
  job : JobId
  reason : String
  message : String
  deriving DecidableEq, Repr

namespace Throttle

/-- Deliver an event to the log: the line that it adds, if any. -/
def log (t : Throttle) (e : Event) (now : Tick) : Option LogLine × Throttle :=
  let (admitted, t) := t.accept e now
  (if admitted then some ⟨e.severity, e.job, e.reason, e.message⟩ else none, t)

end Throttle

end Rescale
