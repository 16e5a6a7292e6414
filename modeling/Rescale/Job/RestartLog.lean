import Rescale.Config.Basic
import Rescale.SortedMap.Basic

/-!
# Restart Log

The applied decisions of a job and how long the job took to run again.

Applying a decision restarts the job. The decision opens an entry, and the first
cycle that sees the job running closes it with the time that has passed. Only
the latest entry can be closed. The observed times can stand in for the
configured restart time when targets are computed.

## Main definitions

* `RestartLog`: Decisions with their restart times.
* `RestartLog.add`: Add a decision.
* `RestartLog.observeRunning`: Close the latest entry.
* `RestartLog.estimate`: The restart time to reckon with.
-/

namespace Rescale

/-- Applied decisions, each with the restart time observed for it, if any. -/
abbrev RestartLog := SortedMap Instant (Option Span)

namespace RestartLog

/-- Add a decision; with `none` its restart is still to be observed. -/
def add (log : RestartLog) (decided : Instant) (restart : Option Span) : RestartLog :=
  log.insert decided restart

/-- Close the latest entry if it is open and not later than `now`: the span that
    it took, and the log with the span entered. -/
def observeRunning (log : RestartLog) (now : Instant) : Option (Span × RestartLog) :=
  match log.last? with
  | some (started, none) =>
    match now.since? started with
    | some span => some (span, log.insert started (some span))
    | none => none
  | _ => none

/-- The longest of some spans. -/
def longest? : List Span → Option Span
  | [] => none
  | s :: rest =>
    match longest? rest with
    | some t => some (s.max t)
    | none => some s

/-- The longest restart time observed. -/
def longestObserved? (log : RestartLog) : Option Span := longest? (log.values.filterMap id)

/-- The restart time to reckon with: the longest observed one up to the tracked
    limit where that is preferred and there is one, and the configured one
    otherwise. -/
def estimate (log : RestartLog) (options : Config.Restart) : Span :=
  if options.preferTracked then
    match log.longestObserved? with
    | some observed => observed.min options.trackedLimit
    | none => options.restartTime
  else options.restartTime

end RestartLog

end Rescale
