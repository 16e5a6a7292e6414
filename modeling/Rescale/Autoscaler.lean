import Rescale.Decision.Decide
import Rescale.Job.Snapshot

/-!
# The Autoscaler

Decision cycles over the jobs of a source.

A cycle loads the records of a job, closes the pending restart measurement
(readings come only from jobs that run), takes a decision, and stores the holds
if the decision touched them. A round runs one cycle for every job that the
source knows; a cycle that fails is left behind, and the others still run.

## Main definitions

* `Autoscaler`: An engine with its options.
* `Journal`: What cycles leave behind.
* `Autoscaler.runCycle`: The cycle of one job.
* `Autoscaler.runRound`: A cycle of every job.
* `Autoscaler.runRounds`: A round at each of some instants.
-/

namespace Rescale

/-- An engine with the options that it decides by. -/
structure Autoscaler where
  engine : Engine := {}
  config : Config := {}
  deriving DecidableEq

/-- What cycles leave behind: the ledger and the events told. -/
structure Journal where
  ledger : Ledger := {}
  events : List Event := []

namespace Journal

instance : Inhabited Journal := ⟨{}⟩

end Journal

namespace Step

/-- Load the records of a job into the session. -/
def load (job : JobId) : Step Unit := do
  let history ← read .history fun s => s.history? job
  let restarts ← read .restartLog fun s => .ok (s.restartLog? job)
  let holds ← read .holds fun s => .ok (s.holds? job)
  modify fun s =>
    { s with
      history := history.getD ∅
      restarts := restarts.getD ∅
      pending := PendingScaleDowns.ofHolds (holds.getD ∅) }

/-- Close the pending restart measurement, if there is one. -/
def closeRestart (job : JobId) (now : Instant) : Step Unit := do
  match (← get).restarts.observeRunning now with
  | some (_, restarts) =>
    modify fun s => { s with restarts }
    write .restartLog fun s => s.putRestartLog job restarts
  | none => return ()

/-- Store the holds of a job, if they were changed. -/
def storeHolds (job : JobId) : Step Unit := do
  let pending := (← get).pending
  if pending.changed then
    write .holds fun s => s.putHolds job pending.holds

end Step

namespace Autoscaler

/-- The context in which a snapshot is decided on. -/
def context (a : Autoscaler) (job : JobId) (snapshot : Snapshot) : JobContext where
  id := job
  config := a.config
  cores := snapshot.cores
  memory := snapshot.memory

/-- The steps of a cycle on the readings of a snapshot. -/
def cycleSteps (a : Autoscaler) (job : JobId) (snapshot : Snapshot) (now : Instant) :
    Step Outcome := do
  Step.load job
  Step.closeRestart job now
  let outcome ← a.engine.decide (a.context job snapshot) snapshot.topology now
  Step.storeHolds job
  return outcome

/-- The cycle of a job on a snapshot. -/
def runSnapshot (a : Autoscaler) (job : JobId) (snapshot : Snapshot) (now : Instant) (j : Journal) :
    Except DecisionError Outcome × Journal :=
  let start : Session := { ledger := j.ledger, readings := snapshot.readings, events := j.events }
  let (result, stop) := (a.cycleSteps job snapshot now).run.run start
  (result, ⟨stop.ledger, stop.events⟩)

/-- The cycle of one job. There is no outcome as long as the source has no
    snapshot of the job. -/
def runCycle (a : Autoscaler) (source : Source) (job : JobId) (now : Instant) (j : Journal) :
    Except DecisionError (Option Outcome) × Journal :=
  match source.snapshot? job with
  | .error why => (.error (.source why), j)
  | .ok none => (.ok none, j)
  | .ok (some snapshot) =>
    let (result, j) := a.runSnapshot job snapshot now j
    (result.map some, j)

/-- A cycle of each of some jobs, with the outcomes of those that had one. -/
def runEach (a : Autoscaler) (source : Source) (now : Instant) :
    List JobId → Journal → List (JobId × Outcome) × Journal
  | [], j => ([], j)
  | job :: rest, j =>
    let (result, j) := a.runCycle source job now j
    let (outcomes, j) := runEach a source now rest j
    match result with
    | .ok (some outcome) => ((job, outcome) :: outcomes, j)
    | _ => (outcomes, j)

/-- A cycle of every job that the source knows. -/
def runRound (a : Autoscaler) (source : Source) (now : Instant) (j : Journal) :
    Except String (List (JobId × Outcome)) × Journal :=
  match source.jobs with
  | .error why => (.error why, j)
  | .ok jobs =>
    let (outcomes, j) := a.runEach source now jobs j
    (.ok outcomes, j)

/-- A round at each of some instants. -/
def runRounds (a : Autoscaler) (source : Source) (instants : List Instant) (j : Journal) :
    Journal :=
  instants.foldl (fun j now => (a.runRound source now j).2) j

end Autoscaler

end Rescale
