import Rescale.Decision.Error
import Rescale.Event.Basic
import Rescale.Job.PendingScaleDowns
import Rescale.Job.RestartLog
import Rescale.Store.Ledger

/-!
# Sessions

The state of one decision, and the steps that change it.

A decision works on copies of a job's records and on the readings of the cycle,
tells events, and writes to the ledger. Steps run one after the other; one that
fails ends the decision, and what was changed up to then stays changed.

## Main definitions

* `Session`: What a decision works on.
* `Step`: A step of a decision.
* `Step.ofExcept`: A computation as a step.
* `Step.tell`: Tell some events.
* `Step.read`, `Step.write`: Use the ledger.
-/

namespace Rescale

/-- What a decision works on. -/
structure Session where
  ledger : Ledger := {}
  readings : JobReadings := {}
  history : History := ∅
  restarts : RestartLog := ∅
  pending : PendingScaleDowns := {}
  /-- The events told so far. -/
  events : List Event := []

namespace Session

instance : Inhabited Session := ⟨{}⟩

end Session

/-- A step of a decision: it may fail, and it changes the session either way. -/
abbrev Step := ExceptT DecisionError (StateM Session)

namespace Step

/-- A computation as a step that changes nothing. -/
def ofExcept {α : Type} : Except DecisionError α → Step α
  | .ok x => pure x
  | .error e => throw e

/-- Tell some events. -/
def tell (events : List Event) : Step Unit :=
  modify fun s => { s with events := s.events ++ events }

/-- Read something from the store. -/
def read {α : Type} (kind : RecordKind) (f : Store → Except StoreError α) : Step α := do
  let s ← get
  match s.ledger.read kind f with
  | .ok x => return x
  | .error e => throw (.store e)

/-- Change the store. -/
def write (kind : RecordKind) (f : Store → Store) : Step Unit := do
  let s ← get
  match s.ledger.write kind f with
  | .ok ledger => set { s with ledger }
  | .error e => throw (.store e)

end Step

end Rescale
