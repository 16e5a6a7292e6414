import Rescale.Decision.Session
import Rescale.Elastic.Transition
import Rescale.Job.Context

/-!
# Storing a Decision

The records that an applied decision leaves behind.

The changes go into the history and the decision opens an entry of the restart
log. Every vertex with readings gets its parallelism as an override, the new one
if it changes and the reported one if not, and the overrides of memory tuning
are stored beside them. With the elastic policy on, the decision also makes a
generation: vertices that change get the stance that the policy moves them to,
vertices that do not change but still report keep theirs. The generation then
decides the parallelism of its vertices and their slot profiles. Last, the
number of applied decisions grows.

## Main definitions

* `parallelismOverrides`: The parallelism of every vertex after a proposal.
* `carriedOver`: The stances that a generation takes over unchanged.
* `nextGeneration`: The generation that a proposal makes.
* `Step.openEntry`: Enter a decision into history and log.
* `Step.persistGeneration`: Store a generation and what follows from it.
* `Step.persist`: Store a decision.
-/

namespace Rescale

/-- A number as an override. -/
def numberText (n : Nat) : String := String.ofList (Text.digits n)

/-- The parallelism of every vertex after a proposal, for a list of vertices. -/
def overridesFor (p : Proposal) : List (VertexId × Readings) → Except DecisionError Overrides
  | [] => .ok ∅
  | (v, readings) :: rest => do
    let parallelism ← match p.get? v with
      | some change => pure change.target
      | none => currentParallelism v readings
    let others ← overridesFor p rest
    return others.insert v (numberText parallelism)

/-- The parallelism of every vertex after a proposal. -/
def parallelismOverrides (readings : JobReadings) (p : Proposal) : Except DecisionError Overrides :=
  overridesFor p readings.vertices.toList

/-- The stances that a generation takes over unchanged: those of vertices that
    still report and do not change. -/
def carriedOver (readings : JobReadings) (p : Proposal) (previous : Option Generation) :
    SortedMap VertexId Stance :=
  match previous with
  | some g => g.stances.filter fun v _ => !p.contains v && readings.vertices.contains v
  | none => ∅

/-- Fresh stances for the vertices that change. -/
def freshGeneration (period : Nat) (p : Proposal) : Generation where
  period
  stances := p.mapValues fun _ c => Stance.ofReadings c.target c.readings

/-- The generation that a proposal makes. -/
def nextGeneration (options : Config.Elastic) (period : Nat) (readings : JobReadings) (p : Proposal)
    (previous : Option Generation) : Generation where
  period
  stances :=
    (carriedOver readings p previous).insertAll
      ((freshGeneration period p).advance previous options).stances

/-- The parallelism of every vertex, with that of a generation on top. -/
def withGeneration (overrides : Overrides) (g : Generation) : Overrides :=
  overrides.insertAll (g.stances.mapValues fun _ s => numberText s.parallelism)

/-- The slot profiles of a generation, on task managers of a size. -/
def profileOverrides (processSize : Nat) (g : Generation) : Overrides :=
  g.stances.mapValues fun _ s => (SlotProfile.ofLevel processSize s.memoryLevel).text

namespace Step

/-- The generation before a period, if there can be one. -/
def previousGeneration (job : JobId) : Nat → Step (Option Generation)
  | 0 => return none
  | period + 1 => read .generation fun s => s.generation? job period

/-- Store a generation and what follows from it. -/
def storeGeneration (ctx : JobContext) (overrides : Overrides) (g : Generation) : Step Unit := do
  write .generation fun s => s.putGeneration ctx.id g
  write .parallelism fun s => s.putParallelism ctx.id (withGeneration overrides g)
  let processSize := (ctx.processSize? ctx.config.memory).getD 0
  write .profiles fun s => s.putProfiles ctx.id (profileOverrides processSize g)

/-- Store the generation that a proposal makes, and what follows from it. -/
def persistGeneration (ctx : JobContext) (p : Proposal) (overrides : Overrides) : Step Unit := do
  -- The number is that of this decision, which is counted only at the end.
  let period ← read .period fun s => .ok (s.period ctx.id)
  let previous ← previousGeneration ctx.id period
  let session ← get
  storeGeneration ctx overrides
    (nextGeneration ctx.config.elastic period session.readings p previous)

/-- Enter a decision into history and log, and store both. The session's own
    change first, so they show the decision even if storing it fails. -/
def openEntry (ctx : JobContext) (now : Instant) (p : Proposal) : Step Unit := do
  modify fun s => { s with history := s.history.record now p }
  let history := (← get).history
  write .history fun s => s.putHistory ctx.id history
  modify fun s => { s with restarts := s.restarts.add now none }
  let restarts := (← get).restarts
  write .restartLog fun s => s.putRestartLog ctx.id restarts

/-- Store what vertices and options are set to. -/
def storeOverrides (job : JobId) (overrides tuning : Overrides) : Step Unit := do
  write .parallelism fun s => s.putParallelism job overrides
  write .configChanges fun s => s.putConfigChanges job tuning

/-- Count a decision. It settles what was held back. -/
def countDecision (job : JobId) : Step Unit := do
  write .period fun s => s.advancePeriod job
  modify fun s => { s with pending := s.pending.releaseAll }

/-- Store a decision. -/
def persist (ctx : JobContext) (now : Instant) (p : Proposal) (tuning : Overrides) : Step Unit := do
  openEntry ctx now p
  -- By now history and log are stored, and this can still fail.
  let overrides ← ofExcept (parallelismOverrides (← get).readings p)
  storeOverrides ctx.id overrides tuning
  if ctx.config.elastic.enabled then
    persistGeneration ctx p overrides
  countDecision ctx.id

end Step

end Rescale
