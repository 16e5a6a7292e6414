import Rescale.Ceiling.Cluster
import Rescale.Ceiling.Quota
import Rescale.Decision.Outcome
import Rescale.Decision.Persist
import Rescale.Decision.Propose

/-!
# Decisions

One decision about one job.

A decision passes its gates in order. First there has to be a proposal. The
recommendation is then entered into the readings and reported as an event,
whether or not it is going to be applied. Scaling has to be enabled and the
instant outside of all blackout windows. Memory tuning has its say, and under
the tuned options the proposal has to fit into the cluster and the quotas. Only
what has passed all gates is stored.

## Main definitions

* `recommend`: Enter a proposal into readings.
* `blockReason?`: Why a decision must not be applied.
* `Engine.ceiling?`: The ceiling that a proposal runs into.
* `Engine.decide`: One decision.
-/

namespace Rescale

/-- Enter the parallelisms of a proposal into readings, as recommendations. -/
def recommend (readings : JobReadings) (p : Proposal) : JobReadings :=
  { readings with
    vertices := readings.vertices.mapValues fun v r =>
      match p.get? v with
      | some change => r.insert .recommendedParallelism (Reading.point (Float.ofNat change.target))
      | none => r }

/-- Why a decision at an instant must not be applied, if there is a reason. -/
def blockReason? (config : Config) (now : Instant) : Option BlockReason :=
  if !config.scaling.enabled then some .disabled
  else if config.inBlackout now then some .blackout
  else none

/-- The heading under which a proposal is reported. -/
def reportHeading : Option BlockReason → String
  | some reason => "Scaling execution disabled (" ++ reason.text ++ "), recommended changes:"
  | none => "Scaling execution enabled, begin scaling vertices:"

/-- The options that hold once tuning has had its say. -/
def tunedConfig (config : Config) (tuning : Overrides) : Except DecisionError Config :=
  if config.memory.tuningEnabled then
    match config.withOverrides tuning with
    | .ok tuned => .ok tuned
    | .error e => .error (.config e)
  else .ok config

/-- The event that tells that a quota is reached. -/
def quotaEvent (ctx : JobContext) (interval : Span) (c : Ceiling) : Event where
  job := ctx.id
  severity := .warning
  reason := "ResourceQuotaReached"
  message := "Resource quota reached (" ++ c.text ++ "), scaling is skipped"
  interval := some interval

namespace Engine

/-- The ceiling that a proposal runs into, if any: that of the cluster, or else
    that of the quotas, which is told as an event. -/
def ceiling? (e : Engine) (ctx : JobContext) (tuned : Config) (topology : Topology)
    (readings : JobReadings) (p : Proposal) : Step (Option Ceiling) := do
  let memory := ctx.processSize? tuned.memory
  match ← Step.ofExcept (clusterCeiling tuned.scaling ctx.cores memory readings p e.capacity) with
  | some c => return some c
  | none =>
    match quotaCeiling tuned ctx.cores memory topology p with
    | some c =>
      Step.tell [quotaEvent ctx tuned.scaling.eventInterval c]
      return some c
    | none => return none

/-- Apply a proposal that may be applied, unless a ceiling is in the way. -/
def applyProposal (e : Engine) (ctx : JobContext) (topology : Topology) (now : Instant)
    (p : Proposal) : Step Outcome := do
  let readings := (← get).readings
  let tuning := e.tuner.tune ctx readings
  -- Tuning tells its events even where its overrides turn out to be no options.
  Step.tell tuning.events
  let tuned ← Step.ofExcept (tunedConfig ctx.config tuning.overrides)
  match ← e.ceiling? ctx tuned topology readings p with
  | some c => return .limited c
  | none =>
    Step.persist ctx now p tuning.overrides
    return .scaled

/-- One decision about a job. -/
def decide (e : Engine) (ctx : JobContext) (topology : Topology) (now : Instant) :
    Step Outcome := do
  let restart := (← get).restarts.estimate ctx.config.restart
  let p ← e.propose ctx topology restart now
  if p.isEmpty then return .noChange
  else
    -- Recommended and reported before the next gate, so also where that blocks.
    modify fun s => { s with readings := recommend s.readings p }
    let reason := blockReason? ctx.config now
    Step.tell [Event.scalingReport ctx.id (reportHeading reason) p ctx.config.scaling.eventInterval]
    match reason with
    | some reason => return .blocked reason
    | none => e.applyProposal ctx topology now p

end Engine

end Rescale
