import Rescale.Decision.Decide
import Rescale.Proofs.Contract
import Rescale.Proofs.Decision.Persist

/-!
# Errors of a Decision

What a decision can fail over.

All that a decision computes it computes from readings, and the only thing that
these computations miss is a reading. Besides, a vertex may be missing in the
graph, and an access to the store may fail. Options are an error in one place
only, where the overrides of tuning are laid over them. So a decision whose
tuning makes sound overrides fails over its data: the graph, the readings or the
store. The source of the snapshot is asked before the decision and is never its
error.

## Main definitions

* `AsksReadings`: A computation fails over a missing reading or not at all.
* `DecisionError.OverData`: The graph, the readings or the store are at fault.

## Theorems

* `asksReadings_bind` and its siblings: The computations of a decision ask for
  readings and for nothing else.
* `overData_propose`, `overData_persist`: The stages of a decision.
* `overData_decide`: A decision with sound overrides fails over its data.
-/

namespace Rescale

/-! ### Computations -/

/-- A computation fails over a missing reading or not at all. -/
def AsksReadings {α : Type} (x : Except DecisionError α) : Prop :=
  ∀ err, x = .error err → ∃ v m, err = .missingMetric v m

section AsksReadings

variable {α β : Type}

theorem asksReadings_ok (a : α) : AsksReadings (.ok a) := by
  intro err h
  cases h

theorem asksReadings_bind {x : Except DecisionError α} {f : α → Except DecisionError β}
    (hx : AsksReadings x) (hf : ∀ a, AsksReadings (f a)) : AsksReadings (x >>= f) := by
  cases x with
  | ok a => exact hf a
  | error e =>
      intro err h
      exact hx err (congrArg Except.error (Except.error.inj h))

theorem asksReadings_requireReading (v : VertexId) (readings : Readings) (m : Metric) :
    AsksReadings (requireReading v readings m) := by
  unfold requireReading
  intro err h
  cases hr : readings.get? m with
  | some r => rw [hr] at h; cases h
  | none => rw [hr] at h; exact ⟨v, m, (Except.error.inj h).symm⟩

theorem asksReadings_currentParallelism (v : VertexId) (readings : Readings) :
    AsksReadings (currentParallelism v readings) :=
  asksReadings_bind (asksReadings_requireReading v readings _) fun _ => asksReadings_ok _

theorem asksReadings_demandOf (config : Config) (r : VertexRequest) :
    AsksReadings (demandOf config r) := by
  unfold demandOf
  refine asksReadings_bind (asksReadings_currentParallelism _ _) fun current => ?_
  refine asksReadings_bind (asksReadings_requireReading _ _ _) fun trueRate => ?_
  refine asksReadings_bind (asksReadings_requireReading _ _ _) fun targetRate => ?_
  split
  · exact asksReadings_ok _
  · exact asksReadings_ok _

theorem asksReadings_decide (s : Scaler) (ctx : JobContext) (r : VertexRequest)
    (pending : PendingScaleDowns) : AsksReadings (s.decide ctx r pending) := by
  cases s with
  | rate => exact asksReadings_bind (asksReadings_demandOf _ r) fun _ => asksReadings_ok _
  | listed targets => exact asksReadings_ok _

/-- By induction on the vertices: the band asks for nothing but readings. -/
theorem asksReadings_withinBand (readings : JobReadings) (vertices : List VertexId) :
    AsksReadings (withinBand readings vertices) := by
  induction vertices with
  | nil => exact asksReadings_ok _
  | cons v rest ih =>
      rw [withinBand]
      cases readings.vertices.get? v with
      | none => exact ih
      | some r =>
          have hvertex : AsksReadings (vertexWithinBand v r) := by
            refine asksReadings_bind (asksReadings_requireReading _ _ _) fun rate => ?_
            refine asksReadings_bind (asksReadings_requireReading _ _ _) fun up => ?_
            exact asksReadings_bind (asksReadings_requireReading _ _ _) fun _ => asksReadings_ok _
          refine asksReadings_bind hvertex fun within => ?_
          cases within with
          | true => exact ih
          | false => exact asksReadings_ok _

/-- By induction on the vertices: so do the overrides. -/
theorem asksReadings_overridesFor (p : Proposal) (vertices : List (VertexId × Readings)) :
    AsksReadings (overridesFor p vertices) := by
  induction vertices with
  | nil => exact asksReadings_ok _
  | cons entry rest ih =>
      rcases entry with ⟨v, readings⟩
      rw [overridesFor_cons, settledParallelism]
      refine asksReadings_bind ?_ fun parallelism => asksReadings_bind ih fun _ => asksReadings_ok _
      cases p.get? v with
      | some change => exact asksReadings_ok _
      | none => exact asksReadings_currentParallelism v readings

/-- By induction on the vertices: so does the highest parallelism. -/
theorem asksReadings_highestParallelism (p : Proposal) (vertices : List (VertexId × Readings)) :
    AsksReadings (highestParallelism p vertices) := by
  induction vertices with
  | nil => exact asksReadings_ok _
  | cons entry rest ih =>
      rcases entry with ⟨v, readings⟩
      rw [highestParallelism]
      refine asksReadings_bind (asksReadings_requireReading _ _ _) fun r => ?_
      exact asksReadings_bind ih fun _ => asksReadings_ok _

theorem asksReadings_clusterCeiling (options : Config.Scaling) (cores : Option Float)
    (memory : Option Nat) (readings : JobReadings) (p : Proposal) (capacity : Capacity) :
    AsksReadings (clusterCeiling options cores memory readings p capacity) := by
  unfold clusterCeiling
  split
  · split
    · exact asksReadings_ok _
    · refine asksReadings_bind ?_ fun after => asksReadings_ok _
      exact asksReadings_bind (asksReadings_highestParallelism p _) fun _ => asksReadings_ok _
  · exact asksReadings_ok _

end AsksReadings

/-! ### Steps -/

/-- The graph, the readings or the store of a job are at fault, and neither its
    options nor the source of its snapshot. -/
def DecisionError.OverData : DecisionError → Prop
  | store _ | unknownVertex _ | missingMetric _ _ => True
  | config _ | source _ => False

namespace Step

open DecisionError

variable {α : Type} {ctx : JobContext} {now : Instant} {p : Proposal}

theorem overData_ofExcept {x : Except DecisionError α} (hx : AsksReadings x) :
    FailsOnly OverData (ofExcept x) := by
  refine meets_ofExcept (fun _ _ _ _ => trivial) fun _ err _ h => ?_
  obtain ⟨v, m, rfl⟩ := hx err h
  trivial

theorem overData_read (kind : RecordKind) (f : Store → Except StoreError α) :
    FailsOnly OverData (read kind f) :=
  meets_read (fun _ _ _ _ => trivial) fun _ _ _ => trivial

theorem overData_write (kind : RecordKind) (f : Store → Store) :
    FailsOnly OverData (write kind f) :=
  meets_write (fun _ _ => trivial) fun _ _ _ => trivial

theorem overData_get : FailsOnly OverData get := meets_get fun _ _ => trivial

theorem overData_modify (f : Session → Session) : FailsOnly OverData (modify f) :=
  meets_modify fun _ _ => trivial

theorem overData_pure (a : α) : FailsOnly OverData (pure a) := meets_pure fun _ _ => trivial

theorem overData_openEntry : FailsOnly OverData (openEntry ctx now p) := by
  unfold openEntry
  refine meets_bind (overData_modify _) fun _ => meets_bind overData_get fun _ => ?_
  refine meets_bind (overData_write _ _) fun _ => meets_bind (overData_modify _) fun _ => ?_
  exact meets_bind overData_get fun _ => overData_write _ _

theorem overData_storeOverrides (job : JobId) (overrides tuning : Overrides) :
    FailsOnly OverData (storeOverrides job overrides tuning) :=
  meets_bind (overData_write _ _) fun _ => overData_write _ _

theorem overData_previousGeneration (job : JobId) (period : Nat) :
    FailsOnly OverData (previousGeneration job period) := by
  cases period with
  | zero => exact overData_pure _
  | succ period => exact overData_read _ _

theorem overData_persistGeneration (overrides : Overrides) :
    FailsOnly OverData (persistGeneration ctx p overrides) := by
  unfold persistGeneration storeGeneration
  refine meets_bind (overData_read _ _) fun period => ?_
  refine meets_bind (overData_previousGeneration ctx.id period) fun previous => ?_
  refine meets_bind overData_get fun _ => meets_bind (overData_write _ _) fun _ => ?_
  exact meets_bind (overData_write _ _) fun _ => overData_write _ _

theorem overData_countDecision (job : JobId) : FailsOnly OverData (countDecision job) :=
  meets_bind (overData_write _ _) fun _ => overData_modify _

/-- Storing a decision asks for readings and uses the store. -/
theorem overData_persist (tuning : Overrides) : FailsOnly OverData (persist ctx now p tuning) := by
  unfold persist
  refine meets_bind overData_openEntry fun _ => meets_bind overData_get fun _ => ?_
  refine meets_bind (overData_ofExcept (asksReadings_overridesFor p _)) fun overrides => ?_
  refine meets_bind (overData_storeOverrides _ _ _) fun _ => ?_
  cases ctx.config.elastic.enabled with
  | false => exact overData_countDecision _
  | true =>
      exact meets_bind (overData_persistGeneration overrides) fun _ => overData_countDecision _

end Step

namespace Engine

open DecisionError Step

variable (e : Engine) (ctx : JobContext) (topology : Topology) (restart : Span) (now : Instant)

theorem overData_proposeVertex (v : VertexId) (readings : Readings) :
    FailsOnly OverData (e.proposeVertex ctx topology restart now v readings) := by
  unfold proposeVertex
  cases topology.get? v with
  | none => exact meets_throw fun _ _ => trivial
  | some stage =>
      refine meets_bind (overData_ofExcept (asksReadings_currentParallelism v readings))
        fun current => ?_
      refine meets_bind overData_get fun s => ?_
      refine meets_bind (overData_ofExcept (asksReadings_decide _ ctx _ _)) fun decision => ?_
      exact meets_bind (meets_set fun _ _ => trivial) fun _ => overData_pure _

/-- By induction on the vertices: each of them fails over its data. -/
theorem overData_proposeEach (vertices : List (VertexId × Readings)) :
    FailsOnly OverData (e.proposeEach ctx topology restart now vertices) := by
  induction vertices with
  | nil => exact overData_pure _
  | cons entry rest ih =>
      unfold proposeEach
      split
      · exact ih
      · refine meets_bind (e.overData_proposeVertex ctx topology restart now _ _) fun change => ?_
        exact meets_bind ih fun others => overData_pure _

theorem overData_propose : FailsOnly OverData (e.propose ctx topology restart now) := by
  unfold propose
  refine meets_bind overData_get fun s => ?_
  cases pressure? ctx s.readings with
  | some event => exact meets_bind (overData_modify _) fun _ => overData_pure _
  | none =>
      refine meets_bind (e.overData_proposeEach ctx topology restart now _) fun proposal => ?_
      refine meets_bind (overData_ofExcept (asksReadings_withinBand _ _)) fun within => ?_
      cases within with
      | true => exact overData_pure _
      | false => exact overData_pure _

theorem overData_ceiling? (tuned : Config) (readings : JobReadings) (p : Proposal) :
    FailsOnly OverData (e.ceiling? ctx tuned topology readings p) := by
  unfold ceiling?
  refine meets_bind (overData_ofExcept (asksReadings_clusterCeiling _ _ _ _ _ _)) fun c => ?_
  cases c with
  | some c => exact overData_pure _
  | none =>
      cases quotaCeiling tuned ctx.cores (ctx.processSize? tuned.memory) topology p with
      | none => exact overData_pure _
      | some c => exact meets_bind (overData_modify _) fun _ => overData_pure _

/-- The overrides of tuning are the only place where options can be an error. -/
theorem overData_applyProposal (p : Proposal)
    (htuned : ∀ readings, ∃ tuned,
      tunedConfig ctx.config (e.tuner.tune ctx readings).overrides = .ok tuned) :
    FailsOnly OverData (e.applyProposal ctx topology now p) := by
  unfold applyProposal
  refine meets_bind overData_get fun s => meets_bind (overData_modify _) fun _ => ?_
  refine meets_bind (meets_ofExcept (fun _ _ _ _ => trivial) fun _ err _ h => ?_) fun tuned => ?_
  · obtain ⟨tuned, hok⟩ := htuned s.readings
    rw [hok] at h
    cases h
  · refine meets_bind (e.overData_ceiling? ctx topology tuned _ p) fun c => ?_
    cases c with
    | some c => exact overData_pure _
    | none => exact meets_bind (overData_persist _) fun _ => overData_pure _

/-- A decision whose tuning makes overrides that the options accept fails over its
    data or not at all. -/
theorem overData_decide
    (htuned : ∀ readings, ∃ tuned,
      tunedConfig ctx.config (e.tuner.tune ctx readings).overrides = .ok tuned) :
    FailsOnly OverData (e.decide ctx topology now) := by
  unfold decide
  refine meets_bind overData_get fun s => ?_
  refine meets_bind (e.overData_propose ctx topology _ now) fun p => ?_
  split
  · exact overData_pure _
  · refine meets_bind (overData_modify _) fun _ => meets_bind (overData_modify _) fun _ => ?_
    cases blockReason? ctx.config now with
    | some reason => exact overData_pure _
    | none => exact e.overData_applyProposal ctx topology now p htuned

end Engine

end Rescale
