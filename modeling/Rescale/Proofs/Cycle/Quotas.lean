import Rescale.Proofs.Ceiling.Quota
import Rescale.Proofs.Cycle.Overrides
import Rescale.Proofs.Elastic.Move

/-!
# Quotas of what a Cycle Stores

Whether what a cycle sets its vertices to stays within the quotas.

The quotas are asked about the proposal. With the elastic policy on, a vertex
that changes may be set to something else in the end: to one, or to the
parallelism of its stance before, when the policy climbs the memory ladder
instead of spreading. The latter may be more than was proposed. A vertex that
was to shrink then makes no room for one that grows, and the job ends up with
more task managers than the quotas were asked about.

## Main definitions

* `Proposal.settled`: A proposal with what its vertices are set to in the end.

## Theorems

* `settled_cases`: What a vertex that changes can be set to.
* `runCycle_quotaCeiling_settled`: When the quotas put a ceiling on what a cycle
  stores.
-/

namespace Rescale

open Step

/-! ### Settled proposals -/

/-- A proposal with the parallelism that each vertex is set to in the end in
    place of its target. -/
def Proposal.settled (p : Proposal) (options : Config.Elastic) (previous : Option Generation) :
    Proposal :=
  p.retarget fun v c => c.settled options (Generation.stance? previous v)

section Settled

variable {p : Proposal} {options : Config.Elastic} {previous : Option Generation}

/-- A vertex that changes is set to its target, or to one, or with the elastic
    policy on to the parallelism of its stance before. -/
theorem settled_cases (c : Change) (options : Config.Elastic) (before : Option Stance) :
    c.settled options before = c.target ∨ c.settled options before = 1 ∨
      (options.enabled = true ∧
        ∃ stance, before = some stance ∧ c.settled options before = stance.parallelism) := by
  unfold Change.settled
  by_cases hon : options.enabled = true
  · simp only [hon, if_true, true_and]
    exact Stance.parallelism_of_move (Stance.move_next _ before options)
  · rw [if_neg hon]
    exact Or.inl rfl

/-- With the elastic policy off, what was proposed is what vertices are set
    to. -/
theorem settled_of_off (h : options.enabled = false) : p.settled options previous = p := by
  have hsettled : (fun v (c : Change) => c.settled options (Generation.stance? previous v)) =
      fun _ c => c.target := by
    funext v c
    simp only [Change.settled, h, Bool.false_eq_true, if_false]
  rw [Proposal.settled, hsettled, retarget_target]

/-- A settled proposal goes no further than what was proposed if no vertex is set
    to more. -/
theorem settled_atMost
    (h : ∀ v c, p.get? v = some c → c.settled options (Generation.stance? previous v) ≤ c.target) :
    (p.settled options previous).AtMost p := by
  have hatMost := retarget_atMost h
  rw [retarget_target] at hatMost
  exact hatMost

end Settled

/-! ### Cycles -/

/-- The options of a cycle pass the check if those of the autoscaler do. -/
theorem check_of_tunedBy {config tuned : Config} {tuning : Overrides}
    (hconfig : config.check = .ok ()) (h : TunedBy config tuning tuned) :
    tuned.check = .ok () := by
  cases hon : config.memory.tuningEnabled with
  | true => exact Config.check_of_withOverrides (h.1 hon)
  | false => rw [h.2 hon, hconfig]

/-- The ceiling that the quotas put on a proposal for the job of a snapshot. -/
def Autoscaler.quotaCeiling? (a : Autoscaler) (job : JobId) (snapshot : Snapshot)
    (options : Config) (p : Proposal) : Option Ceiling :=
  quotaCeiling options snapshot.cores ((a.context job snapshot).processSize? options.memory)
    snapshot.topology p

/-- After a cycle that ends as scaled, what its vertices are set to runs into no
    quota exactly when it needs no more task managers than the job had or than
    were proposed, or the quotas have room for what it needs. With the elastic
    policy off, vertices are set to what was proposed. With the policy on, it
    takes a vertex that is kept at the parallelism of its stance before, above
    its target, to run into a quota. -/
theorem runCycle_quotaCeiling_settled (a : Autoscaler) (source : Source) (job : JobId)
    (now : Instant) (j j' : Journal) (hconfig : a.config.check = .ok ())
    (h : a.runCycle source job now j = (.ok (some .scaled), j')) :
    ∃ snapshot s p m previous options, source.snapshot? job = .ok (some snapshot) ∧
      Begins job snapshot now j s ∧
      Returns (a.engine.proposal (a.context job snapshot) snapshot.topology now s) s p m ∧
      GoesBy a.config.elastic j.ledger job previous ∧
      TunedBy a.config (a.engine.tuning (a.context job snapshot) snapshot.readings p) options ∧
      (∀ v c, (p.settled a.config.elastic previous).get? v = some c →
        j'.ledger.store.override? job v = some (numberText c.target)) ∧
      (a.config.elastic.enabled = false → p.settled a.config.elastic previous = p) ∧
      a.quotaCeiling? job snapshot options p = none ∧
      (a.quotaCeiling? job snapshot options (p.settled a.config.elastic previous) = none ↔
        (quotaTaskManagers options snapshot.topology (p.settled a.config.elastic previous)).2 ≤
            max (quotaTaskManagers options snapshot.topology p).1
              (quotaTaskManagers options snapshot.topology p).2 ∨
          FitsQuotas options snapshot.cores
            ((a.context job snapshot).processSize? options.memory)
            (quotaTaskManagers options snapshot.topology
              (p.settled a.config.elastic previous)).2) ∧
      (a.quotaCeiling? job snapshot options (p.settled a.config.elastic previous) ≠ none →
        ∃ v c stance, p.get? v = some c ∧ Generation.stance? previous v = some stance ∧
          c.target < stance.parallelism ∧
          c.settled a.config.elastic (some stance) = stance.parallelism) := by
  rcases Autoscaler.runCycle_ok h with ⟨snapshot, hsource, hrun⟩
  rcases Autoscaler.override?_of_runSnapshot hrun with
    ⟨s, p, m, previous, hbegins, hp, hadmits, hgoes, hoverride⟩
  rcases hadmits.room with ⟨options, htuned, _, hquota⟩
  have hcheck : options.check = .ok () := check_of_tunedBy hconfig htuned
  refine ⟨snapshot, s, p, m, previous, options, hsource, hbegins, hp, hgoes, htuned, ?_,
    settled_of_off, hquota, quotaCeiling_retarget_iff hcheck hquota, ?_⟩
  · -- What is settled is what is stored, for each vertex that changes.
    intro v c hc
    rw [Proposal.settled, get?_retarget, Option.map_eq_some_iff] at hc
    rcases hc with ⟨c', hc', rfl⟩
    rcases Engine.startsFrom_of_propose hp v c' hc' with ⟨_, r, hr, _⟩
    rw [hbegins.readings] at hr
    exact (hoverride v r hr).1 c' hc'
  · intro hceiling
    by_contra hnone
    -- Then no vertex is set to more than its target.
    refine hceiling (quotaCeiling_of_atMost hcheck (settled_atMost fun v c hc => ?_) hquota)
    rcases settled_cases c a.config.elastic (Generation.stance? previous v) with
      htarget | hone | ⟨_, stance, hstance, hkept⟩
    · exact htarget.le
    · rcases Engine.startsFrom_of_propose hp v c hc with ⟨_, r, _, hstarts⟩
      have hpositive := hstarts.positive
      omega
    · -- The stance before is the only way to more than the target.
      by_contra hmore
      rw [hstance] at hkept
      refine hnone ⟨v, c, stance, hc, hstance, ?_, hkept⟩
      rw [hstance] at hmore
      omega

namespace HeldAboveTarget

/-- The elastic policy is on, the quota is twelve cores, and vertices go to given
    parallelisms. -/
def autoscaler (targets : List (VertexId × Nat)) : Autoscaler where
  engine := .toward targets
  config := { elastic := { enabled := true }, quota := { cpu := some 12.0 } }

/-- Each vertex has slots of its own. -/
def topology : Topology :=
  ((Topology.ofEdges [("counter", "sink")]).setGroup "counter" "left").setGroup "sink" "right"

/-- The counter hits its cache at some rate, and the sink has no cache. Task
    managers have one core. -/
def snapshot (parallelism : Nat) (hitRate : Float) : Snapshot where
  job := "job"
  readings := {
    vertices := SortedMap.ofList
      [("counter", (Readings.behind parallelism).insert .cacheHitRate (.point hitRate)),
        ("sink", .behind 2)] }
  topology
  cores := some 1.0

def source (parallelism : Nat) (hitRate : Float) : Source :=
  .ofSnapshots (SortedMap.ofList [("job", snapshot parallelism hitRate)])

/-- The counter goes from two to ten, since its cache is good. -/
def first : Except DecisionError (Option Outcome) × Journal :=
  (autoscaler [("counter", 10)]).runCycle (source 2 0.9) "job" ⟨0⟩ {}

/-- The counter is to go to five and the sink to six. -/
def shrinking : Autoscaler := autoscaler [("counter", 5), ("sink", 6)]

/-- By now the cache of the counter is bad. -/
def second : Except DecisionError (Option Outcome) × Journal :=
  shrinking.runCycle (source 10 0.5) "job" ⟨60000⟩ first.2

theorem second_scaled : second = (.ok (some .scaled), second.2) :=
  eq_ok_of_toOption (by decide +kernel)

theorem runCycle_quotaCeiling_settled_held :
    shrinking.config.check = .ok () ∧ second = (.ok (some .scaled), second.2) ∧
      ∃ p previous options,
        shrinking.quotaCeiling? "job" (snapshot 10 0.5) options p = none ∧
          ∀ v c, (p.settled shrinking.config.elastic previous).get? v = some c →
            second.2.ledger.store.override? "job" v = some (numberText c.target) := by
  have hcheck : shrinking.config.check = .ok () := rfl
  refine ⟨hcheck, second_scaled, ?_⟩
  rcases runCycle_quotaCeiling_settled _ _ _ _ _ _ hcheck second_scaled with
    ⟨snapshot', s, p, m, previous, options, hsource, _, _, _, _, hstored, _, hnone, _⟩
  obtain rfl := Autoscaler.eq_of_snapshot?_ofSnapshots hsource
  exact ⟨p, previous, options, hnone, hstored⟩

/-- The session that the second decision starts in. -/
def start : Session :=
  (exec (Step.load "job") (.ofJournal (snapshot 10 0.5) first.2)).2.closed "job" ⟨60000⟩

/-- What the second cycle proposes. -/
def proposed : Proposal :=
  ((exec (shrinking.engine.proposal (shrinking.context "job" (snapshot 10 0.5)) topology ⟨60000⟩
    start) start).1.toOption).getD ∅

theorem eq_proposed {s m : Session} {p : Proposal}
    (hbegins : Begins "job" (snapshot 10 0.5) ⟨60000⟩ first.2 s)
    (hp : Returns (shrinking.engine.proposal (shrinking.context "job" (snapshot 10 0.5)) topology
      ⟨60000⟩ s) s p m) : p = proposed := by
  rw [hbegins.eq] at hp
  have hexec := hp.exec_eq
  unfold proposed start
  rw [hexec]
  rfl

/-- The counter is held at ten while the sink goes to six. -/
def heldAt (v : VertexId) (c : Change) : Nat := if v = "counter" then 10 else c.target

/-- Both cycles end as scaled. The second one was to leave eleven task managers
    of twelve, but it sets the vertices to sixteen. -/
theorem quotaCeiling_of_held :
    first.1.toOption = some (some .scaled) ∧ second.1.toOption = some (some .scaled) ∧
      ∀ s p m, Begins "job" (snapshot 10 0.5) ⟨60000⟩ first.2 s →
        Returns (shrinking.engine.proposal (shrinking.context "job" (snapshot 10 0.5)) topology
          ⟨60000⟩ s) s p m →
        shrinking.quotaCeiling? "job" (snapshot 10 0.5) shrinking.config p = none ∧
          (∀ v c, (p.retarget heldAt).get? v = some c →
            second.2.ledger.store.override? "job" v = some (numberText c.target)) ∧
          shrinking.quotaCeiling? "job" (snapshot 10 0.5) shrinking.config (p.retarget heldAt) =
            some (.cpuQuota 16.0 12.0) := by
  refine ⟨by decide +kernel, by decide +kernel, ?_⟩
  intro s p m hbegins hp
  rw [eq_proposed hbegins hp]
  refine ⟨by decide +kernel, ?_, by decide +kernel⟩
  have hall : (proposed.retarget heldAt).toList.all (fun e =>
      second.2.ledger.store.override? "job" e.1 == some (numberText e.2.target)) = true := by
    decide +kernel
  intro v c hc
  exact beq_iff_eq.1 (List.all_eq_true.1 hall (v, c) (SortedMap.mem_toList_iff.2 hc))

end HeldAboveTarget

end Rescale
