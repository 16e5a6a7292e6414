import Rescale.Proofs.Cycle.Generations
import Rescale.Proofs.Cycle.Overrides
import Rescale.Proofs.Decision.Positive
import Rescale.Proofs.Double.Whole

/-!
# Positive Overrides

Which vertices a cycle sets to zero.

A job cannot run a vertex at zero, so none should be set to that. An override
comes from one of three places, and two of them are safe. A target is positive,
since a change to zero is refused. A stance is positive, whatever cycles and
resets came before it, and however they ended, because every cycle keeps all
stances in the store positive. The third place is not. A vertex without a change
and without a stance is set to what it reports, with the fraction cut off, and
nothing asks whether that is at least one. So a vertex that reports less is set
to zero by the first cycle that changes some other vertex of its job.

## Main definitions

* `Store.Evolved`: A store that cycles, resets and changes of the cluster have
  led to.
* `LeftBelowOne`: A vertex is set to what it reports, and that is less than one.

## Theorems

* `Autoscaler.positive_runCycle`: A cycle keeps all stances positive.
* `Store.positive_of_evolved`: All stances are positive at any time.
* `Autoscaler.overrides_of_runSnapshot`: The vertices that have overrides.
* `runCycle_positive_iff`: Which overrides are positive after a cycle.
-/

namespace Rescale

open Step

/-! ### Cycles -/

namespace Step

theorem preserves_load (job : JobId) : Preserves Session.Positive (load job) := by
  unfold load
  refine preserves_bind (preserves_of_same keeps_read) fun _ => ?_
  refine preserves_bind (preserves_of_same keeps_read) fun _ => ?_
  refine preserves_bind (preserves_of_same keeps_read) fun _ => ?_
  exact preserves_modify fun _ hs => hs

theorem preserves_closeRestart (job : JobId) (now : Instant) :
    Preserves Session.Positive (closeRestart job now) := by
  unfold closeRestart
  refine preserves_bind (preserves_of_same keeps_get) fun s => ?_
  rcases s.restarts.observeRunning now with _ | ⟨_, restarts⟩
  · exact preserves_of_same (keeps_pure _)
  · refine preserves_bind (preserves_modify fun _ hs => hs) fun _ => ?_
    exact preserves_perform .restartLog job (w := .restartLog restarts) trivial

theorem preserves_storeHolds (job : JobId) : Preserves Session.Positive (storeHolds job) := by
  unfold storeHolds
  refine preserves_bind (preserves_of_same keeps_get) fun s => ?_
  change Preserves Session.Positive (if s.pending.changed = true then _ else _)
  split
  · exact preserves_perform .holds job (w := .holds s.pending) trivial
  · exact preserves_of_same (keeps_pure _)

end Step

namespace Autoscaler

variable (a : Autoscaler) (job : JobId) (now : Instant)

theorem preserves_cycleSteps (snapshot : Snapshot) :
    Preserves Session.Positive (a.cycleSteps job snapshot now) := by
  unfold cycleSteps
  refine preserves_bind (preserves_load job) fun _ => ?_
  refine preserves_bind (preserves_closeRestart job now) fun _ => ?_
  refine preserves_bind (a.engine.preserves_decide _ _ now) fun outcome => ?_
  exact preserves_bind (preserves_storeHolds job) fun _ => preserves_of_same (keeps_pure _)

/-- A cycle keeps all stances positive, whether it returns or fails. -/
theorem positive_runCycle (source : Source) {j : Journal} (hj : j.ledger.store.Positive) :
    (a.runCycle source job now j).2.ledger.store.Positive := by
  unfold runCycle
  rcases source.snapshot? job with why | _ | snapshot
  · exact hj
  · exact hj
  · have hstart : (Session.ofJournal snapshot j).Positive := hj
    exact (a.preserves_cycleSteps job now snapshot).exec hstart

end Autoscaler

/-! ### Stores over time -/

namespace Store

/-- A store that was empty at first, and that since then saw nothing but cycles,
    of any jobs and on any faults, resets of jobs, and changes of the cluster. -/
inductive Evolved : Store → Prop
  | empty : Evolved {}
  | cycle {j : Journal} (c : Cycle) (job : JobId) (before : Evolved j.ledger.store) :
      Evolved (c.run job j).2.ledger.store
  | deleteJob {s : Store} (job : JobId) (before : Evolved s) : Evolved (s.deleteJob job)
  | putNode {s : Store} (n : Node) (before : Evolved s) : Evolved (s.putNode n)
  | deleteNode {s : Store} (id : String) (before : Evolved s) : Evolved (s.deleteNode id)

/-- By induction on what happened: there are no stances at first, cycles keep
    them positive, and nothing else makes any. -/
theorem positive_of_evolved {s : Store} (h : s.Evolved) : s.Positive := by
  induction h with
  | empty => exact nofun
  | cycle c job _ ih => exact c.autoscaler.positive_runCycle job c.now c.source ih
  | deleteJob job _ ih => exact positive_perform ih job (w := .delete) trivial
  | putNode n _ ih => exact ih
  | deleteNode id _ ih => exact ih

end Store

/-! ### Overrides -/

/-- A vertex has no change and no stance, so that it is set to what it reports,
    and what it reports is not at least one. -/
def LeftBelowOne (readings : JobReadings) (p : Proposal) (previous : Option Generation)
    (v : VertexId) : Prop :=
  p.get? v = none ∧ Generation.stance? previous v = none ∧
    ∃ r x, readings.vertices.get? v = some r ∧ r.get? .parallelism = some x ∧ ¬1.0 ≤ x.current

/-- After a cycle that ends as scaled, the vertices that report have overrides,
    and no others. -/
theorem Autoscaler.overrides_of_runSnapshot {a : Autoscaler} {job : JobId} {snapshot : Snapshot}
    {now : Instant} {j j' : Journal} (h : a.runSnapshot job snapshot now j = (.ok .scaled, j')) :
    ∃ o, j'.ledger.store.parallelism? job = some o ∧
      o.keys = snapshot.readings.vertices.keys := by
  rcases runSnapshot_ok h with ⟨s, t, hbegins, hdecision, hledger⟩
  rcases Engine.stores_of_decide hdecision with ⟨p, m, hp, _, hpersist⟩
  rcases (Engine.applied_of_stored hp hpersist).parallelism with ⟨o, ho, hkeys⟩
  refine ⟨o, ?_, hbegins.readings ▸ hkeys⟩
  rcases exists_store_holdsStored t job with ⟨holds, hstore⟩
  rw [hledger, hstore]
  exact ho

/-- Whatever happened to the store before, a cycle that ends as scaled sets
    exactly the vertices that report, each to a number. The number is positive
    unless the vertex has no change and no stance to go by and reports a
    parallelism that is not at least one, and then it is not. -/
theorem runCycle_positive_iff (a : Autoscaler) (source : Source) (job : JobId) (now : Instant)
    (j j' : Journal) (hstore : j.ledger.store.Evolved)
    (h : a.runCycle source job now j = (.ok (some .scaled), j')) :
    ∃ snapshot s p m previous o, source.snapshot? job = .ok (some snapshot) ∧
      Begins job snapshot now j s ∧
      Returns (a.engine.proposal (a.context job snapshot) snapshot.topology now s) s p m ∧
      GoesBy a.config.elastic j.ledger job previous ∧
      j'.ledger.store.parallelism? job = some o ∧
      o.keys = snapshot.readings.vertices.keys ∧
      ∀ v text, o.get? v = some text →
        ∃ n, text = numberText n ∧ (1 ≤ n ↔ ¬LeftBelowOne snapshot.readings p previous v) := by
  rcases Autoscaler.runCycle_ok h with ⟨snapshot, hsource, hrun⟩
  rcases Autoscaler.override?_of_runSnapshot hrun with
    ⟨s, p, m, previous, hbegins, hp, _, hgoes, hoverride⟩
  rcases Autoscaler.overrides_of_runSnapshot hrun with ⟨o, ho, hkeys⟩
  refine ⟨snapshot, s, p, m, previous, o, hsource, hbegins, hp, hgoes, ho, hkeys, ?_⟩
  have hbefore {v : VertexId} : ∀ stance, Generation.stance? previous v = some stance →
      1 ≤ stance.parallelism :=
    positive_of_stance? (positive_of_goesBy (Store.positive_of_evolved hstore) hgoes)
  intro v text htext
  have hv : v ∈ snapshot.readings.vertices.keys := hkeys ▸ SortedMap.mem_keys_iff.2 ⟨text, htext⟩
  rcases SortedMap.mem_keys_iff.1 hv with ⟨r, hr⟩
  have hstored : j'.ledger.store.override? job v = some text := by
    rw [Store.override?, ho, Option.bind_some, htext]
  rcases hoverride v r hr with ⟨hchanged, hunchanged⟩
  unfold LeftBelowOne
  cases hc : p.get? v with
  | some c =>
      -- The override is the target or what the policy made of it.
      have htarget : 1 ≤ c.target := a.engine.positive_of_propose _ _ now hp v c hc
      refine ⟨_, Option.some.inj (hstored.symm.trans (hchanged c hc)), ?_⟩
      refine iff_of_true (positive_settled _ htarget hbefore) ?_
      rintro ⟨hnone, _⟩
      cases hnone
  | none =>
      rcases hunchanged hc with ⟨x, hx, hsettled⟩
      refine ⟨_, Option.some.inj (hstored.symm.trans hsettled), ?_⟩
      cases hstance : Generation.stance? previous v with
      | some stance =>
          -- The stance was positive all the time since it was made.
          refine iff_of_true (hbefore stance hstance) ?_
          rintro ⟨_, hnone, _⟩
          cases hnone
      | none =>
          -- What the vertex reports is all there is to go by.
          simp only [Option.map_none, Option.getD_none, one_le_parallelismOf_iff, hr, hx,
            Option.some.injEq, true_and, exists_and_left, exists_eq_left', not_not]

namespace SinkAtZero

/-- Both vertices are sent up. -/
def first : Cycle := .toward [("map", 2), ("sink", 2)] [("map", 4), ("sink", 3)] ⟨0⟩

/-- The map is sent further up, and the sink reports zero. -/
def second : Cycle := .toward [("map", 4), ("sink", 0)] [("map", 8)] ⟨60000⟩

def middle : Journal := (first.run "job" {}).2

def stop : Journal := (second.run "job" middle).2

/-- The sink has a stance from the first cycle to go by in the second one. -/
theorem runCycle_positive_iff_sink :
    middle.ledger.store.Evolved ∧ second.run "job" middle = (.ok (some .scaled), stop) ∧
      ∃ p previous n, GoesBy { enabled := true } middle.ledger "job" previous ∧
        stop.ledger.store.override? "job" "sink" = some (numberText n) ∧
        (1 ≤ n ↔ ¬LeftBelowOne (.behind [("map", 4), ("sink", 0)]) p previous "sink") := by
  have hevolved : middle.ledger.store.Evolved := .cycle first "job" .empty
  have hscaled : second.run "job" middle = (.ok (some .scaled), stop) :=
    eq_ok_of_toOption (by decide +kernel)
  refine ⟨hevolved, hscaled, ?_⟩
  rcases runCycle_positive_iff _ _ _ _ _ _ hevolved hscaled with
    ⟨snapshot, _, p, _, previous, o, hsource, _, _, hgoes, ho, _, hpositive⟩
  obtain rfl := Autoscaler.eq_of_snapshot?_ofSnapshots hsource
  have hstored : stop.ledger.store.override? "job" "sink" = some "3" := by decide +kernel
  have hget : o.get? "sink" = some "3" := by
    rw [Store.override?, ho, Option.bind_some] at hstored
    exact hstored
  rcases hpositive "sink" "3" hget with ⟨n, hn, hiff⟩
  exact ⟨p, previous, n, hgoes, hn ▸ hstored, hiff⟩

/-- The sink reports zero from the start. -/
def fresh : Cycle := .toward [("map", 2), ("sink", 0)] [("map", 4)] ⟨0⟩

/-- Nothing happened before, the cycle ends as scaled, and it sets the sink to
    zero. -/
theorem override?_of_sink_at_zero :
    ({} : Journal).ledger.store.Evolved ∧
      fresh.run "job" {} = (.ok (some .scaled), (fresh.run "job" {}).2) ∧
      (fresh.run "job" {}).2.ledger.store.override? "job" "sink" = some (numberText 0) :=
  ⟨.empty, eq_ok_of_toOption (by decide +kernel), by decide +kernel⟩

end SinkAtZero

end Rescale
