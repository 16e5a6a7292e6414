import Rescale.Proofs.Cycle.Isolation
import Rescale.Proofs.Decision.Sound

/-!
# Cycles that Leave Readable Records

No cycle makes a job unusable.

A record with a double that is not finite is accepted and cannot be read back, and
a job with such a record is lost: its next cycle fails before it decides anything,
and so do all that follow. But snapshots have finite readings, and from these no
cycle stores anything else. By induction over the cycles of a schedule, of any jobs
and under any options, the ledger stays sound. So what a cycle finds was left by
sound cycles, it can be read, and the cycle fails for a reason of its own or not at
all.

## Main definitions

* `Schedule.DeliversFinite`: All snapshots of a schedule have finite readings.

## Theorems

* `Autoscaler.safe_cycleSteps`: The steps of a cycle are safe.
* `Autoscaler.sound_runCycle`: A cycle leaves a sound ledger, and does not fail
  like a store.
* `Schedule.sound_run`: So does a schedule.
* `cycles_stay_readable`: Whatever cycles run, every record can be read.
-/

namespace Rescale

open Step Session

namespace Step

variable (job : JobId) (now : Instant)

theorem safe_load : Safe Sound Sound (load job) fun _ => True := by
  unfold load
  refine safe_bind (safe_read fun st hst => hst.history? job) fun history hhistory => ?_
  refine safe_bind (safe_read (P := fun _ => True) fun st _ => ⟨_, rfl, trivial⟩)
    fun restarts _ => ?_
  refine safe_bind (safe_read (P := fun _ => True) fun st _ => ⟨_, rfl, trivial⟩) fun holds _ => ?_
  refine safe_modify fun s hs => ⟨hs.ledger, ?_⟩
  -- A job without a history starts with an empty one.
  cases history with
  | none => rfl
  | some h => exact hhistory h rfl

theorem keeps_readings_load : Keeps (fun s => s.readings) (load job) := by
  unfold load
  refine keeps_bind keeps_read fun _ => keeps_bind keeps_read fun _ => ?_
  exact keeps_bind keeps_read fun _ => keeps_modify fun _ => rfl

theorem safe_closeRestart : Safe Sound Sound (closeRestart job now) fun _ => True := by
  unfold closeRestart
  refine safe_bind (safe_get fun _ hs => hs) fun s _ => ?_
  rcases s.restarts.observeRunning now with _ | ⟨_, restarts⟩
  · exact safe_pure trivial
  · refine safe_bind (safe_modify fun s hs => ⟨hs.ledger, hs.history⟩) fun _ _ => ?_
    exact safe_perform .restartLog job (w := .restartLog restarts) trivial

theorem keeps_readings_closeRestart : Keeps (fun s => s.readings) (closeRestart job now) := by
  unfold closeRestart
  refine keeps_bind keeps_get fun s => ?_
  rcases s.restarts.observeRunning now with _ | ⟨_, restarts⟩
  · exact keeps_pure _
  · exact keeps_bind (keeps_modify fun _ => rfl) fun _ => keeps_write fun _ => rfl

theorem safe_storeHolds : Safe Sound Sound (storeHolds job) fun _ => True := by
  unfold storeHolds
  refine safe_bind (safe_get fun _ hs => hs) fun s _ => ?_
  change Safe Sound Sound (if s.pending.changed = true then _ else _) _
  split
  · exact safe_perform .holds job (w := .holds s.pending) trivial
  · exact safe_pure trivial

end Step

namespace Autoscaler

variable (a : Autoscaler) (job : JobId) (now : Instant) {j : Journal}

/-- The steps of a cycle are safe. -/
theorem safe_cycleSteps (snapshot : Snapshot) :
    Safe Ready Sound (a.cycleSteps job snapshot now) fun _ => True := by
  unfold cycleSteps
  refine safe_bind (safe_ready (safe_load job) (keeps_readings_load job)) fun _ _ => ?_
  refine safe_bind (safe_ready (safe_closeRestart job now) (keeps_readings_closeRestart job now))
    fun _ _ => ?_
  refine safe_bind (a.engine.safe_decide _ _ now) fun outcome _ => ?_
  exact safe_bind (safe_storeHolds job) fun _ _ => safe_pure trivial

/-- On a snapshot with finite readings, a cycle leaves a sound ledger and does not
    fail like a store. -/
theorem sound_runSnapshot {snapshot : Snapshot} (hj : j.ledger.Sound)
    (hreadings : snapshot.readings.VerticesFinite) :
    (a.runSnapshot job snapshot now j).2.ledger.Sound ∧
      ∀ cause, (a.runSnapshot job snapshot now j).1 ≠ .error (.store cause) := by
  have hstart : (ofJournal snapshot j).Ready := ⟨⟨hj, rfl⟩, hreadings⟩
  have hsafe := a.safe_cycleSteps job now snapshot
  rcases hrun : a.runSnapshot job snapshot now j with ⟨result, j'⟩
  rcases runSnapshot_eq_iff.1 hrun with ⟨t, hexec, rfl⟩
  cases result with
  | ok outcome =>
      refine ⟨(hsafe.returns _ outcome t hstart hexec).1.ledger, fun cause heq => ?_⟩
      cases heq
  | error e =>
      rcases hsafe.fails _ e t hstart hexec with ⟨hledger, he⟩
      exact ⟨hledger, fun cause heq => he cause (Except.error.inj heq)⟩

theorem sound_runCycle {source : Source} (hj : j.ledger.Sound)
    (hsource : ∀ snapshot, source.snapshot? job = .ok (some snapshot) →
      snapshot.readings.VerticesFinite) :
    (a.runCycle source job now j).2.ledger.Sound ∧
      ∀ cause, (a.runCycle source job now j).1 ≠ .error (.store cause) := by
  unfold runCycle
  rcases hdelivered : source.snapshot? job with why | _ | snapshot
  · exact ⟨hj, fun cause heq => by cases heq⟩
  · exact ⟨hj, fun cause heq => by cases heq⟩
  · rcases a.sound_runSnapshot job now hj (hsource snapshot hdelivered) with ⟨hledger, hresult⟩
    refine ⟨hledger, fun cause heq => hresult cause ?_⟩
    change (a.runSnapshot job snapshot now j).1.map some = _ at heq
    cases hrun : (a.runSnapshot job snapshot now j).1 with
    | ok outcome => rw [hrun] at heq; cases heq
    | error e => rw [hrun] at heq; exact congrArg Except.error (Except.error.inj heq)

end Autoscaler

namespace Schedule

/-- All snapshots that the cycles of a schedule get have finite readings of their
    vertices. -/
def DeliversFinite (σ : Schedule) : Prop :=
  ∀ entry ∈ σ, ∀ snapshot, entry.2.source.snapshot? entry.1 = .ok (some snapshot) →
    snapshot.readings.VerticesFinite

/-- By induction on the cycles: each leaves a sound ledger to the next. -/
theorem sound_run (σ : Schedule) : σ.DeliversFinite → ∀ j : Journal, j.ledger.Sound →
    (run σ j).2.ledger.Sound ∧
      ∀ entry ∈ (run σ j).1, ∀ cause, entry.2 ≠ .error (.store cause) := by
  induction σ with
  | nil => exact fun _ j hj => ⟨hj, List.forall_mem_nil _⟩
  | cons entry rest ih =>
      intro hσ j hj
      rcases entry with ⟨job, c⟩
      rcases List.forall_mem_cons.1 hσ with ⟨hfirst, hrest⟩
      rcases c.autoscaler.sound_runCycle job c.now hj hfirst with ⟨hledger, hresult⟩
      rcases ih hrest _ hledger with ⟨hstop, hresults⟩
      rw [run_cons]
      exact ⟨hstop, List.forall_mem_cons.2 ⟨hresult, hresults⟩⟩

end Schedule

theorem sound_empty : ({} : Ledger).Sound := ⟨Store.isFinite_empty, fun _ => rfl⟩

/-- Cycles of any jobs, under any options and at any instants, run on an empty store
    and get snapshots with finite readings. Then none of them fails like a store, and
    after each of them all doubles of the store are finite and every question about
    every job has an answer. -/
theorem cycles_stay_readable (σ : Schedule) (hσ : σ.DeliversFinite) :
    (∀ entry ∈ (σ.run {}).1, ∀ cause, entry.2 ≠ .error (.store cause)) ∧
      ∀ π : Schedule, π <+: σ →
        (π.run {}).2.ledger.store.IsFinite ∧ (π.run {}).2.ledger.store.Readable := by
  refine ⟨(σ.sound_run hσ {} sound_empty).2, fun π hπ => ?_⟩
  have hdelivers : π.DeliversFinite := fun entry hentry => hσ entry (hπ.subset hentry)
  have hstore := (π.sound_run hdelivers {} sound_empty).1.store
  exact ⟨hstore, Store.readable_of_isFinite hstore⟩

namespace Interleaved

theorem verticesFinite_cycle (job : JobId) (current target : Nat) (now : Instant)
    (hfinite : (JobReadings.behind [("map", current)]).VerticesFinite) :
    ∀ snapshot, (cycle job current target now).source.snapshot? job = .ok (some snapshot) →
      snapshot.readings.VerticesFinite := by
  intro snapshot h
  obtain rfl := Autoscaler.eq_of_snapshot?_ofSnapshots h
  exact hfinite

theorem deliversFinite_mixed : mixed.DeliversFinite := by
  refine List.forall_mem_cons.2 ⟨?_, List.forall_mem_cons.2 ⟨?_, List.forall_mem_cons.2 ⟨?_,
    List.forall_mem_singleton.2 ?_⟩⟩⟩
  · exact verticesFinite_cycle _ 2 4 _ (by decide +kernel)
  · exact fun snapshot h => by cases h
  · exact verticesFinite_cycle _ 1 2 _ (by decide +kernel)
  · exact verticesFinite_cycle _ 4 3 _ (by decide +kernel)

/-- Three of the four cycles decide, and one has a source that fails. The first job
    has a history then, and it can be read. -/
theorem cycles_stay_readable_mixed :
    mixed.DeliversFinite ∧
      (∀ entry ∈ (mixed.run {}).1, ∀ cause, entry.2 ≠ .error (.store cause)) ∧
      ((mixed.run {}).1.map fun entry => entry.2.toOption) =
        [some (some .scaled), none, some (some .scaled), some (some .scaled)] ∧
      (mixed.run {}).2.ledger.store.histories.contains "orders" = true ∧
      ∃ found, (mixed.run {}).2.ledger.store.history? "orders" = .ok found := by
  rcases cycles_stay_readable mixed deliversFinite_mixed with ⟨hresults, hstores⟩
  exact ⟨deliversFinite_mixed, hresults, by decide +kernel, by decide +kernel,
    (hstores mixed List.prefix_rfl).2.history "orders"⟩

/-- Readings of the map with a latency that is not finite. -/
def overflowing : Readings :=
  (Readings.behind 2).insert .stateAccessLatency (.point (1.0 / 0.0))

/-- The map goes from two to four on such readings. -/
def overflow : Cycle where
  autoscaler := up.autoscaler
  source := .ofSnapshots (SortedMap.ofList [("orders",
    { job := "orders", readings := { vertices := SortedMap.ofList [("map", overflowing)] },
      topology := .ofEdges [("map", "sink")] })])
  now := ⟨0⟩

/-- A decision on readings that are not finite is stored, and the job is lost. -/
example :
    (Schedule.run [("orders", overflow), ("orders", down)] {}).1.map (fun e => e.2) =
      [.ok (some .scaled), .error (.store .unreadable)] := by
  decide +kernel

end Interleaved

end Rescale
