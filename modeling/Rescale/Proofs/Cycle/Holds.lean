import Rescale.Proofs.Cycle.Basic
import Rescale.Proofs.Decision.Holds

/-!
# Holds between Cycles

What is held back when a cycle ends is held back when the next one begins.

A cycle loads the holds of its job, and behind its decision it stores them if
they are marked as changed. All that happens in between to the holds of the
session are operations on those that were loaded, so without the mark they are
still the same, and there is nothing to store. A later load therefore has exactly
what the decision left: no hold where the decision was stored, and otherwise what
the scaler made of the holds that were loaded.

The holds are stored last. A cycle that fails, at any place and for any reason,
has not stored them.

## Theorems

* `pending_of_begins`: The holds that a decision starts with.
* `holds?_holdsStored`: The stored holds are those of the session.
* `holds_of_runSnapshot_error`: A cycle that fails keeps the stored holds.
* `runCycle_holds`: What is held back between cycles.
-/

namespace Rescale

open Step

variable {a : Autoscaler} {job : JobId} {snapshot : Snapshot} {now : Instant} {j j' : Journal}
  {s t : Session} {o : Outcome} {err : DecisionError}

/-- Loading takes the stored holds, and none if they are missing. -/
theorem pending_of_load {u : Unit} (h : Returns (load job) s u t) :
    t.pending = .ofHolds ((s.ledger.store.holds? job).getD ∅) := by
  rcases returns_load h with ⟨_, _, holds, _, _, hholds, rfl⟩
  have hstored : s.ledger.store.holds? job = holds := Except.ok.inj (read_eq_ok hholds)
  rw [hstored]

theorem keeps_holds_load : Keeps Session.holdsTable (load job) :=
  keeps_bind keeps_read fun _ => keeps_bind keeps_read fun _ => keeps_bind keeps_read fun _ =>
    keeps_modify fun _ => rfl

theorem keeps_holds_closeRestart : Keeps Session.holdsTable (closeRestart job now) := by
  unfold closeRestart
  refine keeps_bind keeps_get fun s => ?_
  cases s.restarts.observeRunning now with
  | none => exact keeps_pure _
  | some closed =>
      exact keeps_bind (keeps_modify fun _ => rfl) fun _ => keeps_write fun _ => rfl

/-- A decision starts with the stored holds, and they are still stored. -/
theorem pending_of_begins (h : Begins job snapshot now j s) :
    s.pending = .ofHolds ((j.ledger.store.holds? job).getD ∅) ∧
      s.ledger.store.holds? job = j.ledger.store.holds? job := by
  rcases h with ⟨m, hload, rfl⟩
  have hpending := pending_of_load hload
  have htable : m.holdsTable = (Session.ofJournal snapshot j).holdsTable :=
    keeps_holds_load _ _ hload.leaves
  have hstored : m.ledger.store.holds? job = j.ledger.store.holds? job :=
    congrArg (·.get? job) htable
  unfold Session.closed
  split
  · exact ⟨hpending, hstored⟩
  · exact ⟨hpending, hstored⟩

/-- Holds that are the stored ones unless they are marked as changed are the
    stored ones once they are stored. -/
theorem holds?_holdsStored
    (h : t.pending.Tracks ((t.ledger.store.holds? job).getD ∅)) :
    ((t.holdsStored job).ledger.store.holds? job).getD ∅ = t.pending.holds := by
  unfold Session.holdsStored
  by_cases hchanged : t.pending.changed = true
  · rw [if_pos hchanged]
    exact congrArg (·.getD ∅) (SortedMap.get?_insert_self t.ledger.store.holds job t.pending.holds)
  · rw [if_neg hchanged]
    exact (h (Bool.eq_false_iff.2 hchanged)).symm

/-- Whatever a decision does to holds without the mark, those that are not marked
    in the end are those that it started with. -/
theorem tracks_of_decision (h : Returns (a.decision job snapshot now) s o t) {loaded : Holds}
    (hs : s.pending = .ofHolds loaded) : t.pending.Tracks loaded := by
  rcases exists_foldl_leaves_eq_perform a.engine.scaler (a.context job snapshot)
    (requests (a.context job snapshot) snapshot.topology now s) s.pending with ⟨ops, hops⟩
  rw [Engine.pending_of_decide h, hops, hs]
  have htracks := PendingScaleDowns.tracks_perform (PendingScaleDowns.tracks_ofHolds loaded) ops
  by_cases ho : o = .scaled
  · rw [if_pos ho]
    exact PendingScaleDowns.tracks_apply htracks .releaseAll
  · rw [if_neg ho]
    exact htracks

/-- A write of the holds that fails changes nothing. -/
theorem fails_storeHolds (h : Fails (storeHolds job) s err t) : t = s := by
  simp only [storeHolds, fails_bind_iff, returns_get_iff, not_fails_get, false_or] at h
  rcases h with ⟨_, _, ⟨rfl, rfl⟩, h⟩
  by_cases hchanged : s.pending.changed = true
  · simp only [hchanged, if_true, fails_write_iff] at h
    rcases h with ⟨_, _, _, hsame⟩
    exact hsame.symm
  · simp only [hchanged, Bool.false_eq_true, if_false, not_fails_pure] at h

/-- A cycle that fails keeps the stored holds, since they are stored last. -/
theorem holds_of_runSnapshot_error (h : a.runSnapshot job snapshot now j = (.error err, j')) :
    j'.ledger.store.holds = j.ledger.store.holds := by
  rcases Autoscaler.runSnapshot_eq_iff.1 h with ⟨t, hrun, rfl⟩
  have hfails : Fails (a.cycleSteps job snapshot now) (.ofJournal snapshot j) err t := hrun
  simp only [Autoscaler.cycleSteps, fails_bind_iff, not_fails_pure, and_false, exists_false,
    or_false] at hfails
  change t.holdsTable = (Session.ofJournal snapshot j).holdsTable
  rcases hfails with hload | ⟨_, m, hload, hclose | ⟨_, c, hclose, hrest⟩⟩
  · exact keeps_holds_load _ _ hload.leaves
  · exact (keeps_holds_closeRestart _ _ hclose.leaves).trans (keeps_holds_load _ _ hload.leaves)
  · have hbefore : c.holdsTable = (Session.ofJournal snapshot j).holdsTable :=
      (keeps_holds_closeRestart _ _ hclose.leaves).trans (keeps_holds_load _ _ hload.leaves)
    rcases hrest with hdecide | ⟨o, r, hdecide, hstore⟩
    · exact (Engine.keeps_holds_decide _ _ hdecide.leaves).trans hbefore
    · rw [fails_storeHolds hstore]
      exact (Engine.keeps_holds_decide _ _ hdecide.leaves).trans hbefore

/-- Operations on holds that were loaded either mark them as changed or leave them
    as they were loaded. So take the cycle of a job. If it has an outcome, the
    stored holds are exactly those that its decision left, and so are those of a
    later load: none if it ended as scaled, and otherwise the loaded ones as the
    scaler made them, vertex by vertex. If it fails, the stored holds are those from
    before. -/
theorem runCycle_holds (a : Autoscaler) (source : Source) (job : JobId) (now : Instant)
    (j : Journal) :
    (∀ loaded ops, ((PendingScaleDowns.ofHolds loaded).perform ops).changed = false →
      ((PendingScaleDowns.ofHolds loaded).perform ops).holds = loaded) ∧
    (∀ o j', a.runCycle source job now j = (.ok (some o), j') →
      ∃ snapshot s t, source.snapshot? job = .ok (some snapshot) ∧ Begins job snapshot now j s ∧
        Returns (a.decision job snapshot now) s o t ∧
        (j'.ledger.store.holds? job).getD ∅ = t.pending.holds ∧
        (∀ s' t', s'.ledger.store = j'.ledger.store → Returns (Step.load job) s' () t' →
          t'.pending = .ofHolds t.pending.holds) ∧
        (o = .scaled → t.pending.holds = ∅) ∧
        (o ≠ .scaled → t.pending =
          (requests (a.context job snapshot) snapshot.topology now s).foldl
            (a.engine.scaler.leaves (a.context job snapshot))
            (.ofHolds ((j.ledger.store.holds? job).getD ∅)))) ∧
    ∀ err j', a.runCycle source job now j = (.error err, j') →
      j'.ledger.store.holds? job = j.ledger.store.holds? job := by
  refine ⟨fun loaded ops => ?_, fun o j' h => ?_, fun err j' h => ?_⟩
  · exact PendingScaleDowns.tracks_perform (PendingScaleDowns.tracks_ofHolds loaded) ops
  · rcases Autoscaler.runCycle_ok h with ⟨snapshot, hsource, hrun⟩
    rcases Autoscaler.runSnapshot_ok hrun with ⟨s, t, hbegins, hdecision, hledger⟩
    rcases pending_of_begins hbegins with ⟨hloaded, hbefore⟩
    have hpending := Engine.pending_of_decide hdecision
    have htable : t.holdsTable = s.holdsTable := Engine.keeps_holds_decide _ _ hdecision.leaves
    have hstored : t.ledger.store.holds? job = j.ledger.store.holds? job :=
      (congrArg (·.get? job) htable).trans hbefore
    have hleft : (j'.ledger.store.holds? job).getD ∅ = t.pending.holds := by
      rw [hledger]
      refine holds?_holdsStored ?_
      rw [hstored]
      exact tracks_of_decision hdecision hloaded
    refine ⟨snapshot, s, t, hsource, hbegins, hdecision, hleft, fun s' t' hstore hload => ?_,
      fun ho => ?_, fun ho => ?_⟩
    · rw [pending_of_load hload, hstore, hleft]
    · rw [hpending, if_pos ho]
      rfl
    · rw [hpending, if_neg ho, hloaded]
  · rcases Autoscaler.runCycle_error h with ⟨rfl, _⟩ | ⟨snapshot, _, hrun⟩
    · rfl
    · rw [Store.holds?, Store.holds?, holds_of_runSnapshot_error hrun]

namespace WaitingScaleDown

/-- Map and sink run at two. -/
def source : Source :=
  .ofSnapshots (SortedMap.ofList [("job",
    { job := "job", readings := .behind [("map", 2), ("sink", 2)],
      topology := .ofEdges [("map", "sink")] })])

/-- Nothing is to be changed. -/
def quiet : Autoscaler := { engine := .toward [] }

/-- The map is to go to four. -/
def busy : Autoscaler := { engine := .toward [("map", 4)] }

/-- The sink is waiting to be scaled down. -/
def start : Journal where
  ledger := .ofStore { holds := SortedMap.ofList [("job", SortedMap.ofList [("sink", ⟨⟨0⟩, 1⟩)])] }

/-- The holds cannot be written. -/
def full : Journal :=
  { start with ledger := { start.ledger with
      fault := fun access => if access = .write .holds then some (.write "disk full") else none } }

/-- What the cycle of an engine leaves after a minute. -/
def after (a : Autoscaler) (j : Journal) : Journal := (a.runCycle source "job" ⟨60000⟩ j).2

/-- The hold is what a cycle without changes leaves, a cycle that scales leaves
    none, and where that cannot be stored the hold stays. -/
theorem runCycle_holds_sink :
    (quiet.runCycle source "job" ⟨60000⟩ start = (.ok (some .noChange), after quiet start) ∧
      ∃ snapshot s t, Returns (quiet.decision "job" snapshot ⟨60000⟩) s .noChange t ∧
        t.pending.holds = SortedMap.ofList [("sink", ⟨⟨0⟩, 1⟩)]) ∧
    (busy.runCycle source "job" ⟨60000⟩ start = (.ok (some .scaled), after busy start) ∧
      ((after busy start).ledger.store.holds? "job").getD ∅ = ∅) ∧
    busy.runCycle source "job" ⟨60000⟩ full =
        (.error (.store (.write "disk full")), after busy full) ∧
      (after busy full).ledger.store.holds? "job" = start.ledger.store.holds? "job" := by
  have hquiet : quiet.runCycle source "job" ⟨60000⟩ start =
      (.ok (some .noChange), after quiet start) := eq_ok_of_toOption (by decide +kernel)
  have hbusy : busy.runCycle source "job" ⟨60000⟩ start =
      (.ok (some .scaled), after busy start) := eq_ok_of_toOption (by decide +kernel)
  have hfull : busy.runCycle source "job" ⟨60000⟩ full =
      (.error (.store (.write "disk full")), after busy full) := rfl
  refine ⟨⟨hquiet, ?_⟩, ⟨hbusy, ?_⟩, hfull, ?_⟩
  · rcases (runCycle_holds quiet source "job" ⟨60000⟩ start).2.1 _ _ hquiet with
      ⟨snapshot, s, t, _, _, hdecision, hleft, _⟩
    refine ⟨snapshot, s, t, hdecision, ?_⟩
    rw [← hleft]
    decide +kernel
  · rcases (runCycle_holds busy source "job" ⟨60000⟩ start).2.1 _ _ hbusy with
      ⟨_, _, _, _, _, _, hleft, _, hnone, _⟩
    rw [hleft, hnone rfl]
  · exact (runCycle_holds busy source "job" ⟨60000⟩ full).2.2 _ _ hfull

end WaitingScaleDown

end Rescale
