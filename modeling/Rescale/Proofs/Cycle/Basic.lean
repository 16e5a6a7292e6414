import Rescale.Autoscaler
import Rescale.Proofs.Decision.Gates
import Rescale.Proofs.Decision.Persist

/-!
# Cycles

How the cycle of a job is made of its steps.

A cycle wraps a decision. In front of it the records are loaded and the pending
restart is closed, and `Begins` names the session that the decision then starts
in; behind it the holds are stored. A cycle that returns therefore contains a
decision that returns, and where all writes succeed, a cycle that fails either
could not read its records or contains a decision that fails. All that such a
cycle may have changed before the decision is one entry of the restart log.

## Main definitions

* `Session.ofJournal`: The session that a cycle starts in.
* `Session.closed`: A session once the pending restart is closed.
* `Session.SameButLog`: What closing a restart leaves alone.
* `Begins`: The session that the decision of a cycle starts in.
* `Session.holdsStored`: A session once changed holds are stored.

## Theorems

* `observeRunning_eq_some_iff`: Which entry of a restart log is closed.
* `exists_store_holdsStored`: What storing the holds leaves alone.
* `returns_load`, `fails_load`: Loading changes the session only.
* `runSnapshot_ok`: A cycle that returns contains a decision that returns.
* `runSnapshot_error`: Where a cycle fails if all writes succeed.
* `eq_of_snapshot?_ofSnapshots`: The snapshot of a source for one job.
* `runCycle_ok`, `runCycle_none`, `runCycle_error`: The snapshot behind the cycle
  of a job.
-/

namespace Rescale

open Step

/-- The latest entry is closed if it is open and did not start after `now`. -/
theorem observeRunning_eq_some_iff {log log' : RestartLog} {now : Instant} {span : Span} :
    log.observeRunning now = some (span, log') ↔
      ∃ started, log.last? = some (started, none) ∧ now.since? started = some span ∧
        log' = log.insert started (some span) := by
  unfold RestartLog.observeRunning
  -- There may be no entry, or an open one, or one that is closed already.
  rcases hlast : log.last? with _ | ⟨started, _ | observed⟩
  · simp only [reduceCtorEq, false_and, exists_false]
  · cases hspan : now.since? started with
    | none =>
        simp only [hspan, reduceCtorEq, Option.some.injEq, Prod.mk.injEq, and_true,
          exists_eq_left', false_and]
    | some span' =>
        simp only [hspan, Option.some.injEq, Prod.mk.injEq, and_true, exists_eq_left']
        constructor
        · rintro ⟨rfl, rfl⟩
          exact ⟨rfl, rfl⟩
        · rintro ⟨rfl, rfl⟩
          exact ⟨rfl, rfl⟩
  · simp only [reduceCtorEq, Option.some.injEq, Prod.mk.injEq, and_false, false_and, exists_false]

namespace Session

/-- The session that the cycle of a job starts in. -/
def ofJournal (snapshot : Snapshot) (j : Journal) : Session where
  ledger := j.ledger
  readings := snapshot.readings
  events := j.events

/-- A session once the pending restart is closed, if there is one. -/
def closed (s : Session) (job : JobId) (now : Instant) : Session :=
  match s.restarts.observeRunning now with
  | some (_, restarts) =>
    { s with
      restarts
      ledger := s.ledger.put .restartLog fun st => st.putRestartLog job restarts }
  | none => s

/-- Two sessions with the same readings and history, on ledgers with the same
    faults, generations and numbers of decisions. -/
structure SameButLog (s t : Session) : Prop where
  readings : t.readings = s.readings
  history : t.history = s.history
  fault : t.ledger.fault = s.ledger.fault
  previous? : ∀ job, t.ledger.previous? job = s.ledger.previous? job

/-- All that closing a restart writes is the restart log. -/
theorem sameButLog_closed (s : Session) (job : JobId) (now : Instant) :
    s.SameButLog (s.closed job now) := by
  unfold closed
  split
  · exact ⟨rfl, rfl, rfl, fun _ => rfl⟩
  · exact ⟨rfl, rfl, rfl, fun _ => rfl⟩

/-- A session once its holds are stored, if they were changed. -/
def holdsStored (s : Session) (job : JobId) : Session :=
  if s.pending.changed then
    { s with ledger := s.ledger.put .holds fun st => st.putHolds job s.pending.holds }
  else s

end Session

/-- Storing the holds touches no other record. -/
theorem exists_store_holdsStored (t : Session) (job : JobId) :
    ∃ holds, (t.holdsStored job).ledger.store = { t.ledger.store with holds } := by
  unfold Session.holdsStored
  split
  · exact ⟨_, rfl⟩
  · exact ⟨_, rfl⟩

namespace Step

variable {job : JobId} {now : Instant} {s t : Session} {u : Unit} {err : DecisionError}

/-- Loading takes the records from the ledger, and those that are missing as
    empty. -/
theorem returns_load (h : Returns (load job) s u t) :
    ∃ history restarts holds,
      s.ledger.read .history (fun st => st.history? job) = .ok history ∧
      s.ledger.read .restartLog (fun st => .ok (st.restartLog? job)) = .ok restarts ∧
      s.ledger.read .holds (fun st => .ok (st.holds? job)) = .ok holds ∧
      t = { s with
        history := history.getD ∅
        restarts := restarts.getD ∅
        pending := .ofHolds (holds.getD ∅) } := by
  simp only [load, returns_bind_iff, returns_read_iff, returns_modify_iff] at h
  rcases h with ⟨history, _, ⟨hh, rfl⟩, restarts, _, ⟨hr, rfl⟩, holds, _, ⟨hp, rfl⟩, rfl⟩
  exact ⟨history, restarts, holds, hh, hr, hp, rfl⟩

theorem fails_load (h : Fails (load job) s err t) : t = s := by
  simp only [load, fails_bind_iff, returns_read_iff, fails_read_iff, not_fails_modify, and_false,
    exists_false, or_false] at h
  rcases h with ⟨_, _, _, rfl⟩ | ⟨_, _, ⟨_, rfl⟩, ⟨_, _, _, rfl⟩ | ⟨_, _, ⟨_, rfl⟩, _, _, _, rfl⟩⟩
  · rfl
  · rfl
  · rfl

theorem returns_closeRestart (h : Returns (closeRestart job now) s u t) :
    t = s.closed job now := by
  simp only [closeRestart, returns_bind_iff, returns_get_iff] at h
  rcases h with ⟨_, _, ⟨rfl, rfl⟩, h⟩
  unfold Session.closed
  cases hobserve : s.restarts.observeRunning now with
  | none =>
      simp only [hobserve, returns_pure_iff] at h
      exact h.2.symm
  | some closed =>
      simp only [hobserve, returns_bind_iff, returns_modify_iff, returns_write_iff] at h
      rcases h with ⟨_, _, rfl, _, rfl⟩
      rfl

theorem not_fails_closeRestart (hw : s.ledger.TakesWrites) :
    ¬Fails (closeRestart job now) s err t := by
  intro h
  simp only [closeRestart, fails_bind_iff, returns_get_iff, not_fails_get, false_or] at h
  rcases h with ⟨_, _, ⟨rfl, rfl⟩, h⟩
  cases hobserve : s.restarts.observeRunning now with
  | none => simp only [hobserve, not_fails_pure] at h
  | some closed =>
      simp only [hobserve, fails_bind_iff, not_fails_modify, returns_modify_iff, false_or] at h
      rcases h with ⟨_, _, rfl, h⟩
      exact not_takesWrites_of_fails h hw

theorem returns_storeHolds (h : Returns (storeHolds job) s u t) : t = s.holdsStored job := by
  simp only [storeHolds, returns_bind_iff, returns_get_iff] at h
  rcases h with ⟨_, _, ⟨rfl, rfl⟩, h⟩
  unfold Session.holdsStored
  by_cases hchanged : s.pending.changed = true
  · simp only [hchanged, if_true, returns_write_iff] at h
    rw [if_pos hchanged, ← h.2]
  · simp only [hchanged, Bool.false_eq_true, if_false, returns_pure_iff] at h
    rw [if_neg hchanged, h.2]

theorem not_fails_storeHolds (hw : s.ledger.TakesWrites) : ¬Fails (storeHolds job) s err t := by
  intro h
  simp only [storeHolds, fails_bind_iff, returns_get_iff, not_fails_get, false_or] at h
  rcases h with ⟨_, _, ⟨rfl, rfl⟩, h⟩
  by_cases hchanged : s.pending.changed = true
  · simp only [hchanged, if_true] at h
    exact not_takesWrites_of_fails h hw
  · simp only [hchanged, Bool.false_eq_true, if_false, not_fails_pure] at h

end Step

/-- A decision about a snapshot starts in `s`: the records of the job are loaded
    from a journal, and its pending restart is closed. -/
def Begins (job : JobId) (snapshot : Snapshot) (now : Instant) (j : Journal) (s : Session) : Prop :=
  ∃ m, Returns (Step.load job) (.ofJournal snapshot j) () m ∧ s = m.closed job now

namespace Begins

variable {job : JobId} {snapshot : Snapshot} {now : Instant} {j : Journal} {s : Session}

theorem readings (h : Begins job snapshot now j s) : s.readings = snapshot.readings := by
  rcases h with ⟨m, hload, rfl⟩
  rcases returns_load hload with ⟨_, _, _, _, _, _, rfl⟩
  exact (Session.sameButLog_closed _ job now).readings

theorem fault (h : Begins job snapshot now j s) : s.ledger.fault = j.ledger.fault := by
  rcases h with ⟨m, hload, rfl⟩
  rcases returns_load hload with ⟨_, _, _, _, _, _, rfl⟩
  exact (Session.sameButLog_closed _ job now).fault

/-- What comes before a decision leaves its number and the generations alone. -/
theorem previous? (h : Begins job snapshot now j s) :
    s.ledger.previous? job = j.ledger.previous? job := by
  rcases h with ⟨m, hload, rfl⟩
  rcases returns_load hload with ⟨_, _, _, _, _, _, rfl⟩
  exact (Session.sameButLog_closed _ job now).previous? job

/-- There is only one session that a decision can start in. -/
theorem eq (h : Begins job snapshot now j s) :
    s = (exec (Step.load job) (.ofJournal snapshot j)).2.closed job now := by
  rcases h with ⟨m, hload, rfl⟩
  rw [hload]

theorem unique {s' : Session} (h : Begins job snapshot now j s)
    (h' : Begins job snapshot now j s') : s = s' :=
  h.eq.trans h'.eq.symm

end Begins

namespace Autoscaler

variable {a : Autoscaler} {job : JobId} {snapshot : Snapshot} {now : Instant} {j j' : Journal}

/-- The decision about a snapshot. -/
def decision (a : Autoscaler) (job : JobId) (snapshot : Snapshot) (now : Instant) : Step Outcome :=
  a.engine.decide (a.context job snapshot) snapshot.topology now

theorem returns_cycleSteps {s t : Session} {o : Outcome}
    (h : Returns (a.cycleSteps job snapshot now) s o t) :
    ∃ m r, Returns (Step.load job) s () m ∧
      Returns (a.decision job snapshot now) (m.closed job now) o r ∧ t = r.holdsStored job := by
  simp only [cycleSteps, returns_bind_iff, returns_pure_iff] at h
  rcases h with ⟨_, m, hload, _, c, hclose, _, r, hdecide, _, _, hstore, rfl, rfl⟩
  obtain rfl := returns_closeRestart hclose
  exact ⟨m, r, hload, hdecide, returns_storeHolds hstore⟩

/-- No decision changes which accesses fail. -/
theorem fault_of_decision {s t : Session} {o : Outcome}
    (h : Returns (a.decision job snapshot now) s o t) : t.ledger.fault = s.ledger.fault := by
  by_cases ho : o = .scaled
  · -- What is stored goes to the ledger by writes, and none of them sets a fault.
    subst ho
    rcases Engine.stores_of_decide h with ⟨p, m, hp, _, hpersist⟩
    have hm : m.ledger = s.ledger := (Engine.sameRecords_of_propose hp.leaves).ledger
    rw [fault_of_persist hpersist, ← hm]
    rfl
  · rcases Engine.kept_of_decide h ho with ⟨_, _, _, hledger, _⟩
    rw [hledger]

theorem runSnapshot_eq_iff {r : Except DecisionError Outcome} :
    a.runSnapshot job snapshot now j = (r, j') ↔
      ∃ t, exec (a.cycleSteps job snapshot now) (.ofJournal snapshot j) = (r, t) ∧
        j' = ⟨t.ledger, t.events⟩ := by
  change (let (result, stop) := exec (a.cycleSteps job snapshot now) (.ofJournal snapshot j)
    (result, (⟨stop.ledger, stop.events⟩ : Journal))) = (r, j') ↔ _
  rcases exec (a.cycleSteps job snapshot now) (.ofJournal snapshot j) with ⟨r', t⟩
  simp only [Prod.mk.injEq]
  constructor
  · rintro ⟨rfl, rfl⟩
    exact ⟨t, ⟨rfl, rfl⟩, rfl⟩
  · rintro ⟨_, ⟨rfl, rfl⟩, rfl⟩
    exact ⟨rfl, rfl⟩

/-- A cycle that returns contains a decision that returns. -/
theorem runSnapshot_ok {o : Outcome} (h : a.runSnapshot job snapshot now j = (.ok o, j')) :
    ∃ s t, Begins job snapshot now j s ∧ Returns (a.decision job snapshot now) s o t ∧
      j'.ledger = (t.holdsStored job).ledger := by
  rcases runSnapshot_eq_iff.1 h with ⟨t, hrun, rfl⟩
  rcases returns_cycleSteps hrun with ⟨m, r, hload, hdecide, rfl⟩
  exact ⟨m.closed job now, r, ⟨m, hload, rfl⟩, hdecide, rfl⟩

/-- Where all writes succeed, a cycle that fails leaves the ledger as it was, or
    it contains a decision that fails. -/
theorem runSnapshot_error {err : DecisionError} (hw : j.ledger.TakesWrites)
    (h : a.runSnapshot job snapshot now j = (.error err, j')) :
    (j'.ledger = j.ledger ∧ ∀ s, ¬Begins job snapshot now j s) ∨
      ∃ s t, Begins job snapshot now j s ∧ Fails (a.decision job snapshot now) s err t ∧
        j'.ledger = t.ledger := by
  rcases runSnapshot_eq_iff.1 h with ⟨t, hrun, rfl⟩
  have hfails : Fails (a.cycleSteps job snapshot now) (.ofJournal snapshot j) err t := hrun
  simp only [cycleSteps, fails_bind_iff, not_fails_pure, and_false, exists_false,
    or_false] at hfails
  -- Loading reads only, and a cycle that fails there has no session to decide in.
  rcases hfails with hload | ⟨_, m, hload, hfails⟩
  · obtain rfl := fails_load hload
    refine Or.inl ⟨rfl, fun s hbegins => ?_⟩
    rcases hbegins with ⟨m, hload', _⟩
    exact not_fails_of_returns hload' hload
  rcases returns_load hload with ⟨_, _, _, _, _, _, rfl⟩
  -- Closing the restart and storing the holds are writes, which do not fail.
  rcases hfails with hclose | ⟨_, c, hclose, hfails⟩
  · exact absurd hclose (not_fails_closeRestart hw)
  obtain rfl := returns_closeRestart hclose
  rcases hfails with hdecide | ⟨o, r, hdecide, hstore⟩
  · exact Or.inr ⟨_, t, ⟨_, hload, rfl⟩, hdecide, rfl⟩
  · have hfault : r.ledger.fault = j.ledger.fault :=
      (fault_of_decision hdecide).trans (Session.sameButLog_closed _ job now).fault
    exact absurd hstore (not_fails_storeHolds (hw.of_fault_eq hfault))

/-- A source that was made for one job has its snapshot and no other one. -/
theorem eq_of_snapshot?_ofSnapshots {job : JobId} {snapshot snapshot' : Snapshot}
    (h : (Source.ofSnapshots (SortedMap.ofList [(job, snapshot)])).snapshot? job =
      .ok (some snapshot')) : snapshot' = snapshot := by
  have hfound : (SortedMap.empty.insert job snapshot).get? job = some snapshot' :=
    Except.ok.inj h
  rw [SortedMap.get?_insert_self] at hfound
  exact (Option.some.inj hfound).symm

/-- A cycle that returns an outcome had a snapshot. -/
theorem runCycle_ok {source : Source} {o : Outcome}
    (h : a.runCycle source job now j = (.ok (some o), j')) :
    ∃ snapshot, source.snapshot? job = .ok (some snapshot) ∧
      a.runSnapshot job snapshot now j = (.ok o, j') := by
  unfold Autoscaler.runCycle at h
  rcases hsource : source.snapshot? job with why | _ | snapshot
  · rw [hsource] at h
    cases (Prod.mk.inj h).1
  · rw [hsource] at h
    cases (Prod.mk.inj h).1
  · rw [hsource] at h
    rcases hrun : a.runSnapshot job snapshot now j with ⟨e | o', j''⟩
    · simp only [hrun] at h
      cases (Prod.mk.inj h).1
    · simp only [hrun] at h
      rcases Prod.mk.inj h with ⟨ho, rfl⟩
      obtain rfl : o' = o := Option.some.inj (Except.ok.inj ho)
      exact ⟨snapshot, rfl, hrun⟩

/-- Without a snapshot a cycle does nothing. -/
theorem runCycle_none {source : Source} (h : a.runCycle source job now j = (.ok none, j')) :
    j' = j := by
  unfold Autoscaler.runCycle at h
  rcases hsource : source.snapshot? job with why | _ | snapshot
  · rw [hsource] at h
    cases (Prod.mk.inj h).1
  · rw [hsource] at h
    exact (Prod.mk.inj h).2.symm
  · rw [hsource] at h
    rcases hrun : a.runSnapshot job snapshot now j with ⟨e | o, j''⟩
    · simp only [hrun] at h
      cases (Prod.mk.inj h).1
    · simp only [hrun] at h
      cases (Prod.mk.inj h).1

/-- The cycle of a job fails because of the source, and then nothing happens, or
    because of the cycle on its snapshot. -/
theorem runCycle_error {source : Source} {err : DecisionError}
    (h : a.runCycle source job now j = (.error err, j')) :
    (j' = j ∧ ∀ snapshot, source.snapshot? job ≠ .ok (some snapshot)) ∨
      ∃ snapshot, source.snapshot? job = .ok (some snapshot) ∧
        a.runSnapshot job snapshot now j = (.error err, j') := by
  unfold Autoscaler.runCycle at h
  -- Without a snapshot a cycle does nothing, and only a failing source is an error.
  rcases hsource : source.snapshot? job with why | _ | snapshot
  · rw [hsource] at h
    exact Or.inl ⟨(Prod.mk.inj h).2.symm, nofun⟩
  · rw [hsource] at h
    cases (Prod.mk.inj h).1
  · rw [hsource] at h
    rcases hrun : a.runSnapshot job snapshot now j with ⟨e | o, j''⟩
    · simp only [hrun] at h
      rcases Prod.mk.inj h with ⟨herr, rfl⟩
      obtain rfl : e = err := Except.error.inj herr
      exact Or.inr ⟨snapshot, rfl, hrun⟩
    · simp only [hrun] at h
      cases (Prod.mk.inj h).1

end Autoscaler

end Rescale
