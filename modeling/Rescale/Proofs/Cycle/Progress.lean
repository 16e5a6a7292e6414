import Rescale.Proofs.Cycle.Failure
import Rescale.Proofs.Cycle.Generations
import Rescale.Proofs.Job.RestartLog

/-!
# Progress of a Cycle

What a cycle that returns makes of history, restart log and the number of
decisions.

Three things can happen to these records, and the outcome tells which one. A
cycle without a snapshot leaves all of them. A cycle with a snapshot has seen the
job running, and if it does not end as scaled that is all. If it does, its
proposal goes on top of the history as it was read, which is the stored one with
every double reread, its instant goes on top of the restart log as it was closed,
and the number grows.

Every law about runs of cycles is an induction over these three cases, and none
of them has to open a cycle again.

## Main definitions

* `Store.recorded`, `Store.restarts`: The stored history and restart log, empty
  if they are missing.
* `Store.Progress`: What a cycle with an outcome makes of these records.

## Theorems

* `records_of_begins`: The records in the session that a decision starts in.
* `progress_of_run`: What a cycle that returns makes of the records.
-/

namespace Rescale

open Step

namespace Store

/-- The stored history of a job, as it was written. -/
def recorded (s : Store) (job : JobId) : History := (s.histories.get? job).getD ∅

/-- The stored restart log of a job. -/
def restarts (s : Store) (job : JobId) : RestartLog := (s.restartLog? job).getD ∅

theorem recorded_of_stored {s : Store} {job : JobId} {history : Option History}
    (h : s.histories.get? job = history) : s.recorded job = history.getD ∅ := by
  rw [recorded, h]

theorem restarts_of_stored {s : Store} {job : JobId} {log : Option RestartLog}
    (h : s.restartLog? job = log) : s.restarts job = log.getD ∅ := by
  rw [restarts, h]

/-- What a cycle that returns makes of the history, the restart log and the
    number of decisions of its job. -/
inductive Progress (job : JobId) (now : Instant) (s : Store) : Option Outcome → Store → Prop
  /-- There was no snapshot, and nothing was touched. -/
  | absent : Progress job now s none s
  /-- The job was seen running. -/
  | kept {o : Outcome} {t : Store} (outcome : o ≠ .scaled)
      (recorded : t.recorded job = s.recorded job)
      (restarts : t.restarts job = (s.restarts job).running now)
      (period : t.period job = s.period job) : Progress job now s (some o) t
  /-- The job was seen running, and a proposal was entered. -/
  | entered {p : Proposal} {t : Store} (nonempty : p.isEmpty = false)
      (moves : ∀ v c, p.get? v = some c → c.Moves)
      (recorded : t.recorded job = ((s.recorded job).mapFloats Decimal.reread).record now p)
      (restarts : t.restarts job = ((s.restarts job).running now).add now none)
      (period : t.period job = s.period job + 1) : Progress job now s (some .scaled) t

end Store

/-- A history that is read is the stored one with every double reread. -/
theorem getD_of_history? {s : Store} {job : JobId} {history : Option History}
    (h : s.history? job = .ok history) :
    history.getD ∅ = (s.recorded job).mapFloats Decimal.reread := by
  unfold Store.history? at h
  unfold Store.recorded
  cases hstored : s.histories.get? job with
  | none =>
      rw [hstored] at h
      rw [← Except.ok.inj h]
      rfl
  | some stored =>
      rw [hstored] at h
      rcases Store.readBack?_some_eq_ok_iff.1 h with ⟨found, hreread, rfl⟩
      exact Store.eq_of_rereadHistory hreread

/-- A session that has the stored restart log still has it once the pending
    restart is closed. -/
theorem restarts_closed {m : Session} {job : JobId} (now : Instant)
    (h : m.ledger.store.restarts job = m.restarts) :
    (m.closed job now).restarts = m.restarts.running now ∧
      (m.closed job now).ledger.store.restarts job = m.restarts.running now := by
  unfold Session.closed RestartLog.running
  cases hobserve : m.restarts.observeRunning now with
  | none => exact ⟨rfl, h⟩
  | some closed =>
      have hstored : (m.ledger.store.putRestartLog job closed.2).restartLog? job = some closed.2 :=
        SortedMap.get?_insert_self _ _ _
      exact ⟨rfl, Store.restarts_of_stored hstored⟩

variable {job : JobId} {snapshot : Snapshot} {now : Instant} {j j' : Journal} {s t : Session}

/-- A decision starts with the records as they were read, and by then the job was
    seen running. -/
theorem records_of_begins (h : Begins job snapshot now j s) :
    s.history = (j.ledger.store.recorded job).mapFloats Decimal.reread ∧
      s.restarts = (j.ledger.store.restarts job).running now ∧
      s.ledger.store.restarts job = (j.ledger.store.restarts job).running now := by
  rcases h with ⟨m, hload, rfl⟩
  rcases returns_load hload with ⟨history, restarts, holds, hhistory, hrestarts, _, rfl⟩
  have hlog : j.ledger.store.restarts job = restarts.getD ∅ :=
    Store.restarts_of_stored (Except.ok.inj (read_eq_ok hrestarts))
  rw [hlog, (Session.sameButLog_closed _ job now).history]
  exact ⟨getD_of_history? (read_eq_ok hhistory), restarts_closed now hlog⟩

/-- What a decision that does not end as scaled makes of the records. -/
theorem progress_of_kept {a : Autoscaler} {o : Outcome} (hbegins : Begins job snapshot now j s)
    (hdecision : Returns (a.decision job snapshot now) s o t) (ho : o ≠ .scaled) :
    j.ledger.store.Progress job now (some o) (t.holdsStored job).ledger.store := by
  rcases exists_store_holdsStored t job with ⟨holds, hstore⟩
  rcases Engine.kept_of_decide hdecision ho with ⟨_, _, _, hledger, _⟩
  have hkeeps := keepsDecisions_of_begins hbegins
  rw [hstore, hledger]
  exact .kept ho (Store.recorded_of_stored hkeeps.history) (records_of_begins hbegins).2.2
    hkeeps.sameGenerations.period

/-- What a decision that ends as scaled makes of the records. -/
theorem progress_of_scaled {a : Autoscaler} (hbegins : Begins job snapshot now j s)
    (hdecision : Returns (a.decision job snapshot now) s .scaled t) :
    j.ledger.store.Progress job now (some .scaled) (t.holdsStored job).ledger.store := by
  rcases exists_store_holdsStored t job with ⟨holds, hstore⟩
  rcases Engine.stores_of_decide hdecision with ⟨p, m, hp, hadmits, hpersist⟩
  have happlied := Engine.applied_of_stored hp hpersist
  rcases records_of_begins hbegins with ⟨hhistory, hrestarts, _⟩
  have hperiod := (keepsDecisions_of_begins hbegins).sameGenerations.period
  have hrecorded : t.history = s.history.record now p :=
    SortedMap.ext fun v => (happlied.history v).trans (s.history.get?_record now p v).symm
  have hlog : t.restarts = s.restarts.add now none :=
    SortedMap.ext fun i => (happlied.restarts i).trans (SortedMap.get?_insert _ _ i _).symm
  rw [hstore]
  refine .entered (p := p) hadmits.nonempty (fun v c hc => ?_) ?_ ?_ ?_
  · rcases Engine.startsFrom_of_propose hp v c hc with ⟨_, _, _, hstarts⟩
    exact ⟨hstarts.moves, hstarts.positive⟩
  · rw [← hhistory, ← hrecorded]
    exact Store.recorded_of_stored happlied.storedHistory
  · rw [← hrestarts, ← hlog]
    exact Store.restarts_of_stored happlied.storedRestarts
  · exact happlied.period.trans (congrArg (· + 1) hperiod)

/-- A cycle that returns makes of the records what its outcome tells. -/
theorem progress_of_run {c : Cycle} {o : Option Outcome} (h : c.run job j = (.ok o, j')) :
    j.ledger.store.Progress job c.now o j'.ledger.store := by
  cases o with
  | none =>
      rw [Autoscaler.runCycle_none h]
      exact .absent
  | some o =>
      rcases Autoscaler.runCycle_ok h with ⟨snapshot, _, hrun⟩
      rcases Autoscaler.runSnapshot_ok hrun with ⟨s, t, hbegins, hdecision, hledger⟩
      rw [hledger]
      by_cases ho : o = .scaled
      · subst ho
        exact progress_of_scaled hbegins hdecision
      · exact progress_of_kept hbegins hdecision ho

end Rescale
