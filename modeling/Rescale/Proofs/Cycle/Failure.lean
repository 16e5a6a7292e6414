import Rescale.Proofs.Cycle.Basic
import Rescale.Proofs.Job.History

/-!
# Cycles that Fail

What a cycle that fails leaves in the store, if all writes succeed.

Almost everything that can fail comes before the first write of a decision: the
records, the vertices, the band, the tuned options, the readings that the
cluster asks for. A cycle that fails there has kept every decision in the store;
it may only have closed the latest entry of the restart log, which tells of a
decision made before.

Two computations come too late. By the time a vertex without a change turns out
to report no parallelism, history and restart log tell of the decision already;
and by the time the generation before turns out to be unreadable, so do the
overrides. Such a cycle breaks off. It leaves a decision in the store that was
not counted, and an entry of the log that no restart is going to close.

## Main definitions

* `Store.KeepsDecisions`: The decisions about a job are as they were.
* `BreaksOff`: A decision is let through and cannot be stored.
* `Store.withEntry`: A store with a decision in history and restart log alone.

## Theorems

* `keepsDecisions_of_begins`: What comes before a decision keeps the decisions.
* `brokenOff_of_persist_fails`: A decision that fails while it is stored breaks
  off.
* `not_keepsDecisions_of_entry`: A new entry in the history is a decision that
  was not there.
* `runCycle_error_keeps`: Cycles that fail keep the decisions unless they break
  off.
-/

namespace Rescale

open Step

namespace Store

/-- The decisions about a job are the same in two stores: its history, its
    overrides, its generations with their number and its holds. In the restart
    log the latest entry may have been closed. -/
structure KeepsDecisions (job : JobId) (now : Instant) (s t : Store) : Prop where
  history : t.histories.get? job = s.histories.get? job
  parallelism : t.parallelism? job = s.parallelism? job
  profiles : t.profiles? job = s.profiles? job
  configChanges : t.configChanges? job = s.configChanges? job
  holds : t.holds? job = s.holds? job
  period : t.periods.get? job = s.periods.get? job
  generations : ∀ period, t.generations.get? (generationKey job period) =
    s.generations.get? (generationKey job period)
  restartLog : t.restartLog? job = s.restartLog? job ∨
    ∃ log started span, s.restartLog? job = some log ∧ log.last? = some (started, none) ∧
      now.since? started = some span ∧ t.restartLog? job = some (log.insert started (some span))

theorem KeepsDecisions.refl (job : JobId) (now : Instant) (s : Store) :
    KeepsDecisions job now s s :=
  ⟨rfl, rfl, rfl, rfl, rfl, rfl, fun _ => rfl, Or.inl rfl⟩

/-- A store with a decision in history and restart log alone. -/
def withEntry (s : Store) (job : JobId) (h : History) (log : RestartLog) : Store :=
  (s.putHistory job h).putRestartLog job log

end Store

/-- A decision is let through by all gates and cannot be stored: a vertex that
    does not change reports no parallelism, or the elastic policy cannot read
    what came before. -/
structure BreaksOff (a : Autoscaler) (job : JobId) (snapshot : Snapshot) (now : Instant)
    (s : Session) (p : Proposal) : Prop where
  proposed : ∃ m,
    Returns (a.engine.proposal (a.context job snapshot) snapshot.topology now s) s p m
  admitted : Admits a.engine (a.context job snapshot) snapshot.topology now s.readings p
  broken : OverridesMissing s.readings p ∨
    (a.config.elastic.enabled = true ∧ ∃ cause, s.ledger.previous? job = .error cause)

section Cycle

variable {a : Autoscaler} {job : JobId} {snapshot : Snapshot} {now : Instant} {j : Journal}
  {s t : Session} {p : Proposal} {err : DecisionError}

/-- Before its decision a cycle writes at most one record, and that closes the
    latest entry of the restart log. -/
theorem keepsDecisions_of_begins (h : Begins job snapshot now j s) :
    Store.KeepsDecisions job now j.ledger.store s.ledger.store := by
  rcases h with ⟨m, hload, rfl⟩
  rcases returns_load hload with ⟨_, restarts, _, _, hrestarts, _, rfl⟩
  have hlog : j.ledger.store.restartLog? job = restarts := Except.ok.inj (read_eq_ok hrestarts)
  unfold Session.closed
  split
  · next span log' hobserve =>
    rcases observeRunning_eq_some_iff.1 hobserve with ⟨started, hlast, hspan, rfl⟩
    refine ⟨rfl, rfl, rfl, rfl, rfl, rfl, fun _ => rfl, Or.inr ?_⟩
    cases restarts with
    | none => cases hlast
    | some log =>
        exact ⟨log, started, span, hlog, hlast, hspan, SortedMap.get?_insert_self _ _ _⟩
  · exact .refl job now _

/-- The overrides that are missing for readings are missing for the readings
    with recommendations as well. -/
theorem overridesMissing_recommend_iff (readings : JobReadings) (p : Proposal) :
    OverridesMissing (recommend readings p) p ↔ OverridesMissing readings p := by
  constructor
  · rintro ⟨v, r, hr, hp, hmissing⟩
    rw [get?_recommend_of_none readings hp] at hr
    exact ⟨v, r, hr, hp, hmissing⟩
  · rintro ⟨v, r, hr, hp, hmissing⟩
    rw [← get?_recommend_of_none readings hp] at hr
    exact ⟨v, r, hr, hp, hmissing⟩

/-- Writes that succeed before a decision succeed while it is stored. -/
theorem takesWrites_storing {m : Session} (a : Autoscaler) (job : JobId) (snapshot : Snapshot)
    (now : Instant) (p : Proposal) (hw : s.ledger.TakesWrites) (hm : s.SameRecords m) :
    (a.engine.storing (a.context job snapshot) now p m).ledger.TakesWrites :=
  hw.of_fault_eq (congrArg Ledger.fault hm.ledger)

/-- A decision that is let through and fails while it is stored breaks off. -/
theorem brokenOff_of_persist_fails {m : Session} (hw : s.ledger.TakesWrites)
    (hp : Returns (a.engine.proposal (a.context job snapshot) snapshot.topology now s) s p m)
    (hadmits : Admits a.engine (a.context job snapshot) snapshot.topology now s.readings p)
    (h : Fails (Step.persist (a.context job snapshot) now p
      (a.engine.tuning (a.context job snapshot) s.readings p))
      (a.engine.storing (a.context job snapshot) now p m) err t) :
    BreaksOff a job snapshot now s p := by
  have hm : s.SameRecords m := Engine.sameRecords_of_propose hp.leaves
  have hw' := takesWrites_storing a job snapshot now p hw hm
  refine ⟨⟨m, hp⟩, hadmits, ?_⟩
  -- Storing starts on the ledger of the proposal and on the recommended readings.
  rcases fails_persist hw' h with ⟨ho, _⟩ | ⟨_, _, helastic, cause, hprevious, _⟩
  · refine Or.inl ((overridesMissing_recommend_iff s.readings p).1 ?_)
    rw [← hm.readings]
    exact (parallelismOverrides_error_iff _ p).1 ⟨err, ho⟩
  · refine Or.inr ⟨helastic, cause, ?_⟩
    rw [← hm.ledger]
    exact hprevious

/-- What a decision leaves in the store that fails while it is stored: an entry
    in history and restart log, and with the overrides at hand those as well. -/
theorem store_of_persist_fails {m : Session} (hw : s.ledger.TakesWrites)
    (hp : Returns (a.engine.proposal (a.context job snapshot) snapshot.topology now s) s p m)
    (h : Fails (Step.persist (a.context job snapshot) now p
      (a.engine.tuning (a.context job snapshot) s.readings p))
      (a.engine.storing (a.context job snapshot) now p m) err t) :
    let entered := s.ledger.store.withEntry job (s.history.record now p) (s.restarts.add now none)
    (OverridesMissing s.readings p → t.ledger.store = entered) ∧
      (¬OverridesMissing s.readings p → ∃ overrides,
        parallelismOverrides (recommend s.readings p) p = .ok overrides ∧
          t.ledger.store = (entered.putParallelism job overrides).putConfigChanges job
            (a.engine.tuning (a.context job snapshot) s.readings p)) := by
  have hm : s.SameRecords m := Engine.sameRecords_of_propose hp.leaves
  have hw' := takesWrites_storing a job snapshot now p hw hm
  have hentered : m.ledger.store.withEntry job (m.history.record now p) (m.restarts.add now none) =
      s.ledger.store.withEntry job (s.history.record now p) (s.restarts.add now none) := by
    rw [hm.ledger, hm.history, hm.restarts]
  rw [← overridesMissing_recommend_iff, ← hentered]
  rcases fails_persist hw' h with ⟨ho, rfl⟩ | ⟨overrides, ho, _, _, _, _, rfl⟩
  · -- The overrides are missing, and only history and restart log are stored.
    have ho' : parallelismOverrides (recommend s.readings p) p = .error err := by
      rw [← hm.readings]
      exact ho
    exact ⟨fun _ => rfl,
      fun hnot => absurd ((parallelismOverrides_error_iff _ p).1 ⟨err, ho'⟩) hnot⟩
  · -- The overrides are at hand and stored, so they cannot be missing.
    have ho' : parallelismOverrides (recommend s.readings p) p = .ok overrides := by
      rw [← hm.readings]
      exact ho
    refine ⟨fun hmissing => ?_, fun _ => ⟨overrides, ho', rfl⟩⟩
    rcases (parallelismOverrides_error_iff _ p).2 hmissing with ⟨_, herr⟩
    rw [herr] at ho'
    cases ho'

/-- A history with an entry for the instant is not the one that the cycle began
    with, if that had none. Reading a record back rounds its numbers, but it
    keeps the entries. -/
theorem not_keepsDecisions_of_entry {u : Store} {v : VertexId} {c : Change}
    (hbegins : Begins job snapshot now j s)
    (hhistory : u.histories.get? job = some (s.history.record now p)) (hv : p.get? v = some c)
    (hfresh : s.history.change? v now = none) :
    ¬Store.KeepsDecisions job now j.ledger.store u := by
  intro hkeeps
  rcases hbegins with ⟨m, hload, rfl⟩
  rw [(Session.sameButLog_closed m job now).history] at hhistory hfresh
  rcases returns_load hload with ⟨history, _, _, hread, _, _, hm⟩
  have hloaded : m.history = history.getD ∅ := by rw [hm]
  -- The record that was loaded is the one that holds the entry already.
  have hstored : j.ledger.store.histories.get? job = some (m.history.record now p) :=
    hkeeps.history.symm.trans hhistory
  have hreread := read_eq_ok hread
  rw [Session.ofJournal, Store.history?, hstored] at hreread
  rcases Store.readBack?_some_eq_ok_iff.1 hreread with ⟨found, hfound, rfl⟩
  -- It was read back, so the entry is there.
  have heq : m.history = (m.history.record now p).mapFloats Decimal.reread :=
    hloaded.trans (Store.eq_of_rereadHistory hfound)
  rw [heq, History.change?_mapFloats, History.change?_record, if_pos Std.ReflOrd.compare_self, hv]
    at hfresh
  cases hfresh

/-- A cycle that fails keeps the decisions about its job, unless its own decision
    breaks off. Then history and restart log show that decision, and with the
    overrides at hand those do as well, and nothing else does. At an instant that
    the history does not know yet, this is a decision that was not there
    before. -/
theorem runCycle_error_keeps (a : Autoscaler) (source : Source) (job : JobId) (now : Instant)
    (j j' : Journal) (err : DecisionError) (hw : j.ledger.TakesWrites)
    (h : a.runCycle source job now j = (.error err, j')) :
    ((∀ snapshot s p, source.snapshot? job = .ok (some snapshot) →
        Begins job snapshot now j s → ¬BreaksOff a job snapshot now s p) →
      Store.KeepsDecisions job now j.ledger.store j'.ledger.store) ∧
    ∀ snapshot s p, source.snapshot? job = .ok (some snapshot) → Begins job snapshot now j s →
      BreaksOff a job snapshot now s p →
        let entered :=
          s.ledger.store.withEntry job (s.history.record now p) (s.restarts.add now none)
        (OverridesMissing s.readings p → j'.ledger.store = entered) ∧
        (¬OverridesMissing s.readings p → ∃ overrides,
          parallelismOverrides (recommend s.readings p) p = .ok overrides ∧
            j'.ledger.store = (entered.putParallelism job overrides).putConfigChanges job
              (a.engine.tuning (a.context job snapshot) s.readings p)) ∧
        ((∃ v c, p.get? v = some c ∧ s.history.change? v now = none) →
          ¬Store.KeepsDecisions job now j.ledger.store j'.ledger.store) := by
  rcases Autoscaler.runCycle_error h with ⟨rfl, hsource⟩ | ⟨snapshot, hsource, hrun⟩
  · exact ⟨fun _ => .refl job now _, fun snapshot _ _ hs => absurd hs (hsource snapshot)⟩
  rcases Autoscaler.runSnapshot_error hw hrun with ⟨hledger, hnone⟩ |
    ⟨s, t, hbegins, hdecision, hledger⟩
  · refine ⟨fun _ => ?_, fun snapshot' s p hs hbegins => ?_⟩
    · rw [hledger]
      exact .refl job now _
    · cases hsource.symm.trans hs
      exact absurd hbegins (hnone s)
  have hw' : s.ledger.TakesWrites := hw.of_fault_eq hbegins.fault
  rcases Engine.fails_decide_cases hdecision with ⟨hkept, hnot⟩ | ⟨p, m, hp, hadmits, hpersist⟩
  · -- The decision failed before its first write.
    refine ⟨fun _ => ?_, fun snapshot' s' p hs hbegins' hbreaks => ?_⟩
    · rw [hledger, hkept]
      exact keepsDecisions_of_begins hbegins
    · cases hsource.symm.trans hs
      obtain rfl := hbegins.unique hbegins'
      rcases hbreaks.proposed with ⟨m, hp⟩
      exact absurd hbreaks.admitted (hnot p m hp)
  · -- The decision was let through and failed between its writes.
    refine ⟨fun hnone => ?_, fun snapshot' s' p' hs hbegins' hbreaks => ?_⟩
    · have hbreaks := brokenOff_of_persist_fails hw' hp hadmits hpersist
      exact absurd hbreaks (hnone snapshot s p hsource hbegins)
    · cases hsource.symm.trans hs
      obtain rfl := hbegins.unique hbegins'
      rcases hbreaks.proposed with ⟨m', hp'⟩
      obtain rfl := (returns_functional hp hp').1
      rcases store_of_persist_fails hw' hp hpersist with ⟨hmissing, hthere⟩
      rw [← hledger] at hmissing hthere
      refine ⟨hmissing, hthere, ?_⟩
      rintro ⟨v, c, hv, hfresh⟩
      -- The history tells of the decision whether the overrides were stored or not.
      refine not_keepsDecisions_of_entry hbegins ?_ hv hfresh
      by_cases hoverrides : OverridesMissing s.readings p
      · rw [hmissing hoverrides]
        exact SortedMap.get?_insert_self _ _ _
      · rcases hthere hoverrides with ⟨_, _, hstore⟩
        rw [hstore]
        exact SortedMap.get?_insert_self _ _ _

end Cycle

/-! ### A vertex that reports nothing -/

namespace SilentSink

/-- The sink is excluded from scaling, the source goes to parallelism four. -/
def autoscaler : Autoscaler where
  engine := .toward [("source", 4)]
  config := { scaling := { excluded := ["sink"] } }

/-- The source falls behind at parallelism two, and the sink reports nothing. -/
def snapshot (topology : Topology) : Snapshot where
  job := "job"
  readings := { vertices := SortedMap.ofList [("sink", ∅), ("source", .behind 2)] }
  topology

def source (topology : Topology) : Source :=
  .ofSnapshots (SortedMap.ofList [("job", snapshot topology)])

/-- The cycle of the job on an empty store. -/
def cycle (topology : Topology) : Except DecisionError (Option Outcome) × Journal :=
  autoscaler.runCycle (source topology) "job" ⟨0⟩ {}

/-- With a graph that does not know the source, the cycle fails in time. -/
theorem runCycle_error_keeps_without_graph :
    (cycle {}).1 = .error (.unknownVertex "source") ∧
      Store.KeepsDecisions "job" ⟨0⟩ {} (cycle {}).2.ledger.store := by
  have herror : cycle {} = (.error (.unknownVertex "source"), (cycle {}).2) := Prod.ext rfl rfl
  refine ⟨rfl, (runCycle_error_keeps autoscaler (source {}) "job" ⟨0⟩ {} _ _ (fun _ => rfl)
    herror).1 fun snapshot' s p hs hbegins hbreaks => ?_⟩
  cases hs
  -- Only one session can begin the decision, and in it nothing is proposed.
  have hbegins' : Begins "job" (snapshot {}) ⟨0⟩ {} (Session.ofJournal (snapshot {}) {}) :=
    ⟨_, returns_of_exec rfl, rfl⟩
  obtain rfl := hbegins.unique hbegins'
  rcases hbreaks.proposed with ⟨m, hp⟩
  have hfails : Fails (autoscaler.engine.proposal (autoscaler.context "job" (snapshot {})) {} ⟨0⟩
      (Session.ofJournal (snapshot {}) {})) (Session.ofJournal (snapshot {}) {})
      (.unknownVertex "source") (Session.ofJournal (snapshot {}) {}) := rfl
  exact not_fails_of_returns hp hfails

/-- With the graph at hand the cycle fails over the sink, and a history tells of
    a decision that was never made. -/
theorem runCycle_error_with_entry :
    (cycle (.ofEdges [("source", "sink")])).1 = .error (.missingMetric "sink" .parallelism) ∧
      ({} : Ledger).TakesWrites ∧
      ¬Store.KeepsDecisions "job" ⟨0⟩ {}
        (cycle (.ofEdges [("source", "sink")])).2.ledger.store := by
  refine ⟨rfl, fun _ => rfl, fun hkeeps => ?_⟩
  have hentry : ((cycle (.ofEdges [("source", "sink")])).2.ledger.store.histories.get?
      "job").isSome = true := rfl
  rw [hkeeps.history] at hentry
  cases hentry

end SilentSink

end Rescale
