import Rescale.Proofs.Cycle.Restarts

/-!
# Records in Step

How the records of a job fit together, after any course of cycles and resets.

A decision is entered in three records, one after the other: the history gets its
changes, the restart log its instant, and the number of decisions grows. Cycles
come at ascending instants, so no decision is entered over another one, and the
three stay in step. A reset removes all of them at once, and they begin again.

What was entered stays, but not as it was. The restart log is written only to
close its latest entry. The history is written with each decision, from what was
read, so each decision that follows rereads every change that came before. A
double that a record does not give back exactly is another one then. Which
changes this touches is a matter of the doubles alone: a change that survives
being reread once is never changed.

## Main definitions

* `Store.NoDecisions`: A store does not know of any decision about a job.
* `Store.InStep`: The records of a job tell of the same decisions.
* `Act`, `Course`: Cycles and resets of a job, one after the other.
* `sinceReset`: The cycles of a course since its last reset.

## Theorems

* `period_of_runs`, `grows_of_runs`, `restarts_of_runs`: The records after a run.
* `inStep_of_runs`: From nothing, a run leaves its records in step.
* `runs_of_course`: The cycles since the last reset are a run from nothing.
* `course_inStep`: The records are in step at every point, and each entry is
  found again later.
-/

namespace Rescale

namespace Store

/-- A store does not know of any decision about a job. -/
structure NoDecisions (job : JobId) (s : Store) : Prop where
  history : s.histories.get? job = none
  restartLog : s.restartLogs.get? job = none
  period : s.periods.get? job = none

/-- The number of decisions, the restart log and the history of a job tell of the
    same decisions, and what the history tells are changes. -/
structure InStep (job : JobId) (decisions : List Instant) (s : Store) : Prop where
  period : s.period job = decisions.length
  restarts : (s.restarts job).keys = decisions
  history : ∀ i, (∃ v c, (s.recorded job).change? v i = some c) ↔ i ∈ decisions
  moves : ∀ v i c, (s.recorded job).change? v i = some c → c.Moves

/-- A job that was deleted is not known of any more. -/
theorem noDecisions_deleteJob (s : Store) (job : JobId) : (s.deleteJob job).NoDecisions job :=
  ⟨SortedMap.get?_erase_self _ _, SortedMap.get?_erase_self _ _, SortedMap.get?_erase_self _ _⟩

end Store

/-! ### Runs -/

section Runs

variable {job : JobId} {j j' : Journal} {run : List (Cycle × Option Outcome)}

/-- By induction on the run: the number grows with each cycle that ends as
    scaled. -/
theorem period_of_runs (h : Runs job j run j') :
    j'.ledger.store.period job = j.ledger.store.period job + (decided run).length := by
  induction h with
  | nil => rfl
  | @cons c o rest j m j'' hfirst _ ih =>
      have hprogress := progress_of_run hfirst
      generalize m.ledger.store = t at hprogress ih
      rw [ih]
      cases hprogress with
      | absent => rw [decided_cons_of_ne (e := (c, none)) nofun]
      | kept outcome _ _ period =>
          rw [period, decided_cons_of_ne fun ho => outcome (Option.some.inj ho)]
      | entered _ _ _ _ period =>
          rw [period, decided_cons_of_scaled, List.length_cons]
          omega

/-- By induction on the run: the history grows by its decisions, one after the
    other, if it is older than the run. -/
theorem grows_of_runs (h : Runs job j run j') : Ascending run →
    (∀ e ∈ run, (j.ledger.store.recorded job).Older e.1.now) →
      (j.ledger.store.recorded job).Grows (decided run) (j'.ledger.store.recorded job) := by
  induction h with
  | nil => exact fun _ _ => .refl _
  | @cons c o rest j m j'' hfirst _ ih =>
      intro hascending hold
      rcases List.pairwise_cons.1 hascending with ⟨hlater, hrest⟩
      rcases List.forall_mem_cons.1 hold with ⟨hc, hothers⟩
      have hprogress := progress_of_run hfirst
      specialize ih hrest
      generalize m.ledger.store = t at hprogress ih
      cases hprogress with
      | absent =>
          rw [decided_cons_of_ne (e := (c, none)) nofun]
          exact ih hothers
      | kept outcome recorded _ _ =>
          rw [recorded] at ih
          rw [decided_cons_of_ne fun ho => outcome (Option.some.inj ho)]
          exact ih hothers
      | entered nonempty moves recorded _ _ =>
          rw [recorded] at ih
          rw [decided_cons_of_scaled]
          have hfirst := History.grows_record hc nonempty moves
          refine hfirst.trans (ih fun e he v i change hchange => ?_)
          -- The new changes are at the instant of this cycle, and the run goes on later.
          rcases hfirst.only v i change hchange with ⟨change', hchange'⟩ | hi
          · exact hothers e he v i change' hchange'
          · rw [List.mem_singleton.1 hi]
            exact hlater e he

/-- The log after a run has the entries from before, of which an open one may
    have been closed. -/
theorem restarts_of_runs (h : Runs job j run j') (hascending : Ascending run)
    (hbefore : ∀ e ∈ run, (j.ledger.store.restarts job).Before e.1.now) {i : Instant}
    {r : Option Span} (hr : (j.ledger.store.restarts job).get? i = some r) :
    ∃ r', (j'.ledger.store.restarts job).get? i = some r' ∧ (r' = r ∨ r = none) := by
  rcases RestartLog.get?_seen (seen? job run) hr with ⟨r', hr', hcases⟩
  refine ⟨r', SortedMap.mem_toList_iff.1 ?_, hcases⟩
  rw [toList_restarts_of_runs h hascending hbefore]
  exact List.mem_append_left _ (SortedMap.mem_toList_iff.2 hr')

/-- From nothing, a run leaves the records of a job in step. -/
theorem inStep_of_runs (hstart : j.ledger.store.NoDecisions job) (hascending : Ascending run)
    (h : Runs job j run j') : j'.ledger.store.InStep job (decided run) := by
  have hrecorded : j.ledger.store.recorded job = ∅ := Store.recorded_of_stored hstart.history
  have hperiod : j.ledger.store.period job = 0 := by
    rw [Store.period, SortedMap.getD, hstart.period]
    rfl
  have hnone : ∀ v i c, (j.ledger.store.recorded job).change? v i ≠ some c := by
    intro v i c hc
    rw [hrecorded] at hc
    cases hc
  have hgrows := grows_of_runs h hascending fun _ _ v i c hc => absurd hc (hnone v i c)
  refine ⟨?_, ?_, fun i => ⟨?_, hgrows.added i⟩,
    hgrows.moves fun v i c hc => absurd hc (hnone v i c)⟩
  · rw [period_of_runs h, hperiod, Nat.zero_add]
  · rw [SortedMap.keys, toList_restarts_of_none hstart.restartLog hascending h, keys_observed]
  · rintro ⟨v, c, hc⟩
    rcases hgrows.only v i c hc with ⟨c', hc'⟩ | hi
    · exact absurd hc' (hnone v i c')
    · exact hi

end Runs

/-! ### Courses -/

/-- What is done about a job: a cycle, or a reset of all of its records. -/
inductive Act where
  | cycle (c : Cycle) (o : Option Outcome)
  | reset

/-- The journal once all records of a job are removed. -/
def Journal.reset (j : Journal) (job : JobId) : Journal :=
  { j with ledger := { j.ledger with store := j.ledger.store.deleteJob job } }

/-- Cycles of a job, each of which returns, and resets, one after the other. -/
inductive Course (job : JobId) : Journal → List Act → Journal → Prop
  | nil (j : Journal) : Course job j [] j
  | cycle {c : Cycle} {o : Option Outcome} {rest : List Act} {j j' j'' : Journal}
      (first : c.run job j = (.ok o, j')) (others : Course job j' rest j'') :
      Course job j (.cycle c o :: rest) j''
  | reset {rest : List Act} {j j' : Journal} (others : Course job (j.reset job) rest j') :
      Course job j (.reset :: rest) j'

/-- The cycles of a course. -/
def cyclesOf : List Act → List (Cycle × Option Outcome)
  | [] => []
  | .cycle c o :: rest => (c, o) :: cyclesOf rest
  | .reset :: rest => cyclesOf rest

/-- The cycles of a course since its last reset, with those that came before the
    course if there is none. -/
def sinceReset (past : List (Cycle × Option Outcome)) : List Act → List (Cycle × Option Outcome)
  | [] => past
  | .cycle c o :: rest => sinceReset (past ++ [(c, o)]) rest
  | .reset :: rest => sinceReset [] rest

/-- Cycles as parts of a course. -/
def asActs (run : List (Cycle × Option Outcome)) : List Act := run.map fun e => .cycle e.1 e.2

section Courses

variable {job : JobId} {j j' : Journal} {acts : List Act}

theorem sublist_sinceReset (past : List (Cycle × Option Outcome)) :
    (sinceReset past acts).Sublist (past ++ cyclesOf acts) := by
  induction acts generalizing past with
  | nil => rw [sinceReset, cyclesOf, List.append_nil]
  | cons act rest ih =>
      cases act with
      | cycle c o =>
          rw [sinceReset, cyclesOf, List.append_cons past (c, o) (cyclesOf rest)]
          exact ih (past ++ [(c, o)])
      | reset =>
          rw [sinceReset, cyclesOf]
          exact (ih []).trans (List.sublist_append_right past _)

/-- By induction on the course: a reset begins a new run, and a cycle goes on with
    the run so far. -/
theorem runs_of_course (h : Course job j acts j') : ∀ {past : List (Cycle × Option Outcome)}
    {j₀ : Journal}, j₀.ledger.store.NoDecisions job → Runs job j₀ past j →
      ∃ j₁, j₁.ledger.store.NoDecisions job ∧ Runs job j₁ (sinceReset past acts) j' := by
  induction h with
  | nil j => exact fun hstart hpast => ⟨_, hstart, hpast⟩
  | cycle hfirst _ ih =>
      exact fun hstart hpast => ih hstart (runs_append_iff.2 ⟨_, hpast, .cons hfirst (.nil _)⟩)
  | reset _ ih => exact fun _ _ => ih (Store.noDecisions_deleteJob _ job) (.nil _)

/-- By induction on the cycles: they are a run. -/
theorem runs_of_asActs {run : List (Cycle × Option Outcome)} (h : Course job j (asActs run) j') :
    Runs job j run j' := by
  induction run generalizing j with
  | nil =>
      cases h
      exact .nil _
  | cons e rest ih =>
      cases h with
      | cycle hfirst hothers => exact .cons hfirst (ih hothers)

/-- By induction on the first part: a course that ends with cycles is cut in front
    of them. -/
theorem exists_of_course_append {before : List Act} {after : List (Cycle × Option Outcome)}
    (h : Course job j (before ++ asActs after) j') :
    ∃ m, Course job j before m ∧ Runs job m after j' := by
  induction before generalizing j with
  | nil => exact ⟨j, .nil j, runs_of_asActs h⟩
  | cons act rest ih =>
      cases h with
      | cycle hfirst hothers =>
          rcases ih hothers with ⟨m, hbefore, hafter⟩
          exact ⟨m, .cycle hfirst hbefore, hafter⟩
      | reset hothers =>
          rcases ih hothers with ⟨m, hbefore, hafter⟩
          exact ⟨m, .reset hbefore, hafter⟩

end Courses

/-- Take a course of cycles and resets at ascending instants, of a job without
    any decision at first, and any point of it after which there is no reset. At
    that point the records of the job are in step: they tell of the decisions
    since the last reset. And what they tell is found again at the end. An entry
    of the restart log is the same unless it was open. An entry of the history
    was reread once for each decision in between. -/
theorem course_inStep (job : JobId) (j₀ j : Journal) (before : List Act)
    (after : List (Cycle × Option Outcome)) (hstart : j₀.ledger.store.NoDecisions job)
    (hascending : Ascending (cyclesOf before ++ after))
    (h : Course job j₀ (before ++ asActs after) j) :
    ∃ m, Course job j₀ before m ∧ Runs job m after j ∧
      m.ledger.store.InStep job (decided (sinceReset [] before)) ∧
      (∀ i r, (m.ledger.store.restarts job).get? i = some r →
        ∃ r', (j.ledger.store.restarts job).get? i = some r' ∧ (r' = r ∨ r = none)) ∧
      ∀ v i c, (m.ledger.store.recorded job).change? v i = some c →
        (j.ledger.store.recorded job).change? v i =
          some (Change.reread^[(decided after).length] c) := by
  rcases exists_of_course_append h with ⟨m, hbefore, hafter⟩
  rcases List.pairwise_append.1 hascending with ⟨hpast, hfuture, hlater⟩
  rcases runs_of_course hbefore hstart (.nil j₀) with ⟨j₁, hfresh, hruns⟩
  have hsublist : (sinceReset [] before).Sublist (cyclesOf before) := sublist_sinceReset []
  have hinStep := inStep_of_runs hfresh (hpast.sublist hsublist) hruns
  -- What is recorded was decided before, so it is older than what follows.
  have hold : ∀ i ∈ decided (sinceReset [] before), ∀ e ∈ after, i.millis < e.1.now.millis := by
    intro i hi e he
    rcases exists_of_mem_decided hi with ⟨e', he', rfl⟩
    exact hlater e' (hsublist.subset he') e he
  refine ⟨m, hbefore, hafter, hinStep, fun i r => ?_, fun v i c => ?_⟩
  · refine restarts_of_runs hafter hfuture fun e he entry hentry => hold entry.1 ?_ e he
    rw [← hinStep.restarts]
    exact List.mem_map_of_mem hentry
  · refine (grows_of_runs hafter hfuture fun e he v i c hc => hold i ?_ e he).kept v i c
    exact (hinStep.history i).1 ⟨v, c, hc⟩

namespace DriftingLatency

open Step

/-- The map runs at two, and state is accessed very fast. -/
def readings : Readings :=
  (Readings.behind 2).insert .stateAccessLatency (.point 1.1111111111111114e-7)

/-- It goes to five. -/
def cycle (now : Instant) : Cycle where
  autoscaler := { engine := .toward [("map", 5)] }
  source := .ofSnapshots (SortedMap.ofList [("job",
    { job := "job", readings := { vertices := SortedMap.ofList [("map", readings)] },
      topology := .ofEdges [("source", "map")] })])
  now

def change : Change := { current := 2, target := 5, readings }

def afterFirst : Journal := ((cycle ⟨0⟩).run "job" {}).2

def afterReset : Journal := ((cycle ⟨60000⟩).run "job" (afterFirst.reset "job")).2

def stop : Journal := ((cycle ⟨120000⟩).run "job" afterReset).2

theorem run_afterFirst : (cycle ⟨0⟩).run "job" {} = (.ok (some .scaled), afterFirst) :=
  eq_ok_of_toOption (by decide +kernel)

theorem run_afterReset :
    (cycle ⟨60000⟩).run "job" (afterFirst.reset "job") = (.ok (some .scaled), afterReset) :=
  eq_ok_of_toOption (by decide +kernel)

theorem run_stop : (cycle ⟨120000⟩).run "job" afterReset = (.ok (some .scaled), stop) :=
  eq_ok_of_toOption (by decide +kernel)

theorem course_inStep_reset :
    ({} : Journal).ledger.store.NoDecisions "job" ∧
      ∃ (m : Journal) (v : VertexId) (c : Change), m.ledger.store.InStep "job" [⟨60000⟩] ∧
        (m.ledger.store.recorded "job").change? v ⟨60000⟩ = some c ∧
        (stop.ledger.store.recorded "job").change? v ⟨60000⟩ = some c.reread := by
  have hstart : ({} : Journal).ledger.store.NoDecisions "job" := ⟨rfl, rfl, rfl⟩
  rcases course_inStep "job" {} stop
    [.cycle (cycle ⟨0⟩) (some .scaled), .reset, .cycle (cycle ⟨60000⟩) (some .scaled)]
    [(cycle ⟨120000⟩, some .scaled)] hstart (by decide)
    (.cycle run_afterFirst (.reset (.cycle run_afterReset (.cycle run_stop (.nil _))))) with
    ⟨m, _, _, hinStep, _, hkept⟩
  have hinStep' : m.ledger.store.InStep "job" [⟨60000⟩] := hinStep
  rcases (hinStep'.history ⟨60000⟩).2 (List.mem_singleton_self _) with ⟨v, c, hc⟩
  exact ⟨hstart, m, v, c, hinStep', hc, hkept v ⟨60000⟩ c hc⟩

/-- What was recorded at the first decision since the reset is another change
    after the next one. -/
theorem change?_after_next_decision :
    Course "job" {}
        [.cycle (cycle ⟨0⟩) (some .scaled), .reset, .cycle (cycle ⟨60000⟩) (some .scaled)]
        afterReset ∧
      Runs "job" afterReset [(cycle ⟨120000⟩, some .scaled)] stop ∧
      (afterReset.ledger.store.recorded "job").change? "map" ⟨60000⟩ = some change ∧
      (stop.ledger.store.recorded "job").change? "map" ⟨60000⟩ = some change.reread ∧
      change.reread ≠ change := by
  refine ⟨.cycle run_afterFirst (.reset (.cycle run_afterReset (.nil _))),
    .cons run_stop (.nil _), ?_, ?_, ?_⟩
  · decide +kernel
  · decide +kernel
  · decide +kernel

end DriftingLatency

end Rescale
