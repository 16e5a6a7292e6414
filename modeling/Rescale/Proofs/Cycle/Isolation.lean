import Rescale.Proofs.Cycle.Generations
import Rescale.Proofs.Decision.Local

/-!
# Isolation of Cycles

Cycles of different jobs do not get in each other's way.

All steps of a cycle are local to its job. So what a cycle returns and what it
makes of the records of its job depends on these records alone, and all other
records stay as they are, however the cycle ends. Cycles of any jobs may then
run in any order: what each of them returns is what it would have returned among
the cycles of its own job alone, and the store that they leave is settled by
what each job did for itself. In particular cycles of two jobs commute.

This holds whatever the jobs are called. A job can be nested in another one, and
then the generations of the one are listed with those of the other; but a cycle
looks for single generations, by keys that name one job only.

## Main definitions

* `Schedule`: Cycles of some jobs, in the order in which they run.
* `entriesOf`: What belongs to a job in a list of entries.

## Theorems

* `Autoscaler.runCycle_alike`, `Autoscaler.confined_runCycle`: What a cycle
  depends on, and what it touches.
* `Schedule.run_entriesOf`: A job in a schedule does as its own cycles alone do.
* `Schedule.eq_of_entriesOf_eq`: Schedules with the same cycles of every job
  leave the same store.
* `Autoscaler.runEach_eq_run`, `Autoscaler.run_round`: Rounds are schedules, and
  their cycles return what each would return alone.
* `cycles_isolated`: Cycles of different jobs do not influence each other.
-/

namespace Rescale

open Step

/-! ### Single cycles -/

namespace Step

variable {job : JobId} {now : Instant}

theorem local_load : Local job (load job) := by
  rw [load]
  refine local_bind (local_read fun s t h => ?_) fun history => ?_
  · rw [Store.history?, Store.history?, h.history]
  refine local_bind (local_read fun s t h => ?_) fun restarts => ?_
  · rw [Store.restartLog?, Store.restartLog?, h.restartLog]
  refine local_bind (local_read fun s t h => ?_) fun holds => ?_
  · rw [Store.holds?, Store.holds?, h.holds]
  refine local_modify (fun s t h => ?_) fun _ => rfl
  exact ⟨h.ledger, h.readings, rfl, rfl, rfl⟩

theorem local_closeRestart : Local job (closeRestart job now) := by
  rw [closeRestart]
  refine local_get_bind (fun s t h => by rw [h.restarts]) fun s => ?_
  rcases s.restarts.observeRunning now with _ | ⟨_, restarts⟩
  · exact local_pure _
  · refine local_bind (local_modify (fun s t h => ?_) fun _ => rfl) fun _ => ?_
    · exact ⟨h.ledger, h.readings, h.history, rfl, h.pending⟩
    · exact local_write .restartLog (.restartLog restarts) trivial

theorem local_storeHolds : Local job (storeHolds job) := by
  rw [storeHolds]
  refine local_get_bind (fun s t h => by rw [h.pending]) fun s => ?_
  change Local job (if s.pending.changed = true then _ else _)
  split
  · exact local_write .holds (.holds s.pending) trivial
  · exact local_pure _

end Step

namespace Autoscaler

variable (a : Autoscaler) {job : JobId} {source source' : Source} (now : Instant)
  {j j' : Journal}

theorem local_cycleSteps (job : JobId) (snapshot : Snapshot) :
    Local job (a.cycleSteps job snapshot now) := by
  rw [cycleSteps]
  refine local_bind local_load fun _ => ?_
  refine local_bind local_closeRestart fun _ => ?_
  refine local_bind (a.engine.local_decide (a.context job snapshot) snapshot.topology now)
    fun outcome => ?_
  exact local_bind local_storeHolds fun _ => local_pure outcome

/-- Ledgers that look alike for a job lead to the same result of its cycle, and
    they look alike afterwards. -/
theorem runCycle_alike (h : j.ledger.Alike job j'.ledger)
    (hsource : source'.snapshot? job = source.snapshot? job) :
    (a.runCycle source' job now j').1 = (a.runCycle source job now j).1 ∧
      (a.runCycle source job now j).2.ledger.Alike job
        (a.runCycle source' job now j').2.ledger := by
  unfold runCycle
  rw [hsource]
  rcases source.snapshot? job with why | _ | snapshot
  · exact ⟨rfl, h⟩
  · exact ⟨rfl, h⟩
  · -- The session has no copies of records yet, so it looks alike if the ledgers do.
    have hstart : (Session.ofJournal snapshot j).Alike job (.ofJournal snapshot j') :=
      ⟨h, rfl, rfl, rfl, rfl⟩
    rcases (a.local_cycleSteps now job snapshot).alike _ _ hstart with ⟨hresult, hstop⟩
    exact ⟨congrArg (Except.map some) hresult, hstop.ledger⟩

/-- However the cycle of a job ends, it touches nothing but records of the
    job. -/
theorem confined_runCycle : j.ledger.Confined job (a.runCycle source job now j).2.ledger := by
  unfold runCycle
  rcases source.snapshot? job with why | _ | snapshot
  · exact .refl job _
  · exact .refl job _
  · exact (a.local_cycleSteps now job snapshot).confined (.ofJournal snapshot j)

end Autoscaler

/-! ### Schedules -/

/-- Cycles of some jobs, in the order in which they run. -/
abbrev Schedule := List (JobId × Cycle)

/-- What belongs to a job in a list of entries. -/
def entriesOf {α : Type} (job : JobId) (l : List (JobId × α)) : List (JobId × α) :=
  l.filter fun e => e.1 == job

section Entries

variable {α : Type} {job other : JobId}

theorem entriesOf_cons_self (x : α) (l : List (JobId × α)) :
    entriesOf job ((job, x) :: l) = (job, x) :: entriesOf job l :=
  List.filter_cons_of_pos (beq_self_eq_true job)

theorem entriesOf_cons_of_ne (hne : other ≠ job) (x : α) (l : List (JobId × α)) :
    entriesOf job ((other, x) :: l) = entriesOf job l :=
  List.filter_cons_of_neg (mt beq_iff_eq.1 hne)

theorem entriesOf_swap (hne : job ≠ other) (k : JobId) (x y : α) :
    entriesOf k [(other, y), (job, x)] = entriesOf k [(job, x), (other, y)] := by
  by_cases hk : job = k
  · subst hk
    rw [entriesOf_cons_of_ne hne.symm, entriesOf_cons_self, entriesOf_cons_self,
      entriesOf_cons_of_ne hne.symm]
  · rw [entriesOf_cons_of_ne hk]
    by_cases hk' : other = k
    · subst hk'
      rw [entriesOf_cons_self, entriesOf_cons_self, entriesOf_cons_of_ne hk]
    · rw [entriesOf_cons_of_ne hk', entriesOf_cons_of_ne hk', entriesOf_cons_of_ne hk]

end Entries

namespace Schedule

/-- The results of a schedule, each with its job, and the journal that it
    leaves. -/
def run : Schedule → Journal → List (JobId × Except DecisionError (Option Outcome)) × Journal
  | [], j => ([], j)
  | (job, c) :: rest, j =>
    let (result, j) := c.run job j
    let (others, j) := run rest j
    ((job, result) :: others, j)

theorem run_cons (job : JobId) (c : Cycle) (rest : Schedule) (j : Journal) :
    run ((job, c) :: rest) j =
      ((job, (c.run job j).1) :: (run rest (c.run job j).2).1, (run rest (c.run job j).2).2) :=
  rfl

/-- A job in a schedule does as its own cycles alone do. By induction on the
    schedule: a cycle of the job does the same on both sides, and a cycle of
    another job is not seen. -/
theorem run_entriesOf (job : JobId) (σ : Schedule) :
    ∀ j j' : Journal, j.ledger.Alike job j'.ledger →
      (run (entriesOf job σ) j').1 = entriesOf job (run σ j).1 ∧
        (run σ j).2.ledger.Alike job (run (entriesOf job σ) j').2.ledger := by
  induction σ with
  | nil => exact fun j j' h => ⟨rfl, h⟩
  | cons entry rest ih =>
      rcases entry with ⟨owner, c⟩
      intro j j' h
      by_cases howner : owner = job
      · subst howner
        rcases c.autoscaler.runCycle_alike c.now h rfl with ⟨hresult, hnext⟩
        rcases ih _ _ hnext with ⟨hresults, hstop⟩
        rw [entriesOf_cons_self, run_cons, run_cons, entriesOf_cons_self]
        exact ⟨congrArg₂ List.cons (congrArg (Prod.mk owner) hresult) hresults, hstop⟩
      · have hunseen : j.ledger.Alike job (c.run owner j).2.ledger :=
          (c.autoscaler.confined_runCycle c.now).alike (Ne.symm howner)
        rw [entriesOf_cons_of_ne howner, run_cons, entriesOf_cons_of_ne howner]
        exact ih _ _ (hunseen.symm.trans h)

/-- What a job does in a schedule is settled by its own cycles and its own
    records. -/
theorem alike_of_entriesOf_eq {job : JobId} {σ τ : Schedule} {j j' : Journal}
    (h : j.ledger.Alike job j'.ledger) (heq : entriesOf job τ = entriesOf job σ) :
    entriesOf job (run τ j').1 = entriesOf job (run σ j).1 ∧
      (run σ j).2.ledger.Alike job (run τ j').2.ledger := by
  -- Both are compared with the cycles of the job alone.
  rcases run_entriesOf job σ j j' h with ⟨hresults, hstop⟩
  rcases run_entriesOf job τ j' j' (.refl job _) with ⟨hresults', hstop'⟩
  rw [heq] at hresults' hstop'
  exact ⟨hresults'.symm.trans hresults, hstop.trans hstop'.symm⟩

/-- By induction on the schedule: no cycle touches a key that no job has, nor the
    nodes. -/
theorem keeps_rest (σ : Schedule) : ∀ j : Journal,
    (∀ key, (∀ job n, key ≠ Store.generationKey job n) →
      (run σ j).2.ledger.store.generations.get? key = j.ledger.store.generations.get? key) ∧
    (run σ j).2.ledger.store.nodes = j.ledger.store.nodes := by
  induction σ with
  | nil => exact fun j => ⟨fun _ _ => rfl, rfl⟩
  | cons entry rest ih =>
      rcases entry with ⟨owner, c⟩
      intro j
      have hcycle : j.ledger.Confined owner (c.run owner j).2.ledger :=
        c.autoscaler.confined_runCycle c.now
      rcases ih (c.run owner j).2 with ⟨hkeys, hnodes⟩
      rw [run_cons]
      exact ⟨fun key hkey => (hkeys key hkey).trans (hcycle.store.generations key (hkey owner)),
        hnodes.trans hcycle.store.nodes⟩

/-- Schedules with the same cycles of every job leave the same store. -/
theorem eq_of_entriesOf_eq {σ τ : Schedule} (j : Journal)
    (heq : ∀ job, entriesOf job τ = entriesOf job σ) :
    (run τ j).2.ledger.store = (run σ j).2.ledger.store := by
  rcases keeps_rest σ j with ⟨hkeys, hnodes⟩
  rcases keeps_rest τ j with ⟨hkeys', hnodes'⟩
  refine Store.eq_of_agreeOn (fun job => ?_) (fun key hkey => ?_) (hnodes'.trans hnodes.symm)
  · exact (alike_of_entriesOf_eq (.refl job _) (heq job)).2.store
  · exact (hkeys' key hkey).trans (hkeys key hkey).symm

end Schedule

/-! ### Rounds -/

/-- The outcomes among some results, each with its job. -/
def outcomesOf (results : List (JobId × Except DecisionError (Option Outcome))) :
    List (JobId × Outcome) :=
  results.filterMap fun e => match e.2 with
    | .ok (some outcome) => some (e.1, outcome)
    | _ => none

namespace Autoscaler

/-- The cycles of a round over some jobs. -/
def round (a : Autoscaler) (source : Source) (now : Instant) (jobs : List JobId) : Schedule :=
  jobs.map fun job => (job, ⟨a, source, now⟩)

/-- A round runs its schedule and lists the outcomes. By induction on the jobs. -/
theorem runEach_eq_run (a : Autoscaler) (source : Source) (now : Instant) (jobs : List JobId) :
    ∀ j, a.runEach source now jobs j =
      (outcomesOf ((a.round source now jobs).run j).1, ((a.round source now jobs).run j).2) := by
  induction jobs with
  | nil => exact fun j => rfl
  | cons job rest ih =>
      intro j
      change _ = (outcomesOf ((job, (a.runCycle source job now j).1) ::
        ((a.round source now rest).run (a.runCycle source job now j).2).1),
        ((a.round source now rest).run (a.runCycle source job now j).2).2)
      rw [runEach]
      -- Only a cycle with an outcome adds to the list.
      rcases a.runCycle source job now j with ⟨why | _ | outcome, m⟩
      · simp only [ih]
        rfl
      · simp only [ih]
        rfl
      · simp only [ih]
        rfl

/-- In a round over different jobs each cycle returns what it would have returned
    as the only one. By induction on the jobs: the cycle of the first one is not
    seen by the others. -/
theorem run_round (a : Autoscaler) (source : Source) (now : Instant) (jobs : List JobId)
    (hjobs : jobs.Nodup) :
    ∀ j, ((a.round source now jobs).run j).1 =
      jobs.map fun job => (job, (a.runCycle source job now j).1) := by
  induction jobs with
  | nil => exact fun j => rfl
  | cons job rest ih =>
      intro j
      rcases List.nodup_cons.1 hjobs with ⟨hfirst, hrest⟩
      have hconfined : j.ledger.Confined job (a.runCycle source job now j).2.ledger :=
        a.confined_runCycle now
      have hothers : ∀ other ∈ rest,
          (a.runCycle source other now (a.runCycle source job now j).2).1 =
            (a.runCycle source other now j).1 := by
        intro other hother
        have hne : other ≠ job := fun heq => hfirst (heq ▸ hother)
        exact (a.runCycle_alike now (hconfined.alike hne) rfl).1
      change (job, (a.runCycle source job now j).1) ::
        ((a.round source now rest).run (a.runCycle source job now j).2).1 = _
      rw [ih hrest, List.map_cons]
      refine congrArg (List.cons _) (List.map_congr_left fun other hother => ?_)
      rw [hothers other hother]

end Autoscaler

/-! ### Isolation -/

/-- Cycles of different jobs do not influence each other. On ledgers that look
    alike for a job its cycle returns the same and leaves the same records of the
    job, and it touches no others. So in two schedules with the same cycles of a
    job, whatever runs between them, these return the same, and if that holds for
    every job the schedules leave the same store. In particular two cycles of
    different jobs commute. -/
theorem cycles_isolated :
    (∀ (a : Autoscaler) (source source' : Source) (job : JobId) (now : Instant) (j j' : Journal),
      j.ledger.Alike job j'.ledger → source'.snapshot? job = source.snapshot? job →
        (a.runCycle source' job now j').1 = (a.runCycle source job now j).1 ∧
        (a.runCycle source job now j).2.ledger.Alike job
          (a.runCycle source' job now j').2.ledger ∧
        j.ledger.Confined job (a.runCycle source job now j).2.ledger) ∧
    (∀ (σ τ : Schedule) (job : JobId) (j j' : Journal),
      j.ledger.Alike job j'.ledger → entriesOf job τ = entriesOf job σ →
        entriesOf job (τ.run j').1 = entriesOf job (σ.run j).1 ∧
        (σ.run j).2.ledger.Alike job (τ.run j').2.ledger) ∧
    (∀ (σ τ : Schedule) (j : Journal), (∀ job, entriesOf job τ = entriesOf job σ) →
      (τ.run j).2.ledger.store = (σ.run j).2.ledger.store) ∧
    ∀ (c d : Cycle) (job other : JobId) (j : Journal), job ≠ other →
      (d.run other (c.run job j).2).1 = (d.run other j).1 ∧
      (c.run job (d.run other j).2).1 = (c.run job j).1 ∧
      (c.run job (d.run other j).2).2.ledger.store =
        (d.run other (c.run job j).2).2.ledger.store := by
  refine ⟨fun a source source' job now j j' h hsource => ?_,
    fun σ τ job j j' h heq => Schedule.alike_of_entriesOf_eq h heq,
    fun σ τ j heq => Schedule.eq_of_entriesOf_eq j heq, fun c d job other j hne => ?_⟩
  · rcases a.runCycle_alike now h hsource with ⟨hresult, hstop⟩
    exact ⟨hresult, hstop, a.confined_runCycle now⟩
  · have hfirst : j.ledger.Confined job (c.run job j).2.ledger :=
      c.autoscaler.confined_runCycle c.now
    have hsecond : j.ledger.Confined other (d.run other j).2.ledger :=
      d.autoscaler.confined_runCycle d.now
    refine ⟨?_, ?_, ?_⟩
    · exact (d.autoscaler.runCycle_alike d.now (hfirst.alike hne.symm) rfl).1
    · exact (c.autoscaler.runCycle_alike c.now (hsecond.alike hne) rfl).1
    · exact Schedule.eq_of_entriesOf_eq j fun k => entriesOf_swap hne k c d

namespace Interleaved

/-- A cycle that moves the map of a job from one parallelism to another, with the
    elastic policy on. -/
def cycle (job : JobId) (current target : Nat) (now : Instant) : Cycle where
  autoscaler := { engine := .toward [("map", target)], config := { elastic.enabled := true } }
  source := .ofSnapshots (SortedMap.ofList [(job,
    { job, readings := .behind [("map", current)], topology := .ofEdges [("map", "sink")] })])
  now

/-- Its source fails. -/
def broken : Cycle where
  autoscaler := {}
  source := { jobs := .ok [], snapshot? := fun _ => .error "unreachable" }
  now := ⟨0⟩

/-- The map goes from two to four. -/
def up : Cycle := cycle "orders" 2 4 ⟨0⟩

/-- It goes on to three. -/
def down : Cycle := cycle "orders" 4 3 ⟨60000⟩

/-- The other job goes from one to two. -/
def other : Cycle := cycle "orders:eu" 1 2 ⟨30000⟩

def mixed : Schedule :=
  [("orders", up), ("orders:eu", broken), ("orders:eu", other), ("orders", down)]

/-- The cycles of each job are in the same order. -/
def regrouped : Schedule :=
  [("orders:eu", broken), ("orders", up), ("orders", down), ("orders:eu", other)]

theorem entriesOf_regrouped (job : JobId) : entriesOf job regrouped = entriesOf job mixed := by
  by_cases horders : "orders" = job
  · subst horders
    rfl
  · by_cases hother : "orders:eu" = job
    · subst hother
      rfl
    · simp only [regrouped, mixed, entriesOf_cons_of_ne horders, entriesOf_cons_of_ne hother]

/-- The generations of one job are listed with those of the other one, and a cycle
    of that one fails. Yet the order of the cycles makes no difference, not even
    that one job ran before. -/
theorem cycles_isolated_nested :
    (∀ job, entriesOf job regrouped = entriesOf job mixed) ∧
      (regrouped.run {}).2.ledger.store = (mixed.run {}).2.ledger.store ∧
      (entriesOf "orders" (regrouped.run {}).1).map (·.2.toOption) =
        [some (some .scaled), some (some .scaled)] ∧
      Ledger.Alike "orders" {} (other.run "orders:eu" {}).2.ledger ∧
      (up.run "orders" (other.run "orders:eu" {}).2).1 = (up.run "orders" {}).1 ∧
      "orders" ≠ "orders:eu" ∧
      (up.run "orders" (other.run "orders:eu" {}).2).2.ledger.store =
        (other.run "orders:eu" (up.run "orders" {}).2).2.ledger.store := by
  rcases cycles_isolated with ⟨hcycle, hjob, hstore, hcommute⟩
  have hne : "orders" ≠ "orders:eu" := by decide
  have halike : Ledger.Alike "orders" {} (other.run "orders:eu" {}).2.ledger :=
    (hcycle other.autoscaler other.source other.source "orders:eu" other.now {} {}
      (.refl _ _) rfl).2.2.alike hne
  refine ⟨entriesOf_regrouped, hstore mixed regrouped {} entriesOf_regrouped, ?_, halike,
    (hcycle _ _ _ _ _ _ _ halike rfl).1, hne, (hcommute up other _ _ {} hne).2.2⟩
  rw [(hjob mixed regrouped "orders" {} {} (.refl _ _) (entriesOf_regrouped "orders")).1]
  decide +kernel

end Interleaved

end Rescale
