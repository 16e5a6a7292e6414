import Rescale.Proofs.Cycle.Progress

/-!
# Restart Times over Runs

What the restart log of a job tells after a run of cycles.

A cycle that has a snapshot sees the job running. So the restart that a decision
causes has taken the time from the decision to the first later cycle that has a
snapshot, and that is what the log is meant to hold. The cycle that closes an
entry may add one of its own, and cycles without a snapshot come in between, but
only the latest entry is ever open: the first cycle that could close it does. No
later cycle looks at it again, and what a run leaves is one entry for each of its
decisions, each a function of what follows the decision in the run.

## Main definitions

* `Cycle.hasSnapshot`: The source of a cycle has a snapshot of the job.
* `Ascending`: The cycles of a run come at ascending instants.
* `seen?`: When a run first has a snapshot of the job.
* `decided`: The instants of the decisions of a run.
* `observed`: The entries that a run leaves in the restart log.
* `RestartLog.Measures`: A log tells how long the restarts of a run took.

## Theorems

* `hasSnapshot_of_run`: A cycle has an outcome exactly if it has a snapshot.
* `toList_restarts_of_runs`: The restart log after a run.
* `mem_observed_iff`, `getLast?_observed`: The entries that a run leaves.
* `runs_measures`: The log after a run tells how long its restarts took.
-/

namespace Rescale

/-- Whether the source of a cycle has a snapshot of a job. -/
def Cycle.hasSnapshot (c : Cycle) (job : JobId) : Bool :=
  match c.source.snapshot? job with
  | .ok (some _) => true
  | _ => false

/-- The cycles of a run come at ascending instants. -/
def Ascending (run : List (Cycle × Option Outcome)) : Prop :=
  run.Pairwise fun a b => a.1.now.millis < b.1.now.millis

instance (run : List (Cycle × Option Outcome)) : Decidable (Ascending run) :=
  inferInstanceAs (Decidable (List.Pairwise _ _))

/-- The first instant at which a cycle of a run has a snapshot of a job. -/
def seen? (job : JobId) (run : List (Cycle × Option Outcome)) : Option Instant :=
  (run.find? fun e => e.1.hasSnapshot job).map (·.1.now)

/-- The instants of the cycles of a run that ended as scaled. -/
def decided (run : List (Cycle × Option Outcome)) : List Instant :=
  (run.filter fun e => e.2 = some .scaled).map (·.1.now)

/-- The entries that a run leaves in the restart log of a job. -/
def observed (job : JobId) : List (Cycle × Option Outcome) → List (Instant × Option Span)
  | [] => []
  | (c, o) :: rest =>
    if o = some .scaled then (c.now, (seen? job rest).map (·.since c.now)) :: observed job rest
    else observed job rest

section Runs

variable {job : JobId} {j j' : Journal} {run : List (Cycle × Option Outcome)}

/-! ### Decisions -/

theorem decided_cons_of_scaled (c : Cycle) :
    decided ((c, some .scaled) :: run) = c.now :: decided run :=
  rfl

theorem decided_cons_of_ne {e : Cycle × Option Outcome} (h : e.2 ≠ some .scaled) :
    decided (e :: run) = decided run := by
  rw [decided, List.filter_cons, if_neg fun hscaled => h (of_decide_eq_true hscaled), decided]

theorem exists_of_mem_decided {i : Instant} (h : i ∈ decided run) : ∃ e ∈ run, e.1.now = i := by
  rcases List.mem_map.1 h with ⟨e, he, hi⟩
  exact ⟨e, List.mem_of_mem_filter he, hi⟩

/-! ### Seeing the job -/

/-- A cycle that returns has an outcome exactly if it has a snapshot. -/
theorem hasSnapshot_of_run {c : Cycle} {o : Option Outcome} (h : c.run job j = (.ok o, j')) :
    c.hasSnapshot job = o.isSome := by
  unfold Cycle.run Autoscaler.runCycle at h
  unfold Cycle.hasSnapshot
  rcases hsource : c.source.snapshot? job with why | _ | snapshot
  · rw [hsource] at h
    cases (Prod.mk.inj h).1
  · rw [hsource] at h
    obtain rfl := Except.ok.inj (Prod.mk.inj h).1
    rfl
  · simp only [hsource] at h
    rcases hrun : c.autoscaler.runSnapshot job snapshot c.now j with ⟨err | o', j''⟩
    · rw [hrun] at h
      cases (Prod.mk.inj h).1
    · rw [hrun] at h
      obtain rfl := Except.ok.inj (Prod.mk.inj h).1
      rfl

/-- By induction on the run: this holds of all of its cycles. -/
theorem hasSnapshot_of_runs (h : Runs job j run j') :
    ∀ e ∈ run, e.1.hasSnapshot job = e.2.isSome := by
  induction h with
  | nil => exact fun _ he => absurd he List.not_mem_nil
  | cons hfirst _ ih => exact List.forall_mem_cons.2 ⟨hasSnapshot_of_run hfirst, ih⟩

theorem seen?_cons_of_hasSnapshot {e : Cycle × Option Outcome} (h : e.1.hasSnapshot job = true) :
    seen? job (e :: run) = some e.1.now := by
  rw [seen?, List.find?_cons_of_pos (p := fun e : Cycle × Option Outcome => e.1.hasSnapshot job) h]
  rfl

theorem seen?_cons_of_not_hasSnapshot {e : Cycle × Option Outcome}
    (h : e.1.hasSnapshot job = false) : seen? job (e :: run) = seen? job run := by
  rw [seen?, List.find?_cons_of_neg (p := fun e : Cycle × Option Outcome => e.1.hasSnapshot job)]
  · rfl
  · rw [h]
    exact Bool.false_ne_true

theorem exists_of_seen? {t : Instant} (h : seen? job run = some t) : ∃ e ∈ run, e.1.now = t := by
  rcases Option.map_eq_some_iff.1 h with ⟨e, hfind, ht⟩
  exact ⟨e, List.mem_of_find?_eq_some hfind, ht⟩

theorem seen?_eq_none_iff : seen? job run = none ↔ ∀ e ∈ run, e.1.hasSnapshot job = false := by
  rw [seen?, Option.map_eq_none_iff, List.find?_eq_none]
  simp only [Bool.not_eq_true]

/-! ### The log after a run -/

/-- By induction on the run, from any log that is older: what was open is closed
    when the job is first seen, and behind it come the entries of the run. -/
theorem toList_restarts_of_runs (h : Runs job j run j') : Ascending run →
    (∀ e ∈ run, (j.ledger.store.restarts job).Before e.1.now) →
      (j'.ledger.store.restarts job).toList =
        ((j.ledger.store.restarts job).seen (seen? job run)).toList ++ observed job run := by
  induction h with
  | nil => exact fun _ _ => (List.append_nil _).symm
  | @cons c o rest j m j'' hfirst _ ih =>
      intro hascending hbefore
      rcases List.pairwise_cons.1 hascending with ⟨hlater, hrest⟩
      rcases List.forall_mem_cons.1 hbefore with ⟨hc, hothers⟩
      have hsnapshot := hasSnapshot_of_run hfirst
      have hprogress := progress_of_run hfirst
      specialize ih hrest
      generalize m.ledger.store = t at hprogress ih
      cases hprogress with
      | absent =>
          rw [seen?_cons_of_not_hasSnapshot hsnapshot, observed, if_neg nofun]
          exact ih hothers
      | kept outcome _ restarts _ =>
          rw [restarts] at ih
          rw [seen?_cons_of_hasSnapshot hsnapshot, observed,
            if_neg fun ho => outcome (Option.some.inj ho)]
          -- The entry is closed now, so when the job is seen next does not matter.
          rw [ih fun e he => RestartLog.before_running hc (hothers e he),
            RestartLog.seen_running hc]
          rfl
      | entered _ _ _ restarts _ =>
          rw [restarts] at ih
          have hrunning : ((j.ledger.store.restarts job).running c.now).Before c.now :=
            RestartLog.before_running hc hc
          rw [seen?_cons_of_hasSnapshot hsnapshot, observed, if_pos rfl,
            ih fun e he => RestartLog.before_add hrunning
              (RestartLog.before_running hc (hothers e he)) (hlater e he) none,
            RestartLog.toList_seen_add hrunning _ ?_, List.append_assoc]
          · rfl
          · intro t ht
            rcases exists_of_seen? ht with ⟨e, he, rfl⟩
            exact Int.le_of_lt (hlater e he)

/-- Without a log at first, there are only the entries of the run. -/
theorem toList_restarts_of_none (hstart : j.ledger.store.restartLog? job = none)
    (hascending : Ascending run) (h : Runs job j run j') :
    (j'.ledger.store.restarts job).toList = observed job run := by
  have hempty : j.ledger.store.restarts job = ∅ := Store.restarts_of_stored hstart
  rw [toList_restarts_of_runs h hascending, hempty]
  · cases seen? job run with
    | none => rfl
    | some _ => rfl
  · rw [hempty]
    exact fun _ _ => nofun

/-! ### The entries of a run -/

/-- By induction on the run: the entries are at the instants of its decisions. -/
theorem keys_observed : (observed job run).map (·.1) = decided run := by
  induction run with
  | nil => rfl
  | cons e rest ih =>
      rcases e with ⟨c, o⟩
      rw [observed]
      by_cases ho : o = some .scaled
      · subst ho
        rw [if_pos rfl, decided_cons_of_scaled, List.map_cons, ih]
      · rw [if_neg ho, decided_cons_of_ne ho, ih]

/-- By induction on the run: each entry belongs to a cycle that ended as scaled,
    and tells when the job was first seen in the rest of the run. -/
theorem mem_observed_iff {entry : Instant × Option Span} :
    entry ∈ observed job run ↔ ∃ before c after, run = before ++ (c, some .scaled) :: after ∧
      entry = (c.now, (seen? job after).map (·.since c.now)) := by
  induction run with
  | nil =>
      refine iff_of_false nofun ?_
      rintro ⟨before, _, _, hrun, _⟩
      exact absurd hrun.symm (List.append_ne_nil_of_right_ne_nil before (List.cons_ne_nil _ _))
  | cons e rest ih =>
      rcases e with ⟨c, o⟩
      rw [observed]
      constructor
      · intro hmem
        by_cases ho : o = some .scaled
        · subst ho
          rw [if_pos rfl] at hmem
          rcases List.mem_cons.1 hmem with rfl | hmem
          · exact ⟨[], c, rest, rfl, rfl⟩
          · rcases ih.1 hmem with ⟨before, c', after, rfl, rfl⟩
            exact ⟨_ :: before, c', after, rfl, rfl⟩
        · rw [if_neg ho] at hmem
          rcases ih.1 hmem with ⟨before, c', after, rfl, rfl⟩
          exact ⟨_ :: before, c', after, rfl, rfl⟩
      · rintro ⟨before, c', after, hrun, rfl⟩
        cases before with
        | nil =>
            obtain ⟨⟨rfl, rfl⟩, rfl⟩ := List.cons.inj hrun
            rw [if_pos rfl]
            exact List.mem_cons_self
        | cons e before =>
            have hmem := ih.2 ⟨before, c', after, (List.cons.inj hrun).2, rfl⟩
            by_cases ho : o = some .scaled
            · rw [if_pos ho]
              exact List.mem_cons_of_mem _ hmem
            · rw [if_neg ho]
              exact hmem

/-- Behind a cycle after which the job is not seen there are no entries, since a
    cycle with an entry has seen the job. -/
theorem observed_of_unseen (hrun : ∀ e ∈ run, e.1.hasSnapshot job = e.2.isSome)
    (h : seen? job run = none) : observed job run = [] := by
  refine List.eq_nil_iff_forall_not_mem.2 fun entry hentry => ?_
  rcases mem_observed_iff.1 hentry with ⟨before, c, after, rfl, _⟩
  have hmem : (c, some Outcome.scaled) ∈ before ++ (c, some .scaled) :: after :=
    List.mem_append_right _ List.mem_cons_self
  have hunseen := seen?_eq_none_iff.1 h _ hmem
  rw [hrun _ hmem] at hunseen
  cases hunseen

/-- By induction on the run: an entry that is open is the last one. -/
theorem getLast?_observed (hrun : ∀ e ∈ run, e.1.hasSnapshot job = e.2.isSome) {i : Instant}
    (h : (i, none) ∈ observed job run) : (observed job run).getLast? = some (i, none) := by
  induction run with
  | nil => exact absurd h List.not_mem_nil
  | cons e rest ih =>
      rcases e with ⟨c, o⟩
      have hrest := (List.forall_mem_cons.1 hrun).2
      rw [observed] at h ⊢
      by_cases ho : o = some .scaled
      · rw [if_pos ho] at h ⊢
        rcases List.mem_cons.1 h with hfirst | hmem
        · -- It is the first entry, and no other one follows.
          have hunseen : seen? job rest = none :=
            Option.map_eq_none_iff.1 (Prod.mk.inj hfirst).2.symm
          rw [observed_of_unseen hrest hunseen, ← hfirst]
          rfl
        · rw [List.getLast?_cons, ih hrest hmem]
          rfl
      · rw [if_neg ho] at h ⊢
        exact ih hrest h

/-- What the log has after a run, if there was none at first. -/
theorem get?_restarts_iff (hstart : j.ledger.store.restartLog? job = none)
    (hascending : Ascending run) (h : Runs job j run j') {i : Instant} {r : Option Span} :
    (j'.ledger.store.restarts job).get? i = some r ↔
      ∃ before c after, run = before ++ (c, some .scaled) :: after ∧
        (i, r) = (c.now, (seen? job after).map (·.since c.now)) := by
  rw [← SortedMap.mem_toList_iff, toList_restarts_of_none hstart hascending h, mem_observed_iff]

/-- What a run sees after one of its cycles it sees later. -/
theorem add_since_of_seen? {before after : List (Cycle × Option Outcome)} {c : Cycle}
    {o : Option Outcome} {t : Instant} (hascending : Ascending (before ++ (c, o) :: after))
    (hseen : seen? job after = some t) : c.now.add (t.since c.now) = t := by
  rcases exists_of_seen? hseen with ⟨e, he, rfl⟩
  have hlater := (List.pairwise_cons.1 (List.pairwise_append.1 hascending).2.1).1 e he
  exact RestartLog.add_since (Int.le_of_lt hlater)

end Runs

/-! ### What the log tells -/

/-- A restart log tells how long the restarts of a run took. -/
structure RestartLog.Measures (log : RestartLog) (job : JobId)
    (run : List (Cycle × Option Outcome)) : Prop where
  /-- At most one entry is open, the latest one. -/
  latest : ∀ i, log.get? i = some none → log.last? = some (i, none)
  /-- There is an entry for each cycle that ended as scaled, and no other one. -/
  decided : log.keys = decided run
  /-- An entry is closed with the exact time until the job was first seen after
      its decision, whatever came then. -/
  closed : ∀ before c after t, run = before ++ (c, some .scaled) :: after →
    seen? job after = some t → ∃ span, log.get? c.now = some (some span) ∧ c.now.add span = t
  /-- It is open as long as the job was not seen. -/
  pending : ∀ before c after, run = before ++ (c, some .scaled) :: after →
    seen? job after = none → log.get? c.now = some none
  /-- The configured time holds unless observed times are preferred and some
      entry is closed. -/
  configured : ∀ options : Config.Restart,
    ¬(options.preferTracked = true ∧ ∃ i span, log.get? i = some (some span)) →
      log.estimate options = options.restartTime
  /-- Otherwise it is the longest time of the closed entries, up to the limit. -/
  tracked : ∀ options : Config.Restart, options.preferTracked = true →
    (∃ i span, log.get? i = some (some span)) →
      ∃ i longest, log.get? i = some (some longest) ∧
        (∀ i' span, log.get? i' = some (some span) → span.millis ≤ longest.millis) ∧
        (log.estimate options).millis = min options.trackedLimit.millis longest.millis

/-- After a run at ascending instants, of a job without a restart log at first,
    the log tells how long its restarts took. -/
theorem runs_measures (job : JobId) (j₀ j : Journal) (run : List (Cycle × Option Outcome))
    (hstart : j₀.ledger.store.restartLog? job = none) (hascending : Ascending run)
    (h : Runs job j₀ run j) : (j.ledger.store.restarts job).Measures job run := by
  have hlist := toList_restarts_of_none hstart hascending h
  have hentry : ∀ before c after, run = before ++ (c, some .scaled) :: after →
      (j.ledger.store.restarts job).get? c.now = some ((seen? job after).map (·.since c.now)) :=
    fun before c after hrun =>
      (get?_restarts_iff hstart hascending h).2 ⟨before, c, after, hrun, rfl⟩
  refine
    { latest := fun i hi => ?_
      decided := ?_
      closed := fun before c after t hrun hseen => ?_
      pending := fun before c after hrun hseen => ?_
      configured := fun options hoptions => RestartLog.estimate_eq_restartTime hoptions
      tracked := fun options hprefer hclosed => RestartLog.estimate_of_closed hprefer hclosed }
  · rw [← SortedMap.mem_toList_iff, hlist] at hi
    rw [SortedMap.last?, hlist]
    exact getLast?_observed (hasSnapshot_of_runs h) hi
  · rw [SortedMap.keys, hlist, keys_observed]
  · refine ⟨t.since c.now, ?_, ?_⟩
    · rw [hentry before c after hrun, hseen]
      rfl
    · rw [hrun] at hascending
      exact add_since_of_seen? hascending hseen
  · rw [hentry before c after hrun, hseen]
    rfl

namespace LateSnapshot

open Step

/-- The map goes from two to four. -/
def first : Cycle := .toward [("map", 2), ("sink", 2)] [("map", 4)] ⟨0⟩

/-- Half a minute after the first decision there is no snapshot yet. -/
def absent : Cycle where
  autoscaler := {}
  source := .ofSnapshots ∅
  now := ⟨30000⟩

/-- Nothing changes. -/
def idle : Cycle := .toward [("map", 4), ("sink", 2)] [] ⟨60000⟩

/-- The sink goes from two to three. -/
def second : Cycle := .toward [("map", 4), ("sink", 2)] [("sink", 3)] ⟨120000⟩

def run : List (Cycle × Option Outcome) :=
  [(first, some .scaled), (absent, none), (idle, some .noChange), (second, some .scaled)]

def stop : Journal :=
  (second.run "job" (idle.run "job" (absent.run "job" (first.run "job" {}).2).2).2).2

theorem runs_stop : Runs "job" {} run stop :=
  .cons (eq_ok_of_toOption (by decide +kernel)) (.cons (eq_ok_of_toOption (by decide +kernel))
    (.cons (eq_ok_of_toOption (by decide +kernel))
      (.cons (eq_ok_of_toOption (by decide +kernel)) (.nil _))))

/-- The first restart took until the job was seen again, after a minute. The
    second one is still to be observed. -/
theorem runs_measures_late :
    ({} : Journal).ledger.store.restartLog? "job" = none ∧ Ascending run ∧
      (∃ span, (stop.ledger.store.restarts "job").get? first.now = some (some span) ∧
        first.now.add span = idle.now) ∧
      (stop.ledger.store.restarts "job").get? second.now = some none := by
  have hascending : Ascending run := by decide
  have hmeasures := runs_measures "job" {} stop run rfl hascending runs_stop
  refine ⟨rfl, hascending, ?_, ?_⟩
  · exact hmeasures.closed [] first _ idle.now rfl (by decide +kernel)
  · exact hmeasures.pending [(first, some .scaled), (absent, none), (idle, some .noChange)]
      second [] rfl rfl

/-- The limit is longer than the minute. -/
example : ((stop.ledger.store.restarts "job").estimate { preferTracked := true }).millis =
    60000 := by
  decide +kernel

end LateSnapshot

end Rescale
