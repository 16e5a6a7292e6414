import Rescale.Decision.Persist
import Rescale.Proofs.Step
import Rescale.SortedMap.Lemmas

/-!
# What Storing a Decision Leaves

A decision is stored in stages: history and restart log, then the overrides,
then with the elastic policy on the generation and what follows from it, and
last the number of the decision. Each stage is a function of sessions, and a
run that returns went through all of them. So what is stored in the end is an
equation, and every question about a stored decision is a look-up in it.

Two things between the stages can fail although every write succeeds. The
override of a vertex that does not change is what it reports, and a vertex may
report no parallelism. And the elastic policy reads the number of the decision
and the generation before it, which may be unreadable. By then some stages are
done, and they stay done.

## Main definitions

* `Ledger.previous?`: The number of a decision and the generation before it.
* `Session.opened`, `Session.overridden`, `Session.generated`,
  `Session.counted`: A session after each stage.
* `OverridesMissing`: A vertex without a change reports no parallelism.

## Theorems

* `overridesFor_error_iff`, `parallelismOverrides_error_iff`: The overrides are
  missing exactly when such a vertex is there.
* `get?_parallelismOverrides`: What the overrides hold for each vertex.
* `returns_persistGeneration`, `returns_persist`: The stages of a run that
  returns.
* `fails_persistGeneration`, `fails_persist`: Where a run fails if all writes
  succeed.
-/

namespace Rescale

/-! ### The generation before a decision -/

/-- A read that goes through is answered by the store. -/
theorem read_eq_ok {α : Type} {l : Ledger} {kind : RecordKind} {f : Store → Except StoreError α}
    {x : α} (h : l.read kind f = .ok x) : f l.store = .ok x := by
  unfold Ledger.read at h
  cases hfault : l.fault (.read kind) with
  | none => rwa [hfault] at h
  | some e => rw [hfault] at h; cases h

namespace Ledger

/-- The generation before a decision with a number. The first decision has
    none. -/
def generationBefore? (l : Ledger) (job : JobId) : Nat → Except StoreError (Option Generation)
  | 0 => .ok none
  | period + 1 => l.read .generation fun s => s.generation? job period

/-- The number of the next decision about a job, and the generation before
    it. -/
def previous? (l : Ledger) (job : JobId) : Except StoreError (Nat × Option Generation) := do
  let period ← l.read .period fun s => .ok (s.period job)
  let g ← l.generationBefore? job period
  return (period, g)

/-- What comes before a decision is read in two parts. -/
theorem parts_of_previous? {l : Ledger} {job : JobId} {period : Nat} {g : Option Generation}
    (h : l.previous? job = .ok (period, g)) :
    l.store.period job = period ∧ l.generationBefore? job period = .ok g := by
  unfold previous? at h
  cases hperiod : l.read .period fun s => .ok (s.period job) with
  | error e => rw [hperiod] at h; cases h
  | ok n =>
      rw [hperiod] at h
      change (l.generationBefore? job n >>= fun g => .ok (n, g)) = _ at h
      cases hg : l.generationBefore? job n with
      | error e => rw [hg] at h; cases h
      | ok g' =>
          rw [hg] at h
          obtain ⟨rfl, rfl⟩ := Prod.mk.inj (Except.ok.inj h)
          exact ⟨Except.ok.inj (read_eq_ok hperiod), hg⟩

end Ledger

/-! ### Sessions after each stage -/

namespace Session

/-- A session once history and restart log show a decision. -/
def opened (s : Session) (job : JobId) (now : Instant) (p : Proposal) : Session :=
  { s with
    history := s.history.record now p
    restarts := s.restarts.add now none
    ledger :=
      (s.ledger.put .history fun st => st.putHistory job (s.history.record now p)).put .restartLog
        fun st => st.putRestartLog job (s.restarts.add now none) }

/-- A session once the overrides of vertices and options are stored. -/
def overridden (s : Session) (job : JobId) (overrides tuning : Overrides) : Session :=
  { s with
    ledger :=
      (s.ledger.put .parallelism fun st => st.putParallelism job overrides).put .configChanges
        fun st => st.putConfigChanges job tuning }

/-- A session once a generation and what follows from it are stored. -/
def generated (s : Session) (ctx : JobContext) (overrides : Overrides) (g : Generation) : Session :=
  let size := (ctx.processSize? ctx.config.memory).getD 0
  { s with
    ledger :=
      ((s.ledger.put .generation fun st => st.putGeneration ctx.id g).put .parallelism
        fun st => st.putParallelism ctx.id (withGeneration overrides g)).put .profiles
          fun st => st.putProfiles ctx.id (profileOverrides size g) }

/-- A session once a decision is counted and its holds are released. -/
def counted (s : Session) (job : JobId) : Session :=
  { s with
    ledger := s.ledger.put .period fun st => st.advancePeriod job
    pending := s.pending.releaseAll }

end Session

/-! ### Overrides -/

/-- Some vertex of a list has no change and reports no parallelism. -/
def MissingAmong (p : Proposal) (vertices : List (VertexId × Readings)) : Prop :=
  ∃ e ∈ vertices, p.get? e.1 = none ∧ e.2.get? .parallelism = none

/-- Some vertex has no change and reports no parallelism, so that it is not
    known what to set it to. -/
def OverridesMissing (readings : JobReadings) (p : Proposal) : Prop :=
  ∃ v r, readings.vertices.get? v = some r ∧ p.get? v = none ∧ r.get? .parallelism = none

/-- What a vertex is set to after a proposal: its new parallelism if it changes,
    and otherwise the one it reports. -/
def settledParallelism (p : Proposal) (v : VertexId) (readings : Readings) :
    Except DecisionError Nat :=
  match p.get? v with
  | some change => .ok change.target
  | none => currentParallelism v readings

theorem overridesFor_cons (p : Proposal) (v : VertexId) (readings : Readings)
    (rest : List (VertexId × Readings)) :
    overridesFor p ((v, readings) :: rest) = (do
      let parallelism ← settledParallelism p v readings
      let others ← overridesFor p rest
      return others.insert v (numberText parallelism)) := by
  rw [overridesFor, settledParallelism]
  cases p.get? v with
  | some change => rfl
  | none => rfl

theorem currentParallelism_eq_ok_iff {v : VertexId} {readings : Readings} {n : Nat} :
    currentParallelism v readings = .ok n ↔
      ∃ r, readings.get? .parallelism = some r ∧ n = parallelismOf r.current := by
  rw [currentParallelism, requireReading]
  cases readings.get? .parallelism with
  | some r =>
      change (Except.ok (parallelismOf r.current) : Except DecisionError Nat) = .ok n ↔ _
      simp only [Except.ok.injEq, Option.some.injEq, exists_eq_left', eq_comm]
  | none =>
      change (Except.error _ : Except DecisionError Nat) = .ok n ↔ _
      simp only [reduceCtorEq, false_and, exists_false]

theorem settledParallelism_eq_ok_iff {p : Proposal} {v : VertexId} {readings : Readings} {n : Nat} :
    settledParallelism p v readings = .ok n ↔
      (∃ c, p.get? v = some c ∧ n = c.target) ∨
        (p.get? v = none ∧
          ∃ r, readings.get? .parallelism = some r ∧ n = parallelismOf r.current) := by
  rw [settledParallelism]
  cases p.get? v with
  | some c => simp only [Except.ok.injEq, Option.some.injEq, exists_eq_left', reduceCtorEq,
      false_and, or_false, eq_comm]
  | none => simp only [currentParallelism_eq_ok_iff, reduceCtorEq, false_and, exists_false,
      false_or, true_and]

theorem settledParallelism_error_iff {p : Proposal} {v : VertexId} {readings : Readings} :
    (∃ err, settledParallelism p v readings = .error err) ↔
      p.get? v = none ∧ readings.get? .parallelism = none := by
  rw [settledParallelism]
  cases p.get? v with
  | some c => simp only [reduceCtorEq, exists_false, false_and]
  | none =>
      simp only [currentParallelism, requireReading, true_and]
      cases readings.get? .parallelism with
      | some r => exact iff_of_false (fun ⟨_, h⟩ => nomatch h) nofun
      | none => exact iff_of_true ⟨_, rfl⟩ rfl

/-- The overrides of a list are missing exactly when one of its vertices has
    nothing to be set to. By induction on the list: the first vertex settles it,
    or else the others do. -/
theorem overridesFor_error_iff (p : Proposal) (vertices : List (VertexId × Readings)) :
    (∃ err, overridesFor p vertices = .error err) ↔ MissingAmong p vertices := by
  induction vertices with
  | nil => exact iff_of_false (fun ⟨_, h⟩ => nomatch h) (fun ⟨_, h, _⟩ => nomatch h)
  | cons entry rest ih =>
      rcases entry with ⟨v, readings⟩
      rw [overridesFor_cons]
      unfold MissingAmong
      -- What is missing is missing for the first vertex or among the others.
      simp only [List.mem_cons, exists_eq_or_imp, ← settledParallelism_error_iff]
      cases settledParallelism p v readings with
      | error err => exact iff_of_true ⟨err, rfl⟩ (Or.inl ⟨err, rfl⟩)
      | ok n =>
          simp only [reduceCtorEq, exists_false, false_or, settledParallelism_error_iff]
          rw [← MissingAmong, ← ih]
          cases overridesFor p rest with
          | error err => exact iff_of_true ⟨err, rfl⟩ ⟨err, rfl⟩
          | ok others => exact iff_of_false (fun ⟨_, h⟩ => nomatch h) (fun ⟨_, h⟩ => nomatch h)

theorem parallelismOverrides_error_iff (readings : JobReadings) (p : Proposal) :
    (∃ err, parallelismOverrides readings p = .error err) ↔ OverridesMissing readings p := by
  rw [parallelismOverrides, overridesFor_error_iff]
  constructor
  · rintro ⟨⟨v, r⟩, hmem, hp, hr⟩
    exact ⟨v, r, SortedMap.mem_toList_iff.1 hmem, hp, hr⟩
  · rintro ⟨v, r, hget, hp, hr⟩
    exact ⟨(v, r), SortedMap.mem_toList_iff.2 hget, hp, hr⟩

/-- The overrides of a list hold what each of its vertices is set to. The first
    entry of a vertex counts, both in the list and in what is built from it. -/
theorem get?_overridesFor (p : Proposal) (vertices : List (VertexId × Readings)) :
    ∀ o, overridesFor p vertices = .ok o → ∀ v text, o.get? v = some text ↔
      ∃ r n, SortedMap.lookupEntry v vertices = some r ∧ settledParallelism p v r = .ok n ∧
        text = numberText n := by
  induction vertices with
  | nil =>
      intro o ho v text
      have hempty : ∅ = o := Except.ok.inj ho
      rw [← hempty]
      exact iff_of_false nofun (fun ⟨_, _, h, _⟩ => nomatch h)
  | cons entry rest ih =>
      intro o ho v text
      rcases entry with ⟨w, readings⟩
      rw [overridesFor_cons] at ho
      cases hn : settledParallelism p w readings with
      | error err => rw [hn] at ho; exact nomatch ho
      | ok n =>
          cases hothers : overridesFor p rest with
          | error err => rw [hn, hothers] at ho; exact nomatch ho
          | ok others =>
              -- The overrides of the others, with the one of the first vertex on top.
              rw [hn, hothers] at ho
              have hinsert : others.insert w (numberText n) = o := Except.ok.inj ho
              rw [← hinsert, SortedMap.get?_insert, SortedMap.lookupEntry_cons]
              by_cases hv : compare v w = .eq
              · -- The vertex in front is the one asked for.
                obtain rfl := Std.LawfulEqOrd.eq_of_compare hv
                rw [if_pos hv, if_pos hv]
                constructor
                · rintro ⟨rfl⟩
                  exact ⟨readings, n, rfl, hn, rfl⟩
                · rintro ⟨r, m, ⟨rfl⟩, hm, rfl⟩
                  rw [Except.ok.inj (hn.symm.trans hm)]
              · rw [if_neg hv, if_neg hv]
                exact ih others hothers v text

theorem get?_parallelismOverrides {readings : JobReadings} {p : Proposal} {o : Overrides}
    (ho : parallelismOverrides readings p = .ok o) (v : VertexId) (text : String) :
    o.get? v = some text ↔
      ∃ r n, readings.vertices.get? v = some r ∧ settledParallelism p v r = .ok n ∧
        text = numberText n :=
  get?_overridesFor p _ o ho v text

/-- Where no override is missing, each vertex that reports has one. -/
theorem get?_parallelismOverrides_of_reported {readings : JobReadings} {p : Proposal}
    {o : Overrides} (ho : parallelismOverrides readings p = .ok o) {v : VertexId} {r : Readings}
    (hr : readings.vertices.get? v = some r) :
    ∃ n, settledParallelism p v r = .ok n ∧ o.get? v = some (numberText n) := by
  cases hn : settledParallelism p v r with
  | ok n => exact ⟨n, rfl, (get?_parallelismOverrides ho v _).2 ⟨r, n, hr, hn, rfl⟩⟩
  | error err =>
      -- Then the overrides would be missing as a whole.
      rcases settledParallelism_error_iff.1 ⟨err, hn⟩ with ⟨hp, hmissing⟩
      rcases (parallelismOverrides_error_iff readings p).2 ⟨v, r, hr, hp, hmissing⟩ with ⟨_, herr⟩
      rw [herr] at ho
      cases ho

/-! ### The stages -/

namespace Step

theorem returns_previousGeneration_iff {job : JobId} {period : Nat} {s t : Session}
    {g : Option Generation} :
    Returns (previousGeneration job period) s g t ↔
      s.ledger.generationBefore? job period = .ok g ∧ s = t := by
  cases period with
  | zero => simp only [previousGeneration, returns_pure_iff, Ledger.generationBefore?,
      Except.ok.injEq]
  | succ period => exact returns_read_iff

theorem fails_previousGeneration_iff {job : JobId} {period : Nat} {s t : Session}
    {err : DecisionError} :
    Fails (previousGeneration job period) s err t ↔
      ∃ cause, s.ledger.generationBefore? job period = .error cause ∧ err = .store cause ∧
        s = t := by
  cases period with
  | zero => simp only [previousGeneration, not_fails_pure, Ledger.generationBefore?, reduceCtorEq,
      false_and, exists_false]
  | succ period => exact fails_read_iff

/-- The parts of what comes before a decision, read one after the other. -/
theorem previous?_eq_ok {l : Ledger} {job : JobId} {period : Nat} {g : Option Generation}
    (hperiod : l.read .period (fun s => .ok (s.period job)) = .ok period)
    (hg : l.generationBefore? job period = .ok g) : l.previous? job = .ok (period, g) := by
  rw [Ledger.previous?, hperiod]
  change (l.generationBefore? job period >>= fun g => .ok (period, g)) = _
  rw [hg]
  rfl

theorem returns_openEntry {ctx : JobContext} {now : Instant} {p : Proposal} {s t : Session}
    {u : Unit} (h : Returns (openEntry ctx now p) s u t) : t = s.opened ctx.id now p := by
  simp only [openEntry, returns_bind_iff, returns_get_iff, returns_modify_iff,
    returns_write_iff] at h
  rcases h with ⟨_, _, rfl, _, _, ⟨rfl, rfl⟩, _, _, ⟨_, rfl⟩, _, _, rfl, _, _, ⟨rfl, rfl⟩, _, rfl⟩
  rfl

theorem returns_storeOverrides {job : JobId} {overrides tuning : Overrides} {s t : Session}
    {u : Unit} (h : Returns (storeOverrides job overrides tuning) s u t) :
    t = s.overridden job overrides tuning := by
  simp only [storeOverrides, returns_bind_iff, returns_write_iff] at h
  rcases h with ⟨_, _, ⟨_, rfl⟩, _, rfl⟩
  rfl

theorem returns_storeGeneration {ctx : JobContext} {overrides : Overrides} {g : Generation}
    {s t : Session} {u : Unit} (h : Returns (storeGeneration ctx overrides g) s u t) :
    t = s.generated ctx overrides g := by
  simp only [storeGeneration, returns_bind_iff, returns_write_iff] at h
  rcases h with ⟨_, _, ⟨_, rfl⟩, _, _, ⟨_, rfl⟩, _, rfl⟩
  rfl

theorem returns_countDecision {job : JobId} {s t : Session} {u : Unit}
    (h : Returns (countDecision job) s u t) : t = s.counted job := by
  simp only [countDecision, returns_bind_iff, returns_write_iff, returns_modify_iff] at h
  rcases h with ⟨_, _, ⟨_, rfl⟩, rfl⟩
  rfl

/-- A generation that is stored follows from the one before. -/
theorem returns_persistGeneration {ctx : JobContext} {p : Proposal} {overrides : Overrides}
    {s t : Session} {u : Unit} (h : Returns (persistGeneration ctx p overrides) s u t) :
    ∃ period previous, s.ledger.previous? ctx.id = .ok (period, previous) ∧
      t = s.generated ctx overrides
        (nextGeneration ctx.config.elastic period s.readings p previous) := by
  simp only [persistGeneration, returns_bind_iff, returns_read_iff, returns_get_iff,
    returns_previousGeneration_iff] at h
  rcases h with ⟨period, _, ⟨hperiod, rfl⟩, previous, _, ⟨hprevious, rfl⟩, _, _, ⟨rfl, rfl⟩, h⟩
  exact ⟨period, previous, previous?_eq_ok hperiod hprevious, returns_storeGeneration h⟩

/-- A decision that is stored went through all stages. -/
theorem returns_persist {ctx : JobContext} {now : Instant} {p : Proposal} {tuning : Overrides}
    {s t : Session} {u : Unit} (h : Returns (persist ctx now p tuning) s u t) :
    ∃ overrides, parallelismOverrides s.readings p = .ok overrides ∧
      ((ctx.config.elastic.enabled = false ∧
          t = ((s.opened ctx.id now p).overridden ctx.id overrides tuning).counted ctx.id) ∨
        (ctx.config.elastic.enabled = true ∧
          ∃ period previous, s.ledger.previous? ctx.id = .ok (period, previous) ∧
            t = (((s.opened ctx.id now p).overridden ctx.id overrides tuning).generated ctx
              overrides (nextGeneration ctx.config.elastic period s.readings p
                previous)).counted ctx.id)) := by
  simp only [persist, returns_bind_iff, returns_get_iff, returns_ofExcept_iff] at h
  rcases h with ⟨_, m, hopen, _, _, ⟨rfl, rfl⟩, overrides, _, ⟨ho, rfl⟩, _, m', hstore, h⟩
  -- The readings are those from before the first stage, which leaves them alone.
  obtain rfl := returns_openEntry hopen
  obtain rfl := returns_storeOverrides hstore
  refine ⟨overrides, ho, ?_⟩
  cases helastic : ctx.config.elastic.enabled with
  | false =>
      simp only [helastic, Bool.false_eq_true, if_false] at h
      exact Or.inl ⟨rfl, returns_countDecision h⟩
  | true =>
      simp only [helastic, if_true, returns_bind_iff] at h
      rcases h with ⟨_, m, hgen, h⟩
      rcases returns_persistGeneration hgen with ⟨period, previous, hprevious, rfl⟩
      exact Or.inr ⟨rfl, period, previous, hprevious, returns_countDecision h⟩

/-- Storing a decision changes no fault. -/
theorem fault_of_persist {ctx : JobContext} {now : Instant} {p : Proposal} {tuning : Overrides}
    {s t : Session} {u : Unit} (h : Returns (persist ctx now p tuning) s u t) :
    t.ledger.fault = s.ledger.fault := by
  rcases returns_persist h with ⟨_, _, ⟨_, rfl⟩ | ⟨_, _, _, _, rfl⟩⟩
  · rfl
  · rfl

/-! ### Failures between the stages -/

section Failures

variable {ctx : JobContext} {now : Instant} {p : Proposal} {overrides tuning : Overrides}
  {s t : Session} {err : DecisionError}

/-- A write that fails is to a ledger that does not take writes. No write changes
    how others fare, so it did not take them before either. -/
theorem not_takesWrites_of_fails {kind : RecordKind} {f : Store → Store}
    (h : Fails (write kind f) s err t) : ¬s.ledger.TakesWrites := by
  intro hw
  rcases fails_write_iff.1 h with ⟨cause, hfault, _, _⟩
  rw [hw kind] at hfault
  cases hfault

theorem not_fails_openEntry (hw : s.ledger.TakesWrites) :
    ¬Fails (openEntry ctx now p) s err t := by
  intro h
  simp only [openEntry, fails_bind_iff, returns_get_iff, not_fails_get, returns_modify_iff,
    not_fails_modify, returns_write_iff, false_or] at h
  rcases h with ⟨_, _, rfl, _, _, ⟨rfl, rfl⟩, h | ⟨_, _, ⟨_, rfl⟩, _, _, rfl, _, _, ⟨rfl, rfl⟩, h⟩⟩
  · exact not_takesWrites_of_fails h hw
  · exact not_takesWrites_of_fails h hw

theorem not_fails_storeOverrides {job : JobId} (hw : s.ledger.TakesWrites) :
    ¬Fails (storeOverrides job overrides tuning) s err t := by
  intro h
  simp only [storeOverrides, fails_bind_iff, returns_write_iff] at h
  rcases h with h | ⟨_, _, ⟨_, rfl⟩, h⟩
  · exact not_takesWrites_of_fails h hw
  · exact not_takesWrites_of_fails h hw

theorem not_fails_storeGeneration {g : Generation} (hw : s.ledger.TakesWrites) :
    ¬Fails (storeGeneration ctx overrides g) s err t := by
  intro h
  simp only [storeGeneration, fails_bind_iff, returns_write_iff] at h
  rcases h with h | ⟨_, _, ⟨_, rfl⟩, h | ⟨_, _, ⟨_, rfl⟩, h⟩⟩
  · exact not_takesWrites_of_fails h hw
  · exact not_takesWrites_of_fails h hw
  · exact not_takesWrites_of_fails h hw

theorem not_fails_countDecision {job : JobId} (hw : s.ledger.TakesWrites) :
    ¬Fails (countDecision job) s err t := by
  intro h
  simp only [countDecision, fails_bind_iff, not_fails_modify, and_false, exists_false,
    or_false] at h
  exact not_takesWrites_of_fails h hw

/-- Only the generation before can be in the way of the next one, and then
    nothing of the next one is stored. -/
theorem fails_persistGeneration (hw : s.ledger.TakesWrites)
    (h : Fails (persistGeneration ctx p overrides) s err t) :
    ∃ cause, s.ledger.previous? ctx.id = .error cause ∧ err = .store cause ∧ t = s := by
  simp only [persistGeneration, fails_bind_iff, returns_read_iff, fails_read_iff, returns_get_iff,
    not_fails_get, returns_previousGeneration_iff, fails_previousGeneration_iff, false_or] at h
  rcases h with ⟨cause, hperiod, rfl, rfl⟩ | ⟨period, _, ⟨hperiod, rfl⟩,
    ⟨cause, hprevious, rfl, rfl⟩ | ⟨_, _, ⟨_, rfl⟩, _, _, ⟨rfl, rfl⟩, h⟩⟩
  · refine ⟨cause, ?_, rfl, rfl⟩
    rw [Ledger.previous?, hperiod]
    rfl
  · refine ⟨cause, ?_, rfl, rfl⟩
    rw [Ledger.previous?, hperiod]
    change (s.ledger.generationBefore? ctx.id period >>= fun g => .ok (period, g)) = _
    rw [hprevious]
    rfl
  · exact absurd h (not_fails_storeGeneration hw)

/-- Where all writes succeed, storing a decision fails over the overrides, with
    history and log stored, or over the generation before, with the overrides
    stored as well. -/
theorem fails_persist (hw : s.ledger.TakesWrites) (h : Fails (persist ctx now p tuning) s err t) :
    (parallelismOverrides s.readings p = .error err ∧ t = s.opened ctx.id now p) ∨
      ∃ overrides, parallelismOverrides s.readings p = .ok overrides ∧
        ctx.config.elastic.enabled = true ∧
        ∃ cause, s.ledger.previous? ctx.id = .error cause ∧ err = .store cause ∧
          t = (s.opened ctx.id now p).overridden ctx.id overrides tuning := by
  simp only [persist, fails_bind_iff, returns_get_iff, not_fails_get, returns_ofExcept_iff,
    fails_ofExcept_iff, false_or] at h
  -- History and restart log are written, and writes do not fail.
  rcases h with h | ⟨_, m, hopen, _, _, ⟨rfl, rfl⟩, h⟩
  · exact absurd h (not_fails_openEntry hw)
  obtain rfl := returns_openEntry hopen
  have hw' : (s.opened ctx.id now p).ledger.TakesWrites := hw
  -- The overrides are computed only now, and this is where they can be missing.
  rcases h with ⟨ho, rfl⟩ | ⟨overrides, _, ⟨ho, rfl⟩, h | ⟨_, m', hstore, h⟩⟩
  · exact Or.inl ⟨ho, rfl⟩
  · exact absurd h (not_fails_storeOverrides hw')
  obtain rfl := returns_storeOverrides hstore
  have hw'' : ((s.opened ctx.id now p).overridden ctx.id overrides tuning).ledger.TakesWrites := hw'
  -- What is left is the generation before, if it is asked for, and the counting.
  cases helastic : ctx.config.elastic.enabled with
  | false =>
      simp only [helastic, Bool.false_eq_true, if_false] at h
      exact absurd h (not_fails_countDecision hw'')
  | true =>
      simp only [helastic, if_true, fails_bind_iff] at h
      rcases h with h | ⟨_, m, hgen, h⟩
      · rcases fails_persistGeneration hw'' h with ⟨cause, hprevious, herr, ht⟩
        exact Or.inr ⟨overrides, ho, rfl, cause, hprevious, herr, ht⟩
      · rcases returns_persistGeneration hgen with ⟨_, _, _, rfl⟩
        exact absurd h (not_fails_countDecision hw'')

end Failures

end Step

end Rescale
