import Rescale.Proofs.Cycle.Failure
import Rescale.Proofs.Decision.Records
import Rescale.Proofs.Store.Keys

/-!
# Generations over a Run of Cycles

What the cycles of a job make of its generations, one after the other.

With the elastic policy on, the number of decisions and the generations move in
step: after any run the generations are those under the numbers below the number
of decisions. So the generation that a decision makes goes where there is none,
the one that it starts from is the one of the decision before, however many
cycles without a decision lie between, and no generation is ever touched again.
Each is one move of the policy away from the one before.

A generation is read back before the next one is made of it, with each of its
doubles reread. So a vertex that does not change keeps its stance only if the
doubles in it survive that. One that does not survive is another one in the next
generation, and may be yet another one in the generation after it.

## Main definitions

* `Store.stored?`: The generation that is stored under a number.
* `Store.storedBefore?`: The generation that a decision with a number starts from.
* `Store.Numbered`: Generations and the number of decisions are in step.
* `Cycle`, `Runs`: A cycle of a job, and a run of cycles that all return.
* `Cycle.Makes`: The generation that a cycle makes.

## Theorems

* `makes_of_run_scaled`, `sameGenerations_of_run`: What a single cycle does.
* `numbered_of_runs`, `stored?_of_runs`: What a run of cycles preserves.
* `runs_generations`: Every generation of a run, what it takes over, and that it
  stays.
-/

namespace Rescale

open Step

/-! ### Stored generations -/

namespace Store

/-- The generation of a job that is stored under a number. -/
def stored? (s : Store) (job : JobId) (n : Nat) : Option Generation :=
  s.generations.get? (generationKey job n)

/-- The generation that a decision with a number starts from, as it is stored: none
    for the first one, and otherwise the one under the number before. -/
def storedBefore? (s : Store) (job : JobId) : Nat → Option Generation
  | 0 => none
  | n + 1 => s.stored? job n

/-- So many decisions were made about a job, and the generations of exactly
    these are stored. -/
structure Numbered (job : JobId) (n : Nat) (s : Store) : Prop where
  period : s.period job = n
  stored : ∀ i, (s.stored? job i).isSome = true ↔ i < n

/-- Two stores have the same generations of a job under the same number of
    decisions. -/
structure SameGenerations (job : JobId) (s t : Store) : Prop where
  period : t.period job = s.period job
  stored? : ∀ n, t.stored? job n = s.stored? job n

theorem SameGenerations.trans {job : JobId} {s t u : Store} (h : SameGenerations job s t)
    (h' : SameGenerations job t u) : SameGenerations job s u where
  period := h'.period.trans h.period
  stored? := fun n => (h'.stored? n).trans (h.stored? n)

theorem KeepsDecisions.sameGenerations {job : JobId} {now : Instant} {s t : Store}
    (h : KeepsDecisions job now s t) : SameGenerations job s t where
  period := congrArg (·.getD 0) h.period
  stored? := h.generations

theorem Numbered.of_same {job : JobId} {n : Nat} {s t : Store} (h : Numbered job n s)
    (hsame : SameGenerations job s t) : Numbered job n t where
  period := hsame.period.trans h.period
  stored := fun i => by rw [hsame.stored? i]; exact h.stored i

end Store

/-- What is read as the generation before a decision is the one that is stored under
    the number before, with every double reread. -/
theorem eq_of_generationBefore? {l : Ledger} {job : JobId} {n : Nat} {previous : Option Generation}
    (h : l.generationBefore? job n = .ok previous) :
    previous = (l.store.storedBefore? job n).map (·.mapFloats Decimal.reread) := by
  cases n with
  | zero => exact (Except.ok.inj h).symm
  | succ n =>
      rw [Ledger.generationBefore?] at h
      have hread : Store.readBack? Store.rereadGeneration (l.store.stored? job n) = .ok previous :=
        read_eq_ok h
      rw [Store.storedBefore?]
      cases hg : l.store.stored? job n with
      | none =>
          rw [hg] at hread
          exact (Except.ok.inj hread).symm
      | some g =>
          rw [hg] at hread
          rcases Store.readBack?_some_eq_ok_iff.1 hread with ⟨g', hreread, hprevious⟩
          rw [hprevious, Store.eq_of_rereadGeneration hreread, Option.map_some]

/-- The stance of a vertex in a generation whose doubles are changed. -/
theorem Generation.stance?_mapFloats (g : Option Generation) (f : Float → Float) (v : VertexId) :
    Generation.stance? (g.map (·.mapFloats f)) v =
      (Generation.stance? g v).map (·.mapFloats f) := by
  cases g with
  | none => rfl
  | some g => exact SortedMap.get?_mapValues _ _ _

/-! ### Single cycles -/

/-- One cycle: who runs it, where its snapshot comes from, and when. -/
structure Cycle where
  autoscaler : Autoscaler
  source : Source
  now : Instant

namespace Cycle

/-- A cycle that moves vertices of a graph of two from the parallelisms that they
    report to given ones, with the elastic policy on. -/
def toward (parallelisms targets : List (VertexId × Nat)) (now : Instant) : Cycle where
  autoscaler := { engine := .toward targets, config := { elastic := { enabled := true } } }
  source := .ofSnapshots (SortedMap.ofList [("job",
    { job := "job", readings := .behind parallelisms, topology := .ofEdges [("map", "sink")] })])
  now

/-- The cycle of a job on what earlier cycles left. -/
def run (c : Cycle) (job : JobId) (j : Journal) : Except DecisionError (Option Outcome) × Journal :=
  c.autoscaler.runCycle c.source job c.now j

/-- A cycle makes a generation of a snapshot and a proposal: by a move of the policy
    from the generation before, of which every double was reread. -/
structure Makes (c : Cycle) (job : JobId) (j : Journal) (snapshot : Snapshot) (p : Proposal)
    (g : Generation) : Prop where
  source : c.source.snapshot? job = .ok (some snapshot)
  proposed : ∃ s m, Begins job snapshot c.now j s ∧
    Returns (c.autoscaler.engine.proposal (c.autoscaler.context job snapshot) snapshot.topology
      c.now s) s p m
  follows : g.Follows c.autoscaler.config.elastic snapshot.readings p
    ((j.ledger.store.storedBefore? job g.period).map (·.mapFloats Decimal.reread))

/-- A vertex that does not change and still reports keeps its stance exactly if the
    doubles in it survive being reread. -/
theorem Makes.carried_iff {c : Cycle} {job : JobId} {j : Journal} {snapshot : Snapshot}
    {p : Proposal} {g : Generation} (h : c.Makes job j snapshot p g) {v : VertexId} {s : Stance}
    (hp : p.get? v = none) (hreports : snapshot.readings.vertices.contains v = true)
    (hs : Generation.stance? (j.ledger.store.storedBefore? job g.period) v = some s) :
    g.stances.get? v = some s ↔ s.mapFloats Decimal.reread = s := by
  have hbefore : Generation.stance?
      ((j.ledger.store.storedBefore? job g.period).map (·.mapFloats Decimal.reread)) v =
        some (s.mapFloats Decimal.reread) := by
    rw [Generation.stance?_mapFloats, hs, Option.map_some]
  have hcontains : g.stances.contains v = true :=
    (h.follows.vertices v).2 (Or.inr ⟨by rw [hbefore]; rfl, hreports⟩)
  rw [h.follows.carried v hp hcontains, hbefore, Option.some.injEq]

end Cycle

theorem sameGenerations_holdsStored (t : Session) (job job' : JobId) :
    Store.SameGenerations job t.ledger.store (t.holdsStored job').ledger.store := by
  rcases exists_store_holdsStored t job' with ⟨holds, hstore⟩
  rw [hstore]
  exact ⟨rfl, fun _ => rfl⟩

section Step

variable {c : Cycle} {job : JobId} {n : Nat} {j j' : Journal}

/-- A cycle that does not end as scaled keeps the generations. -/
theorem sameGenerations_of_run {o : Option Outcome} (h : c.run job j = (.ok o, j'))
    (ho : o ≠ some .scaled) : Store.SameGenerations job j.ledger.store j'.ledger.store := by
  cases o with
  | none =>
      rw [Autoscaler.runCycle_none h]
      exact ⟨rfl, fun _ => rfl⟩
  | some o =>
      rcases Autoscaler.runCycle_ok h with ⟨snapshot, _, hrun⟩
      rcases Autoscaler.runSnapshot_ok hrun with ⟨s, t, hbegins, hdecision, hledger⟩
      rcases Engine.kept_of_decide hdecision fun heq => ho (congrArg some heq) with
        ⟨_, _, _, hkept, _⟩
      rw [hledger]
      refine Store.SameGenerations.trans ?_ (sameGenerations_holdsStored t job job)
      rw [hkept]
      exact (keepsDecisions_of_begins hbegins).sameGenerations

/-- A cycle that ends as scaled makes a generation under the number of decisions
    so far, and the other generations stay. -/
theorem makes_of_run_scaled (h : c.run job j = (.ok (some .scaled), j'))
    (hon : c.autoscaler.config.elastic.enabled = true) (hn : j.ledger.store.Numbered job n) :
    ∃ snapshot p g, c.Makes job j snapshot p g ∧ g.period = n ∧
      j'.ledger.store.stored? job n = some g ∧ j'.ledger.store.period job = n + 1 ∧
      ∀ i, i ≠ n → j'.ledger.store.stored? job i = j.ledger.store.stored? job i := by
  rcases Autoscaler.runCycle_ok h with ⟨snapshot, hsource, hrun⟩
  rcases Autoscaler.runSnapshot_ok hrun with ⟨s, t, hbegins, hdecision, hledger⟩
  rcases Engine.stores_of_decide hdecision with ⟨p, m, hp, _, hpersist⟩
  have happlied := Engine.applied_of_stored hp hpersist
  have hbefore := (keepsDecisions_of_begins hbegins).sameGenerations
  have hafter := sameGenerations_holdsStored t job job
  obtain rfl : s.ledger.store.period job = n := hbefore.period.trans hn.period
  rcases happlied.policyOn hon with ⟨previous, hprevious, hfollows⟩
  change s.ledger.previous? job = .ok (s.ledger.store.period job, previous) at hprevious
  rw [hbegins.previous?] at hprevious
  rw [hledger]
  refine ⟨snapshot, p, _, ⟨hsource, ⟨s, m, hbegins, hp⟩, ?_⟩, rfl,
    (hafter.stored? _).trans hfollows.stored, hafter.period.trans happlied.period,
    fun i hi => ?_⟩
  · have heq := eq_of_generationBefore? (Ledger.parts_of_previous? hprevious).2
    change Generation.Follows _ _ p ((j.ledger.store.storedBefore? job
      (s.ledger.store.period job)).map (·.mapFloats Decimal.reread)) _
    rw [← heq, ← hbegins.readings]
    exact follows_nextGeneration _ _ _ _ _
  · have hkey : Store.generationKey job i ≠ Store.generationKey job (s.ledger.store.period job) :=
      fun heq => hi (Store.generationKey_inj.1 heq).2
    exact (hafter.stored? i).trans
      ((happlied.elsewhere.generations _ hkey).trans (hbefore.stored? i))

/-- A cycle keeps every generation that is stored. -/
theorem stored?_of_run {o : Option Outcome} (h : c.run job j = (.ok o, j'))
    (hon : c.autoscaler.config.elastic.enabled = true) (hn : j.ledger.store.Numbered job n)
    {i : Nat} {g : Generation} (hg : j.ledger.store.stored? job i = some g) :
    j'.ledger.store.stored? job i = some g := by
  by_cases ho : o = some .scaled
  · subst ho
    rcases makes_of_run_scaled h hon hn with ⟨_, _, _, _, _, _, _, hothers⟩
    -- What is stored lies below the number of decisions, and the new one does not.
    have hi : i < n := (hn.stored i).1 (by rw [hg]; rfl)
    rw [hothers i hi.ne, hg]
  · rw [(sameGenerations_of_run h ho).stored?, hg]

/-- A cycle keeps generations and decisions in step, and it counts one more
    decision if it ends as scaled. -/
theorem numbered_of_run {o : Option Outcome} (h : c.run job j = (.ok o, j'))
    (hon : c.autoscaler.config.elastic.enabled = true) (hn : j.ledger.store.Numbered job n) :
    j'.ledger.store.Numbered job (n + if o = some .scaled then 1 else 0) := by
  by_cases ho : o = some .scaled
  · subst ho
    rcases makes_of_run_scaled h hon hn with ⟨_, _, g, _, _, hstored, hperiod, hothers⟩
    rw [if_pos rfl]
    refine ⟨hperiod, fun i => ?_⟩
    -- One more number is taken, the one that was next.
    by_cases hi : i = n
    · rw [hi, hstored]
      exact iff_of_true rfl n.lt_succ_self
    · rw [hothers i hi, hn.stored i]
      omega
  · rw [if_neg ho]
    exact hn.of_same (sameGenerations_of_run h ho)

end Step

/-! ### Runs of cycles -/

/-- Cycles of a job, one after the other, each of which returns an outcome or
    that there is no snapshot. -/
inductive Runs (job : JobId) : Journal → List (Cycle × Option Outcome) → Journal → Prop
  | nil (j : Journal) : Runs job j [] j
  | cons {c : Cycle} {o : Option Outcome} {rest : List (Cycle × Option Outcome)}
      {j j' j'' : Journal} (first : c.run job j = (.ok o, j')) (others : Runs job j' rest j'') :
      Runs job j ((c, o) :: rest) j''

/-- How many cycles of a run ended as scaled. -/
def scaledCount : List (Cycle × Option Outcome) → Nat
  | [] => 0
  | (_, o) :: rest => (if o = some .scaled then 1 else 0) + scaledCount rest

section Runs

variable {job : JobId} {j j' : Journal} {run : List (Cycle × Option Outcome)}

/-- By induction on the first part: a run can be cut anywhere. -/
theorem runs_append_iff {before after : List (Cycle × Option Outcome)} :
    Runs job j (before ++ after) j' ↔ ∃ m, Runs job j before m ∧ Runs job m after j' := by
  induction before generalizing j with
  | nil =>
      constructor
      · exact fun h => ⟨j, .nil j, h⟩
      · rintro ⟨_, ⟨⟩, h⟩
        exact h
  | cons e rest ih =>
      constructor
      · rintro (_ | ⟨hfirst, hothers⟩)
        rcases ih.1 hothers with ⟨m, hbefore, hafter⟩
        exact ⟨m, .cons hfirst hbefore, hafter⟩
      · rintro ⟨m, _ | ⟨hfirst, hothers⟩, hafter⟩
        exact .cons hfirst (ih.2 ⟨m, hothers, hafter⟩)

/-- By induction on the run: each cycle keeps generations and decisions in
    step. -/
theorem numbered_of_runs (h : Runs job j run j') : ∀ n,
    (∀ e ∈ run, e.1.autoscaler.config.elastic.enabled = true) → j.ledger.store.Numbered job n →
      j'.ledger.store.Numbered job (n + scaledCount run) := by
  induction h with
  | nil j => exact fun n _ hn => hn
  | cons hfirst _ ih =>
      intro n hon hn
      rcases List.forall_mem_cons.1 hon with ⟨hc, hrest⟩
      rw [scaledCount, ← Nat.add_assoc]
      exact ih _ hrest (numbered_of_run hfirst hc hn)

/-- By induction on the run: each cycle keeps every generation that is stored. -/
theorem stored?_of_runs (h : Runs job j run j') : ∀ n,
    (∀ e ∈ run, e.1.autoscaler.config.elastic.enabled = true) → j.ledger.store.Numbered job n →
      ∀ i g, j.ledger.store.stored? job i = some g → j'.ledger.store.stored? job i = some g := by
  induction h with
  | nil j => exact fun _ _ _ _ _ hg => hg
  | cons hfirst _ ih =>
      intro n hon hn i g hg
      rcases List.forall_mem_cons.1 hon with ⟨hc, hrest⟩
      exact ih _ hrest (numbered_of_run hfirst hc hn) i g (stored?_of_run hfirst hc hn hg)

end Runs

/-- In a run of cycles with the elastic policy on, from a store without
    generations and decisions, take any one cycle. If it does not end as scaled,
    it keeps all generations. If it does, it makes the generation under the
    number of cycles before it that ended as scaled, where there was none, and
    by a move of the policy from the generation under the number below. A vertex
    that does not change and still reports keeps its stance in it exactly if the
    doubles in it survive being reread. Whatever was stored before the cycle or by
    it is stored at the end of the run. -/
theorem runs_generations (job : JobId) (j₀ j : Journal)
    (before after : List (Cycle × Option Outcome)) (c : Cycle) (o : Option Outcome)
    (hstart : j₀.ledger.store.Numbered job 0)
    (hon : ∀ e ∈ before ++ (c, o) :: after, e.1.autoscaler.config.elastic.enabled = true)
    (h : Runs job j₀ (before ++ (c, o) :: after) j) :
    ∃ j₁ j₂, Runs job j₀ before j₁ ∧ c.run job j₁ = (.ok o, j₂) ∧ Runs job j₂ after j ∧
      (o ≠ some .scaled →
        ∀ i, j₂.ledger.store.stored? job i = j₁.ledger.store.stored? job i) ∧
      (o = some .scaled →
        j₁.ledger.store.stored? job (scaledCount before) = none ∧
        (∃ snapshot p g, c.Makes job j₁ snapshot p g ∧ g.period = scaledCount before ∧
          j₂.ledger.store.stored? job (scaledCount before) = some g ∧
          ∀ v s, p.get? v = none → snapshot.readings.vertices.contains v = true →
            Generation.stance? (j₁.ledger.store.storedBefore? job g.period) v = some s →
              (g.stances.get? v = some s ↔ s.mapFloats Decimal.reread = s)) ∧
        ∀ i, i ≠ scaledCount before →
          j₂.ledger.store.stored? job i = j₁.ledger.store.stored? job i) ∧
      (∀ i g, j₁.ledger.store.stored? job i = some g → j.ledger.store.stored? job i = some g) ∧
      ∀ i g, j₂.ledger.store.stored? job i = some g → j.ledger.store.stored? job i = some g := by
  rcases runs_append_iff.1 h with ⟨j₁, hbefore, _ | ⟨hfirst, hafter⟩⟩
  rename_i j₂
  rcases List.forall_mem_append.1 hon with ⟨honBefore, honRest⟩
  rcases List.forall_mem_cons.1 honRest with ⟨hc, honAfter⟩
  -- Generations and decisions are in step in front of the cycle and behind it.
  have hn₁ := numbered_of_runs hbefore 0 honBefore hstart
  rw [Nat.zero_add] at hn₁
  have hn₂ := numbered_of_run hfirst hc hn₁
  have hstays := stored?_of_runs hafter _ honAfter hn₂
  refine ⟨j₁, j₂, hbefore, hfirst, hafter, fun ho => (sameGenerations_of_run hfirst ho).stored?,
    fun ho => ?_, fun i g hg => hstays i g (stored?_of_run hfirst hc hn₁ hg), hstays⟩
  subst ho
  rcases makes_of_run_scaled hfirst hc hn₁ with
    ⟨snapshot, p, g, hmakes, hperiod, hstored, _, hothers⟩
  refine ⟨?_, ⟨snapshot, p, g, hmakes, hperiod, hstored, fun v s => hmakes.carried_iff⟩, hothers⟩
  rw [← Option.not_isSome_iff_eq_none, hn₁.stored]
  exact lt_irrefl _

namespace TwoDecisions

/-- The map goes from two to four. -/
def first : Cycle := .toward [("map", 2), ("sink", 2)] [("map", 4)] ⟨0⟩

/-- Nothing changes. -/
def idle : Cycle := .toward [("map", 4), ("sink", 2)] [] ⟨60000⟩

/-- The sink goes from two to three. -/
def second : Cycle := .toward [("map", 4), ("sink", 2)] [("sink", 3)] ⟨120000⟩

def stop : Journal := (second.run "job" (idle.run "job" (first.run "job" {}).2).2).2

theorem runs_stop : Runs "job" {}
    ([(first, some .scaled), (idle, some .noChange)] ++ (second, some .scaled) :: []) stop :=
  .cons (eq_ok_of_toOption (by decide +kernel)) (.cons (eq_ok_of_toOption (by decide +kernel))
    (.cons (eq_ok_of_toOption (by decide +kernel)) (.nil _)))

theorem runs_generations_sink :
    Store.Numbered "job" 0 ({} : Journal).ledger.store ∧
      ∃ j snapshot p g, second.Makes "job" j snapshot p g ∧ g.period = 1 ∧
        stop.ledger.store.stored? "job" 1 = some g := by
  have hstart : Store.Numbered "job" 0 ({} : Journal).ledger.store :=
    ⟨rfl, fun i => iff_of_false Bool.false_ne_true i.not_lt_zero⟩
  rcases runs_generations "job" {} stop _ [] second _ hstart (by decide) runs_stop with
    ⟨j₁, j₂, _, _, _, _, hscaled, _, hstays⟩
  rcases (hscaled rfl).2.1 with ⟨snapshot, p, g, hmakes, hperiod, hstored, _⟩
  exact ⟨hstart, j₁, snapshot, p, g, hmakes, hperiod, hstays _ g hstored⟩

/-- The map is not changed by the second decision, and its stance is carried
    over from the first one. -/
example : (stop.ledger.store.stored? "job" 1).map (fun g => g.stances.keys) =
    some ["map", "sink"] := by
  decide +kernel

end TwoDecisions

namespace DriftingStance

open Step

/-- The map has state that is accessed very fast, and either the map or the sink
    moves. -/
def cycle (parallelism : Nat) (targets : List (VertexId × Nat)) (now : Instant) : Cycle :=
  let map := ((Readings.behind parallelism).insert .stateAccessLatency
    (.point 1.1111111111111114e-7)).insert .cacheHitRate (.point 0.9)
  { Cycle.toward [] targets now with
    source := .ofSnapshots (SortedMap.ofList [("job",
      { job := "job", topology := .ofEdges [("map", "sink")],
        readings := { vertices := SortedMap.ofList [("map", map), ("sink", .behind 2)] } })]) }

/-- The map goes from two to four. -/
def first : Cycle := cycle 2 [("map", 4)] ⟨0⟩

/-- The sink goes from two to three, and the map stays. -/
def second : Cycle := cycle 4 [("sink", 3)] ⟨60000⟩

def middle : Journal := (first.run "job" {}).2

def stop : Journal := (second.run "job" middle).2

/-- The stance of the map after the first decision. -/
def stance : Stance where
  parallelism := 4
  memoryLevel := 0
  hitRate := 0.9
  latency := 1.1111111111111114e-7
  throughput := 1.0
  vertical := false
  horizontal := true
  stopVertical := false

/-- The map does not change at the second decision. All the same its stance in the
    second generation is not the one that it has in the first. -/
theorem stance_drifts :
    Runs "job" {} [(first, some .scaled), (second, some .scaled)] stop ∧
      (stop.ledger.store.histories.get? "job").bind (·.change? "map" second.now) = none ∧
      Generation.stance? (stop.ledger.store.stored? "job" 0) "map" = some stance ∧
      Generation.stance? (stop.ledger.store.stored? "job" 1) "map" =
        some (stance.mapFloats Decimal.reread) ∧
      stance.mapFloats Decimal.reread ≠ stance := by
  refine ⟨.cons (eq_ok_of_toOption (by decide +kernel))
    (.cons (eq_ok_of_toOption (by decide +kernel)) (.nil _)), ?_⟩
  decide +kernel

end DriftingStance

end Rescale
