import Rescale.Proofs.Decision.Gates
import Rescale.Proofs.Decision.Persist

/-!
# Stored Parallelism

Which parallelism a stored decision sets each vertex to.

The overrides of a decision are written twice when the elastic policy is on: by
the proposal, and again with the generation on top. The generation has a stance
for every vertex that changes, moved on from the one before, and it takes over
the stances of vertices that do not change but still report. So a vertex without
a change is set to the parallelism of its stance in the generation before, which
may be long past, and to the reported one only where there is no such stance.

## Main definitions

* `GoesBy`: The generation that a decision goes by.
* `Store.override?`: The override of a vertex.
* `Change.settled`: What a vertex that changes is set to in the end.

## Theorems

* `get?_nextGeneration`: The stance of each vertex in a generation.
* `get?_withGeneration`: Overrides with a generation on top.
* `override?_of_persist`: The override of every vertex that reports.
* `numberText_inj`: Different numbers are written differently.
-/

namespace Rescale

/-- Different numbers are written differently, since they can be read back. -/
theorem numberText_inj {m n : Nat} : numberText m = numberText n ↔ m = n := by
  refine ⟨fun h => ?_, fun h => congrArg numberText h⟩
  -- Both texts are read with a bound that is enough for either number.
  have hdigits : Text.digits m = Text.digits n := String.ofList_inj.1 h
  have hm : m < m + n + 1 := by omega
  have hn : n < m + n + 1 := by omega
  have hread := Text.natural?_digits hm
  rw [hdigits, Text.natural?_digits hn] at hread
  exact (Option.some.inj hread).symm

/-! ### Generations -/

section Generations

variable (options : Config.Elastic) (period : Nat) (readings : JobReadings) (p : Proposal)
  (previous : Option Generation) (v : VertexId)

theorem get?_carriedOver :
    (carriedOver readings p previous).get? v =
      (Generation.stance? previous v).filter
        fun _ => !p.contains v && readings.vertices.contains v := by
  cases previous with
  | none => rfl
  | some g => exact SortedMap.get?_filter _ _ _

/-- The stance of a vertex in a generation: a fresh one, moved on, if the vertex
    changes, and the one before if it does not change but reports. -/
theorem get?_nextGeneration :
    (nextGeneration options period readings p previous).stances.get? v =
      match p.get? v with
      | some c =>
        some ((Stance.ofReadings c.target c.readings).next (Generation.stance? previous v) options)
      | none =>
        if readings.vertices.contains v then Generation.stance? previous v else none := by
  -- A vertex has a fresh stance exactly if it changes.
  have hfresh : (((freshGeneration period p).advance previous options).stances).get? v =
      (p.get? v).map fun c =>
        (Stance.ofReadings c.target c.readings).next (Generation.stance? previous v) options := by
    simp only [Generation.advance, freshGeneration, SortedMap.get?_mapValues, Option.map_map]
    rfl
  rw [nextGeneration, SortedMap.get?_insertAll, hfresh, get?_carriedOver]
  cases hp : p.get? v with
  | some c => rfl
  | none =>
      -- No fresh stance, so the one before counts if the vertex still reports.
      have hcontains : p.contains v = false := by rw [SortedMap.contains, hp]; rfl
      simp only [Option.map_none, Option.none_or, hcontains, Bool.not_false, Bool.true_and]
      cases readings.vertices.contains v with
      | true => cases Generation.stance? previous v <;> rfl
      | false => cases Generation.stance? previous v <;> rfl

theorem get?_withGeneration (overrides : Overrides) (g : Generation) :
    (withGeneration overrides g).get? v =
      ((g.stances.get? v).map fun s => numberText s.parallelism).or (overrides.get? v) := by
  rw [withGeneration, SortedMap.get?_insertAll, SortedMap.get?_mapValues]

end Generations

/-! ### Stored overrides -/

/-- The parallelism that a vertex of a job is set to, as text. -/
def Store.override? (s : Store) (job : JobId) (v : VertexId) : Option String :=
  (s.parallelism? job).bind (·.get? v)

/-- The generation that a decision about a job goes by: the one before with the
    elastic policy on, and none with it off. -/
def GoesBy (options : Config.Elastic) (l : Ledger) (job : JobId)
    (previous : Option Generation) : Prop :=
  (options.enabled = true → ∃ period, l.previous? job = .ok (period, previous)) ∧
    (options.enabled = false → previous = none)

/-- What a vertex that changes is set to: the target of its change with the
    elastic policy off, and what the policy makes of it with the policy on. -/
def Change.settled (c : Change) (options : Config.Elastic) (before : Option Stance) : Nat :=
  if options.enabled then ((Stance.ofReadings c.target c.readings).next before options).parallelism
  else c.target

/-- The override that a stored decision leaves for a vertex: from its
    generation with the elastic policy on, and from the proposal otherwise. -/
theorem override?_of_returns {ctx : JobContext} {now : Instant} {p : Proposal} {tuning : Overrides}
    {s t : Session} {u : Unit} (h : Step.Returns (Step.persist ctx now p tuning) s u t) :
    ∃ overrides, parallelismOverrides s.readings p = .ok overrides ∧
      ((ctx.config.elastic.enabled = false ∧
          ∀ v, t.ledger.store.override? ctx.id v = overrides.get? v) ∨
        (ctx.config.elastic.enabled = true ∧
          ∃ period previous, s.ledger.previous? ctx.id = .ok (period, previous) ∧
            ∀ v, t.ledger.store.override? ctx.id v =
              (withGeneration overrides
                (nextGeneration ctx.config.elastic period s.readings p previous)).get? v)) := by
  rcases Step.returns_persist h with
    ⟨overrides, ho, ⟨hoff, rfl⟩ | ⟨hon, period, previous, hprevious, rfl⟩⟩
  · refine ⟨overrides, ho, Or.inl ⟨hoff, fun v => ?_⟩⟩
    change ((s.ledger.store.parallelisms.insert ctx.id overrides).get? ctx.id).bind _ = _
    rw [SortedMap.get?_insert_self, Option.bind_some]
  · refine ⟨overrides, ho, Or.inr ⟨hon, period, previous, hprevious, fun v => ?_⟩⟩
    change (((s.ledger.store.parallelisms.insert ctx.id overrides).insert ctx.id _).get?
      ctx.id).bind _ = _
    rw [SortedMap.get?_insert_self, Option.bind_some]

/-- The override of every vertex that reports, after a stored decision. The
    parallelism that a vertex reports is asked for where it does not change. -/
theorem override?_of_persist {ctx : JobContext} {now : Instant} {p : Proposal} {tuning : Overrides}
    {s t : Session} {u : Unit} (h : Step.Returns (Step.persist ctx now p tuning) s u t) :
    ∃ previous, GoesBy ctx.config.elastic s.ledger ctx.id previous ∧
      ∀ v r, s.readings.vertices.get? v = some r →
        (∀ c, p.get? v = some c → t.ledger.store.override? ctx.id v =
          some (numberText (c.settled ctx.config.elastic (Generation.stance? previous v)))) ∧
        (p.get? v = none → ∃ x, r.get? .parallelism = some x ∧
          t.ledger.store.override? ctx.id v =
            some (numberText (((Generation.stance? previous v).map (·.parallelism)).getD
              (parallelismOf x.current)))) := by
  rcases override?_of_returns h with
    ⟨overrides, ho, ⟨hoff, hstored⟩ | ⟨hon, period, previous, hprevious, hstored⟩⟩
  · -- No stance has a say, so the override is what the vertex was settled on.
    refine ⟨none, ⟨fun hon => absurd (hoff.symm.trans hon) Bool.false_ne_true, fun _ => rfl⟩, ?_⟩
    intro v r hr
    rcases get?_parallelismOverrides_of_reported ho hr with ⟨n, hn, hget⟩
    rw [hstored v, hget]
    rcases settledParallelism_eq_ok_iff.1 hn with ⟨c, hc, rfl⟩ | ⟨hp, x, hx, rfl⟩
    · refine ⟨fun c' hc' => ?_, fun hp => ?_⟩
      · obtain rfl := Option.some.inj (hc.symm.trans hc')
        simp only [Change.settled, hoff, Bool.false_eq_true, if_false]
      · rw [hc] at hp
        cases hp
    · refine ⟨fun c' hc' => ?_, fun _ => ⟨x, hx, rfl⟩⟩
      rw [hp] at hc'
      cases hc'
  · -- The generation lies on top of the overrides, and its stances decide.
    refine ⟨previous, ⟨fun _ => ⟨period, hprevious⟩,
      fun hoff => absurd (hoff.symm.trans hon) Bool.false_ne_true⟩, ?_⟩
    intro v r hr
    have hreports : s.readings.vertices.contains v = true := SortedMap.contains_iff.2 ⟨r, hr⟩
    rcases get?_parallelismOverrides_of_reported ho hr with ⟨n, hn, hget⟩
    rw [hstored v, get?_withGeneration, get?_nextGeneration, hget]
    rcases settledParallelism_eq_ok_iff.1 hn with ⟨c, hc, rfl⟩ | ⟨hp, x, hx, rfl⟩
    · refine ⟨fun c' hc' => ?_, fun hp => ?_⟩
      · obtain rfl := Option.some.inj (hc.symm.trans hc')
        simp only [hc, Option.map_some, Option.some_or, Change.settled, hon, if_true]
      · rw [hc] at hp
        cases hp
    · refine ⟨fun c' hc' => ?_, fun _ => ⟨x, hx, ?_⟩⟩
      · rw [hp] at hc'
        cases hc'
      · simp only [hp, hreports, if_true]
        cases Generation.stance? previous v with
        | none => rfl
        | some stance => rfl

end Rescale
