import Rescale.Proofs.Cycle.Basic
import Rescale.Proofs.Decision.Overrides

/-!
# Vertices that a Cycle Does Not Change

What a cycle that ends as scaled sets the vertices to that it did not decide to
change.

Without the elastic policy that is the parallelism they report. With the policy,
the generation of the decision takes over the stances of the vertices that do
not change, and with a stance its parallelism. It was settled on by an earlier
decision. If the vertex runs at another parallelism by now, because it was
rescaled by hand or because the earlier decision has not taken effect yet, then
the cycle sets it back without ever having decided to move it. The same happens
to vertices that are excluded from scaling.

## Theorems

* `override?_of_runSnapshot`: The override of every vertex after a cycle.
* `runCycle_override?_of_unchanged`: A vertex that does not change is set to
  what it reports exactly when its stance agrees with that.
-/

namespace Rescale

open Step

namespace Autoscaler

variable {a : Autoscaler} {job : JobId} {snapshot : Snapshot} {now : Instant} {j j' : Journal}

/-- Holds are stored in a table of their own. -/
theorem override?_holdsStored (t : Session) (job : JobId) (v : VertexId) :
    (t.holdsStored job).ledger.store.override? job v = t.ledger.store.override? job v := by
  rcases exists_store_holdsStored t job with ⟨holds, hstore⟩
  rw [hstore]
  rfl

/-- After a cycle that ends as scaled, each vertex that reports has an override:
    from its change if it has one, or else from the generation before, or else
    from what it reports. -/
theorem override?_of_runSnapshot (h : a.runSnapshot job snapshot now j = (.ok .scaled, j')) :
    ∃ s p m previous, Begins job snapshot now j s ∧
      Returns (a.engine.proposal (a.context job snapshot) snapshot.topology now s) s p m ∧
      Admits a.engine (a.context job snapshot) snapshot.topology now snapshot.readings p ∧
      GoesBy a.config.elastic j.ledger job previous ∧
      ∀ v r, snapshot.readings.vertices.get? v = some r →
        (∀ c, p.get? v = some c → j'.ledger.store.override? job v =
          some (numberText (c.settled a.config.elastic (Generation.stance? previous v)))) ∧
        (p.get? v = none → ∃ x, r.get? .parallelism = some x ∧
          j'.ledger.store.override? job v =
            some (numberText (((Generation.stance? previous v).map (·.parallelism)).getD
              (parallelismOf x.current)))) := by
  rcases runSnapshot_ok h with ⟨s, t, hbegins, hdecision, hledger⟩
  rcases Engine.stores_of_decide hdecision with ⟨p, m, hp, hadmits, hpersist⟩
  have hm : s.SameRecords m := Engine.sameRecords_of_propose hp.leaves
  rcases override?_of_persist hpersist with ⟨previous, hgoes, hoverride⟩
  rw [hbegins.readings] at hadmits
  -- The proposal and the report change no record that the overrides depend on.
  refine ⟨s, p, m, previous, hbegins, hp, hadmits, ?_, fun v r hr => ?_⟩
  · change GoesBy a.config.elastic m.ledger job previous at hgoes
    rw [hm.ledger] at hgoes
    exact ⟨fun hon => hbegins.previous? ▸ hgoes.1 hon, hgoes.2⟩
  · have hm' : m.readings = snapshot.readings := hm.readings.trans hbegins.readings
    rw [hledger, override?_holdsStored]
    refine ⟨fun c hc => ?_, fun hnone => ?_⟩
    · -- The vertex has readings once its recommendation is entered, other ones though.
      have hrecommended : ∃ r', (recommend m.readings p).vertices.get? v = some r' := by
        simp only [recommend, SortedMap.get?_mapValues, hm', hr, Option.map_some]
        exact ⟨_, rfl⟩
      rcases hrecommended with ⟨r', hr'⟩
      exact (hoverride v r' hr').1 c hc
    · refine (hoverride v r ?_).2 hnone
      change (recommend m.readings p).vertices.get? v = some r
      rw [get?_recommend_of_none _ hnone, hm', hr]

end Autoscaler

/-- After a cycle that ends as scaled, a vertex without a change is set to the
    parallelism of its stance in the generation before, and to what it reports
    if there is none. So it is set to what it reports exactly when no stance
    says otherwise, and always with the elastic policy off. Vertices that are
    excluded are among those without a change. -/
theorem runCycle_override?_of_unchanged (a : Autoscaler) (source : Source) (job : JobId)
    (now : Instant) (j j' : Journal) (h : a.runCycle source job now j = (.ok (some .scaled), j')) :
    ∃ snapshot s p m previous, source.snapshot? job = .ok (some snapshot) ∧
      Begins job snapshot now j s ∧
      Returns (a.engine.proposal (a.context job snapshot) snapshot.topology now s) s p m ∧
      GoesBy a.config.elastic j.ledger job previous ∧
      (∀ v, a.config.scaling.excluded.contains v = true → p.get? v = none) ∧
      ∀ v r, snapshot.readings.vertices.get? v = some r → p.get? v = none →
        ∃ x, r.get? .parallelism = some x ∧
          j'.ledger.store.override? job v =
            some (numberText (((Generation.stance? previous v).map (·.parallelism)).getD
              (parallelismOf x.current))) ∧
          (j'.ledger.store.override? job v = some (numberText (parallelismOf x.current)) ↔
            ∀ stance, Generation.stance? previous v = some stance →
              stance.parallelism = parallelismOf x.current) := by
  rcases Autoscaler.runCycle_ok h with ⟨snapshot, hsource, hrun⟩
  rcases Autoscaler.override?_of_runSnapshot hrun with
    ⟨s, p, m, previous, hbegins, hp, _, hgoes, hoverride⟩
  refine ⟨snapshot, s, p, m, previous, hsource, hbegins, hp, hgoes, ?_, ?_⟩
  · -- The loop over the vertices passes those by that are excluded.
    intro v hex
    cases hc : p.get? v with
    | none => rfl
    | some c =>
        have hnot := (Engine.startsFrom_of_propose hp v c hc).1
        exact absurd (hnot.symm.trans hex) Bool.false_ne_true
  · -- Equal texts are equal numbers, so the two agree exactly if the stance does.
    intro v r hr hnone
    rcases (hoverride v r hr).2 hnone with ⟨x, hx, hstored⟩
    refine ⟨x, hx, hstored, ?_⟩
    rw [hstored, Option.some.injEq, numberText_inj]
    cases Generation.stance? previous v with
    | none => exact iff_of_true rfl nofun
    | some stance =>
        simp only [Option.map_some, Option.getD_some, Option.some.injEq, forall_eq']

namespace RescaledByHand

/-- The elastic policy is on, and vertices go to given parallelisms. -/
def autoscaler (targets : List (VertexId × Nat)) : Autoscaler where
  engine := .toward targets
  config := { elastic := { enabled := true } }

def snapshot (parallelisms : List (VertexId × Nat)) : Snapshot where
  job := "job"
  readings := .behind parallelisms
  topology := .ofEdges [("map", "sink")]

def source (parallelisms : List (VertexId × Nat)) : Source :=
  .ofSnapshots (SortedMap.ofList [("job", snapshot parallelisms)])

/-- The map goes from parallelism two to four. -/
def first : Except DecisionError (Option Outcome) × Journal :=
  (autoscaler [("map", 4)]).runCycle (source [("map", 2), ("sink", 2)]) "job" ⟨0⟩ {}

/-- By now the map was set to eight by hand, and only the sink goes to three. -/
def second : Except DecisionError (Option Outcome) × Journal :=
  (autoscaler [("sink", 3)]).runCycle (source [("map", 8), ("sink", 2)]) "job" ⟨60000⟩ first.2

/-- The second cycle proposes no change of the map. -/
theorem map_unchanged {s m : Session} {p : Proposal}
    (hbegins : Begins "job" (snapshot [("map", 8), ("sink", 2)]) ⟨60000⟩ first.2 s)
    (hp : Returns ((autoscaler [("sink", 3)]).engine.proposal
      ((autoscaler [("sink", 3)]).context "job" (snapshot [("map", 8), ("sink", 2)]))
      (.ofEdges [("map", "sink")]) ⟨60000⟩ s) s p m) : p.get? "map" = none := by
  rw [hbegins.eq] at hp
  have hcontains : (Except.ok p : Except DecisionError Proposal).toOption.map (·.contains "map") =
      some false := by
    rw [← hp.exec_eq]
    decide +kernel
  rw [← Option.not_isSome_iff_eq_none]
  exact ne_true_of_eq_false (Option.some.inj hcontains)

theorem runCycle_override?_of_unchanged_map :
    second = (.ok (some .scaled), second.2) ∧
      ∃ previous x, GoesBy { enabled := true } first.2.ledger "job" previous ∧
        second.2.ledger.store.override? "job" "map" =
          some (numberText (((Generation.stance? previous "map").map (·.parallelism)).getD
            (parallelismOf x))) := by
  have hscaled : second = (.ok (some .scaled), second.2) :=
    eq_ok_of_toOption (by decide +kernel)
  refine ⟨hscaled, ?_⟩
  rcases runCycle_override?_of_unchanged _ _ _ _ _ _ hscaled with
    ⟨snapshot', s, p, m, previous, hsource, hbegins, hp, hgoes, _, hoverride⟩
  obtain rfl := Autoscaler.eq_of_snapshot?_ofSnapshots hsource
  rcases hoverride "map" (.behind 8) (by decide +kernel) (map_unchanged hbegins hp) with
    ⟨x, _, hstored, _⟩
  exact ⟨previous, x.current, hgoes, hstored⟩

/-- The map does not change in the second cycle and reports eight, but the cycle
    sets it back to four. -/
theorem override?_of_map_set_back :
    first.1.toOption = some (some .scaled) ∧ second.1.toOption = some (some .scaled) ∧
      (∀ s p m, Begins "job" (snapshot [("map", 8), ("sink", 2)]) ⟨60000⟩ first.2 s →
        Returns ((autoscaler [("sink", 3)]).engine.proposal
          ((autoscaler [("sink", 3)]).context "job" (snapshot [("map", 8), ("sink", 2)]))
          (.ofEdges [("map", "sink")]) ⟨60000⟩ s) s p m → p.get? "map" = none) ∧
      (snapshot [("map", 8), ("sink", 2)]).readings.vertices.get? "map" = some (.behind 8) ∧
      second.2.ledger.store.override? "job" "map" = some (numberText 4) :=
  ⟨by decide +kernel, by decide +kernel, fun _ _ _ hbegins hp => map_unchanged hbegins hp,
    by decide +kernel, by decide +kernel⟩

end RescaledByHand

end Rescale
