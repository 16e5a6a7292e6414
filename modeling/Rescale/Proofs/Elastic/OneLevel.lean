import Rescale.Proofs.Elastic.Run

/-!
# One Level at a Time

How far a single period moves a vertex that keeps its state.

The policy has two things to change about a vertex, its memory level and its
parallelism, and it learns what helped by changing one of them at a time. So a
period that takes a vertex up the ladder keeps its parallelism, and a period that
changes the parallelism does not take it up. It may take it down, by one level,
and only to undo the climb of the period before. Whatever the policy does, the
measurements that it keeps for the next period are those of this one.

When the level changes is decided by the tests alone. `level_of_move` says so
once, for the three things that can become of the level, and the shape of a
period is read off from there.

Over several periods the levels add up: between two stances there are at most as
many levels as periods. This takes a vertex that keeps its state, since without
state it falls to the level of vertices without state from wherever it was.

## Main definitions

* `Stance.RollsBack`, `Stance.ClimbsOn`: The tests for a change of the level.
* `Stance.OneLevel`: What one period may do to level and parallelism.
* `Stance.Measures`: The measurements of a stance are those of another.

## Theorems

* `level_of_move`: What becomes of the level, and by which tests.
* `level_rises_iff`, `level_falls_iff`: When exactly the level changes.
* `measures_of_move`: Every move keeps what was measured.
* `next_oneLevel`: The shape of one period.
* `level_within_of_run`: How far the level gets along a run.
-/

namespace Rescale

namespace Stance

variable {options : Config.Elastic} {fresh previous s : Stance}

/-! ### The level -/

/-- The parallelism was to change, and the climb of the period before did not
    help. -/
def RollsBack (options : Config.Elastic) (fresh previous : Stance) : Prop :=
  previous.parallelism ≠ fresh.parallelism ∧ previous.vertical = true ∧
    fresh.improvedOn previous options = false

/-- The parallelism was to change, but the vertex should climb instead, and there
    is room on the ladder. -/
def ClimbsOn (options : Config.Elastic) (fresh previous : Stance) : Prop :=
  previous.parallelism ≠ fresh.parallelism ∧ fresh.wantsMemory previous options = true ∧
    previous.hasRoom options = true

/-- A climb that did not help is no reason for another one. -/
theorem RollsBack.not_climbsOn (h : RollsBack options fresh previous) :
    ¬ClimbsOn options fresh previous := by
  rcases h with ⟨_, climbed, worse⟩
  rintro ⟨_, wanted, _⟩
  rw [wantsMemory, if_pos climbed, worse, Bool.false_and, Bool.false_and] at wanted
  cases wanted

/-- A known vertex with state rolls back, climbs, or keeps its level, and then
    it runs at the parallelism of before or at the one that was proposed. -/
theorem level_of_move (hstateful : fresh.isStateless = false)
    (h : fresh.Move options (some previous) s) :
    (RollsBack options fresh previous ∧
        s = { fresh.spread (previous.memoryLevel - 1) with stopVertical := true }) ∨
      (ClimbsOn options fresh previous ∧ s = fresh.climb previous) ∨
      (¬RollsBack options fresh previous ∧ ¬ClimbsOn options fresh previous ∧
        s.memoryLevel = previous.memoryLevel ∧
        (s.parallelism = previous.parallelism ∨ s.parallelism = fresh.parallelism)) := by
  cases h with
  | noState _ stateless =>
      rw [hstateful] at stateless
      cases stateless
  | rollBack _ _ moved climbed worse => exact Or.inl ⟨⟨moved, climbed, worse⟩, rfl⟩
  | climb _ _ moved wanted room => exact Or.inr (Or.inl ⟨⟨moved, wanted, room⟩, rfl⟩)
  | spread _ _ _ helped held =>
      refine Or.inr (Or.inr ⟨?_, ?_, rfl, Or.inr rfl⟩)
      · rintro ⟨_, climbed, worse⟩
        rw [helped climbed] at worse
        cases worse
      · rintro ⟨_, wanted, room⟩
        rw [wanted, room] at held
        cases held
  | carry _ _ same =>
      exact Or.inr (Or.inr ⟨fun h => h.1 same, fun h => h.1 same, rfl, Or.inr rfl⟩)

theorem level_rises_iff (hstateful : fresh.isStateless = false)
    (h : fresh.Move options (some previous) s) :
    s.memoryLevel = previous.memoryLevel + 1 ↔ ClimbsOn options fresh previous := by
  rcases level_of_move hstateful h with ⟨hrolls, rfl⟩ | ⟨hclimbs, rfl⟩ | ⟨_, hnot, hkept, _⟩
  · refine iff_of_false (fun hrise => ?_) hrolls.not_climbsOn
    simp only [spread] at hrise
    omega
  · exact iff_of_true rfl hclimbs
  · exact iff_of_false (fun hrise => by omega) hnot

theorem level_falls_iff (hstateful : fresh.isStateless = false)
    (h : fresh.Move options (some previous) s) :
    s.memoryLevel = previous.memoryLevel - 1 ↔ RollsBack options fresh previous := by
  rcases level_of_move hstateful h with ⟨hrolls, rfl⟩ | ⟨hclimbs, rfl⟩ | ⟨hnot, _, hkept, _⟩
  · exact iff_of_true rfl hrolls
  · refine iff_of_false (fun hfall => ?_) (fun hrolls => hrolls.not_climbsOn hclimbs)
    simp only [climb] at hfall
    omega
  · exact iff_of_false (fun hfall => by omega) hnot

/-! ### One period -/

/-- What one period may do to the level and the parallelism of a vertex that was
    known before, when `offered` is the parallelism that was proposed. -/
structure OneLevel (options : Config.Elastic) (offered : Nat) (previous s : Stance) : Prop where
  atLeast : previous.memoryLevel - 1 ≤ s.memoryLevel
  atMost : s.memoryLevel ≤ previous.memoryLevel + 1
  /-- Up the ladder only by a climb, in place of a change of parallelism. -/
  rise : s.memoryLevel = previous.memoryLevel + 1 →
    s.vertical = true ∧ s.horizontal = false ∧ s.parallelism = previous.parallelism ∧
      offered ≠ previous.parallelism ∧ previous.memoryLevel + 1 < options.maxLevel
  /-- Down the ladder only to undo a climb, and with the mark of that. -/
  fall : s.memoryLevel = previous.memoryLevel - 1 →
    previous.vertical = true ∧ s.vertical = false ∧ s.horizontal = true ∧ s.stopVertical = true
  /-- The parallelism only changes to what was proposed, and not on the way up. -/
  moved : s.parallelism ≠ previous.parallelism →
    s.parallelism = offered ∧ s.memoryLevel ≤ previous.memoryLevel

/-- No period takes a vertex up the ladder and changes its parallelism. -/
theorem OneLevel.not_both {offered : Nat} (h : OneLevel options offered previous s) :
    ¬(previous.memoryLevel < s.memoryLevel ∧ s.parallelism ≠ previous.parallelism) := by
  rintro ⟨hrise, hmoved⟩
  exact Int.not_lt.2 (h.moved hmoved).2 hrise

theorem oneLevel_of_move (hfresh : fresh.Fresh) (hstateful : fresh.isStateless = false)
    (h : fresh.Move options (some previous) s) :
    OneLevel options fresh.parallelism previous s := by
  rcases level_of_move hstateful h with ⟨⟨_, climbed, _⟩, rfl⟩ | ⟨⟨moved, _, room⟩, rfl⟩ |
    ⟨_, _, hkept, hparallelism⟩
  · -- A rollback accepts the parallelism that was proposed, one level down.
    have hlevel : previous.memoryLevel - 1 ≤ previous.memoryLevel := by omega
    refine ⟨Int.le_refl _, ?_, fun hrise => ?_, fun _ => ?_, fun _ => ⟨rfl, hlevel⟩⟩
    · exact Int.le_add_one hlevel
    · simp only [spread] at hrise
      omega
    · exact ⟨climbed, hfresh.vertical, rfl, rfl⟩
  · -- A climb keeps the parallelism of before, one level up.
    have hbound : previous.memoryLevel + 1 < options.maxLevel := of_decide_eq_true room
    refine ⟨?_, Int.le_refl _, fun _ => ?_, fun hfall => ?_, fun hmoved => absurd rfl hmoved⟩
    · simp only [climb]
      omega
    · exact ⟨rfl, hfresh.horizontal, rfl, moved.symm, hbound⟩
    · simp only [climb] at hfall
      omega
  · -- On the same level only the parallelism can be another one.
    refine ⟨by omega, by omega, fun hrise => by omega, fun hfall => by omega, fun hmoved => ?_⟩
    exact ⟨hparallelism.resolve_left hmoved, Int.le_of_eq hkept⟩

/-- The measurements of a stance are those of another one. -/
structure Measures (s fresh : Stance) : Prop where
  hitRate : s.hitRate = fresh.hitRate
  latency : s.latency = fresh.latency
  throughput : s.throughput = fresh.throughput

/-- Every way to move on keeps what was measured, also for a vertex that is new
    or has no state. -/
theorem measures_of_move {before : Option Stance} (h : fresh.Move options before s) :
    s.Measures fresh := by
  cases h with
  | noState => exact ⟨rfl, rfl, rfl⟩
  | single => exact ⟨rfl, rfl, rfl⟩
  | firstClimb => exact ⟨rfl, rfl, rfl⟩
  | firstSpread => exact ⟨rfl, rfl, rfl⟩
  | rollBack => exact ⟨rfl, rfl, rfl⟩
  | climb => exact ⟨rfl, rfl, rfl⟩
  | spread => exact ⟨rfl, rfl, rfl⟩
  | carry => exact ⟨rfl, rfl, rfl⟩

/-- The shape of one period, for any thresholds and whatever stance the vertex
    had before: one level at most, when exactly it is one, never a climb along
    with a change of parallelism, and always the measurements of this period. -/
theorem next_oneLevel (options : Config.Elastic) (fresh previous : Stance)
    (hfresh : fresh.Fresh) (hstateful : fresh.isStateless = false) :
    ∃ s, fresh.next (some previous) options = s ∧
      OneLevel options fresh.parallelism previous s ∧
      (s.memoryLevel = previous.memoryLevel + 1 ↔ ClimbsOn options fresh previous) ∧
      (s.memoryLevel = previous.memoryLevel - 1 ↔ RollsBack options fresh previous) ∧
      ¬(previous.memoryLevel < s.memoryLevel ∧ s.parallelism ≠ previous.parallelism) ∧
      s.Measures fresh := by
  have hmove := move_next fresh (some previous) options
  have hone := oneLevel_of_move hfresh hstateful hmove
  exact ⟨_, rfl, hone, level_rises_iff hstateful hmove, level_falls_iff hstateful hmove,
    hone.not_both, measures_of_move hmove⟩

end Stance

namespace ClimbThatHelped

/-- On level one since its last climb, at parallelism two. -/
def previous : Stance where
  parallelism := 2
  memoryLevel := 1
  hitRate := 0.5
  latency := 0.0
  throughput := 100.0
  vertical := true
  horizontal := false
  stopVertical := false

/-- Parallelism four is proposed for it, with the hit rate `hitRate`. -/
def fresh (hitRate : Float) : Stance where
  parallelism := 4
  memoryLevel := 0
  hitRate
  latency := 0.0
  throughput := 120.0
  vertical := false
  horizontal := false
  stopVertical := false

/-- With more hits and more throughput it climbs on, at parallelism two. -/
theorem next_oneLevel_climb :
    (fresh 0.7).Fresh ∧ (fresh 0.7).isStateless = false ∧
      ∃ s, (fresh 0.7).next (some previous) {} = s ∧ s.memoryLevel = 2 ∧
        s.parallelism = 2 ∧ s.Measures (fresh 0.7) := by
  have hstateful : (fresh 0.7).isStateless = false := by decide +kernel
  have hclimbs : Stance.ClimbsOn {} (fresh 0.7) previous := by
    refine ⟨by decide, ?_, ?_⟩
    · decide +kernel
    · decide +kernel
  rcases Stance.next_oneLevel {} (fresh 0.7) previous ⟨rfl, rfl, rfl, rfl⟩ hstateful with
    ⟨s, hs, hone, hrises, _, _, hmeasures⟩
  have hlevel := hrises.2 hclimbs
  exact ⟨⟨rfl, rfl, rfl, rfl⟩, hstateful, s, hs, hlevel, (hone.rise hlevel).2.2.1, hmeasures⟩

end ClimbThatHelped

namespace Stance

/-! ### Several periods -/

/-- As long as a vertex keeps its state, between a stance and a later one of its
    run there are at most as many levels as periods. By induction on the offers:
    the first adds at most one, and the others go on from there. -/
theorem level_within_of_run {options : Config.Elastic} {offers : List Offer}
    (hstateful : ∀ o ∈ offers, o.fresh.isStateless = false) :
    ∀ (previous : Stance) (i : Nat) (s : Stance),
      (run options (some previous) offers)[i]? = some s →
      previous.memoryLevel - (i + 1) ≤ s.memoryLevel ∧
        s.memoryLevel ≤ previous.memoryLevel + (i + 1) := by
  induction offers with
  | nil =>
      intro _ _ _ hs
      cases hs
  | cons o rest ih =>
      intro previous i s hs
      rcases List.forall_mem_cons.1 hstateful with ⟨ho, hrest⟩
      have hfirst := oneLevel_of_move (fresh_ofReadings _ _) ho
        (move_next o.fresh (some previous) options)
      have hatLeast := hfirst.atLeast
      have hatMost := hfirst.atMost
      rw [run] at hs
      cases i with
      | zero =>
          simp only [List.getElem?_cons_zero, Option.some.injEq] at hs
          rw [← hs]
          exact ⟨by omega, by omega⟩
      | succ i =>
          rw [List.getElem?_cons_succ] at hs
          rcases ih hrest _ i s hs with ⟨hlow, hhigh⟩
          exact ⟨by omega, by omega⟩

end Stance

end Rescale
