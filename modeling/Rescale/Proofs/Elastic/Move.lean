import Rescale.Elastic.Transition

/-!
# The Ways to Move On

Everything the elastic policy can do in one period, as an inductive type.

The policy is a nest of situations and tests. What matters afterwards is which
stance came out and what has to have been the case for it, so there is one
constructor for each way through the nest, with its tests as premises.
`move_next` says that the policy always takes one of them. An invariant of the
policy is then a case split over the ways, and nobody has to open the policy
again.

Climbing stands for two ways. After a move that was not a climb it takes that
memory is short, and after a climb that the climb helped and the cache can still
be hit more often. Both ask for room on the ladder, and both go on from the
stance before.

## Main definitions

* `Stance.wantsMemory`: Whether a vertex should climb if there is room.
* `Stance.Move`: The ways to move on, with what has to be the case for each.

## Theorems

* `move_next`: The policy takes one of the ways.
* `parallelism_of_move`: What a move can set a vertex to.
-/

namespace Rescale

namespace Stance

/-- Whether a vertex whose parallelism was to change should climb instead: after
    a climb if that helped and there is more to gain, and otherwise if memory is
    short. -/
def wantsMemory (fresh previous : Stance) (options : Config.Elastic) : Bool :=
  if previous.vertical then
    fresh.improvedOn previous options && fresh.gainedOn previous options &&
      fresh.hitRate < options.maxHitRate
  else fresh.needsMemory options

/-- The ways to move on from the stance before, if there is one, to the next. -/
inductive Move (options : Config.Elastic) (fresh : Stance) : Option Stance → Stance → Prop
  /-- Without state there is nothing to cache. -/
  | noState (before : Option Stance) (stateless : fresh.isStateless = true) :
      Move options fresh before { fresh with memoryLevel := SlotProfile.statelessLevel }
  /-- A first decision for a single instance sets nothing. -/
  | single (stateful : fresh.isStateless = false) (one : fresh.parallelism = 1) :
      Move options fresh none fresh
  /-- A first decision gives memory to a single instance instead of more
      instances. -/
  | firstClimb (stateful : fresh.isStateless = false) (several : fresh.parallelism ≠ 1)
      (short : fresh.needsMemory options = true) :
      Move options fresh none { fresh with parallelism := 1, memoryLevel := 1, vertical := true }
  /-- A first decision accepts the parallelism. -/
  | firstSpread (stateful : fresh.isStateless = false) (several : fresh.parallelism ≠ 1)
      (ample : fresh.needsMemory options = false) :
      Move options fresh none { fresh with horizontal := true }
  /-- A climb did not help. -/
  | rollBack (previous : Stance) (stateful : fresh.isStateless = false)
      (moved : previous.parallelism ≠ fresh.parallelism) (climbed : previous.vertical = true)
      (worse : fresh.improvedOn previous options = false) :
      Move options fresh (some previous)
        { fresh.spread (previous.memoryLevel - 1) with stopVertical := true }
  /-- More memory at the parallelism of before. -/
  | climb (previous : Stance) (stateful : fresh.isStateless = false)
      (moved : previous.parallelism ≠ fresh.parallelism)
      (wanted : fresh.wantsMemory previous options = true)
      (room : previous.hasRoom options = true) :
      Move options fresh (some previous) (fresh.climb previous)
  /-- The proposed parallelism at the level of before. -/
  | spread (previous : Stance) (stateful : fresh.isStateless = false)
      (moved : previous.parallelism ≠ fresh.parallelism)
      (helped : previous.vertical = true → fresh.improvedOn previous options = true)
      (held : (fresh.wantsMemory previous options && previous.hasRoom options) = false) :
      Move options fresh (some previous) (fresh.spread previous.memoryLevel)
  /-- The parallelism did not change, and neither do level and flags. -/
  | carry (previous : Stance) (stateful : fresh.isStateless = false)
      (same : previous.parallelism = fresh.parallelism) :
      Move options fresh (some previous)
        { fresh with
          memoryLevel := previous.memoryLevel
          vertical := previous.vertical
          horizontal := previous.horizontal
          stopVertical := previous.stopVertical }

variable {fresh previous : Stance} {options : Config.Elastic}

/-- After a climb, a vertex is rolled back, climbs on or spreads. -/
theorem move_of_climbed (stateful : fresh.isStateless = false)
    (moved : previous.parallelism ≠ fresh.parallelism) (climbed : previous.vertical = true) :
    fresh.Move options (some previous) (fresh.next (some previous) options) := by
  have hsituation : fresh.situation (some previous) = .previousVertical previous := by
    simp only [situation, stateful, climbed, beq_iff_eq, moved, Bool.false_eq_true, if_false,
      if_true]
  by_cases himproved : fresh.improvedOn previous options = true
  · by_cases hclimbs : (fresh.gainedOn previous options &&
        fresh.hitRate < options.maxHitRate && previous.hasRoom options) = true
    · have hnext : fresh.next (some previous) options = fresh.climb previous := by
        simp only [next, hsituation, himproved, hclimbs, Bool.not_true, Bool.false_eq_true,
          if_false, if_true]
      rw [hnext]
      simp only [Bool.and_eq_true] at hclimbs
      refine .climb previous stateful moved ?_ hclimbs.2
      simp only [wantsMemory, climbed, if_true, himproved, hclimbs.1, Bool.and_self]
    · have hnext : fresh.next (some previous) options = fresh.spread previous.memoryLevel := by
        simp only [next, hsituation, himproved, hclimbs, Bool.not_true, Bool.false_eq_true,
          if_false]
      rw [hnext]
      refine .spread previous stateful moved (fun _ => himproved) ?_
      rw [wantsMemory, if_pos climbed, himproved, Bool.true_and]
      exact Bool.eq_false_iff.2 hclimbs
  · have hnext : fresh.next (some previous) options =
        { fresh.spread (previous.memoryLevel - 1) with stopVertical := true } := by
      simp only [next, hsituation, himproved, Bool.not_false, if_true]
    rw [hnext]
    exact .rollBack previous stateful moved climbed (Bool.eq_false_iff.2 himproved)

/-- After any other move, a vertex climbs or spreads. -/
theorem move_of_not_climbed (stateful : fresh.isStateless = false)
    (moved : previous.parallelism ≠ fresh.parallelism) (notClimbed : previous.vertical = false) :
    fresh.Move options (some previous) (fresh.next (some previous) options) := by
  have hsituation : fresh.situation (some previous) = .previousHorizontal previous := by
    simp only [situation, stateful, notClimbed, beq_iff_eq, moved, Bool.false_eq_true, if_false]
  have hwants : fresh.wantsMemory previous options = fresh.needsMemory options := by
    simp only [wantsMemory, notClimbed, Bool.false_eq_true, if_false]
  by_cases hclimbs : (fresh.needsMemory options && previous.hasRoom options) = true
  · have hnext : fresh.next (some previous) options = fresh.climb previous := by
      simp only [next, hsituation, hclimbs, if_true]
    rw [hnext]
    simp only [Bool.and_eq_true] at hclimbs
    exact .climb previous stateful moved (hwants.trans hclimbs.1) hclimbs.2
  · have hnext : fresh.next (some previous) options = fresh.spread previous.memoryLevel := by
      simp only [next, hsituation, hclimbs, Bool.false_eq_true, if_false]
    rw [hnext]
    refine .spread previous stateful moved (fun climbed => ?_) ?_
    · rw [notClimbed] at climbed
      cases climbed
    · rw [hwants]
      exact Bool.eq_false_iff.2 hclimbs

/-- A first decision is about a single instance, or it climbs or spreads. -/
theorem move_of_first (stateful : fresh.isStateless = false) :
    fresh.Move options none (fresh.next none options) := by
  have hsituation : fresh.situation none = .firstDecision := by
    simp only [situation, stateful, Bool.false_eq_true, if_false]
  by_cases hone : fresh.parallelism = 1
  · have hnext : fresh.next none options = fresh := by
      simp only [next, hsituation, hone, BEq.rfl, if_true]
    rw [hnext]
    exact .single stateful hone
  · by_cases hshort : fresh.needsMemory options = true
    · have hnext : fresh.next none options =
          { fresh with parallelism := 1, memoryLevel := 1, vertical := true } := by
        simp only [next, hsituation, hshort, beq_iff_eq, hone, if_false, if_true]
      rw [hnext]
      exact .firstClimb stateful hone hshort
    · have hnext : fresh.next none options = { fresh with horizontal := true } := by
        simp only [next, hsituation, hshort, beq_iff_eq, hone, Bool.false_eq_true, if_false]
      rw [hnext]
      exact .firstSpread stateful hone (Bool.eq_false_iff.2 hshort)

/-- The policy takes one of the ways to move on. -/
theorem move_next (fresh : Stance) (before : Option Stance) (options : Config.Elastic) :
    fresh.Move options before (fresh.next before options) := by
  by_cases hstateless : fresh.isStateless = true
  · have hnext : fresh.next before options =
        { fresh with memoryLevel := SlotProfile.statelessLevel } := by
      simp only [next, situation, hstateless, if_true]
    rw [hnext]
    exact .noState before hstateless
  · have stateful := Bool.eq_false_iff.2 hstateless
    cases before with
    | none => exact move_of_first stateful
    | some previous =>
        by_cases hsame : previous.parallelism = fresh.parallelism
        · have hnext : fresh.next (some previous) options =
              { fresh with
                memoryLevel := previous.memoryLevel
                vertical := previous.vertical
                horizontal := previous.horizontal
                stopVertical := previous.stopVertical } := by
            simp only [next, situation, stateful, hsame, BEq.rfl, Bool.false_eq_true, if_false,
              if_true]
          rw [hnext]
          exact .carry previous stateful hsame
        · by_cases hclimbed : previous.vertical = true
          · exact move_of_climbed stateful hsame hclimbed
          · exact move_of_not_climbed stateful hsame (Bool.eq_false_iff.2 hclimbed)

/-- A move sets a vertex to what was proposed, or to one, or it climbs at the
    parallelism of the stance before. -/
theorem parallelism_of_move {before : Option Stance} {s : Stance}
    (h : fresh.Move options before s) :
    s.parallelism = fresh.parallelism ∨ s.parallelism = 1 ∨
      ∃ p, before = some p ∧ s.parallelism = p.parallelism := by
  cases h with
  | firstClimb => exact Or.inr (Or.inl rfl)
  | climb previous => exact Or.inr (Or.inr ⟨previous, rfl, rfl⟩)
  | _ => exact Or.inl rfl

end Stance

end Rescale
