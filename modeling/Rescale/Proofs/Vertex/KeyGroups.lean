import Mathlib.Order.Bounds.Basic
import Rescale.Vertex.KeyGroups

/-!
# Divisors of the Key Groups

Where the search for a parallelism that splits the key groups ends.

The search goes up from the target, one parallelism after the other, as far as
the upper bound and half of the key groups. So what it finds is the least
parallelism in that range that splits the key groups evenly, and where it finds
nothing the target stays. Either way the result is not below the target, and it
is within bounds if the target was.

Alignment is a closure on the parallelisms below the bound. What it found it
finds again at once, so aligning twice changes nothing more. That larger targets
are not aligned below smaller ones is clear as long as something is found for the
larger one, because then it was also in reach of the smaller one. But it holds
for all of them: a parallelism that is found for the smaller target and not for
the larger one has been passed, so it is below the larger target, and there that
target stays.

## Main definitions

* `Splits`: A parallelism that the search may end with.

## Theorems

* `firstDivisor?_eq_some`, `firstDivisor?_eq_none`: The ends of the search.
* `isLeast_alignToKeyGroups`, `alignToKeyGroups_of_none`: What a target is
  aligned to.
* `alignToKeyGroups_idem`: What is aligned stays.
* `monotone_alignToKeyGroups`: Alignment keeps the order of targets.
* `alignToKeyGroups_closure`: Alignment is a closure that takes the least
  divisor in reach.
-/

namespace Rescale

/-! ### The search -/

/-- A parallelism that splits the key groups evenly, within the reach of the
    search. -/
structure Splits (target keyGroups upper p : Nat) : Prop where
  reached : target ≤ p
  bounded : p ≤ upper
  half : p ≤ keyGroups / 2
  positive : 0 < p
  divides : p ∣ keyGroups

theorem divides_iff {n p : Nat} : (decide (0 < p) && n % p == 0) = true ↔ 0 < p ∧ p ∣ n := by
  rw [Bool.and_eq_true, decide_eq_true_iff, beq_iff_eq, Nat.dvd_iff_mod_eq_zero]

/-- By induction on the number of candidates: the first one that divides is below
    all that follow. -/
theorem firstDivisor?_eq_some {n p count d : Nat} (h : firstDivisor? n p count = some d) :
    (p ≤ d ∧ d < p + count) ∧ (0 < d ∧ d ∣ n) ∧ ∀ q, p ≤ q → 0 < q → q ∣ n → d ≤ q := by
  induction count generalizing p with
  | zero => cases h
  | succ count ih =>
      rw [firstDivisor?] at h
      by_cases hp : (decide (0 < p) && n % p == 0) = true
      · rw [if_pos hp, Option.some.injEq] at h
        subst h
        exact ⟨⟨le_rfl, by omega⟩, divides_iff.1 hp, fun q hq _ _ => hq⟩
      · rw [if_neg hp] at h
        rcases ih h with ⟨⟨hle, hlt⟩, hdivides, hleast⟩
        refine ⟨⟨by omega, by omega⟩, hdivides, fun q hq hq0 hqn => ?_⟩
        -- The candidate that was passed does not divide.
        rcases hq.eq_or_lt with rfl | hnext
        · exact absurd (divides_iff.2 ⟨hq0, hqn⟩) hp
        · exact hleast q hnext hq0 hqn

theorem firstDivisor?_eq_none {n p count : Nat} (h : firstDivisor? n p count = none) :
    ∀ q, p ≤ q → q < p + count → 0 < q → ¬q ∣ n := by
  induction count generalizing p with
  | zero =>
      intro q hle hlt
      omega
  | succ count ih =>
      rw [firstDivisor?] at h
      by_cases hp : (decide (0 < p) && n % p == 0) = true
      · rw [if_pos hp] at h
        cases h
      · rw [if_neg hp] at h
        intro q hle hlt hq0 hqn
        rcases hle.eq_or_lt with rfl | hnext
        · exact hp (divides_iff.2 ⟨hq0, hqn⟩)
        · exact ih h q hnext (by omega) hq0 hqn

section Align

variable {target keyGroups upper p : Nat}

/-- The search runs over exactly the parallelisms in its reach. -/
theorem inReach_iff :
    target ≤ p ∧ p < target + (min upper (keyGroups / 2) + 1 - target) ↔
      target ≤ p ∧ p ≤ upper ∧ p ≤ keyGroups / 2 := by
  omega

/-- If anything in reach splits the key groups, a target is aligned to the least
    such parallelism. -/
theorem isLeast_alignToKeyGroups (h : ∃ p, Splits target keyGroups upper p) :
    IsLeast {p | Splits target keyGroups upper p} (alignToKeyGroups target keyGroups upper) := by
  rcases h with ⟨p, hp⟩
  unfold alignToKeyGroups
  cases hfound : firstDivisor? keyGroups target (min upper (keyGroups / 2) + 1 - target) with
  | none =>
      have hreach := inReach_iff.2 ⟨hp.reached, hp.bounded, hp.half⟩
      exact absurd hp.divides (firstDivisor?_eq_none hfound p hreach.1 hreach.2 hp.positive)
  | some d =>
      rcases firstDivisor?_eq_some hfound with ⟨hrange, ⟨hpositive, hdivides⟩, hleast⟩
      rcases inReach_iff.1 hrange with ⟨hreached, hbounded, hhalf⟩
      exact ⟨⟨hreached, hbounded, hhalf, hpositive, hdivides⟩,
        fun q hq => hleast q hq.reached hq.positive hq.divides⟩

/-- If nothing in reach splits the key groups, the target stays. -/
theorem alignToKeyGroups_of_none (h : ∀ p, ¬Splits target keyGroups upper p) :
    alignToKeyGroups target keyGroups upper = target := by
  unfold alignToKeyGroups
  cases hfound : firstDivisor? keyGroups target (min upper (keyGroups / 2) + 1 - target) with
  | none => rfl
  | some d =>
      rcases firstDivisor?_eq_some hfound with ⟨hrange, ⟨hpositive, hdivides⟩, _⟩
      rcases inReach_iff.1 hrange with ⟨hreached, hbounded, hhalf⟩
      exact absurd ⟨hreached, hbounded, hhalf, hpositive, hdivides⟩ (h d)

/-- Alignment only raises, and not above the upper bound. -/
theorem alignToKeyGroups_bounds (h : target ≤ upper) :
    target ≤ alignToKeyGroups target keyGroups upper ∧
      alignToKeyGroups target keyGroups upper ≤ upper := by
  by_cases hsplits : ∃ p, Splits target keyGroups upper p
  · have hleast := (isLeast_alignToKeyGroups hsplits).1
    exact ⟨hleast.reached, hleast.bounded⟩
  · rw [alignToKeyGroups_of_none (not_exists.1 hsplits)]
    exact ⟨le_rfl, h⟩

/-- A target is aligned above something that it does not exceed only by the
    search. -/
theorem alignToKeyGroups_eq_iff_of_lt {current : Nat} (htarget : target ≤ current)
    (hp : current < p) :
    alignToKeyGroups target keyGroups upper = p ↔
      IsLeast {p | Splits target keyGroups upper p} p := by
  constructor
  · intro heq
    by_cases hsplits : ∃ p, Splits target keyGroups upper p
    · rw [← heq]
      exact isLeast_alignToKeyGroups hsplits
    · -- Without a divisor the target stays, but it is not above.
      rw [alignToKeyGroups_of_none (not_exists.1 hsplits)] at heq
      omega
  · intro hleast
    exact (isLeast_alignToKeyGroups ⟨p, hleast.1⟩).unique hleast

/-! ### A closure -/

/-- What splits the key groups and is in reach of a target is in reach of every
    smaller one. -/
theorem Splits.of_le {target' : Nat} (h : Splits target' keyGroups upper p)
    (hle : target ≤ target') : Splits target keyGroups upper p :=
  { h with reached := hle.trans h.reached }

/-- Nothing is changed about a target that splits the key groups itself. -/
theorem alignToKeyGroups_of_splits (h : Splits target keyGroups upper target) :
    alignToKeyGroups target keyGroups upper = target := by
  have hleast := isLeast_alignToKeyGroups ⟨target, h⟩
  exact le_antisymm (hleast.2 h) hleast.1.reached

/-- What is aligned stays. -/
theorem alignToKeyGroups_idem (target keyGroups upper : Nat) :
    alignToKeyGroups (alignToKeyGroups target keyGroups upper) keyGroups upper =
      alignToKeyGroups target keyGroups upper := by
  by_cases hsplits : ∃ p, Splits target keyGroups upper p
  · have hfound := (isLeast_alignToKeyGroups hsplits).1
    exact alignToKeyGroups_of_splits { hfound with reached := le_rfl }
  · have hstays := alignToKeyGroups_of_none (not_exists.1 hsplits)
    rw [hstays, hstays]

/-- Alignment keeps the order of targets. -/
theorem monotone_alignToKeyGroups (keyGroups upper : Nat) :
    Monotone fun target => alignToKeyGroups target keyGroups upper := by
  intro target target' hle
  change alignToKeyGroups target keyGroups upper ≤ alignToKeyGroups target' keyGroups upper
  by_cases hsplits' : ∃ p, Splits target' keyGroups upper p
  · -- What is found for the larger target is in reach of the smaller one.
    have hfound' := (isLeast_alignToKeyGroups hsplits').1
    have hreach := hfound'.of_le hle
    exact (isLeast_alignToKeyGroups ⟨_, hreach⟩).2 hreach
  · rw [alignToKeyGroups_of_none (not_exists.1 hsplits')]
    by_cases hsplits : ∃ p, Splits target keyGroups upper p
    · -- What is found for the smaller target only is below the larger one.
      have hfound := (isLeast_alignToKeyGroups hsplits).1
      by_contra hlt
      exact hsplits' ⟨_, { hfound with reached := (Nat.lt_of_not_le hlt).le }⟩
    · rw [alignToKeyGroups_of_none (not_exists.1 hsplits)]
      exact hle

end Align

/-- Whatever the key groups and the upper bound are, alignment keeps a target that
    is not above the bound between itself and the bound. It takes the least
    parallelism from the target up to the bound and to half of the key groups that
    divides the key groups, if there is one, and the target itself otherwise. To
    align twice is to align once, and larger targets are never aligned below
    smaller ones, even where nothing is found for them. -/
theorem alignToKeyGroups_closure (keyGroups upper : Nat) :
    (∀ target ≤ upper, target ≤ alignToKeyGroups target keyGroups upper ∧
      alignToKeyGroups target keyGroups upper ≤ upper) ∧
    (∀ target, (∃ p, Splits target keyGroups upper p) →
      IsLeast {p | Splits target keyGroups upper p} (alignToKeyGroups target keyGroups upper)) ∧
    (∀ target, (∀ p, ¬Splits target keyGroups upper p) →
      alignToKeyGroups target keyGroups upper = target) ∧
    (∀ target, alignToKeyGroups (alignToKeyGroups target keyGroups upper) keyGroups upper =
      alignToKeyGroups target keyGroups upper) ∧
    ∀ target target', target ≤ target' →
      alignToKeyGroups target keyGroups upper ≤ alignToKeyGroups target' keyGroups upper :=
  ⟨fun _ h => alignToKeyGroups_bounds h, fun _ h => isLeast_alignToKeyGroups h,
    fun _ h => alignToKeyGroups_of_none h, fun target => alignToKeyGroups_idem target _ _,
    fun _ _ h => monotone_alignToKeyGroups keyGroups upper h⟩

/-- With 128 key groups, five is raised to eight. Above 64 there is nothing in
    reach, and seventy stays. -/
theorem alignToKeyGroups_closure_five :
    (5 ≤ 100 ∧ alignToKeyGroups 5 128 100 ≤ 100) ∧
      (Splits 5 128 100 8 ∧
        IsLeast {p | Splits 5 128 100 p} (alignToKeyGroups 5 128 100)) ∧
      ((∀ p, ¬Splits 70 128 100 p) ∧ alignToKeyGroups 70 128 100 = 70) ∧
      5 ≤ 70 ∧ alignToKeyGroups 5 128 100 ≤ alignToKeyGroups 70 128 100 := by
  rcases alignToKeyGroups_closure 128 100 with ⟨hbounds, hleast, hstays, _, hmono⟩
  have height : Splits 5 128 100 8 :=
    ⟨by decide, by decide, by decide, by decide, by decide⟩
  have hnone : ∀ p, ¬Splits 70 128 100 p := by
    rintro p ⟨hreached, _, hhalf, _, _⟩
    omega
  exact ⟨⟨by decide, (hbounds 5 (by decide)).2⟩, ⟨height, hleast 5 ⟨8, height⟩⟩,
    ⟨hnone, hstays 70 hnone⟩, by decide, hmono 5 70 (by decide)⟩

end Rescale
