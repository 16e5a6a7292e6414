import Mathlib.Algebra.Order.Ring.Nat
import Mathlib.Tactic.Ring

/-!
# Rounding to Nearest

What the rounding of doubles does to a natural number.

A mantissa loses its low bits one by one, and two bits remember what was lost:
the last one, and whether any before it was set. Together they tell on which
side of the middle the lost part was, so all of it is one division with its
remainder, and ties go to the even quotient. Seen like this, rounding is a
function of the number alone, and it keeps the order: numbers with different
quotients stay on their sides, and numbers that keep different amounts of bits
are separated by a power of two that rounding does not cross.

Numbers come in units of the square of the least positive double, since that is
what a product of two doubles is a whole number of, and are rounded to whole
numbers of that double.

## Main definitions

* `nearest`: A quotient by a power of two, rounded to nearest, ties to even.
* `lostBits`: How many bits a number loses.
* `rounded`: A number of square units, rounded to a double.

## Theorems

* `roundedMantissa_shiftRight`: Shifting and rounding a mantissa is `nearest`.
* `nearest_mono`: Rounding by the same amount keeps the order.
* `rounded_mono`: Rounding keeps the order.
* `rounded_of_lt`: What fits the mantissa is not changed.
-/

namespace Rescale

namespace Double

open Float.Model UnpackedFloat

/-! ### Quotients -/

/-- The quotient of a number by a power of two, rounded to nearest, and to even
    in the middle. -/
def nearest (m k : Nat) : Nat :=
  if 2 * (m % 2 ^ k) < 2 ^ k then m / 2 ^ k
  else if 2 * (m % 2 ^ k) = 2 ^ k then m / 2 ^ k + m / 2 ^ k % 2
  else m / 2 ^ k + 1

/-- By induction on the bits shifted out: the last of them is the round bit, and
    the sticky bit knows whether one in front of it was set. -/
theorem repeat_shiftRightOne (m k : Nat) :
    Nat.repeat ExtendedMantissa.shiftRightOne (k + 1) ⟨m, false, false⟩ =
      ⟨m / 2 ^ (k + 1), m / 2 ^ k % 2 != 0, m % 2 ^ k != 0⟩ := by
  induction k with
  | zero =>
      simp only [Nat.repeat, ExtendedMantissa.shiftRightOne, zero_add, pow_one, pow_zero,
        Nat.div_one, Nat.mod_one, Bool.or_false, bne_self_eq_false]
  | succ k ih =>
      have hquotient : m / 2 ^ (k + 1) / 2 = m / 2 ^ (k + 1 + 1) := by
        rw [Nat.div_div_eq_div_mul, ← pow_succ]
      have hlost : m % 2 ^ (k + 1) = m % 2 ^ k + 2 ^ k * (m / 2 ^ k % 2) := Nat.mod_pow_succ
      -- The bit that was the round bit joins those that are lost.
      have hsticky : (m / 2 ^ k % 2 != 0 || m % 2 ^ k != 0) = (m % 2 ^ (k + 1) != 0) := by
        have hpos : 2 ^ k ≠ 0 := (Nat.two_pow_pos k).ne'
        rw [Bool.eq_iff_iff]
        simp only [Bool.or_eq_true, bne_iff_ne, ne_eq, hlost, Nat.add_eq_zero_iff, mul_eq_zero,
          hpos, false_or]
        tauto
      rw [Nat.repeat, ih, ExtendedMantissa.shiftRightOne, hquotient, hsticky]

/-- Shifting a mantissa and rounding it by what was lost divides and rounds to
    nearest. -/
theorem roundedMantissa_shiftRight (m k : Nat) :
    (ExtendedMantissa.ofMantissaAndAccuracy m .exact >>> k).roundedMantissa = nearest m k := by
  change (Nat.repeat ExtendedMantissa.shiftRightOne k ⟨m, false, false⟩).roundedMantissa = _
  cases k with
  | zero =>
      have hzero : nearest m 0 = m := by
        simp only [nearest, pow_zero, Nat.mod_one, mul_zero, zero_lt_one, if_true, Nat.div_one]
      rw [hzero]
      rfl
  | succ k =>
      rw [repeat_shiftRightOne, nearest, Nat.mod_pow_succ, pow_succ]
      have hlow : m % 2 ^ k < 2 ^ k := Nat.mod_lt _ (Nat.two_pow_pos k)
      have hbit : m / 2 ^ k % 2 = 0 ∨ m / 2 ^ k % 2 = 1 := by omega
      -- The round bit tells the half, and the sticky bit whether it is the middle.
      rcases hbit with hbit | hbit
      · rw [hbit, mul_zero, add_zero, if_pos (by omega)]
        by_cases hzero : m % 2 ^ k = 0
        · rw [hzero]
          rfl
        · rw [bne_iff_ne.2 hzero]
          rfl
      · rw [hbit, mul_one, if_neg (by omega)]
        by_cases hzero : m % 2 ^ k = 0
        · rw [hzero, if_pos (by omega)]
          rfl
        · rw [bne_iff_ne.2 hzero, if_neg (by omega)]
          rfl

/-- Rounding takes the quotient or its successor. -/
theorem nearest_bounds (m k : Nat) : m / 2 ^ k ≤ nearest m k ∧ nearest m k ≤ m / 2 ^ k + 1 := by
  unfold nearest
  by_cases hbelow : 2 * (m % 2 ^ k) < 2 ^ k
  · rw [if_pos hbelow]
    omega
  · rw [if_neg hbelow]
    by_cases hmiddle : 2 * (m % 2 ^ k) = 2 ^ k
    · rw [if_pos hmiddle]
      omega
    · rw [if_neg hmiddle]
      omega

/-- Rounding by the same amount keeps the order: with the same quotient the
    remainder decides, and different quotients are kept apart. -/
theorem nearest_mono {m n : Nat} (k : Nat) (h : m ≤ n) : nearest m k ≤ nearest n k := by
  have hquotient : m / 2 ^ k ≤ n / 2 ^ k := Nat.div_le_div_right h
  by_cases hsame : m / 2 ^ k = n / 2 ^ k
  · -- The remainders are in order, and so are the ways to round.
    have hm := Nat.div_add_mod m (2 ^ k)
    have hn := Nat.div_add_mod n (2 ^ k)
    rw [hsame] at hm
    have hremainder : m % 2 ^ k ≤ n % 2 ^ k := by omega
    unfold nearest
    rw [hsame]
    split_ifs <;> omega
  · -- The smaller quotient is rounded up to the larger one at most.
    have hm := (nearest_bounds m k).2
    have hn := (nearest_bounds n k).1
    omega

/-- Zeros at the end of a number take part in no rounding. -/
theorem nearest_mul_pow (m k s : Nat) : nearest (m * 2 ^ s) (k + s) = nearest m k := by
  have hpos : 0 < 2 ^ s := Nat.two_pow_pos s
  have hquotient : m * 2 ^ s / 2 ^ (k + s) = m / 2 ^ k := by
    rw [pow_add, Nat.mul_div_mul_right _ _ hpos]
  have hremainder : m * 2 ^ s % 2 ^ (k + s) = m % 2 ^ k * 2 ^ s := by
    rw [pow_add, Nat.mul_mod_mul_right]
  have hless : 2 * (m % 2 ^ k * 2 ^ s) < 2 ^ (k + s) ↔ 2 * (m % 2 ^ k) < 2 ^ k := by
    rw [pow_add, ← mul_assoc, Nat.mul_lt_mul_right hpos]
  have heq : 2 * (m % 2 ^ k * 2 ^ s) = 2 ^ (k + s) ↔ 2 * (m % 2 ^ k) = 2 ^ k := by
    rw [pow_add, ← mul_assoc, Nat.mul_left_inj hpos.ne']
  simp only [nearest, hquotient, hremainder, hless, heq]

/-- A multiple of the divisor needs no rounding. -/
theorem nearest_mul_self (m k : Nat) : nearest (m * 2 ^ k) k = m := by
  have hzero := nearest_mul_pow m 0 k
  rw [zero_add] at hzero
  rw [hzero]
  simp only [nearest, pow_zero, Nat.mod_one, mul_zero, zero_lt_one, if_true, Nat.div_one]

/-! ### Numbers -/

/-- How many bits a number of square units loses: all but the first 53, and at
    least those below the least positive double. -/
def lostBits (v : Nat) : Nat := max (v.log2 - 52) 1074

/-- A number of square units, rounded to a whole number of least positive
    doubles. -/
def rounded (v : Nat) : Nat := nearest v (lostBits v) * 2 ^ (lostBits v - 1074)

theorem log2_mono {v w : Nat} (h : v ≤ w) : v.log2 ≤ w.log2 := by
  by_cases hv : v = 0
  · rw [hv, Nat.log2_zero]
    exact Nat.zero_le _
  · have hw : w ≠ 0 := by omega
    exact (Nat.le_log2 hw).2 ((Nat.log2_self_le hv).trans h)

theorem log2_mul_pow {v : Nat} (s : Nat) (hv : v ≠ 0) : (v * 2 ^ s).log2 = v.log2 + s := by
  have hpos : 0 < 2 ^ s := Nat.two_pow_pos s
  refine (Nat.log2_eq_iff (Nat.mul_ne_zero hv hpos.ne')).2 ⟨?_, ?_⟩
  · rw [pow_add]
    exact Nat.mul_le_mul_right _ (Nat.log2_self_le hv)
  · rw [add_right_comm, pow_add]
    exact Nat.mul_lt_mul_of_pos_right Nat.lt_log2_self hpos

theorem lostBits_mono {v w : Nat} (h : v ≤ w) : lostBits v ≤ lostBits w := by
  have hlog := log2_mono h
  unfold lostBits
  omega

/-- What is left of a number after its bits are lost fits 53 bits, and only
    rounding may fill them up. -/
theorem nearest_lostBits_le (v : Nat) : nearest v (lostBits v) ≤ 2 ^ 53 := by
  have hbits : v.log2 + 1 ≤ 53 + lostBits v := by
    unfold lostBits
    omega
  have hlt : v < 2 ^ 53 * 2 ^ lostBits v := by
    rw [← pow_add]
    exact Nat.lt_of_lt_of_le Nat.lt_log2_self (Nat.pow_le_pow_right two_pos hbits)
  have hquotient : v / 2 ^ lostBits v < 2 ^ 53 :=
    (Nat.div_lt_iff_lt_mul (Nat.two_pow_pos _)).2 hlt
  have hbound := (nearest_bounds v (lostBits v)).2
  omega

/-- A number that loses more bits than the least doubles do keeps 53 of them. -/
theorem le_nearest_lostBits {v : Nat} (h : 1074 < lostBits v) :
    2 ^ 52 ≤ nearest v (lostBits v) := by
  have hbits : lostBits v + 52 = v.log2 := by
    unfold lostBits at h ⊢
    omega
  have hv : v ≠ 0 := by
    rintro rfl
    rw [Nat.log2_zero] at hbits
    omega
  have hle : 2 ^ 52 * 2 ^ lostBits v ≤ v := by
    rw [← pow_add, add_comm, hbits]
    exact Nat.log2_self_le hv
  have hquotient : 2 ^ 52 ≤ v / 2 ^ lostBits v := (Nat.le_div_iff_mul_le (Nat.two_pow_pos _)).2 hle
  exact hquotient.trans (nearest_bounds v (lostBits v)).1

/-- Rounding keeps the order. Between numbers that lose different amounts of bits
    lies the power of two at which the amount changes. -/
theorem rounded_mono {v w : Nat} (h : v ≤ w) : rounded v ≤ rounded w := by
  unfold rounded
  rcases (lostBits_mono h).eq_or_lt with hsame | hless
  · rw [hsame]
    exact Nat.mul_le_mul_right _ (nearest_mono _ h)
  · have hleast : 1074 ≤ lostBits v := Nat.le_max_right _ _
    have hstep : 53 + (lostBits v - 1074) ≤ 52 + (lostBits w - 1074) := by omega
    calc nearest v (lostBits v) * 2 ^ (lostBits v - 1074)
        ≤ 2 ^ 53 * 2 ^ (lostBits v - 1074) := Nat.mul_le_mul_right _ (nearest_lostBits_le v)
      _ = 2 ^ (53 + (lostBits v - 1074)) := (pow_add 2 _ _).symm
      _ ≤ 2 ^ (52 + (lostBits w - 1074)) := Nat.pow_le_pow_right two_pos hstep
      _ = 2 ^ 52 * 2 ^ (lostBits w - 1074) := pow_add 2 _ _
      _ ≤ nearest w (lostBits w) * 2 ^ (lostBits w - 1074) :=
          Nat.mul_le_mul_right _ (le_nearest_lostBits (by omega))

/-- Numbers that fit the mantissa are not changed by rounding. -/
theorem rounded_of_lt {n : Nat} (h : n < 2 ^ 53) : rounded (n * 2 ^ 2148) = n * 2 ^ 1074 := by
  by_cases hzero : n = 0
  · rw [hzero, zero_mul, zero_mul, rounded]
    simp only [nearest, Nat.zero_mod, mul_zero, Nat.two_pow_pos, if_true, Nat.zero_div, zero_mul]
  · have hlog : n.log2 ≤ 52 := Nat.lt_succ_iff.1 ((Nat.log2_lt hzero).2 h)
    have hlost : lostBits (n * 2 ^ 2148) = n.log2 + 2096 := by
      rw [lostBits, log2_mul_pow _ hzero]
      omega
    -- The number ends in at least as many zeros as it loses bits.
    have hzeros : 2148 = 52 - n.log2 + (n.log2 + 2096) := by omega
    have hnumber : n * 2 ^ 2148 = n * 2 ^ (52 - n.log2) * 2 ^ (n.log2 + 2096) := by
      rw [mul_assoc, ← pow_add, ← hzeros]
    have hleft : 52 - n.log2 + (n.log2 + 2096 - 1074) = 1074 := by omega
    rw [rounded, hlost, hnumber, nearest_mul_self, mul_assoc, ← pow_add, hleft]

end Double

end Rescale
