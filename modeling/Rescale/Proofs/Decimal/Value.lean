import Mathlib.Algebra.Order.Field.Basic
import Mathlib.Algebra.Order.Field.Power
import Mathlib.Tactic.FieldSimp
import Mathlib.Tactic.Linarith
import Mathlib.Tactic.NormNum
import Mathlib.Tactic.Ring
import Rescale.Decimal.Numeral

/-!
# Values of Decimals

How far the shortest decimal of a double can be from the double.

Decimals and doubles are compared over a common denominator, with naturals only.
Here they get their values as rational numbers, and the comparison is that of the
values. A decimal that reads back as a double is not above the middle between the
double and the next one. The shortest decimal of a double either reads back, or it
is the exact value, so it is not above that middle either. And spelling it, with or
without its zeros and with the point in any place, does not change its value.

## Main definitions

* `Scaled.value`: The value of a decimal.
* `Binary.above`: The middle between a double and the next one.
* `Numeral.value`: The value of a numeral, without its sign.

## Theorems

* `power_eq`: A power as a quotient of its two parts.
* `compareScaled_le_iff`: What it means that a decimal compares as at most.
* `Binary.value_shortest_le`: The shortest decimal is not above the middle.
* `Scaled.value_stripZeros`: Zeros at the end make no difference.
* `Numeral.value_ofScaled`: A numeral has the value of its decimal.
-/

namespace Rescale

namespace Decimal

/-! ### Powers -/

theorem power_of_nonpos (base : Nat) {e : Int} (he : e ≤ 0) : power base e = 1 := by
  rw [power, Int.toNat_of_nonpos he]
  rfl

theorem power_of_nonneg (base : Nat) {e : Int} (he : 0 ≤ e) :
    (power base e : ℚ) = (base : ℚ) ^ e := by
  have hpower : power base e = base ^ e.toNat := rfl
  rw [hpower, Nat.cast_pow, ← zpow_natCast, Int.toNat_of_nonneg he]

/-- A power is what stands above the fraction line over what stands below. -/
theorem power_eq {base : Nat} (hbase : 0 < base) (e : Int) :
    (power base e : ℚ) = (base : ℚ) ^ e * power base (-e) := by
  have hne : (base : ℚ) ≠ 0 := Nat.cast_ne_zero.2 hbase.ne'
  rcases Int.le_total 0 e with hpos | hneg
  · rw [power_of_nonpos base (Int.neg_nonpos_of_nonneg hpos), power_of_nonneg base hpos,
      Nat.cast_one, mul_one]
  · rw [power_of_nonpos base hneg, power_of_nonneg base (Int.neg_nonneg_of_nonpos hneg),
      Nat.cast_one, ← zpow_add₀ hne, add_neg_cancel, zpow_zero]

theorem power_pos {base : Nat} (hbase : 0 < base) (e : Int) : 0 < power base e :=
  Nat.pow_pos hbase

/-- Over a common denominator, the comparison is one of rational numbers. -/
theorem compareScaled_le_iff (a : Nat) (i : Int) (b : Nat) (j : Int) :
    Binary.compareScaled a i b j ≠ .gt ↔ (a : ℚ) * 10 ^ i ≤ (b : ℚ) * 2 ^ j := by
  have hten : (0 : ℚ) < power 10 (-i) := Nat.cast_pos.2 (power_pos (by decide) _)
  have htwo : (0 : ℚ) < power 2 (-j) := Nat.cast_pos.2 (power_pos (by decide) _)
  rw [Binary.compareScaled, ne_eq, compare_gt_iff_gt, not_lt, ← Nat.cast_le (α := ℚ)]
  push_cast
  rw [power_eq (by decide) i, power_eq (by decide) j]
  have hleft : (a : ℚ) * (((10 : Nat) : ℚ) ^ i * power 10 (-i)) * power 2 (-j) =
      a * 10 ^ i * (power 10 (-i) * power 2 (-j)) := by
    push_cast
    ring
  have hright : (b : ℚ) * (((2 : Nat) : ℚ) ^ j * power 2 (-j)) * power 10 (-i) =
      b * 2 ^ j * (power 10 (-i) * power 2 (-j)) := by
    push_cast
    ring
  rw [hleft, hright]
  exact mul_le_mul_iff_of_pos_right (mul_pos hten htwo)

/-! ### Shortest decimals -/

/-- The value of a decimal. -/
def Scaled.value (d : Scaled) : ℚ := d.digits * 10 ^ d.exponent

namespace Binary

/-- The middle between a double and the next one above. -/
def above (x : Binary) : ℚ := (4 * x.significand + 2 : Nat) * 2 ^ (x.exponent - 2)

/-- What reads back as a double is not above the middle to the next one. -/
theorem value_le_of_readsBack {x : Binary} {d : Scaled} (h : x.readsBack d = true) :
    d.value ≤ x.above := by
  refine (compareScaled_le_iff _ _ _ _).1 fun hgt => ?_
  rw [readsBack, Bool.and_eq_true] at h
  have hhigh := h.2
  rw [hgt] at hhigh
  simp only [reduceCtorEq, Bool.or_eq_true, Bool.and_eq_true, beq_iff_eq, and_false, or_false]
    at hhigh

/-- What a grid offers reads back. -/
theorem readsBack_of_nearestOn? {tie : Tie} {x : Binary} {e : Int} {d : Scaled}
    (h : x.nearestOn? tie e = some d) : x.readsBack d = true := by
  simp only [nearestOn?] at h
  split at h
  · next hbelow habove =>
    split at h
    · cases h
      exact hbelow
    · split at h
      · cases h
        exact hbelow
      · cases h
        exact habove
    · cases h
      exact habove
  · next hbelow _ =>
    cases h
    exact hbelow
  · next _ habove =>
    cases h
    exact habove
  · cases h

theorem value_exact (x : Binary) : x.exact.value = x.significand * 2 ^ x.exponent := by
  rw [exact]
  by_cases hwhole : 0 ≤ x.exponent
  · rw [if_pos hwhole, Scaled.value, zpow_zero, mul_one, Nat.cast_mul, power_eq (by decide)]
    rw [power_of_nonpos 2 (Int.neg_nonpos_of_nonneg hwhole), Nat.cast_one, mul_one, Nat.cast_ofNat]
  · -- A power of five over one of ten is one over a power of two.
    rw [if_neg hwhole, Scaled.value, Nat.cast_mul, power_eq (by decide),
      power_of_nonpos 5 (by omega), Nat.cast_one, mul_one, mul_assoc]
    have hten : (10 : ℚ) = 5 * 2 := by norm_num
    rw [hten, mul_zpow, ← mul_assoc ((_ : ℚ) ^ (-x.exponent)), Nat.cast_ofNat,
      ← zpow_add₀ (by norm_num), neg_add_cancel, zpow_zero, one_mul]

/-- The shortest decimal of a double is not above the middle to the next one. -/
theorem value_shortest_le (tie : Tie) (x : Binary) : (x.shortest tie).value ≤ x.above := by
  rw [shortest]
  cases hfound : (List.range 17).findSome? fun n : Nat =>
      x.nearestOn? tie (x.leadingPlace - (n + 1)) with
  | some d =>
      rcases List.exists_of_findSome?_eq_some hfound with ⟨n, _, hgrid⟩
      exact value_le_of_readsBack (readsBack_of_nearestOn? hgrid)
  | none =>
      -- The value itself is a quarter of a step below four quarters and a half.
      rw [Option.getD_none, value_exact, above]
      have hpow : (0 : ℚ) < 2 ^ (x.exponent - 2) := zpow_pos (by norm_num) _
      have hsplit : (2 : ℚ) ^ x.exponent = 4 * 2 ^ (x.exponent - 2) := by
        rw [zpow_sub₀ (by norm_num)]
        field_simp
        norm_num
      rw [hsplit]
      push_cast
      nlinarith

end Binary

/-- Zeros at the end of the digits can stand in the exponent. By induction on the
    number of zeros that may be moved. -/
theorem Scaled.value_stripZeros (steps : Nat) (d : Scaled) :
    (stripZeros steps d).value = d.value := by
  induction steps generalizing d with
  | zero => rfl
  | succ steps ih =>
      rw [stripZeros]
      by_cases hzero : (d.digits != 0 && d.digits % 10 == 0) = true
      · rw [if_pos hzero, ih, value, value]
        rw [Bool.and_eq_true, beq_iff_eq] at hzero
        have hdigits : (d.digits : ℚ) = (d.digits / 10 : Nat) * 10 := by
          exact_mod_cast (Nat.div_mul_cancel (Nat.dvd_of_mod_eq_zero hzero.2)).symm
        rw [hdigits, zpow_add₀ (by norm_num), zpow_one]
        ring
      · rw [if_neg hzero]

/-! ### Numerals -/

namespace Numeral

/-- The value of a numeral, without its sign. -/
def value (n : Numeral) : ℚ :=
  Nat.ofDigitChars 10 (n.whole ++ n.fraction) 0 * 10 ^ (n.power.getD 0 - n.fraction.length)

/-- A numeral has the value of its decimal. -/
theorem value_ofScaled (negative : Bool) (d : Scaled) :
    (ofScaled negative d).value = d.value := by
  have hdigits : Nat.ofDigitChars 10 (Text.digits d.digits) 0 = d.digits :=
    Nat.ofDigitChars_ten_toDigits
  have hpos : 0 < (Text.digits d.digits).length := Nat.length_toDigits_pos
  simp only [ofScaled, value]
  split
  · split
    · next hwhole =>
      -- Zeros behind the digits, and one more behind the point.
      have hall : ((d.exponent.toNat : Int)) = d.exponent := Int.toNat_of_nonneg hwhole
      have hzeros : Nat.ofDigitChars 10 (Text.digits d.digits ++
          List.replicate d.exponent.toNat '0' ++ ['0']) 0 =
            d.digits * 10 ^ d.exponent.toNat * 10 := by
        rw [Nat.ofDigitChars_append, Nat.ofDigitChars_append, hdigits,
          Nat.ofDigitChars_replicate_zero]
        change 10 * (10 ^ d.exponent.toNat * d.digits) + 0 = _
        ring
      have hplace : ((0 : Int) - (['0'].length : Nat)) = -1 := rfl
      rw [hzeros, Option.getD_none, hplace, Scaled.value, ← hall]
      push_cast
      rw [zpow_neg_one, zpow_natCast, Int.toNat_natCast]
      field_simp
    · next hfraction =>
      -- Zeros before the digits, and the point somewhere between.
      rw [List.take_append_drop, Nat.ofDigitChars_append, Nat.ofDigitChars_replicate_zero,
        Nat.mul_zero, hdigits, Option.getD_none, Scaled.value, List.length_drop,
        List.length_append, List.length_replicate]
      congr 2
      omega
  · rw [List.take_append_drop, hdigits, Option.getD_some, Scaled.value, List.length_drop]
    congr 2
    omega

end Numeral

end Decimal

end Rescale
