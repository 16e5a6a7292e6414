import Rescale.Job.Metric
import Rescale.Proofs.Double.Finite

/-!
# Whole Parts of Doubles

What a measurement counts for when its fraction is cut off.

A conversion to whole numbers shifts the mantissa by the exponent, to the left
where the exponent is positive and to the right where it is not, and what is
shifted out is lost. In terms of levels that is one division: the level of a
double is a number of least positive doubles, and so is the level of one. What is
below zero or no number counts as zero, and what is too large counts as the
largest number that there are bits for. So parallelisms and counts are the same
whole number with different bounds, and a parallelism is at least one exactly if
the measurement is.

## Main definitions

* `whole`: The whole part of a double that is not below zero.

## Theorems

* `roundToInt_eq`: The whole part of a finite double.
* `parallelismOf_eq`, `countOf_eq`: Measurements as whole numbers.
* `parallelismOf_le_countOf`: A parallelism is at most what is counted for it.
* `one_le_parallelismOf_iff`: When a parallelism is at least one.
-/

namespace Rescale

namespace Double

open Float.Model UnpackedFloat

/-- The whole part of a double, from its level. Doubles below zero and those that
    are not numbers have none and count as zero. -/
def whole (x : Float) : Nat :=
  ((levelOf? x).map fun level => level.toNat / magnitude 1 0).getD 0

/-- The whole part of a finite double is its level, divided by that of one. -/
theorem roundToInt_eq (s : Sign) (m : Nat) {e : Int} (he : -1074 ≤ e) :
    roundToInt s m e = s.apply (magnitude m e / magnitude 1 0 : Nat) := by
  change s.apply ((ExtendedMantissa.ofMantissaAndAccuracy (m <<< (e - 0).toNat) .exact >>>
    (0 - (e - (e - 0).toNat)).toNat).mantissa : Nat) = _
  rw [mantissa_shiftRight, mantissa_ofMantissaAndAccuracy, Nat.shiftLeft_eq, magnitude,
    magnitude_zero, one_mul]
  refine congrArg (fun n : Nat => s.apply n) ?_
  rcases Int.le_total 0 e with hpos | hneg
  · -- Nothing is shifted out, and the units cancel.
    have hunits : (e + 1074).toNat = (e - 0).toNat + 1074 := by omega
    have hright : (0 - (e - (e - 0).toNat)).toNat = 0 := by omega
    rw [hunits, hright, pow_zero, Nat.div_one, pow_add, ← mul_assoc,
      Nat.mul_div_cancel _ (Nat.two_pow_pos _)]
  · -- The bits below one are shifted out, and the others are what the division leaves.
    have hleft : (e - 0).toNat = 0 := by omega
    have hunits : 1074 = (e + 1074).toNat + (0 - (e - (0 : Nat))).toNat := by omega
    have hone : 2 ^ 1074 = 2 ^ (e + 1074).toNat * 2 ^ (0 - (e - (0 : Nat))).toNat := by
      rw [← pow_add, ← hunits]
    rw [hleft, pow_zero, mul_one, hone, ← Nat.div_div_eq_div_mul,
      Nat.mul_div_cancel _ (Nat.two_pow_pos _)]

/-- The whole part of infinity is out of reach of any number of bits here. -/
theorem top_div_one : top / magnitude 1 0 = 2 ^ 1024 := by
  have hunits : (972 + 1074 : Int).toNat = 972 + 1074 := rfl
  have hpow : 2 ^ 52 * 2 ^ (972 + 1074) = 2 ^ 1024 * 2 ^ 1074 := by
    rw [← pow_add, ← pow_add]
  rw [top, magnitude, magnitude_zero, one_mul, hunits, hpow,
    Nat.mul_div_cancel _ (Nat.two_pow_pos _)]

/-- A conversion cuts off the fraction, and it ends at the largest number. -/
theorem min_toInt_eq (x : Float) {most : Nat} (hmost : most ≤ 2 ^ 64) :
    min (UnpackedFloat.toInt 0 most x.toModel.unpack).toNat most = min (whole x) most := by
  have hcanonical := canonical_toModel x
  unfold whole levelOf?
  cases hx : x.toModel.unpack with
  | notANumber => rfl
  | infinity s =>
      have hlarge : most ≤ 2 ^ 1024 :=
        hmost.trans (pow_right_mono₀ one_le_two (show 64 ≤ 1024 by omega))
      cases s with
      | positive =>
          simp only [UnpackedFloat.toInt, level?, Sign.apply, Option.map_some, Option.getD_some,
            Int.toNat_natCast, top_div_one, Nat.min_self, Nat.min_eq_right hlarge]
      | negative =>
          simp only [UnpackedFloat.toInt, level?, Sign.apply, Option.map_some, Option.getD_some,
            Int.toNat_neg_natCast, Int.toNat_zero, Nat.zero_div]
  | zero s =>
      simp only [UnpackedFloat.toInt, level?, Option.map_some, Option.getD_some, Int.toNat_zero,
        Nat.zero_div]
  | finite s m e h =>
      rw [hx] at hcanonical
      simp only [UnpackedFloat.toInt, level?, Option.map_some, Option.getD_some,
        roundToInt_eq s m hcanonical.least]
      cases s with
      | positive => simp only [Sign.apply, Int.toNat_natCast]
      | negative => simp only [Sign.apply, Int.toNat_neg_natCast, Nat.zero_div]

end Double

/-! ### Measurements -/

theorem toNat_ofNatClamp32 (n : Nat) : (UInt32.ofNatClamp n).toNat = min n (UInt32.size - 1) := by
  rcases Nat.lt_or_ge n UInt32.size with hlt | hge
  · rw [UInt32.toNat_ofNatClamp_of_lt hlt, Nat.min_eq_left (by omega)]
  · rw [UInt32.toNat_ofNatClamp_of_le hge, Nat.min_eq_right (by omega)]

theorem toNat_ofNatClamp64 (n : Nat) : (UInt64.ofNatClamp n).toNat = min n (UInt64.size - 1) := by
  rcases Nat.lt_or_ge n UInt64.size with hlt | hge
  · rw [UInt64.toNat_ofNatClamp_of_lt hlt, Nat.min_eq_left (by omega)]
  · rw [UInt64.toNat_ofNatClamp_of_le hge, Nat.min_eq_right (by omega)]

/-- A parallelism is the whole part of what is measured, with 32 bits. -/
theorem parallelismOf_eq (x : Float) :
    parallelismOf x = min (Double.whole x) (UInt32.size - 1) := by
  rw [← Double.min_toInt_eq x (by decide), ← toNat_ofNatClamp32]
  rfl

/-- A count is the whole part of what is measured, with 64 bits. -/
theorem countOf_eq (x : Float) : countOf x = min (Double.whole x) (UInt64.size - 1) := by
  rw [← Double.min_toInt_eq x (by decide), ← toNat_ofNatClamp64]
  rfl

/-- Both cut off the fraction, and a parallelism ends with 32 bits where a count
    goes on. -/
theorem parallelismOf_le_countOf (x : Float) : parallelismOf x ≤ countOf x := by
  rw [parallelismOf_eq, countOf_eq]
  exact min_le_min_left _ (by decide)

/-- A measurement counts for a parallelism of at least one exactly if it is at
    least one. -/
theorem one_le_parallelismOf_iff (x : Float) : 1 ≤ parallelismOf x ↔ 1.0 ≤ x := by
  have hbitsOfOne : (1.0 : Float) = Float.ofBits 0x3FF0000000000000 := by decide +kernel
  have hone : Double.levelOf? 1.0 = some ((Double.magnitude 1 0 : Nat) : Int) := by
    rw [hbitsOfOne]
    exact Double.levelOf?_one
  have hunit : 0 < Double.magnitude 1 0 := Double.magnitude_pos 0 one_pos
  have hbits : 1 ≤ UInt32.size - 1 := by decide
  rw [parallelismOf_eq, Double.le_iff, Double.whole, le_min_iff, and_iff_left hbits, hone]
  cases hx : Double.levelOf? x with
  | none =>
      refine iff_of_false (Nat.not_succ_le_zero 0) ?_
      simp only [reduceCtorEq, false_and, and_false, exists_false, not_false_eq_true]
  | some level =>
      simp only [Option.map_some, Option.getD_some, Option.some.injEq, exists_and_left,
        exists_eq_left', Nat.le_div_iff_mul_le hunit, one_mul]
      omega

end Rescale
