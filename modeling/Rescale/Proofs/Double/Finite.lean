import Rescale.Proofs.Double.Product

/-!
# Finite Doubles

Which operations on doubles stay finite.

A double is finite if its level lies strictly between those of the infinities, and
that is so unless all bits of its exponent are set. What is written to the bits of
a double overflows only where its exponent is too large for them. A rounded number
can grow by one in its exponent at most, so a quotient by two or more stays finite
with room to spare: its exact value is at most half of the dividend. Products can
overflow. But they grow with their factors, so it is enough that the product of
larger numbers is finite.

## Theorems

* `isFinite_unpack_iff`: Finiteness, from the bits of the exponent.
* `isFinite_iff_level`: Finiteness, from levels.
* `isFinite_stored`: What bits keep of a finite double is finite unless its
  exponent is too large.
* `isFinite_neg`: Negation stays finite.
* `isFinite_div`: A quotient by two or more stays finite.
* `isFinite_ofNat_mul_ofNat`: Products of natural numbers stay finite below that
  of larger ones.
-/

namespace Rescale

namespace Double

open Float.Model UnpackedFloat

/-! ### Bits and levels -/

/-- A double is finite unless all bits of its exponent are set. -/
theorem isFinite_unpack_iff (b : BitVec Format.binary64.numBits) :
    (UnpackedFloat.unpack Format.binary64 b).isFinite = true ↔ unpackExponent b ≠ -1#_ := by
  unfold UnpackedFloat.unpack
  by_cases hones : unpackExponent b = -1#_
  · -- Infinity, or not a number.
    simp only [hones, if_true, ne_eq, not_true, iff_false]
    split
    · exact Bool.false_ne_true
    · exact Bool.false_ne_true
  · simp only [hones, if_false, ne_eq, not_false_eq_true, iff_true]
    by_cases hzeros : unpackExponent b = 0#_
    · simp only [hzeros, if_true]
      split
      · rfl
      · rfl
    · simp only [hzeros, if_false]
      rfl

/-- A double is finite if its level is strictly between those of the infinities. -/
theorem isFinite_iff_level {x : Float} :
    x.isFinite = true ↔ ∃ a, levelOf? x = some a ∧ -(top : Int) < a ∧ a < top := by
  have htop := top_pos
  have hcanonical := canonical_toModel x
  change x.toModel.unpack.isFinite = true ↔ _
  rw [levelOf?]
  cases hx : x.toModel.unpack with
  | notANumber =>
      simp only [level?, reduceCtorEq, false_and, exists_false, iff_false]
      exact Bool.false_ne_true
  | infinity s =>
      simp only [level?, Option.some.injEq, exists_eq_left']
      constructor
      · intro h
        cases h
      · rintro ⟨hlower, hupper⟩
        cases s <;> simp only [Sign.apply] at hlower hupper <;> omega
  | zero s =>
      simp only [level?, Option.some.injEq, exists_eq_left']
      exact ⟨fun _ => by omega, fun _ => rfl⟩
  | finite s m e hm =>
      rw [hx] at hcanonical
      have hlt := magnitude_lt_top hcanonical
      simp only [level?, Option.some.injEq, exists_eq_left']
      refine ⟨fun _ => ?_, fun _ => rfl⟩
      cases s <;> simp only [Sign.apply] <;> omega

/-- What bits keep of a finite double is finite unless its exponent is too large. -/
theorem isFinite_stored {m : Nat} {e : Int} (s : Sign) (hm : 0 < m) (he : e ≤ 971) :
    (stored (.finite s m e hm)).isFinite = true := by
  have hsmall : ¬2 ^ 11 ≤ (e + 1023 + 52).toNat + 1 := by omega
  rw [stored, isFinite_unpack_iff]
  by_cases hfull : m.log2 + 1 = 53
  · have hpack : UnpackedFloat.pack Format.binary64 (.finite s m e hm) =
        packComponents Format.binary64 s (BitVec.ofNat 11 (e + 1023 + 52).toNat)
          (BitVec.ofNat 52 m) := (if_neg hsmall).trans (if_pos hfull)
    rw [hpack, unpackExponent_packComponents]
    intro hones
    have hnat := congrArg BitVec.toNat hones
    change (e + 1023 + 52).toNat % 2 ^ 11 = 2047 at hnat
    omega
  · have hpack : UnpackedFloat.pack Format.binary64 (.finite s m e hm) =
        packComponents Format.binary64 s 0#11 (BitVec.ofNat 52 m) :=
      (if_neg hsmall).trans (if_neg hfull)
    rw [hpack, unpackExponent_packComponents]
    decide

theorem isFinite_neg {x : Float} (h : x.isFinite = true) : (-x).isFinite = true := by
  have hcanonical := canonical_toModel x
  change x.toModel.unpack.isFinite = true at h
  change (stored x.toModel.unpack.neg).isFinite = true
  cases hx : x.toModel.unpack with
  | notANumber =>
      rw [hx] at h
      cases h
  | infinity s =>
      rw [hx] at h
      cases h
  | zero s =>
      rw [UnpackedFloat.neg, stored_zero]
      rfl
  | finite s m e hm =>
      rw [hx] at hcanonical
      exact isFinite_stored (-s) hm hcanonical.most

/-! ### Rounding -/

theorem mantissa_shiftRight (em : ExtendedMantissa) (k : Nat) :
    (em >>> k).mantissa = em.mantissa / 2 ^ k := by
  change (Nat.repeat ExtendedMantissa.shiftRightOne k em).mantissa = _
  induction k with
  | zero => rw [pow_zero, Nat.div_one, Nat.repeat]
  | succ k ih =>
      rw [Nat.repeat, ExtendedMantissa.shiftRightOne, ih, Nat.div_div_eq_div_mul, ← pow_succ]

theorem mantissa_ofMantissaAndAccuracy (m : Nat) (a : Accuracy) :
    (ExtendedMantissa.ofMantissaAndAccuracy m a).mantissa = m := by
  cases a with
  | exact => rfl
  | inexact half => cases half <;> rfl

/-- Rounding adds one at most. -/
theorem roundedMantissa_le (em : ExtendedMantissa) : em.roundedMantissa ≤ em.mantissa + 1 := by
  rcases em with ⟨m, roundBit, stickyBit⟩
  change Accuracy.roundToNearestEven m _ ≤ m + 1
  cases roundBit <;> cases stickyBit
  · exact Nat.le_succ m
  · exact Nat.le_succ m
  · change m + m % 2 ≤ m + 1
    omega
  · exact le_rfl

/-- A rounded mantissa is refitted at most one exponent higher. -/
theorem isFinite_stored_refit {q : Nat} {t : Int} (s : Sign) (hq : q ≤ 2 ^ 53) (ht : t ≤ 970) :
    (stored (refit s q t)).isFinite = true := by
  have hlog : q.log2 ≤ 53 := (log2_mono hq).trans_eq Nat.log2_two_pow
  unfold refit
  rw [shiftToTargetExponent_eq]
  simp only
  split
  · rw [stored_zero]
    rfl
  · refine isFinite_stored s _ ?_
    unfold targetExponent
    omega

/-- A rounded number is finite if its leading digit is low enough. -/
theorem isFinite_stored_round {m : Nat} {e : Int} (s : Sign) (a : Accuracy) (he : e ≤ 970)
    (hlog : m.log2 + e ≤ 1022) :
    (stored (roundWithAccuracy Format.binary64 s m e a)).isFinite = true := by
  have hround : roundWithAccuracy Format.binary64 s m e a =
      refit s (ExtendedMantissa.ofMantissaAndAccuracy m a >>>
        (targetExponent m e - e).toNat).roundedMantissa (e + (targetExponent m e - e).toNat) :=
    rfl
  have hbits : m.log2 + 1 ≤ 53 + (targetExponent m e - e).toNat := by
    unfold targetExponent
    omega
  have hlt : m < 2 ^ 53 * 2 ^ (targetExponent m e - e).toNat := by
    rw [← pow_add]
    exact Nat.lt_of_lt_of_le Nat.lt_log2_self (Nat.pow_le_pow_right two_pos hbits)
  have hquotient : m / 2 ^ (targetExponent m e - e).toNat < 2 ^ 53 :=
    (Nat.div_lt_iff_lt_mul (Nat.two_pow_pos _)).2 hlt
  have hrounded := roundedMantissa_le
    (ExtendedMantissa.ofMantissaAndAccuracy m a >>> (targetExponent m e - e).toNat)
  rw [mantissa_shiftRight, mantissa_ofMantissaAndAccuracy] at hrounded
  rw [hround]
  refine isFinite_stored_refit s (by omega) ?_
  unfold targetExponent
  omega

/-! ### Quotients -/

theorem log2_magnitude {m : Nat} {e : Int} (hm : 0 < m) :
    (magnitude m e).log2 = m.log2 + (e + 1074).toNat := by
  rw [magnitude, log2_mul_pow _ hm.ne']

/-- The leading digit of a quotient by something above one stands lower than that
    of the dividend. -/
theorem isFinite_stored_div {m m' : Nat} {e e' : Int} (s t : Sign) (hm : 0 < m) (hm' : 0 < m')
    (h : Fits m e) (hdivisor : 1 ≤ (m'.log2 : Int) + e') :
    (stored (UnpackedFloat.div Format.binary64 (.finite s m e hm)
      (.finite t m' e' hm'))).isFinite = true := by
  have hmost := h.most
  have hmlog : m.log2 < 53 := (Nat.log2_lt hm.ne').2 h.mantissa
  -- The quotient is taken at this exponent.
  obtain ⟨low, hlow⟩ : ∃ low : Int, low = min (e - e')
      (max ((m.log2 : Int) + 1 + e - (m'.log2 + 1 + e') - 53) (-1074)) := ⟨_, rfl⟩
  have hdiv : UnpackedFloat.div Format.binary64 (.finite s m e hm) (.finite t m' e' hm') =
      roundWithAccuracy Format.binary64 (s / t) (m <<< (e - e' - low).toNat / m') low
        (accuracyOfFraction (m <<< (e - e' - low).toNat % m') m') := by
    rw [hlow]
    rfl
  rw [hdiv]
  refine isFinite_stored_round (s / t) _ (by omega) ?_
  by_cases hzero : m <<< (e - e' - low).toNat / m' = 0
  · rw [hzero, Nat.log2_zero]
    omega
  · -- Divided by at least a power of two, the logarithm falls by its exponent.
    have hlog : (m <<< (e - e' - low).toNat / m').log2 + m'.log2 ≤
        m.log2 + (e - e' - low).toNat := by
      have hpow : m' * 2 ^ (m <<< (e - e' - low).toNat / m').log2 ≤
          m * 2 ^ (e - e' - low).toNat := by
        rw [← Nat.shiftLeft_eq m]
        exact (Nat.mul_le_mul_left m' (Nat.log2_self_le hzero)).trans (Nat.mul_div_le _ m')
      have hmono := log2_mono hpow
      rwa [log2_mul_pow _ hm'.ne', log2_mul_pow _ hm.ne', add_comm] at hmono
    omega

/-- A quotient by two or more stays finite. -/
theorem isFinite_div {x c : Float} (hx : x.isFinite = true) (hc : 2.0 ≤ c) :
    (x / c).isFinite = true := by
  have hcanonical := canonical_toModel x
  have hlevel : levelOf? 2.0 = some (magnitude (2 ^ 52) (-51) : Nat) := rfl
  rcases le_iff.1 hc with ⟨_, b, ha, hb, hab⟩
  obtain rfl := Option.some.inj (hlevel.symm.trans ha)
  have hb0 : 0 < b := (Int.ofNat_lt.2 (magnitude_pos (-51) (Nat.two_pow_pos 52))).trans_le hab
  change x.toModel.unpack.isFinite = true at hx
  change (stored (UnpackedFloat.div Format.binary64 x.toModel.unpack c.toModel.unpack)).isFinite =
    true
  rcases positive_of_level hb hb0 with hinf | ⟨m', e', hm', hfinite, hbe⟩
  · -- Nothing is left of a quotient by infinity.
    rw [hinf]
    cases hu : x.toModel.unpack with
    | notANumber =>
        rw [hu] at hx
        cases hx
    | infinity s =>
        rw [hu] at hx
        cases hx
    | zero s =>
        rw [UnpackedFloat.div, stored_zero]
        rfl
    | finite s m e hm =>
        rw [UnpackedFloat.div, stored_zero]
        rfl
  · have hfits : Fits m' e' := by
      have hc' := canonical_toModel c
      rwa [hfinite] at hc'
    -- The divisor is two or more, so its leading digit is not that of a one.
    have hdivisor : 1 ≤ (m'.log2 : Int) + e' := by
      have hmag : magnitude (2 ^ 52) (-51) ≤ magnitude m' e' := by
        rw [hbe] at hab
        exact Int.ofNat_le.1 hab
      have hleast := hfits.least
      have hmono := log2_mono hmag
      rw [log2_magnitude (Nat.two_pow_pos 52), log2_magnitude hm', Nat.log2_two_pow] at hmono
      omega
    rw [hfinite]
    cases hu : x.toModel.unpack with
    | notANumber =>
        rw [hu] at hx
        cases hx
    | infinity s =>
        rw [hu] at hx
        cases hx
    | zero s =>
        rw [UnpackedFloat.div, stored_zero]
        rfl
    | finite s m e hm =>
        rw [hu] at hcanonical
        exact isFinite_stored_div s .positive hm hm' hcanonical hdivisor

/-! ### Products of natural numbers -/

theorem isFinite_ofNat_iff {n : Nat} : (Float.ofNat n).isFinite = true ↔ naturalLevel n < top := by
  rw [isFinite_iff_level, levelOf?_ofNat]
  simp only [Option.some.injEq, exists_eq_left']
  omega

theorem isFinite_ofNat_of_le {n m : Nat} (hnm : n ≤ m) (hm : (Float.ofNat m).isFinite = true) :
    (Float.ofNat n).isFinite = true :=
  isFinite_ofNat_iff.2 ((naturalLevel_mono hnm).trans_lt (isFinite_ofNat_iff.1 hm))

theorem productLevel_comm (a b : Nat) : productLevel a b = productLevel b a := by
  simp only [productLevel, or_comm, Nat.mul_comm]

/-- Nothing times something finite is nothing. -/
theorem isFinite_mul_of_zero {x y : Float} (hx : levelOf? x = some 0) (hy : y.isFinite = true) :
    (x * y).isFinite = true ∧ (y * x).isFinite = true := by
  rcases zero_of_level hx with ⟨s, hs⟩
  change y.toModel.unpack.isFinite = true at hy
  change (stored (UnpackedFloat.mul Format.binary64 x.toModel.unpack y.toModel.unpack)).isFinite =
      true ∧
    (stored (UnpackedFloat.mul Format.binary64 y.toModel.unpack x.toModel.unpack)).isFinite = true
  rw [hs]
  cases hu : y.toModel.unpack with
  | notANumber =>
      rw [hu] at hy
      cases hy
  | infinity t =>
      rw [hu] at hy
      cases hy
  | zero t =>
      rw [UnpackedFloat.mul, UnpackedFloat.mul, stored_zero, stored_zero]
      exact ⟨rfl, rfl⟩
  | finite t m e hm =>
      rw [UnpackedFloat.mul, UnpackedFloat.mul, stored_zero, stored_zero]
      exact ⟨rfl, rfl⟩

/-- The product of two natural numbers grows with both of them, so it is finite
    if that of larger numbers is. -/
theorem isFinite_ofNat_mul_ofNat {n n' m m' : Nat} (hn : n ≤ n') (hm : m ≤ m')
    (hn' : (Float.ofNat n').isFinite = true) (hm' : (Float.ofNat m').isFinite = true)
    (h : (Float.ofNat n' * Float.ofNat m').isFinite = true) :
    (Float.ofNat n * Float.ofNat m).isFinite = true := by
  have hlevel := levelOf?_ofNat n
  have hlevel' := levelOf?_ofNat m
  have hnmono := naturalLevel_mono hn
  have hmmono := naturalLevel_mono hm
  by_cases hnone : naturalLevel n = 0
  · rw [hnone] at hlevel
    exact (isFinite_mul_of_zero hlevel (isFinite_ofNat_of_le hm hm')).1
  by_cases hnone' : naturalLevel m = 0
  · rw [hnone'] at hlevel'
    exact (isFinite_mul_of_zero hlevel' (isFinite_ofNat_of_le hn hn')).2
  -- Both are positive, and so levels multiply.
  have hproduct := level?_mul_of_pos (canonical_toModel _) (canonical_toModel _) hlevel
    (by omega) hlevel' (by omega)
  have hproduct' := level?_mul_of_pos (canonical_toModel _) (canonical_toModel _)
    (levelOf?_ofNat n') (by omega) (levelOf?_ofNat m') (by omega)
  have hgrows : productLevel (naturalLevel n) (naturalLevel m) ≤
      productLevel (naturalLevel n') (naturalLevel m') := by
    refine (productLevel_mono hmmono (Nat.min_le_left _ _)).trans ?_
    rw [productLevel_comm, productLevel_comm (naturalLevel n')]
    exact productLevel_mono hnmono (Nat.min_le_left _ _)
  rcases isFinite_iff_level.1 h with ⟨a, ha, _, hupper⟩
  obtain rfl := Option.some.inj (ha.symm.trans hproduct')
  exact isFinite_iff_level.2 ⟨_, hproduct, by omega, by omega⟩

end Double

end Rescale
