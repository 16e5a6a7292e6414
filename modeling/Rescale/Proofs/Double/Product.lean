import Rescale.Proofs.Double.Level
import Rescale.Proofs.Double.Nearest

/-!
# Products of Doubles

Why a larger factor does not make a product smaller.

The exact product of two doubles is the product of their levels, in square
units, and rounding takes it to a level again. So the level of a product is a
function of two levels, and since rounding keeps the order, so does the product.
A natural number becomes a double by the same rounding, whichever of two ways
the conversion takes.

## Main definitions

* `targetExponent`: The exponent that a number is rounded at.
* `refit`: The double of a rounded mantissa.
* `productLevel`: The level of a product of two positive doubles.
* `naturalLevel`: The level of a natural number.

## Theorems

* `level?_roundWithAccuracy`, `level?_round`: Rounding in terms of levels.
* `level?_mul_of_pos`: The level of a product.
* `levelOf?_ofNat`: The level of a natural number.
* `mul_ofNat_mono`: Products with natural numbers grow with them.
-/

namespace Rescale

namespace Double

open Float.Model UnpackedFloat

/-! ### Rounding -/

/-- The exponent that a mantissa at an exponent is rounded at. -/
def targetExponent (m : Nat) (e : Int) : Int := max (m.log2 + 1 + e - 53) (-1074)

/-- The bits that a number loses are those below the exponent that it is rounded
    at. -/
theorem lostBits_eq {m : Nat} {e : Int} (hm : m ≠ 0) (he : -2148 ≤ e) :
    lostBits (m * 2 ^ (e + 2148).toNat) = (targetExponent m e + 2148).toNat := by
  rw [lostBits, log2_mul_pow _ hm, targetExponent]
  omega

theorem rounded_eq {m : Nat} {e : Int} (hm : m ≠ 0) (he : -2148 ≤ e) (ht : e ≤ targetExponent m e) :
    rounded (m * 2 ^ (e + 2148).toNat) =
      magnitude (nearest m (targetExponent m e - e).toNat) (targetExponent m e) := by
  have hleast : -1074 ≤ targetExponent m e := le_max_right _ _
  have hshift : (targetExponent m e + 2148).toNat =
      (targetExponent m e - e).toNat + (e + 2148).toNat := by omega
  have hunit : (targetExponent m e + 2148).toNat - 1074 = (targetExponent m e + 1074).toNat := by
    omega
  rw [rounded, lostBits_eq hm he, hunit, hshift, nearest_mul_pow, magnitude]

/-- What is left of a mantissa, rounded, at the exponent that it is rounded
    at. -/
theorem nearest_target {m : Nat} {e : Int} (hm : m ≠ 0) (he : -2148 ≤ e)
    (ht : e ≤ targetExponent m e) :
    nearest m (targetExponent m e - e).toNat ≤ 2 ^ 53 ∧
      (2 ^ 52 ≤ nearest m (targetExponent m e - e).toNat ∨ targetExponent m e = -1074) := by
  have hleast : -1074 ≤ targetExponent m e := le_max_right _ _
  have hshift : (targetExponent m e + 2148).toNat =
      (targetExponent m e - e).toNat + (e + 2148).toNat := by omega
  have hlost := lostBits_eq hm he
  have hnearest : nearest (m * 2 ^ (e + 2148).toNat) (lostBits (m * 2 ^ (e + 2148).toNat)) =
      nearest m (targetExponent m e - e).toNat := by
    rw [hlost, hshift, nearest_mul_pow]
  refine ⟨hnearest ▸ nearest_lostBits_le _, ?_⟩
  by_cases hsub : targetExponent m e = -1074
  · exact Or.inr hsub
  · refine Or.inl (hnearest ▸ le_nearest_lostBits ?_)
    rw [hlost]
    omega

theorem shiftToTargetExponent_eq (m : Nat) (e : Int) :
    shiftToTargetExponent Format.binary64 m e .exact =
      (ExtendedMantissa.ofMantissaAndAccuracy m .exact >>> (targetExponent m e - e).toNat,
        e + (targetExponent m e - e).toNat) := rfl

/-- The double of a rounded mantissa: it is shifted once more where rounding
    filled it up. -/
def refit (s : Sign) (q : Nat) (t : Int) : UnpackedFloat :=
  let (shifted, exponent) := shiftToTargetExponent Format.binary64 q t .exact
  if h : shifted.mantissa = 0 then .zero s
  else .finite s shifted.mantissa exponent (Nat.pos_of_ne_zero h)

theorem refit_of_lt {q : Nat} {t : Int} (s : Sign) (hpos : 0 < q) (hq : q < 2 ^ 53)
    (ht : -1074 ≤ t) : refit s q t = .finite s q t hpos := by
  have hlog : q.log2 < 53 := (Nat.log2_lt hpos.ne').2 hq
  have hkeep : (targetExponent q t - t).toNat = 0 := by
    unfold targetExponent
    omega
  unfold refit
  rw [shiftToTargetExponent_eq, hkeep]
  simp only [Nat.cast_zero, add_zero]
  exact dif_neg hpos.ne'

theorem refit_full {t : Int} (s : Sign) (ht : -1074 ≤ t) :
    refit s (2 ^ 53) t = .finite s (2 ^ 52) (t + 1) (Nat.two_pow_pos 52) := by
  have hshift : (targetExponent (2 ^ 53) t - t).toNat = 1 := by
    unfold targetExponent
    rw [Nat.log2_two_pow]
    omega
  unfold refit
  rw [shiftToTargetExponent_eq, hshift]
  rfl

theorem refit_zero {t : Int} (s : Sign) (ht : -1074 ≤ t) : refit s 0 t = .zero s := by
  have hkeep : (targetExponent 0 t - t).toNat = 0 := by
    unfold targetExponent
    rw [Nat.log2_zero]
    omega
  unfold refit
  rw [shiftToTargetExponent_eq, hkeep]
  rfl

theorem level?_refit {q : Nat} {t : Int} (s : Sign) (hq : q ≤ 2 ^ 53) (ht : -1074 ≤ t)
    (hfull : 2 ^ 52 ≤ q ∨ t = -1074) :
    level? (stored (refit s q t)) = some (s.apply (min top (magnitude q t) : Nat)) := by
  by_cases hzero : q = 0
  · -- Everything was lost.
    have hnone : min top (magnitude 0 t) = 0 := by rw [magnitude, zero_mul, Nat.min_zero]
    rw [hzero, refit_zero s ht, stored_zero, hnone]
    cases s <;> rfl
  · rcases hq.eq_or_lt with hcarry | hlt
    · -- The same number with a mantissa half as large.
      have hsame : magnitude (2 ^ 53) t = magnitude (2 ^ 52) (t + 1) :=
        magnitude_mul_pow (2 ^ 52) 1 ht
      rw [hcarry, refit_full s ht, hsame]
      exact level?_stored s _ (by decide) (by omega) (Or.inl le_rfl)
    · rw [refit_of_lt s (Nat.pos_of_ne_zero hzero) hlt ht]
      exact level?_stored s _ hlt ht hfull

/-- Rounding in terms of levels, for a mantissa that is long enough. -/
theorem level?_roundWithAccuracy {m : Nat} {e : Int} (s : Sign) (hm : m ≠ 0) (he : -2148 ≤ e)
    (ht : e ≤ targetExponent m e) :
    level? (stored (roundWithAccuracy Format.binary64 s m e .exact)) =
      some (s.apply (min top (rounded (m * 2 ^ (e + 2148).toNat)) : Nat)) := by
  have hleast : -1074 ≤ targetExponent m e := le_max_right _ _
  have hexponent : e + (targetExponent m e - e).toNat = targetExponent m e := by omega
  have hround : roundWithAccuracy Format.binary64 s m e .exact =
      refit s (nearest m (targetExponent m e - e).toNat) (targetExponent m e) := by
    change refit s (ExtendedMantissa.ofMantissaAndAccuracy m .exact >>>
      (targetExponent m e - e).toNat).roundedMantissa (e + (targetExponent m e - e).toNat) = _
    rw [roundedMantissa_shiftRight, hexponent]
  rcases nearest_target hm he ht with ⟨hq, hfull⟩
  rw [hround, rounded_eq hm he ht]
  exact level?_refit s hq hleast hfull

/-- Rounding in terms of levels, for any mantissa: one that is too short is
    filled up with zeros first. -/
theorem level?_round {m : Nat} {e : Int} (s : Sign) (hm : m ≠ 0) (he : -2148 ≤ e) :
    level? (stored (UnpackedFloat.round Format.binary64 s m e)) =
      some (s.apply (min top (rounded (m * 2 ^ (e + 2148).toNat)) : Nat)) := by
  have hleast : -1074 ≤ targetExponent m e := le_max_right _ _
  have hround : UnpackedFloat.round Format.binary64 s m e =
      roundWithAccuracy Format.binary64 s (m * 2 ^ (e - targetExponent m e).toNat)
        (e - (e - targetExponent m e).toNat) .exact := by
    rw [← Nat.shiftLeft_eq]
    rfl
  have hlog := log2_mul_pow (e - targetExponent m e).toNat hm
  have hne : m * 2 ^ (e - targetExponent m e).toNat ≠ 0 :=
    Nat.mul_ne_zero hm (Nat.two_pow_pos _).ne'
  have hexponent : (e + 2148).toNat =
      (e - targetExponent m e).toNat + (e - (e - targetExponent m e).toNat + 2148).toNat := by
    omega
  rw [hround, level?_roundWithAccuracy s hne (by omega), mul_assoc, ← pow_add, ← hexponent]
  -- The longer mantissa is rounded at the same exponent.
  unfold targetExponent at hlog ⊢
  rw [hlog]
  omega

/-! ### Products -/

/-- The level of the product of two positive doubles with given levels. -/
def productLevel (a b : Nat) : Nat :=
  if a = top ∨ b = top then top else min top (rounded (a * b))

theorem productLevel_mono {a b b' : Nat} (h : b ≤ b') (hb' : b' ≤ top) :
    productLevel a b ≤ productLevel a b' := by
  unfold productLevel
  by_cases hinf : a = top ∨ b' = top
  · -- Nothing is above infinity.
    rw [if_pos hinf]
    split
    · exact le_rfl
    · exact Nat.min_le_left _ _
  · have hinf' : ¬(a = top ∨ b = top) := by omega
    rw [if_neg hinf, if_neg hinf']
    exact min_le_min_left _ (rounded_mono (Nat.mul_le_mul_left a h))

/-- A double whose level is positive is infinity or finite, and positive. -/
theorem positive_of_level {u : UnpackedFloat} {a : Int} (h : level? u = some a) (ha : 0 < a) :
    u = .infinity .positive ∨
      ∃ m e hm, u = .finite .positive m e hm ∧ a = (magnitude m e : Nat) := by
  cases u with
  | notANumber => cases h
  | infinity s =>
      cases s with
      | negative =>
          have htop := top_pos
          obtain rfl : -(top : Int) = a := Option.some.inj h
          omega
      | positive => exact Or.inl rfl
  | zero s =>
      obtain rfl : 0 = a := Option.some.inj h
      omega
  | finite s m e hm =>
      cases s with
      | negative =>
          obtain rfl : -(magnitude m e : Int) = a := Option.some.inj h
          omega
      | positive => exact Or.inr ⟨m, e, hm, rfl, (Option.some.inj h).symm⟩

/-- The product of two finite doubles, of which the exact one is a whole number
    of square units. -/
theorem level?_mul_finite {m m' : Nat} {e e' : Int} (s t : Sign) (hm : 0 < m) (hm' : 0 < m')
    (h : Fits m e) (h' : Fits m' e') :
    level? (stored (UnpackedFloat.mul Format.binary64 (.finite s m e hm)
      (.finite t m' e' hm'))) =
        some ((s * t).apply (min top (rounded (magnitude m e * magnitude m' e')) : Nat)) := by
  have hleast := h.least
  have hleast' := h'.least
  have hne : m * m' ≠ 0 := (Nat.mul_pos hm hm').ne'
  have htarget : e + e' ≤ targetExponent (m * m') (e + e') := by
    unfold targetExponent
    by_cases hsmall : e + e' ≤ -1074
    · exact hsmall.trans (le_max_right _ _)
    · -- One of the mantissas is full, and so is the product.
      have hfull : 2 ^ 52 ≤ m * m' := by
        rcases h.full with hfull | rfl
        · exact hfull.trans (Nat.le_mul_of_pos_right m hm')
        · have hfull' := h'.full.resolve_right (by omega)
          exact hfull'.trans (Nat.le_mul_of_pos_left m' hm)
      have hlog := (Nat.le_log2 hne).2 hfull
      omega
  have hvalue : m * m' * 2 ^ (e + e' + 2148).toNat = magnitude m e * magnitude m' e' := by
    have hexponent : (e + e' + 2148).toNat = (e + 1074).toNat + (e' + 1074).toNat := by omega
    rw [hexponent, pow_add, magnitude, magnitude]
    ring
  have hround := level?_roundWithAccuracy (s * t) hne (by omega) htarget
  rw [hvalue] at hround
  exact hround

/-- The level of the product of two positive doubles. -/
theorem level?_mul_of_pos {u v : UnpackedFloat} {a b : Nat} (hu : Canonical u) (hv : Canonical v)
    (ha : level? u = some (a : Int)) (ha0 : 0 < a) (hb : level? v = some (b : Int)) (hb0 : 0 < b) :
    level? (stored (UnpackedFloat.mul Format.binary64 u v)) = some (productLevel a b : Nat) := by
  unfold productLevel
  rcases positive_of_level ha (by omega) with rfl | ⟨m, e, hm, rfl, hae⟩
  · -- Infinity times something positive.
    have htop : a = top := Int.ofNat.inj (Option.some.inj ha).symm
    rw [if_pos (Or.inl htop)]
    rcases positive_of_level hb (by omega) with rfl | ⟨m', e', hm', rfl, _⟩
    · exact congrArg level? (stored_infinity .positive)
    · exact congrArg level? (stored_infinity .positive)
  · have hfinite : a ≠ top := by
      have hlt := magnitude_lt_top hu
      omega
    rcases positive_of_level hb (by omega) with rfl | ⟨m', e', hm', rfl, hbe⟩
    · have htop : b = top := Int.ofNat.inj (Option.some.inj hb).symm
      rw [if_pos (Or.inr htop)]
      exact congrArg level? (stored_infinity .positive)
    · have hfinite' : b ≠ top := by
        have hlt := magnitude_lt_top hv
        omega
      have haeq : a = magnitude m e := Int.ofNat.inj hae
      have hbeq : b = magnitude m' e' := Int.ofNat.inj hbe
      rw [if_neg (not_or.2 ⟨hfinite, hfinite'⟩), haeq, hbeq]
      exact level?_mul_finite .positive .positive hm hm' hu hv

theorem zero_of_level {u : UnpackedFloat} (h : level? u = some 0) : ∃ s, u = .zero s := by
  cases u with
  | notANumber => cases h
  | infinity s =>
      have htop := top_pos
      cases s with
      | negative =>
          have hzero : -(top : Int) = 0 := Option.some.inj h
          omega
      | positive =>
          have hzero : (top : Int) = 0 := Option.some.inj h
          omega
  | zero s => exact ⟨s, rfl⟩
  | finite s m e hm =>
      have hpos := magnitude_pos e hm
      cases s with
      | negative =>
          have hzero : -(magnitude m e : Int) = 0 := Option.some.inj h
          omega
      | positive =>
          have hzero : (magnitude m e : Int) = 0 := Option.some.inj h
          omega

/-- A product with zero is zero, if it is a number. -/
theorem level?_mul_zero {u : UnpackedFloat} (s : Sign) {x : Int}
    (hx : level? (stored (UnpackedFloat.mul Format.binary64 u (.zero s))) = some x) : x = 0 := by
  cases u with
  | notANumber =>
      simp only [UnpackedFloat.mul, stored_notANumber, level?, reduceCtorEq] at hx
  | infinity t =>
      simp only [UnpackedFloat.mul, stored_notANumber, level?, reduceCtorEq] at hx
  | zero t =>
      simp only [UnpackedFloat.mul, stored_zero, level?, Option.some.injEq] at hx
      exact hx.symm
  | finite t m e hm =>
      simp only [UnpackedFloat.mul, stored_zero, level?, Option.some.injEq] at hx
      exact hx.symm

/-- A product with a positive double is positive only if the other factor is. -/
theorem pos_of_mul_pos {u v : UnpackedFloat} {b : Nat} {x : Int} (hu : Canonical u)
    (hv : Canonical v) (hb : level? v = some (b : Int)) (hb0 : 0 < b)
    (hx : level? (stored (UnpackedFloat.mul Format.binary64 u v)) = some x) (hx0 : 0 < x) :
    ∃ a : Nat, level? u = some (a : Int) ∧ 0 < a := by
  have htop := top_pos
  have hpositive := positive_of_level hb (by omega)
  cases u with
  | notANumber =>
      simp only [UnpackedFloat.mul, stored_notANumber, level?, reduceCtorEq] at hx
  | zero s =>
      rcases hpositive with rfl | ⟨m', e', hm', rfl, _⟩
      · simp only [UnpackedFloat.mul, stored_notANumber, level?, reduceCtorEq] at hx
      · simp only [UnpackedFloat.mul, stored_zero, level?, Option.some.injEq] at hx
        omega
  | infinity s =>
      cases s with
      | positive => exact ⟨top, rfl, htop⟩
      | negative =>
          -- Infinity below zero stays there.
          have hneg : some (-(top : Int)) = some x := by
            rcases hpositive with rfl | ⟨m', e', hm', rfl, _⟩
            · exact (congrArg level? (stored_infinity .negative)).symm.trans hx
            · exact (congrArg level? (stored_infinity .negative)).symm.trans hx
          obtain rfl := Option.some.inj hneg
          omega
  | finite s m e hm =>
      cases s with
      | positive => exact ⟨magnitude m e, rfl, magnitude_pos e hm⟩
      | negative =>
          rcases hpositive with rfl | ⟨m', e', hm', rfl, _⟩
          · have hneg := (congrArg level? (stored_infinity .negative)).symm.trans hx
            obtain rfl : -(top : Int) = x := Option.some.inj hneg
            omega
          · have hneg := (level?_mul_finite .negative .positive hm hm' hu hv).symm.trans hx
            obtain rfl : -(_ : Int) = x := Option.some.inj hneg
            omega

/-! ### Natural numbers -/

/-- The level of a natural number. -/
def naturalLevel (n : Nat) : Nat := min top (rounded (n * 2 ^ 2148))

theorem naturalLevel_zero : naturalLevel 0 = 0 := by
  have hzero : rounded (0 * 2 ^ 2148) = 0 := by
    rw [rounded_of_lt (Nat.two_pow_pos 53), zero_mul]
  rw [naturalLevel, hzero, Nat.min_zero]

theorem naturalLevel_mono {n m : Nat} (h : n ≤ m) : naturalLevel n ≤ naturalLevel m :=
  min_le_min_left _ (rounded_mono (Nat.mul_le_mul_right _ h))

/-- A natural number that fits a word is rounded as it is. -/
theorem levelOf?_toFloat (n : UInt64) :
    levelOf? n.toFloat = some (naturalLevel n.toNat : Int) := by
  have hstored : levelOf? n.toFloat =
      level? (stored (UnpackedFloat.normalize Format.binary64 (n.toNat : Int) 0 .positive)) := rfl
  rw [hstored, UnpackedFloat.normalize]
  by_cases hzero : n.toNat = 0
  · rw [hzero, naturalLevel_zero]
    rfl
  · have hcompare : compare (n.toNat : Int) 0 = .gt := compare_gt_iff_gt.2 (by omega)
    have hround := level?_round .positive hzero (show (-2148 : Int) ≤ 0 by decide)
    have hunit : (0 + 2148 : Int).toNat = 2148 := rfl
    rw [hunit] at hround
    rw [hcompare]
    exact hround

theorem magnitude_zero (n : Nat) : magnitude n 0 = n * 2 ^ 1074 := by
  have hunit : (0 + 1074 : Int).toNat = 1074 := rfl
  rw [magnitude, hunit]

theorem magnitude_lt_top_of_lt {n : Nat} (h : n < 2 ^ 53) : magnitude n 0 < top := by
  have hfull : magnitude (2 ^ 53) 0 = magnitude (2 ^ 52) (0 + (1 : Nat)) := by
    rw [← magnitude_mul_pow (2 ^ 52) 1 (by decide), ← pow_add]
  exact (magnitude_lt_of_mantissa 0 h).trans_le (hfull.trans_le (magnitude_le le_rfl (by decide)))

/-- A natural number that fits the mantissa is a level without rounding. -/
theorem naturalLevel_of_lt {n : Nat} (h : n < 2 ^ 53) : naturalLevel n = magnitude n 0 := by
  rw [naturalLevel, rounded_of_lt h, ← magnitude_zero,
    Nat.min_eq_right (magnitude_lt_top_of_lt h).le]

/-- The one that small natural numbers are multiplied by on their way. -/
theorem levelOf?_one : levelOf? (Float.ofBits 0x3FF0000000000000) = some (magnitude 1 0 : Nat) := by
  have hsame : magnitude (2 ^ 52) (-52) = magnitude 1 (-52 + (52 : Nat)) :=
    magnitude_mul_pow 1 52 (by decide)
  have hone : levelOf? (Float.ofBits 0x3FF0000000000000) = some (magnitude (2 ^ 52) (-52) : Nat) :=
    rfl
  rw [hone, hsame]
  rfl

theorem ofNat_of_lt {n : Nat} (h : n < 2 ^ 53) :
    Float.ofNat n = n.toUInt64.toFloat * Float.ofBits 0x3FF0000000000000 := by
  change Float.ofScientific n false 0 = _
  unfold Float.ofScientific
  rw [dif_pos ⟨h, by decide⟩]
  rfl

theorem ofNat_of_le {n : Nat} (h : 2 ^ 53 ≤ n) :
    Float.ofNat n = Float.ofModel (Float.Model.ofScientific n 0) := by
  change Float.ofScientific n false 0 = _
  unfold Float.ofScientific
  rw [dif_neg fun hsmall => absurd hsmall.1 (Nat.not_lt.2 h)]
  rfl

/-- A large natural number is multiplied by one in a single rounding. -/
theorem ofScientific_eq {n : Nat} (hn : n ≠ 0) :
    UnpackedFloat.ofScientific Format.binary64 n 0 =
      roundWithAccuracy Format.binary64 .positive (n * 2 ^ 53) (-53) .exact := by
  have hpos : (0 : Int) < 2 ^ Format.binary64.exponentBits := by decide
  unfold UnpackedFloat.ofScientific
  rw [dif_neg hn, if_neg (by omega), if_neg (by omega), if_pos le_rfl]
  change roundWithAccuracy Format.binary64 .positive ((n <<< 53) * 1) (-53) .exact = _
  rw [mul_one, Nat.shiftLeft_eq]

/-- A natural number is rounded to a double, by either way of conversion. -/
theorem levelOf?_ofNat (n : Nat) : levelOf? (Float.ofNat n) = some (naturalLevel n : Int) := by
  by_cases hsmall : n < 2 ^ 53
  · by_cases hzero : n = 0
    · rw [hzero, naturalLevel_zero]
      rfl
    · -- A small one goes through a word, is multiplied by one and loses nothing.
      have hword : n.toUInt64.toNat = n := Nat.mod_eq_of_lt (by omega)
      have hfloat := levelOf?_toFloat n.toUInt64
      have hlevel := naturalLevel_of_lt hsmall
      have hunits : magnitude n 0 * magnitude 1 0 = n * 2 ^ 2148 := by
        rw [magnitude_zero, magnitude_zero, one_mul, mul_assoc, ← pow_add]
      rw [hword, hlevel] at hfloat
      have hproduct := level?_mul_of_pos (canonical_toModel _) (canonical_toModel _) hfloat
        (magnitude_pos 0 (Nat.pos_of_ne_zero hzero)) levelOf?_one (magnitude_pos 0 one_pos)
      have hfinite := (magnitude_lt_top_of_lt hsmall).ne
      have hfinite' := (magnitude_lt_top_of_lt (show 1 < 2 ^ 53 by decide)).ne
      rw [productLevel, if_neg (not_or.2 ⟨hfinite, hfinite'⟩), hunits] at hproduct
      rw [ofNat_of_lt hsmall]
      exact hproduct
  · -- A large one is scaled up first and then rounded once.
    have hne : n ≠ 0 := by omega
    have hround := level?_roundWithAccuracy .positive
      (Nat.mul_ne_zero hne (Nat.two_pow_pos 53).ne') (show (-2148 : Int) ≤ -53 by decide)
    have hunit : (-53 + 2148 : Int).toNat = 2095 := rfl
    have hunits : n * 2 ^ 53 * 2 ^ 2095 = n * 2 ^ 2148 := by
      rw [mul_assoc, ← pow_add]
    have hstored : levelOf? (Float.ofModel (Float.Model.ofScientific n 0)) =
      level? (stored (UnpackedFloat.ofScientific Format.binary64 n 0)) := rfl
    rw [ofNat_of_le (by omega), hstored, ofScientific_eq hne]
    rw [hunit, hunits] at hround
    refine hround ?_
    unfold targetExponent
    rw [log2_mul_pow 53 hne]
    omega

/-- A product with a natural number that is above something that is not negative
    stays above it for any larger number: it takes a positive factor for that, and
    then the product grows with its level. -/
theorem mul_ofNat_mono {c q : Float} {n m : Nat} (hnm : n ≤ m) (hq : ¬q < 0.0)
    (h : q < c * Float.ofNat n) : q < c * Float.ofNat m := by
  rcases lt_iff.1 h with ⟨a, b, ha, hb, hab⟩
  have hzero : levelOf? 0.0 = some 0 := rfl
  have ha0 : 0 ≤ a := by
    by_contra hneg
    exact hq (lt_iff.2 ⟨a, 0, ha, hzero, by omega⟩)
  have hn := levelOf?_ofNat n
  have hm := levelOf?_ofNat m
  have hlevels := naturalLevel_mono hnm
  have hbn : level? (stored (UnpackedFloat.mul Format.binary64 c.toModel.unpack
      (Float.ofNat n).toModel.unpack)) = some b := hb
  -- The number is not zero, or else the product would be.
  have hpos : 0 < naturalLevel n := by
    by_contra hnone
    have hnone' : levelOf? (Float.ofNat n) = some 0 := by
      rw [hn]
      exact congrArg some (by omega)
    rcases zero_of_level hnone' with ⟨s, hs⟩
    rw [hs] at hbn
    have hbzero := level?_mul_zero s hbn
    omega
  rcases pos_of_mul_pos (canonical_toModel _) (canonical_toModel _) hn hpos hbn (by omega) with
    ⟨k, hk, hk0⟩
  have hproduct := level?_mul_of_pos (canonical_toModel _) (canonical_toModel _) hk hk0 hn hpos
  have hproduct' := level?_mul_of_pos (canonical_toModel _) (canonical_toModel _) hk hk0 hm
    (by omega)
  have hgrows : productLevel k (naturalLevel n) ≤ productLevel k (naturalLevel m) :=
    productLevel_mono hlevels (Nat.min_le_left _ _)
  have hbeq : b = (productLevel k (naturalLevel n) : Nat) :=
    Option.some.inj (hbn.symm.trans hproduct)
  exact lt_iff.2 ⟨a, _, ha, hproduct', by omega⟩

end Double

end Rescale
