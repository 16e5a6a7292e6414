import Mathlib

/-!
# Levels of Doubles

The order of doubles as an order of whole numbers.

Every finite double is a whole number of least positive doubles, and that number
is its level. Infinity gets the level that comes next after the largest finite
double, so that what overflows has its level too. Doubles that are numbers then
compare like their levels. This takes that mantissa and exponent are kept in the
one form that the bits allow, with a full mantissa wherever the exponent is not
the least, since only then do exponents decide before mantissas.

## Main definitions

* `Fits`: A mantissa and an exponent as the bits of a double hold them.
* `magnitude`: Whole numbers of least positive doubles.
* `level?`: The level of a double, if it is a number.
* `Canonical`: A double in the form that its bits allow.
* `stored`: What the bits of a double keep of what is written to them.

## Theorems

* `compare_eq`: Doubles compare like their levels.
* `canonical_unpack`: What is read from bits is in their form.
* `stored_of_fits`, `stored_of_overflow`: What bits keep of what is written to
  them.
* `level?_stored`: The level of what is stored.
* `lt_iff`, `le_iff`: The order of doubles.
-/

namespace Rescale

namespace Double

open Float.Model UnpackedFloat

/-! ### Magnitudes -/

/-- A mantissa and an exponent as the bits of a double hold them. -/
structure Fits (m : Nat) (e : Int) : Prop where
  mantissa : m < 2 ^ 53
  least : -1074 ≤ e
  most : e ≤ 971
  full : 2 ^ 52 ≤ m ∨ e = -1074

/-- A mantissa at an exponent, as a number of least positive doubles. -/
def magnitude (m : Nat) (e : Int) : Nat := m * 2 ^ (e + 1074).toNat

/-- The level of infinity, the next after all finite ones. -/
def top : Nat := magnitude (2 ^ 52) 972

theorem magnitude_pos {m : Nat} (e : Int) (h : 0 < m) : 0 < magnitude m e :=
  Nat.mul_pos h (Nat.two_pow_pos _)

theorem top_pos : 0 < top := magnitude_pos 972 (Nat.two_pow_pos 52)

/-- Of two exponents the larger one decides if its mantissa is full. -/
theorem magnitude_lt_of_lt {m m' : Nat} {e e' : Int} (h : Fits m e) (hfull : 2 ^ 52 ≤ m')
    (hlt : e < e') : magnitude m e < magnitude m' e' := by
  have hleast := h.least
  have hexponent : 53 + (e + 1074).toNat ≤ 52 + (e' + 1074).toNat := by omega
  calc magnitude m e < 2 ^ 53 * 2 ^ (e + 1074).toNat :=
        Nat.mul_lt_mul_of_pos_right h.mantissa (Nat.two_pow_pos _)
    _ = 2 ^ (53 + (e + 1074).toNat) := (pow_add 2 _ _).symm
    _ ≤ 2 ^ (52 + (e' + 1074).toNat) := Nat.pow_le_pow_right two_pos hexponent
    _ = 2 ^ 52 * 2 ^ (e' + 1074).toNat := pow_add 2 _ _
    _ ≤ magnitude m' e' := Nat.mul_le_mul_right _ hfull

theorem magnitude_lt_top {m : Nat} {e : Int} (h : Fits m e) : magnitude m e < top :=
  magnitude_lt_of_lt h le_rfl (Int.lt_of_le_of_lt h.most (by decide))

theorem magnitude_lt_of_mantissa {m m' : Nat} (e : Int) (hm : m < m') :
    magnitude m e < magnitude m' e :=
  Nat.mul_lt_mul_of_pos_right hm (Nat.two_pow_pos _)

theorem magnitude_le {m m' : Nat} {e e' : Int} (hm : m ≤ m') (he : e ≤ e') :
    magnitude m e ≤ magnitude m' e' :=
  Nat.mul_le_mul hm (Nat.pow_le_pow_right two_pos (by omega))

/-- Zeros at the end of a mantissa count for the exponent. -/
theorem magnitude_mul_pow {e : Int} (m k : Nat) (he : -1074 ≤ e) :
    magnitude (m * 2 ^ k) e = magnitude m (e + k) := by
  have hexponent : (e + k + 1074).toNat = k + (e + 1074).toNat := by omega
  rw [magnitude, magnitude, hexponent, pow_add, mul_assoc]

theorem top_le_magnitude {m : Nat} {e : Int} (hm : 2 ^ 52 ≤ m) (he : 972 ≤ e) :
    top ≤ magnitude m e :=
  magnitude_le hm he

/-- Where exponents are the least or mantissas are full, exponents compare before
    mantissas. -/
theorem compare_magnitude {m m' : Nat} {e e' : Int} (h : Fits m e) (h' : Fits m' e') :
    (compare e e').then (compare m m') = compare (magnitude m e) (magnitude m' e') := by
  have hleast := h.least
  have hleast' := h'.least
  rcases lt_trichotomy e e' with hlt | rfl | hgt
  · -- A larger exponent is not the least one, so its mantissa is full.
    have hfull := h'.full.resolve_right (by omega)
    rw [compare_lt_iff_lt.2 hlt, compare_lt_iff_lt.2 (magnitude_lt_of_lt h hfull hlt)]
    rfl
  · rw [compare_eq_iff_eq.2 rfl]
    change compare m m' = compare (magnitude m e) (magnitude m' e)
    rcases lt_trichotomy m m' with hlt | rfl | hgt
    · rw [compare_lt_iff_lt.2 hlt, compare_lt_iff_lt.2 (magnitude_lt_of_mantissa e hlt)]
    · rw [compare_eq_iff_eq.2 rfl, compare_eq_iff_eq.2 rfl]
    · rw [compare_gt_iff_gt.2 hgt, compare_gt_iff_gt.2 (magnitude_lt_of_mantissa e hgt)]
  · have hfull := h.full.resolve_right (by omega)
    rw [compare_gt_iff_gt.2 hgt, compare_gt_iff_gt.2 (magnitude_lt_of_lt h' hfull hgt)]
    rfl

/-! ### Levels -/

/-- The level of a double, if it is a number. -/
def level? : UnpackedFloat → Option Int
  | .notANumber => none
  | .infinity s => some (s.apply top)
  | .zero _ => some 0
  | .finite s m e _ => some (s.apply (magnitude m e))

/-- A double in the form that its bits allow. -/
def Canonical : UnpackedFloat → Prop
  | .finite _ m e _ => Fits m e
  | _ => True

theorem compare_natCast (m n : Nat) : compare (m : Int) (n : Int) = compare m n := by
  rcases lt_trichotomy m n with hlt | rfl | hgt
  · rw [compare_lt_iff_lt.2 hlt, compare_lt_iff_lt.2 (Int.ofNat_lt.2 hlt)]
  · rw [compare_eq_iff_eq.2 rfl, compare_eq_iff_eq.2 rfl]
  · rw [compare_gt_iff_gt.2 hgt, compare_gt_iff_gt.2 (Int.ofNat_lt.2 hgt)]

theorem compare_neg (x y : Int) : compare (-x) (-y) = (compare x y).swap := by
  rcases lt_trichotomy x y with hlt | rfl | hgt
  · rw [compare_lt_iff_lt.2 hlt, compare_gt_iff_gt.2 (Int.neg_lt_neg hlt)]
    rfl
  · rw [compare_eq_iff_eq.2 rfl, compare_eq_iff_eq.2 rfl]
    rfl
  · rw [compare_gt_iff_gt.2 hgt, compare_lt_iff_lt.2 (Int.neg_lt_neg hgt)]
    rfl

theorem some_lt {x y : Int} (h : x < y) : some Ordering.lt = some (compare x y) := by
  rw [compare_lt_iff_lt.2 h]

theorem some_gt {x y : Int} (h : y < x) : some Ordering.gt = some (compare x y) := by
  rw [compare_gt_iff_gt.2 h]

theorem some_eq {x y : Int} (h : x = y) : some Ordering.eq = some (compare x y) := by
  rw [compare_eq_iff_eq.2 h]

/-- Doubles compare like their levels, and not at all if one of them is not a
    number. -/
theorem compare_eq {a b : UnpackedFloat} (ha : Canonical a) (hb : Canonical b) :
    a.compare b = (level? a).bind fun x => (level? b).map fun y => compare x y := by
  have htop := top_pos
  -- By the kinds of both. Signs decide, then kinds, and only two finite doubles of
  -- one sign look at exponents and mantissas.
  cases a with
  | notANumber => rfl
  | infinity s =>
      cases b with
      | notANumber => cases s <;> rfl
      | infinity t =>
          cases s <;> cases t
          · exact some_eq rfl
          · exact some_lt (by simp only [Sign.apply]; omega)
          · exact some_gt (by simp only [Sign.apply]; omega)
          · exact some_eq rfl
      | zero t =>
          cases s
          · exact some_lt (by simp only [Sign.apply]; omega)
          · exact some_gt (by simp only [Sign.apply]; omega)
      | finite t m e hm =>
          have hlt := magnitude_lt_top hb
          cases s <;> cases t
          · exact some_lt (by simp only [Sign.apply]; omega)
          · exact some_lt (by simp only [Sign.apply]; omega)
          · exact some_gt (by simp only [Sign.apply]; omega)
          · exact some_gt (by simp only [Sign.apply]; omega)
  | zero s =>
      cases b with
      | notANumber => rfl
      | infinity t =>
          cases t
          · exact some_gt (by simp only [Sign.apply]; omega)
          · exact some_lt (by simp only [Sign.apply]; omega)
      | zero t => exact some_eq rfl
      | finite t m e hm =>
          have hpos := magnitude_pos e hm
          cases t
          · exact some_gt (by simp only [Sign.apply]; omega)
          · exact some_lt (by simp only [Sign.apply]; omega)
  | finite s m e hm =>
      have hpos := magnitude_pos e hm
      have hlt := magnitude_lt_top ha
      cases b with
      | notANumber => cases s <;> rfl
      | infinity t =>
          cases s <;> cases t
          · exact some_gt (by simp only [Sign.apply]; omega)
          · exact some_lt (by simp only [Sign.apply]; omega)
          · exact some_gt (by simp only [Sign.apply]; omega)
          · exact some_lt (by simp only [Sign.apply]; omega)
      | zero t =>
          cases s
          · exact some_lt (by simp only [Sign.apply]; omega)
          · exact some_gt (by simp only [Sign.apply]; omega)
      | finite t m' e' hm' =>
          have hpos' := magnitude_pos e' hm'
          cases s <;> cases t
          · -- Below zero the order is reversed.
            change some ((compare e e').then (compare m m')).swap =
              some (compare (-(magnitude m e : Int)) (-(magnitude m' e' : Int)))
            rw [compare_neg, compare_natCast, compare_magnitude ha hb]
          · exact some_lt (by simp only [Sign.apply]; omega)
          · exact some_gt (by simp only [Sign.apply]; omega)
          · change some ((compare e e').then (compare m m')) =
              some (compare (magnitude m e : Int) (magnitude m' e' : Int))
            rw [compare_natCast, compare_magnitude ha hb]

/-! ### Bits -/

theorem toNat_one_append {w : Nat} (b : BitVec w) : (1#1 ++ b).toNat = 2 ^ w + b.toNat := by
  rw [BitVec.toNat_append, ← Nat.shiftLeft_add_eq_or_of_lt b.isLt, Nat.shiftLeft_eq]
  change 1 * 2 ^ w + b.toNat = 2 ^ w + b.toNat
  rw [one_mul]

/-- What is read from bits is in their form. -/
theorem canonical_unpack (b : BitVec Format.binary64.numBits) :
    Canonical (UnpackedFloat.unpack Format.binary64 b) := by
  have hmantissa : (unpackMantissa b).toNat < 2 ^ 52 := (unpackMantissa b).isLt
  have hexponent : (unpackExponent b).toNat < 2048 := (unpackExponent b).isLt
  have hbias : ((Format.binary64.exponentBias : Nat) : Int) = 1023 := rfl
  have hbits : ((Format.binary64.mantissaBitsWithoutImplicit : Nat) : Int) = 52 := rfl
  have hpow : 2 ^ Format.binary64.mantissaBitsWithoutImplicit = 2 ^ 52 := rfl
  unfold UnpackedFloat.unpack
  by_cases hones : unpackExponent b = -1#_
  · -- All bits of the exponent are set: infinity, or not a number.
    simp only [hones, if_true]
    split
    · trivial
    · trivial
  · have hmost : (unpackExponent b).toNat ≠ 2047 := fun h => hones (BitVec.eq_of_toNat_eq h)
    simp only [hones, if_false]
    by_cases hzeros : unpackExponent b = 0#_
    · -- None is set: zero, or the mantissa as it is at the least exponent.
      have hzero : (unpackExponent b).toNat = 0 := by rw [hzeros]; rfl
      simp only [hzeros, if_true]
      split
      · trivial
      · refine ⟨by omega, ?_, ?_, Or.inr ?_⟩ <;> simp only [hbias, hbits] <;> decide
    · -- Anything else: the mantissa with its first bit, which is not stored.
      have hleast : (unpackExponent b).toNat ≠ 0 := fun h => hzeros (BitVec.eq_of_toNat_eq h)
      simp only [hzeros, if_false]
      refine ⟨?_, ?_, ?_, Or.inl ?_⟩
      · rw [toNat_one_append, hpow]
        omega
      · rw [hbias, hbits]
        omega
      · rw [hbias, hbits]
        omega
      · rw [toNat_one_append, hpow]
        omega

/-- What the bits of a double keep of what is written to them. -/
def stored (u : UnpackedFloat) : UnpackedFloat :=
  UnpackedFloat.unpack Format.binary64 (UnpackedFloat.pack Format.binary64 u)

theorem stored_notANumber : stored .notANumber = .notANumber := rfl

theorem stored_infinity (s : Sign) : stored (.infinity s) = .infinity s := by
  cases s <;> rfl

theorem stored_zero (s : Sign) : stored (.zero s) = .zero s := by
  cases s <;> rfl

theorem ofBitVec_unpackSign (s : Sign) (e : BitVec 11) (m : BitVec 52) :
    Sign.ofBitVec (unpackSign (packComponents Format.binary64 s e m)) = s := by
  have hsign : unpackSign (packComponents Format.binary64 s e m) = s.toBitVec := by
    refine BitVec.eq_of_getLsbD_eq fun i hi => ?_
    obtain rfl : i = 0 := by omega
    simp only [unpackSign, packComponents, BitVec.getLsbD_cast, BitVec.getLsbD_extractLsb,
      BitVec.getLsbD_append]
    simp
  rw [hsign]
  cases s <;> rfl

/-- An exponent that is neither the least nor the largest comes with a mantissa
    whose first bit is not stored. -/
theorem unpack_normal (s : Sign) {x : BitVec 11} (y : BitVec 52) (hones : x ≠ -1#_)
    (hzeros : x ≠ 0#_) (hm : 0 < 2 ^ 52 + y.toNat) :
    UnpackedFloat.unpack Format.binary64 (packComponents Format.binary64 s x y) =
      .finite s (2 ^ 52 + y.toNat) (x.toNat - (1023 + 52)) hm := by
  unfold UnpackedFloat.unpack
  simp only [unpackMantissa_packComponents, unpackExponent_packComponents, ofBitVec_unpackSign,
    hones, hzeros, if_false, toNat_one_append]
  rfl

/-- With the least exponent the mantissa is stored as it is. -/
theorem unpack_subnormal (s : Sign) {y : BitVec 52} (hm : 0 < y.toNat) :
    UnpackedFloat.unpack Format.binary64 (packComponents Format.binary64 s 0#11 y) =
      .finite s y.toNat (-1074) hm := by
  have hones : (0#11 : BitVec 11) ≠ -1#_ := by decide
  have hzero : y ≠ 0#_ := by
    rintro rfl
    exact absurd hm (Nat.lt_irrefl 0)
  unfold UnpackedFloat.unpack
  simp only [unpackMantissa_packComponents, unpackExponent_packComponents, ofBitVec_unpackSign,
    hones, hzero, if_false, if_true, dif_neg, not_false_eq_true]
  rfl

/-- What has the form of the bits is kept. -/
theorem stored_of_fits {m : Nat} {e : Int} (s : Sign) (hm : 0 < m) (h : Fits m e) :
    stored (.finite s m e hm) = .finite s m e hm := by
  have hleast := h.least
  have hmost := h.most
  have hlt := h.mantissa
  have hsmall : ¬2 ^ 11 ≤ (e + 1023 + 52).toNat + 1 := by omega
  by_cases hfull : 2 ^ 52 ≤ m
  · -- A full mantissa loses its first bit, and the exponent is neither of the two
    -- that mean something else.
    have hlog : m.log2 + 1 = 53 := by
      rw [(Nat.log2_eq_iff hm.ne').2 ⟨hfull, hlt⟩]
    have hpack : UnpackedFloat.pack Format.binary64 (.finite s m e hm) =
        packComponents Format.binary64 s (BitVec.ofNat 11 (e + 1023 + 52).toNat)
          (BitVec.ofNat 52 m) := (if_neg hsmall).trans (if_pos hlog)
    have hexponent : (BitVec.ofNat 11 (e + 1023 + 52).toNat).toNat = (e + 1023 + 52).toNat := by
      rw [BitVec.toNat_ofNat, Nat.mod_eq_of_lt (by omega)]
    have hmantissa : 2 ^ 52 + (BitVec.ofNat 52 m).toNat = m := by
      rw [BitVec.toNat_ofNat]
      omega
    have hones : BitVec.ofNat 11 (e + 1023 + 52).toNat ≠ -1#_ := by
      intro heq
      have hnat := congrArg BitVec.toNat heq
      rw [hexponent] at hnat
      change (e + 1023 + 52).toNat = 2047 at hnat
      omega
    have hzeros : BitVec.ofNat 11 (e + 1023 + 52).toNat ≠ 0#_ := by
      intro heq
      have hnat := congrArg BitVec.toNat heq
      rw [hexponent] at hnat
      change (e + 1023 + 52).toNat = 0 at hnat
      omega
    rw [stored, hpack, unpack_normal s _ hones hzeros (by omega)]
    simp only [hexponent, hmantissa, UnpackedFloat.finite.injEq, true_and]
    omega
  · -- Any other is written without an exponent.
    have hlog : ¬m.log2 + 1 = 53 := by
      have hless : m.log2 < 52 := (Nat.log2_lt hm.ne').2 (by omega)
      omega
    have hpack : UnpackedFloat.pack Format.binary64 (.finite s m e hm) =
        packComponents Format.binary64 s 0#11 (BitVec.ofNat 52 m) :=
      (if_neg hsmall).trans (if_neg hlog)
    have hmantissa : (BitVec.ofNat 52 m).toNat = m := by
      rw [BitVec.toNat_ofNat, Nat.mod_eq_of_lt (by omega)]
    obtain rfl : e = -1074 := h.full.resolve_left hfull
    rw [stored, hpack, unpack_subnormal s (by omega)]
    simp only [hmantissa]

/-- What is too large overflows to infinity. -/
theorem stored_of_overflow {m : Nat} {e : Int} (s : Sign) (hm : 0 < m) (he : 972 ≤ e) :
    stored (.finite s m e hm) = .infinity s := by
  have hbiased : 2 ^ 11 ≤ (e + 1023 + 52).toNat + 1 := by omega
  have hpack : UnpackedFloat.pack Format.binary64 (.finite s m e hm) =
      packedInfinity Format.binary64 s := if_pos hbiased
  rw [← stored_infinity s, stored, stored, hpack]
  rfl

/-- The level of what is stored, where only infinity is above the largest finite
    double. -/
theorem level?_stored {m : Nat} {e : Int} (s : Sign) (hm : 0 < m) (hmantissa : m < 2 ^ 53)
    (hleast : -1074 ≤ e) (hfull : 2 ^ 52 ≤ m ∨ e = -1074) :
    level? (stored (.finite s m e hm)) = some (s.apply (min top (magnitude m e) : Nat)) := by
  by_cases he : 972 ≤ e
  · have htop : top ≤ magnitude m e := top_le_magnitude (hfull.resolve_right (by omega)) he
    rw [stored_of_overflow s hm he, Nat.min_eq_left htop]
    rfl
  · have hfits : Fits m e := ⟨hmantissa, hleast, by omega, hfull⟩
    rw [stored_of_fits s hm hfits, Nat.min_eq_right (magnitude_lt_top hfits).le]
    rfl

/-! ### The order of doubles -/

/-- The level of a double. -/
def levelOf? (x : Float) : Option Int := level? x.toModel.unpack

theorem canonical_toModel (x : Float) : Canonical x.toModel.unpack := canonical_unpack _

theorem lt_iff {x y : Float} :
    x < y ↔ ∃ a b, levelOf? x = some a ∧ levelOf? y = some b ∧ a < b := by
  have hcompare : x < y ↔ (x.toModel.unpack.compare y.toModel.unpack == some .lt) = true :=
    decide_eq_true_iff
  rw [hcompare, beq_iff_eq, compare_eq (canonical_toModel x) (canonical_toModel y)]
  simp only [levelOf?, Option.bind_eq_some_iff, Option.map_eq_some_iff, compare_lt_iff_lt]
  exact exists_congr fun a => ⟨fun ⟨ha, b, hb, hlt⟩ => ⟨b, ha, hb, hlt⟩,
    fun ⟨b, ha, hb, hlt⟩ => ⟨ha, b, hb, hlt⟩⟩

theorem le_iff {x y : Float} :
    x ≤ y ↔ ∃ a b, levelOf? x = some a ∧ levelOf? y = some b ∧ a ≤ b := by
  have hcompare : x ≤ y ↔
      ((x.toModel.unpack.compare y.toModel.unpack).any fun o => o.isLE) = true :=
    decide_eq_true_iff
  rw [hcompare, Option.any_eq_true, compare_eq (canonical_toModel x) (canonical_toModel y)]
  simp only [levelOf?, Option.bind_eq_some_iff, Option.map_eq_some_iff]
  constructor
  · rintro ⟨o, ⟨a, ha, b, hb, rfl⟩, hle⟩
    exact ⟨a, b, ha, hb, Std.isLE_compare.1 hle⟩
  · rintro ⟨a, b, ha, hb, hle⟩
    exact ⟨_, ⟨a, ha, b, hb, rfl⟩, Std.isLE_compare.2 hle⟩

theorem le_of_lt {x y : Float} (h : x < y) : x ≤ y := by
  rcases lt_iff.1 h with ⟨a, b, ha, hb, hab⟩
  exact le_iff.2 ⟨a, b, ha, hb, hab.le⟩

end Double

end Rescale
