import Rescale.Proofs.Decimal.Value
import Rescale.Proofs.Double.Finite
import Rescale.Proofs.Text.Padded

/-!
# Rereading Finite Doubles

Why a finite double that was written into a record comes back finite.

Records are read by a coarse rule that can turn a decimal near the largest double
into one that counts as too large. So it has to be seen that this never happens to
the decimals that are written. A decimal of fewer than seventeen digits in front of
the point is gathered from the left, and what is gathered is not above its value.
If the power of ten that is left over is negative, the digits are divided by powers
of ten, which stays finite. Otherwise they are multiplied once. The shortest decimal
of a double is not above the middle to the next double, so it is not above the middle
between the two largest, except for the largest double itself. And for every power
of ten, what digits can stand in front of it below that middle was multiplied with it
here, without overflow. That leaves the largest double, which comes back.

## Main definitions

* `summit`: The middle between the two largest doubles.
* `anyPlace`: The largest power of ten that any significand can be multiplied with.
* `Numeral.Short`: A numeral with few digits in front of the point.

## Theorems

* `isFinite_landmarks`: The doubles that all others are compared with are finite.
* `Numeral.gather_mul_le`, `Numeral.gather_of_lt`: What is gathered.
* `Numeral.powerOfTen_eq`: Powers of ten are rounded once.
* `Numeral.isFinite_scaleDown`, `Numeral.scaleUp?_of_le`: Scaling stays finite.
* `Numeral.coarse?_of_le`: A numeral that is not too large is read as a finite
  double.
* `isFinite_reread`: A finite double comes back finite.
-/

namespace Rescale

namespace Decimal

open Float.Model UnpackedFloat

namespace Numeral

/-! ### Digits -/

/-- Digits that are left over only make a number smaller. By induction on the
    digits: the first one that does not fit ends the gathering. -/
theorem gather_mul_le (significand : Nat) (ds : List Char) :
    (gather significand ds).1 * 10 ^ (gather significand ds).2 ≤
      Nat.ofDigitChars 10 ds significand := by
  induction ds generalizing significand with
  | nil => rw [gather, pow_zero, Nat.mul_one, Nat.ofDigitChars_nil]
  | cons c rest ih =>
      rw [gather]
      split
      · rw [Nat.ofDigitChars_cons, Nat.mul_comm 10 significand]
        exact ih _
      · exact Text.mul_pow_le_ofDigitChars significand (c :: rest)

/-- A number that fits is gathered as it is. -/
theorem gather_of_lt {significand : Nat} {ds : List Char}
    (h : Nat.ofDigitChars 10 ds significand < Text.wordLimit) :
    gather significand ds = (Nat.ofDigitChars 10 ds significand, 0) := by
  induction ds generalizing significand with
  | nil => rfl
  | cons c rest ih =>
      rw [Nat.ofDigitChars_cons, Nat.mul_comm 10 significand] at h ⊢
      -- The digits so far are not above the whole number.
      have hle := Text.mul_pow_le_ofDigitChars (significand * 10 + (c.toNat - '0'.toNat)) rest
      have hpos : 0 < 10 ^ rest.length := Nat.pow_pos (by decide)
      have hfits : significand * 10 + (c.toNat - 48) < Text.wordLimit :=
        (Nat.le_mul_of_pos_right _ hpos).trans_lt (hle.trans_lt h)
      rw [gather, if_pos hfits]
      exact ih h

/-- A numeral with at most sixteen digits in front of the point. -/
structure Short (n : Numeral) : Prop where
  digits : ∀ c ∈ n.whole, c.isDigit = true
  length : n.whole.length ≤ 16

theorem short_ofScaled (negative : Bool) (d : Scaled) : (ofScaled negative d).Short := by
  have hdigits : ∀ c ∈ Text.digits d.digits, c.isDigit = true := fun c hc =>
    Nat.isDigit_of_mem_toDigits (by decide) (by decide) hc
  have hzeros : ∀ k, ∀ c ∈ List.replicate k '0', c.isDigit = true := by
    intro k c hc
    rw [List.eq_of_mem_replicate hc]
    rfl
  simp only [ofScaled]
  split
  · next hplace =>
    rw [Bool.and_eq_true, decide_eq_true_iff, decide_eq_true_iff] at hplace
    split
    · refine ⟨fun c hc => ?_, ?_⟩
      · exact (List.mem_append.1 hc).elim (hdigits c) (hzeros _ c)
      · rw [List.length_append, List.length_replicate]
        omega
    · refine ⟨fun c hc => ?_, ?_⟩
      · exact (List.mem_append.1 (List.mem_of_mem_take hc)).elim (hzeros _ c) (hdigits c)
      · rw [List.length_take, List.length_append, List.length_replicate]
        omega
  · refine ⟨fun c hc => hdigits c (List.mem_of_mem_take hc), ?_⟩
    exact (List.length_take_le 1 _).trans (by decide)

/-- The digits in front of the point are gathered as they are. -/
theorem Short.gather_whole {n : Numeral} (h : n.Short) :
    gather 0 n.whole = (Nat.ofDigitChars 10 n.whole 0, 0) := by
  refine gather_of_lt ((Text.ofDigitChars_lt h.digits 0).trans_le ?_)
  calc (0 + 1) * 10 ^ n.whole.length ≤ (0 + 1) * 10 ^ 16 :=
        Nat.mul_le_mul_left _ (Nat.pow_le_pow_right (by decide) h.length)
    _ ≤ Text.wordLimit := by decide

/-! ### Landmarks -/

/-- The middle between the two largest doubles. -/
def summit : Nat := (2 ^ 54 - 3) * 2 ^ 970

/-- The largest power of ten that any significand can be multiplied with. -/
def anyPlace : Nat := 288

/-- Where the summit lies: not below the two middles above which there are only few
    doubles, below the power of ten that nothing is multiplied with, and small enough
    for the digits that stand in front of the others. -/
theorem summit_bounds :
    ((4 * (2 ^ 53 - 2) + 2) * 2 ^ 969 ≤ summit ∧ (4 * (2 ^ 53 - 1) + 2) * 2 ^ 968 ≤ summit) ∧
      summit < 10 ^ (anyPlace + 21) ∧ summit / 10 ^ (anyPlace + 1) < Text.wordLimit := by
  decide +kernel

/-- The doubles that all others are compared with. The last ones are, for all larger
    powers of ten, the largest significand below the summit. -/
theorem isFinite_landmarks :
    (Float.ofNat Text.wordLimit).isFinite = true ∧ (Float.ofNat (10 ^ 308)).isFinite = true ∧
      (Float.ofNat (Text.wordLimit - 1) * Float.ofNat (10 ^ anyPlace)).isFinite = true ∧
      ∀ k < 20, (Float.ofNat (summit / 10 ^ (anyPlace + 1 + k)) *
        Float.ofNat (10 ^ (anyPlace + 1 + k))).isFinite = true := by
  decide +kernel

/-! ### Powers of ten -/

/-- A power of ten is rounded in one step, whether it is written as a number or as
    an exponent. -/
theorem ofScientific_pow {p : Nat} (hp : p ≤ 308) :
    UnpackedFloat.ofScientific Format.binary64 1 p =
      UnpackedFloat.ofScientific Format.binary64 (10 ^ p) 0 := by
  have hbits : (2 ^ Format.binary64.exponentBits : Int) = 2048 := by decide
  have hpos : 10 ^ p ≠ 0 := (Nat.pow_pos (by decide)).ne'
  rw [Double.ofScientific_eq hpos]
  unfold UnpackedFloat.ofScientific
  rw [dif_neg one_ne_zero, hbits, if_neg (by omega), if_neg (by omega), if_pos (by omega)]
  change roundWithAccuracy Format.binary64 .positive ((1 <<< 53) * 10 ^ (p : Int).toNat) (-53)
    .exact = _
  rw [Nat.shiftLeft_eq, one_mul, Int.toNat_natCast, Nat.mul_comm]

/-- Powers of ten are natural numbers that are rounded once. Up to the 22nd they
    are kept in a table, and are exact. -/
theorem powerOfTen_eq {p : Nat} (hp : p ≤ 308) : powerOfTen p = Float.ofNat (10 ^ p) := by
  have htable : ∀ q < 23, powerOfTen q = Float.ofNat (10 ^ q) := by decide +kernel
  by_cases hsmall : p < 23
  · exact htable p hsmall
  · have hlarge : 2 ^ 53 ≤ 10 ^ p :=
      le_trans (by decide) (Nat.pow_le_pow_right (by decide) (Nat.not_lt.1 hsmall))
    have hplace : ((Nat.toDigits 10 1).length : Int) + (p : Int) = 1 + p := rfl
    have hscientific : powerOfTen p = Float.ofScientific 1 false p := by
      unfold powerOfTen toFloat
      rw [hplace]
      simp only [beq_iff_eq, one_ne_zero, if_false, Int.natAbs_natCast]
      rw [if_neg (by omega), if_neg (by omega), decide_eq_false (by omega)]
    rw [Double.ofNat_of_le hlarge, hscientific, Float.ofScientific, dif_neg (by omega)]
    simp only [Bool.false_eq_true, if_false]
    change Float.ofModel (Float.Model.pack (UnpackedFloat.ofScientific _ 1 p)) =
      Float.ofModel (Float.Model.pack (UnpackedFloat.ofScientific _ (10 ^ p) 0))
    rw [ofScientific_pow hp]

theorem isFinite_pow_of_le {p : Nat} (hp : p ≤ 308) : (Float.ofNat (10 ^ p)).isFinite = true := by
  obtain ⟨_, hlargest, _⟩ := isFinite_landmarks
  obtain ⟨q, hq⟩ : ∃ q, q = 308 := ⟨308, rfl⟩
  rw [← hq] at hp hlargest
  exact Double.isFinite_ofNat_of_le (Nat.pow_le_pow_right (by decide) hp) hlargest

theorem two_le_powerOfTen {p : Nat} (hpos : 0 < p) (hp : p ≤ 308) : 2.0 ≤ powerOfTen p := by
  have htwo : Double.levelOf? 2.0 = some (Double.naturalLevel 2 : Int) := by decide +kernel
  have hle : 2 ≤ 10 ^ p := le_trans (by decide) (Nat.pow_le_pow_right (by decide) hpos)
  rw [powerOfTen_eq hp]
  exact Double.le_iff.2 ⟨_, _, htwo, Double.levelOf?_ofNat _,
    Int.ofNat_le.2 (Double.naturalLevel_mono hle)⟩

/-! ### Scaling -/

/-- Dividing by powers of ten stays finite. By recursion on the places: at most 308
    of them are taken at a time. -/
theorem isFinite_scaleDown {x : Float} {n : Nat} (hx : x.isFinite = true) (hn : 0 < n) :
    (scaleDown x n).isFinite = true := by
  induction n using Nat.strong_induction_on generalizing x with
  | _ n ih =>
      rw [scaleDown]
      by_cases hsmall : n ≤ 308
      · rw [if_pos hsmall]
        exact Double.isFinite_div hx (two_le_powerOfTen hn hsmall)
      · rw [if_neg hsmall]
        split
        · exact hx
        · have hquotient := Double.isFinite_div hx (two_le_powerOfTen (by decide) (le_refl 308))
          exact ih (n - 308) (by omega) hquotient (by omega)

theorem isFinite_ofNat_of_lt {n : Nat} (h : n < Text.wordLimit) :
    (Float.ofNat n).isFinite = true :=
  Double.isFinite_ofNat_of_le h.le isFinite_landmarks.1

/-- What is not above the summit can be multiplied. -/
theorem scaleUp?_of_le {significand p : Nat} (hword : significand < Text.wordLimit)
    (h : significand * 10 ^ p ≤ summit) :
    ∃ x, scaleUp? (Float.ofNat significand) p = some x ∧ x.isFinite = true := by
  have hfinite := isFinite_ofNat_of_lt hword
  rw [scaleUp?]
  by_cases hp : p ≤ 308
  · have hproduct : (Float.ofNat significand * powerOfTen p).isFinite = true := by
      rw [powerOfTen_eq hp]
      have hplace : anyPlace = 288 := rfl
      by_cases hsmall : p ≤ anyPlace
      · exact Double.isFinite_ofNat_mul_ofNat (Nat.le_pred_of_lt hword)
          (Nat.pow_le_pow_right (by decide) hsmall) (isFinite_ofNat_of_lt (by decide))
          (isFinite_pow_of_le (by decide)) isFinite_landmarks.2.2.1
      · rcases Nat.exists_eq_add_of_le (Nat.succ_le_of_lt (Nat.not_le.1 hsmall)) with ⟨k, rfl⟩
        have hle : significand ≤ summit / 10 ^ (anyPlace + 1 + k) :=
          (Nat.le_div_iff_mul_le (Nat.pow_pos (by decide))).2 h
        have hpow : 10 ^ (anyPlace + 1) ≤ 10 ^ (anyPlace + 1 + k) :=
          Nat.pow_le_pow_right (by decide) (Nat.le_add_right _ _)
        have hrange : summit / 10 ^ (anyPlace + 1 + k) < Text.wordLimit :=
          (Nat.div_le_div_left hpow (Nat.pow_pos (by decide))).trans_lt summit_bounds.2.2
        exact Double.isFinite_ofNat_mul_ofNat hle le_rfl (isFinite_ofNat_of_lt hrange)
          (isFinite_pow_of_le hp) (isFinite_landmarks.2.2.2 k (by omega))
    rw [if_pos hp]
    simp only [hproduct, if_true]
    exact ⟨_, rfl, hproduct⟩
  · -- Nothing but zero is below the summit.
    have hzero : significand = 0 := by
      by_contra hne
      have hplace : anyPlace = 288 := rfl
      have hpow : 10 ^ (anyPlace + 21) ≤ 10 ^ p := Nat.pow_le_pow_right (by decide) (by omega)
      have hsummit : summit < 10 ^ (anyPlace + 21) := summit_bounds.2.1
      have hle : 10 ^ p ≤ significand * 10 ^ p :=
        Nat.le_mul_of_pos_left _ (Nat.pos_of_ne_zero hne)
      omega
    rw [if_neg hp, hzero, if_pos (by decide)]
    exact ⟨_, rfl, isFinite_ofNat_of_lt (by decide)⟩

/-! ### Reading -/

theorem isFinite_withSign (n : Numeral) {x : Float} (h : x.isFinite = true) :
    (n.withSign x).isFinite = true := by
  rw [withSign]
  split
  · exact Double.isFinite_neg h
  · exact h

/-- What is gathered from the digits of a numeral, times the power of ten that is
    left, is not above its value. -/
theorem gather_le {n : Numeral} {bound p : Nat} (hvalue : n.value ≤ bound)
    (hp : n.power.getD 0 + (gather (Nat.ofDigitChars 10 n.whole 0) n.fraction).2 -
      n.fraction.length = p) :
    (gather (Nat.ofDigitChars 10 n.whole 0) n.fraction).1 * 10 ^ p ≤ bound := by
  obtain ⟨left, hleft⟩ : ∃ left, left = gather (Nat.ofDigitChars 10 n.whole 0) n.fraction :=
    ⟨_, rfl⟩
  have hgather := gather_mul_le (Nat.ofDigitChars 10 n.whole 0) n.fraction
  rw [← Nat.ofDigitChars_append, ← hleft] at hgather
  rw [← hleft] at hp ⊢
  rw [value] at hvalue
  have hpow : (0 : ℚ) < 10 ^ (n.power.getD 0 - n.fraction.length) := zpow_pos (by norm_num) _
  have hplace : (left.2 : Int) + (n.power.getD 0 - n.fraction.length) = p := by omega
  have hcast : (left.1 * 10 ^ p : ℚ) ≤ bound := by
    calc (left.1 * 10 ^ p : ℚ)
        = (left.1 * 10 ^ left.2 : Nat) * 10 ^ (n.power.getD 0 - n.fraction.length) := by
          rw [← zpow_natCast, ← hplace, zpow_add₀ (by norm_num), zpow_natCast]
          push_cast
          ring
      _ ≤ Nat.ofDigitChars 10 (n.whole ++ n.fraction) 0 *
            10 ^ (n.power.getD 0 - n.fraction.length) :=
          mul_le_mul_of_nonneg_right (Nat.cast_le.2 hgather) hpow.le
      _ ≤ bound := hvalue
  exact_mod_cast hcast

/-- A numeral with few digits in front of the point is read as a finite double
    unless it is too large. -/
theorem coarse?_of_le {n : Numeral} (hshort : n.Short) (hvalue : n.value ≤ summit) :
    ∃ x, n.coarse? = some x ∧ x.isFinite = true := by
  have hword : (gather (Nat.ofDigitChars 10 n.whole 0) n.fraction).1 < Text.wordLimit := by
    refine gather_lt _ ?_
    have hwhole : (gather 0 n.whole).1 = Nat.ofDigitChars 10 n.whole 0 :=
      congrArg Prod.fst hshort.gather_whole
    rw [← hwhole]
    exact gather_lt _ (by decide)
  simp only [coarse?, hshort.gather_whole]
  split
  · next hplace =>
    -- The digits are scaled up, by what is left of the power.
    obtain ⟨p, hp⟩ := Int.eq_ofNat_of_zero_le hplace
    rcases scaleUp?_of_le hword (gather_le (p := p) hvalue (by omega)) with ⟨x, hx, hfinite⟩
    rw [hp, Int.toNat_natCast, hx, Option.map_some]
    exact ⟨_, rfl, isFinite_withSign n hfinite⟩
  · next hplace =>
    exact ⟨_, rfl, isFinite_withSign n (isFinite_scaleDown (isFinite_ofNat_of_lt hword) (by omega))⟩

end Numeral

/-! ### Doubles -/

/-- The exponent of a double stands above the 52 bits of its mantissa. -/
theorem isFinite_iff_bits {x : Float} :
    x.isFinite = true ↔ x.toBits.toNat / Binary.fractionUnits % 2048 ≠ 2047 := by
  have hfield : (@unpackExponent Format.binary64 x.toBits.toBitVec).toNat =
      x.toBits.toNat / Binary.fractionUnits % 2048 := by
    change (BitVec.extractLsb 62 52 x.toBits.toBitVec).toNat = _
    rw [BitVec.extractLsb_toNat, Nat.shiftRight_eq_div_pow]
    rfl
  have hones : (-1#11 : BitVec 11).toNat = 2047 := rfl
  change (UnpackedFloat.unpack Format.binary64 x.toBits.toBitVec).isFinite = true ↔ _
  rw [Double.isFinite_unpack_iff, ← hfield, ne_eq, ne_eq, ← hones, BitVec.toNat_inj]

/-- The bits of the largest double. -/
def largest : Nat := 0x7FEFFFFFFFFFFFFF

/-- A number with a small significand and a small exponent. -/
theorem mul_zpow_le {k : Nat} {e : Int} (most power : Nat) (hk : k ≤ most) (he : e ≤ power) :
    (k : ℚ) * 2 ^ e ≤ (most * 2 ^ power : Nat) := by
  have hpow : (2 : ℚ) ^ e ≤ 2 ^ power := by
    rw [← zpow_natCast]
    exact zpow_le_zpow_right₀ (by norm_num) he
  push_cast
  exact mul_le_mul (Nat.cast_le.2 hk) hpow (zpow_pos (by norm_num) _).le (Nat.cast_nonneg _)

/-- The middle above a finite double is not above the summit, unless it is the
    largest one, with either sign. -/
theorem above_ofFloat_le {x : Float} (hx : x.isFinite = true)
    (hlargest : x.toBits.toNat % 2 ^ 63 ≠ largest) : (Binary.ofFloat x).above ≤ Numeral.summit := by
  have hunits : Binary.fractionUnits = 2 ^ 52 := rfl
  have hbits : largest = 2046 * 2 ^ 52 + (2 ^ 52 - 1) := rfl
  rw [isFinite_iff_bits, hunits] at hx
  -- The largest mantissa and the largest exponent do not come together.
  have hmost : ((Binary.ofFloat x).significand ≤ 2 ^ 53 - 2 ∧ (Binary.ofFloat x).exponent ≤ 971) ∨
      ((Binary.ofFloat x).significand ≤ 2 ^ 53 - 1 ∧ (Binary.ofFloat x).exponent ≤ 970) := by
    simp only [Binary.ofFloat, hunits]
    split
    · simp only
      omega
    · simp only
      omega
  rcases hmost with ⟨hsignificand, hexponent⟩ | ⟨hsignificand, hexponent⟩
  · exact (mul_zpow_le (4 * (2 ^ 53 - 2) + 2) 969 (by omega) (by omega)).trans
      (Nat.cast_le.2 Numeral.summit_bounds.1.1)
  · exact (mul_zpow_le (4 * (2 ^ 53 - 1) + 2) 968 (by omega) (by omega)).trans
      (Nat.cast_le.2 Numeral.summit_bounds.1.2)

theorem isFinite_reread_largest :
    (reread (Float.ofBits (UInt64.ofNat largest))).isFinite = true ∧
      (reread (Float.ofBits (UInt64.ofNat (2 ^ 63 + largest)))).isFinite = true := by
  decide +kernel

/-- The numeral of a double has few digits in front of the point, and is not above
    the middle to the next double. -/
theorem Numeral.ofFloat_spec (x : Float) :
    (Numeral.ofFloat x).Short ∧ (Numeral.ofFloat x).value ≤ (Binary.ofFloat x).above := by
  simp only [Numeral.ofFloat]
  split
  · have hdigits : ∀ c ∈ ['0'], c.isDigit = true := List.forall_mem_singleton.2 rfl
    have hlength : ['0'].length ≤ 16 := by decide
    refine ⟨⟨hdigits, hlength⟩, ?_⟩
    have hzero : Nat.ofDigitChars 10 (['0'] ++ ['0']) 0 = 0 := rfl
    rw [Numeral.value, hzero, Nat.cast_zero, zero_mul, Binary.above]
    positivity
  · refine ⟨Numeral.short_ofScaled _ _, ?_⟩
    rw [Numeral.value_ofScaled, Scaled.value_stripZeros]
    exact Binary.value_shortest_le _ _

/-- A finite double comes back finite from a record. -/
theorem isFinite_reread {x : Float} (hx : x.isFinite = true) : (reread x).isFinite = true := by
  by_cases hlargest : x.toBits.toNat % 2 ^ 63 = largest
  · -- The largest double has one of two signs.
    have hlt : x.toBits.toNat < 2 ^ 64 := x.toBits.toNat_lt
    have hx' : x = Float.ofBits (UInt64.ofNat x.toBits.toNat) := by
      rw [UInt64.ofNat_toNat, Float.ofBits_toBits]
    have hsigns : x.toBits.toNat = largest ∨ x.toBits.toNat = 2 ^ 63 + largest := by omega
    rcases hsigns with hpositive | hnegative
    · rw [hx', hpositive]
      exact isFinite_reread_largest.1
    · rw [hx', hnegative]
      exact isFinite_reread_largest.2
  · rcases Numeral.ofFloat_spec x with ⟨hshort, hvalue⟩
    rcases Numeral.coarse?_of_le hshort (hvalue.trans (above_ofFloat_le hx hlargest)) with
      ⟨y, hy, hfinite⟩
    rw [reread, if_pos hx, hy, Option.getD_some]
    exact hfinite

end Decimal

end Rescale
