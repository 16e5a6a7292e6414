import Rescale.Proofs.Decimal.Value
import Rescale.Proofs.Text.Padded

/-!
# How Numbers are Spelled

The numerals that numbers are written with follow the rules for numerals.

A document may spell a number in many ways, but not with zeros in front. Digits of a
number that is not zero begin with another digit, so the rule can only be broken by
what is put around them. Zeros stand behind the digits or, in front of a point, one
at a time. What would break it is a double whose shortest decimal has no digit but
zeros, and a decimal that reads back as a double is not zero unless the double is.

## Main definitions

* `Numeral.Spelled`: A numeral follows the rules.

## Theorems

* `length_digits_of_head?`: Digits do not begin with a zero that is not the only one.
* `Binary.shortest_ne_zero`: The shortest decimal of a double has a digit.
* `Numeral.spelled_cut`: Digits with a point between them are spelled well.
* `Numeral.spelled_ofInt`, `Numeral.spelled_ofFloat`: Numbers are spelled well.
* `Numeral.int?_ofInt`: A whole number is read as it was written.
-/

namespace Rescale

namespace Text

/-- Digits do not begin with a zero that is not the only one: without it there would be
    as many digits less, and they are as few as can be. -/
theorem length_digits_of_head? {n : Nat} (h : (digits n).head? = some '0') :
    (digits n).length = 1 := by
  obtain ⟨ds, hds⟩ := List.head?_eq_some_iff.1 h
  cases ds with
  | nil => rw [hds]; rfl
  | cons d ds =>
      have hdigits : ∀ c ∈ d :: ds, c.isDigit = true := fun c hc =>
        Nat.isDigit_of_mem_toDigits (by decide) (by decide) (hds ▸ List.mem_cons_of_mem _ hc)
      have hvalue : Nat.ofDigitChars 10 (d :: ds) 0 = n := by
        have hall : Nat.ofDigitChars 10 (digits n) 0 = n := Nat.ofDigitChars_ten_toDigits
        rwa [hds, Nat.ofDigitChars_cons] at hall
      have hlt := ofDigitChars_lt hdigits 0
      rw [hvalue, Nat.zero_add, Nat.one_mul] at hlt
      have hshort : (digits n).length ≤ (d :: ds).length :=
        (Nat.length_toDigits_le_iff (by decide) (Nat.succ_pos _)).2 hlt
      rw [hds] at hshort
      exact absurd hshort (Nat.not_succ_le_self _)

theorem head?_digits {n : Nat} (h : n ≠ 0) : (digits n).head? ≠ some '0' := by
  intro hzero
  obtain ⟨c, hc⟩ := List.length_eq_one_iff.1 (length_digits_of_head? hzero)
  rw [hc, List.head?_cons, Option.some.injEq] at hzero
  have hvalue : Nat.ofDigitChars 10 (digits n) 0 = n := Nat.ofDigitChars_ten_toDigits
  rw [hc, hzero] at hvalue
  exact h hvalue.symm

end Text

namespace Decimal

/-! ### Shortest decimals -/

namespace Binary

/-- What reads back as a double is not zero, unless the double is. -/
theorem digits_ne_zero_of_readsBack {x : Binary} {d : Scaled} (hx : x.significand ≠ 0)
    (h : x.readsBack d = true) : d.digits ≠ 0 := by
  intro hzero
  obtain ⟨low, hlow, hpos⟩ : ∃ low, low =
      (if x.narrowBelow then 4 * x.significand - 1 else 4 * x.significand - 2) ∧ 0 < low := by
    refine ⟨_, rfl, ?_⟩
    split <;> omega
  have hbelow : compareScaled 0 d.exponent low (x.exponent - 2) = .lt := by
    rw [compareScaled, Nat.zero_mul, Nat.zero_mul, compare_lt_iff_lt]
    exact Nat.mul_pos (Nat.mul_pos hpos (power_pos (by decide) _)) (power_pos (by decide) _)
  simp only [readsBack, hzero, ← hlow, hbelow, Bool.and_eq_true, Bool.or_eq_true] at h
  rcases h with ⟨hgt | ⟨_, heq⟩, _⟩
  · cases hgt
  · cases heq

/-- The shortest decimal of a double has a digit that is not zero. -/
theorem shortest_ne_zero (tie : Tie) {x : Binary} (hx : x.significand ≠ 0) :
    (x.shortest tie).digits ≠ 0 := by
  rw [shortest]
  cases hfound : (List.range 17).findSome? fun n : Nat =>
      x.nearestOn? tie (x.leadingPlace - (n + 1)) with
  | some d =>
      obtain ⟨n, _, hgrid⟩ := List.exists_of_findSome?_eq_some hfound
      exact digits_ne_zero_of_readsBack hx (readsBack_of_nearestOn? hgrid)
  | none =>
      rw [Option.getD_none, exact]
      split
      · exact Nat.mul_ne_zero hx (power_pos (by decide) _).ne'
      · exact Nat.mul_ne_zero hx (power_pos (by decide) _).ne'

end Binary

/-- Moving zeros into the exponent leaves a digit. By induction on their number. -/
theorem Scaled.stripZeros_ne_zero (steps : Nat) {d : Scaled} (h : d.digits ≠ 0) :
    (stripZeros steps d).digits ≠ 0 := by
  induction steps generalizing d with
  | zero => exact h
  | succ steps ih =>
      rw [stripZeros]
      split
      · next hzero =>
        rw [Bool.and_eq_true, beq_iff_eq] at hzero
        exact ih (d := ⟨d.digits / 10, d.exponent + 1⟩) (by simp only; omega)
      · exact h

/-! ### Numerals -/

namespace Numeral

/-- A numeral follows the rules: there are digits in front of the point, with no zero
    before others, and there is nothing but digits behind it. -/
structure Spelled (n : Numeral) : Prop where
  ne_nil : n.whole ≠ []
  whole : ∀ c ∈ n.whole, Text.isDigit c = true
  noZeros : n.whole.head? = some '0' → n.whole.length = 1
  fraction : ∀ c ∈ n.fraction, Text.isDigit c = true

theorem isDigit_of_mem_zeros {k : Nat} {c : Char} (h : c ∈ List.replicate k '0') :
    Text.isDigit c = true := by
  rw [List.eq_of_mem_replicate h]
  rfl

theorem spelled_ofInt (n : Int) : (ofInt n).Spelled where
  ne_nil := Text.digits_ne_nil _
  whole := fun _ => Text.isDigit_of_mem_digits
  noZeros := Text.length_digits_of_head?
  fraction := nofun

section Digits

variable {negative : Bool} {ds : List Char} (hdigits : ∀ c ∈ ds, Text.isDigit c = true)

include hdigits

/-- Digits with a point between them are spelled well, if there is one in front of the
    point and no zero stands before others there. -/
theorem spelled_cut {k : Nat} {power : Option Int} (hne : 0 < (ds.take k).length)
    (hzero : (ds.take k).head? = some '0' → (ds.take k).length = 1) :
    Spelled ⟨negative, ds.take k, ds.drop k, power⟩ where
  ne_nil := List.length_pos_iff.1 hne
  whole := fun c hc => hdigits c (List.mem_of_mem_take hc)
  noZeros := hzero
  fraction := fun c hc => hdigits c (List.mem_of_mem_drop hc)

variable (hhead : ds.head? ≠ some '0')

include hhead

/-- Zeros behind the digits. -/
theorem spelled_append (hne : ds ≠ []) (k : Nat) :
    Spelled ⟨negative, ds ++ List.replicate k '0', ['0'], none⟩ where
  ne_nil := List.append_ne_nil_of_left_ne_nil hne _
  whole := fun c hc => (List.mem_append.1 hc).elim (hdigits c) isDigit_of_mem_zeros
  noZeros := fun hzero => absurd (List.head?_append_of_ne_nil _ hne ▸ hzero) hhead
  fraction := fun _ => isDigit_of_mem_zeros (k := 1)

/-- Zeros before the digits, of which one is left in front of the point unless there
    are digits. -/
theorem spelled_padded {places : Nat} {padded : List Char}
    (hpadded : padded = List.replicate (places + 1 - ds.length) '0' ++ ds) :
    Spelled ⟨negative, padded.take (padded.length - places),
      padded.drop (padded.length - places), none⟩ := by
  have hlength : padded.length = places + 1 - ds.length + ds.length := by
    rw [hpadded, List.length_append, List.length_replicate]
  have hall : ∀ c ∈ padded, Text.isDigit c = true := fun c hc =>
    (List.mem_append.1 (hpadded ▸ hc)).elim isDigit_of_mem_zeros (hdigits c)
  refine spelled_cut hall ?_ fun hzero => ?_
  · rw [List.length_take]
    omega
  · by_cases hlong : places + 1 ≤ ds.length
    · rw [List.head?_take, if_neg (by omega), hpadded, Nat.sub_eq_zero_of_le hlong] at hzero
      exact absurd hzero hhead
    · rw [List.length_take]
      omega

end Digits

/-- A decimal that is not zero is spelled well, wherever the point stands. -/
theorem spelled_ofScaled (negative : Bool) {d : Scaled} (hd : d.digits ≠ 0) :
    (ofScaled negative d).Spelled := by
  have hpos : 0 < (Text.digits d.digits).length := Nat.length_toDigits_pos
  have hdigits : ∀ c ∈ Text.digits d.digits, Text.isDigit c = true :=
    fun _ => Text.isDigit_of_mem_digits
  have hhead := Text.head?_digits hd
  simp only [ofScaled]
  split
  · split
    · exact spelled_append hdigits hhead (Text.digits_ne_nil _) _
    · exact spelled_padded hdigits hhead rfl
  · -- One digit in front of the point, and a power that moves it.
    refine spelled_cut hdigits ?_ fun _ => ?_
    · rw [List.length_take]
      omega
    · rw [List.length_take]
      omega

theorem spelled_ofFloat (x : Float) : (ofFloat x).Spelled := by
  have hzero : ∀ c ∈ ['0'], Text.isDigit c = true := fun _ => isDigit_of_mem_zeros (k := 1)
  simp only [ofFloat]
  split
  · exact ⟨List.cons_ne_nil _ _, hzero, fun _ => rfl, hzero⟩
  · next hne =>
    rw [beq_iff_eq] at hne
    exact spelled_ofScaled _ (Scaled.stripZeros_ne_zero 20 (Binary.shortest_ne_zero .even hne))

/-- A whole number is read as it was written. -/
theorem int?_ofInt (n : Int) : (ofInt n).int? = some n := by
  have hvalue : Nat.ofDigitChars 10 (Text.digits n.natAbs) 0 = n.natAbs :=
    Nat.ofDigitChars_ten_toDigits
  simp only [int?, ofInt, isWhole, hvalue, List.isEmpty_nil, Option.isNone_none, Bool.and_self,
    Bool.not_true, Bool.false_or, Bool.and_eq_true, decide_eq_true_eq, beq_iff_eq]
  rw [if_neg (by omega)]
  split
  · exact congrArg some (by omega)
  · exact congrArg some (by omega)

end Numeral

end Decimal

end Rescale
