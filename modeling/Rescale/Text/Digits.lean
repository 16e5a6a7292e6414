/-!
# Decimal Counts

Reading and writing natural numbers in decimal.

Settings and keys share one notion of a decimal number: a run of ASCII digits,
of any length, whose value has to stay below the bound that the reader states.
Digits of other scripts are not digits here.

The bounds are those of numbers with 32 and 64 bits. Where arithmetic on such
numbers leads beyond them and it matters, it wraps around, as in a build that does
not check for overflow.

## Main definitions

* `Text.natural?`: The value of a non-empty run of digits below a bound.
* `Text.count?`: The same after an optional plus sign.
* `Text.padded`: A number with leading zeros up to a width.
* `Text.wordLimit`: The bound of 64-bit numbers.

## Theorems

* `natural?_eq_some_iff`: A reading is the value of a run of digits that is not empty.
* `natural?_digits`: A written number below the bound reads back.
-/

namespace Rescale

namespace Text

/-- Whether a character is one of `0` to `9`. -/
def isDigit (c : Char) : Bool := '0' ≤ c && c ≤ '9'

/-- Numbers of 64 bits stay below this bound, two to the 64th. -/
def wordLimit : Nat := 18446744073709551616

/-- Numbers of 32 bits stay below this bound, two to the 32nd. -/
def halfWordLimit : Nat := 4294967296

/-- The value of a non-empty run of digits, if it is below `limit`. -/
def natural? (limit : Nat) (cs : List Char) : Option Nat :=
  if cs.isEmpty || !cs.all isDigit then none
  else
    let n := Nat.ofDigitChars 10 cs 0
    if n < limit then some n else none

/-- The value of a run of digits with an optional plus sign, if it is below
    `limit`. -/
def count? (limit : Nat) : List Char → Option Nat
  | '+' :: cs => natural? limit cs
  | cs => natural? limit cs

/-- The decimal digits of `n`, without leading zeros. -/
def digits (n : Nat) : List Char := Nat.toDigits 10 n

/-- The decimal digits of `n`, with zeros in front up to `width` places. -/
def padded (width n : Nat) : List Char :=
  List.replicate (width - (digits n).length) '0' ++ digits n

theorem digits_ne_nil (n : Nat) : digits n ≠ [] :=
  List.ne_nil_of_length_pos Nat.length_toDigits_pos

theorem isDigit_of_mem_digits {n : Nat} {c : Char} (h : c ∈ digits n) : isDigit c = true := by
  have := Nat.isDigit_of_mem_toDigits (by decide) (by decide) h
  simpa only [isDigit, Char.isDigit, Char.le_def, ge_iff_le] using this

/-- A reading is the value of a run of digits that is not empty. -/
theorem natural?_eq_some_iff {limit : Nat} {cs : List Char} {n : Nat} :
    natural? limit cs = some n ↔
      cs ≠ [] ∧ (∀ c ∈ cs, isDigit c = true) ∧ Nat.ofDigitChars 10 cs 0 = n ∧ n < limit := by
  unfold natural?
  split
  case isTrue h =>
    simp only [Bool.or_eq_true, List.isEmpty_iff, Bool.not_eq_true', List.all_eq_false] at h
    refine iff_of_false (by simp only [reduceCtorEq, not_false_eq_true]) ?_
    rintro ⟨hne, hall, -⟩
    rcases h with rfl | ⟨c, hc, hnot⟩
    · exact hne rfl
    · exact hnot (hall c hc)
  case isFalse h =>
    simp only [Bool.or_eq_true, List.isEmpty_iff, Bool.not_eq_true', not_or,
      Bool.not_eq_false, List.all_eq_true] at h
    simp only [Option.ite_none_right_eq_some, Option.some.injEq]
    constructor
    · rintro ⟨hlt, rfl⟩
      exact ⟨h.1, h.2, rfl, hlt⟩
    · rintro ⟨-, -, rfl, hlt⟩
      exact ⟨hlt, rfl⟩

/-- A written number below the bound reads back. -/
theorem natural?_digits {limit n : Nat} (h : n < limit) :
    natural? limit (digits n) = some n :=
  natural?_eq_some_iff.2 ⟨digits_ne_nil n, fun _ => isDigit_of_mem_digits,
    Nat.ofDigitChars_ten_toDigits, h⟩

end Text

end Rescale
