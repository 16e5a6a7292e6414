import Rescale.Decimal.Shortest

/-!
# A Fixed Number of Decimal Places

Rounding the exact value of a double to a number of places.

The rounding is done on the exact binary value, to the nearest decimal with that
many places, and a value halfway between two goes to the one with the even last
digit. So 0.125 has the two places 0.12, and 0.15 the one place 0.1, because the
double written 0.15 is a little below it. The sign stays even if nothing but
zeros is left behind it.

## Main definitions

* `roundDiv`: The nearest natural to a quotient, ties to even.
* `places`: The text of a double with a fixed number of places.
-/

namespace Rescale

namespace Decimal

/-- The natural number nearest to `num / den`; a tie goes to the even one. -/
def roundDiv (num den : Nat) : Nat :=
  let q := num / den
  let twice := 2 * (num % den)
  if twice < den then q else if den < twice then q + 1 else q + q % 2

/-- A value rounded to `n` places. -/
def Binary.roundTo (x : Binary) (n : Nat) : Nat :=
  roundDiv (x.significand * power 2 x.exponent * power 10 n) (power 2 (-x.exponent))

/-- The text of a double with exactly `n` decimal places. -/
def places (n : Nat) (x : Float) : String :=
  signed x fun m => (Scaled.mk (m.roundTo n) (-n)).positional

end Decimal

end Rescale
