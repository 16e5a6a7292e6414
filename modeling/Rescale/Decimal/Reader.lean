/-!
# Reading Decimals as Doubles

The double nearest to a decimal number.

Numerals in documents can have any number of digits and any exponent. The value
is decided by where the leading digit stands: far above the largest double it is
infinite, far below the smallest it is zero, and only in between is the decimal
rounded, correctly, to the nearest double.

## Main definitions

* `Decimal.toFloat`: The double nearest to `m * 10 ^ e`.
* `Decimal.ofInt`: The double nearest to a whole number.
-/

namespace Rescale

namespace Decimal

/-- Positive infinity, the value of a numeral that is too large. -/
def infinity : Float := 1.0 / 0.0

/-- The double nearest to `m * 10 ^ e`. -/
def toFloat (m : Nat) (e : Int) : Float :=
  let place := (Nat.toDigits 10 m).length + e
  if m == 0 then 0.0
  else if 400 < place then infinity
  else if place < -400 then 0.0
  else Float.ofScientific m (e < 0) e.natAbs

/-- The double nearest to a whole number. -/
def ofInt (n : Int) : Float :=
  if n < 0 then -(toFloat n.natAbs 0) else toFloat n.natAbs 0

end Decimal

end Rescale
