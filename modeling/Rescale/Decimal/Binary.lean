/-!
# Doubles as Exact Numbers

The exact value of a binary64 number, and the real numbers that round to it.

Texts show floating-point quantities in decimal, and which decimal is right is a
question about exact numbers. A finite double is a natural number times a power
of two, so it is decoded once into that form, and everything after that is
arithmetic on naturals.

## Main definitions

* `Binary`: A finite non-negative double.
* `Binary.ofFloat`: Decode the magnitude of a finite double.
* `Binary.compareScaled`: Compare a decimal with a scaled power of two.
* `Binary.readsBack`: Whether a decimal lies among the reals that round to a
  double.
-/

namespace Rescale

namespace Decimal

/-- A finite non-negative double, `significand * 2 ^ exponent`. -/
structure Binary where
  significand : Nat
  exponent : Int
  /-- The next double below is half as far away as the next one above. -/
  narrowBelow : Bool
  deriving DecidableEq, Repr

/-- The part of a power that stands above the fraction line. With a negative
    exponent that is one, and the power stands below, as `power base (-e)`. -/
def power (base : Nat) (e : Int) : Nat := Nat.pow base e.toNat

/-- A decimal number, `digits * 10 ^ exponent`. -/
structure Scaled where
  digits : Nat
  exponent : Int
  deriving DecidableEq, Repr

namespace Binary

/-- The number of doubles in a binade, which is two to the 52nd. -/
def fractionUnits : Nat := 4503599627370496

/-- Whether the sign of a double is a minus, which zeros have too. -/
def isNegative (x : Float) : Bool := x.toBits.toNat / (fractionUnits * 2048) == 1

/-- The magnitude of a finite double. Not-a-numbers and infinities have none,
    so callers test for them first. -/
def ofFloat (x : Float) : Binary :=
  let bits := x.toBits.toNat
  let biased : Nat := bits / fractionUnits % 2048
  let fraction : Nat := bits % fractionUnits
  if biased == 0 then ⟨fraction, -1074, false⟩
  else ⟨fractionUnits + fraction, (biased : Int) - 1075, fraction == 0 && biased > 1⟩

/-- Compare `a * 10 ^ i` with `b * 2 ^ j`, by bringing both over the same
    denominator. -/
def compareScaled (a : Nat) (i : Int) (b : Nat) (j : Int) : Ordering :=
  compare (a * power 10 i * power 2 (-j)) (b * power 2 j * power 10 (-i))

/-- Whether a decimal lies among the reals that round to this double: between
    the midpoints to its neighbours, the midpoints included when the significand
    is even. -/
def readsBack (x : Binary) (d : Scaled) : Bool :=
  let low := if x.narrowBelow then 4 * x.significand - 1 else 4 * x.significand - 2
  let high := 4 * x.significand + 2
  let closed := x.significand % 2 == 0
  let atLow := compareScaled d.digits d.exponent low (x.exponent - 2)
  let atHigh := compareScaled d.digits d.exponent high (x.exponent - 2)
  (atLow == .gt || (closed && atLow == .eq)) && (atHigh == .lt || (closed && atHigh == .eq))

end Binary

end Decimal

end Rescale
