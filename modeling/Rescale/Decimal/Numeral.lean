import Rescale.Decimal.Reader
import Rescale.Decimal.Shortest

/-!
# Numerals

Decimal numbers as documents spell them.

A numeral keeps its digits, on both sides of the point, and its power of ten, so
that it can be written as it was read. Which double it stands for is for the
reader to say, and there are two answers. `nearest` is the double nearest to the
numeral. `coarse?` takes one step: the leading digits, as many as stay below two
to the 64th, make a double, and that is multiplied with a power of ten or divided
by one. Where the digits stay below two to the 53rd and the power is at most 22,
both are exact and so the result is the nearest double; elsewhere it can be a
neighbour of it, or too large when the nearest double still is finite.

Records are written with the shortest numerals and read by the coarse rule, so a
double with many digits may come back as a neighbour. `reread` is what comes back.

## Main definitions

* `Numeral`: A decimal number as it is spelled.
* `Numeral.ofFloat`: The shortest numeral of a double.
* `Numeral.text`: The spelling.
* `Numeral.nearest`: The double nearest to a numeral.
* `Numeral.coarse?`: The double found in one scaling.
* `Decimal.reread`: What comes back of a double that was written.

## Theorems

* `gather_lt`: The leading digits of a numeral fit into 64 bits.
-/

namespace Rescale

namespace Decimal

/-- A decimal number as it is spelled. -/
structure Numeral where
  negative : Bool := false
  /-- The digits in front of the point. -/
  whole : List Char
  /-- The digits behind the point; a numeral without any has no point. -/
  fraction : List Char := []
  /-- The power of ten, if one is spelled. -/
  power : Option Int := none
  deriving DecidableEq, Repr

namespace Numeral

/-! ### Spelling -/

/-- The numeral of a whole number. -/
def ofInt (n : Int) : Numeral := { negative := n < 0, whole := Text.digits n.natAbs }

/-- The numeral of a decimal, with a mark of being no whole number: a fraction,
    or a power where the point would stand more than sixteen digits to the right
    or five to the left of the digits. -/
def ofScaled (negative : Bool) (d : Scaled) : Numeral :=
  let ds := Text.digits d.digits
  let point : Int := ds.length + d.exponent
  if -5 < point && point ≤ 16 then
    if 0 ≤ d.exponent then
      { negative, whole := ds ++ List.replicate d.exponent.toNat '0', fraction := ['0'] }
    else
      let places := (-d.exponent).toNat
      let ds := List.replicate (places + 1 - ds.length) '0' ++ ds
      { negative, whole := ds.take (ds.length - places), fraction := ds.drop (ds.length - places) }
  else { negative, whole := ds.take 1, fraction := ds.drop 1, power := some (point - 1) }

/-- The numeral of a finite double, with the fewest digits that the double is
    nearest to. Of two numerals as near as each other the even one is taken. -/
def ofFloat (x : Float) : Numeral :=
  let m := Binary.ofFloat x
  if m.significand == 0 then { negative := Binary.isNegative x, whole := ['0'], fraction := ['0'] }
  else ofScaled (Binary.isNegative x) (Scaled.stripZeros 20 (m.shortest .even))

/-- The spelling of a whole number. -/
def intText (n : Int) : List Char := (if n < 0 then ['-'] else []) ++ Text.digits n.natAbs

/-- The spelling of the digits behind the point. -/
def fractionText (fraction : List Char) : List Char :=
  if fraction.isEmpty then [] else '.' :: fraction

/-- The spelling of a power of ten. -/
def powerText : Option Int → List Char
  | some p => 'e' :: intText p
  | none => []

/-- The spelling of a numeral. -/
def text (n : Numeral) : List Char :=
  (if n.negative then ['-'] else []) ++ n.whole ++ fractionText n.fraction ++ powerText n.power

/-! ### Value -/

/-- Whether neither a fraction nor a power is spelled. -/
def isWhole (n : Numeral) : Bool := n.fraction.isEmpty && n.power.isNone

/-- The whole number that is spelled. A negative zero is none. -/
def int? (n : Numeral) : Option Int :=
  let value := Nat.ofDigitChars 10 n.whole 0
  if !n.isWhole || (n.negative && value == 0) then none
  else some (if n.negative then -value else value)

/-- Put the sign of a numeral to a magnitude. -/
def withSign (n : Numeral) (x : Float) : Float := if n.negative then -x else x

/-- The double nearest to a numeral; one that is too large is infinite. -/
def nearest (n : Numeral) : Float :=
  n.withSign <|
    toFloat (Nat.ofDigitChars 10 (n.whole ++ n.fraction) 0) (n.power.getD 0 - n.fraction.length)

/-- Append digits to a significand as long as it stays below two to the 64th: the
    significand, and the number of digits that are left over. -/
def gather (significand : Nat) : List Char → Nat × Nat
  | [] => (significand, 0)
  | c :: rest =>
    let longer := significand * 10 + (c.toNat - 48)
    if longer < Text.wordLimit then gather longer rest else (significand, rest.length + 1)

/-- A significand that is gathered fits into 64 bits, so it has a double without
    being cut first. -/
theorem gather_lt {significand : Nat} (ds : List Char) (h : significand < Text.wordLimit) :
    (gather significand ds).1 < Text.wordLimit := by
  induction ds generalizing significand with
  | nil => exact h
  | cons c rest ih =>
    rw [gather]
    by_cases hfits : significand * 10 + (c.toNat - 48) < Text.wordLimit
    · rw [if_pos hfits]
      exact ih hfits
    · rw [if_neg hfits]
      exact h

/-- A power of ten as a double. -/
def powerOfTen (n : Nat) : Float := toFloat 1 n

/-- Multiply with a power of ten, unless that leads out of the finite doubles. -/
def scaleUp? (x : Float) (n : Nat) : Option Float :=
  if n ≤ 308 then
    let y := x * powerOfTen n
    if y.isFinite then some y else none
  else if x == 0.0 then some x
  else none

/-- Divide by a power of ten, by 308 places at a time as long as there is
    something left to divide. -/
def scaleDown (x : Float) (n : Nat) : Float :=
  if n ≤ 308 then x / powerOfTen n
  else if x == 0.0 then x
  else scaleDown (x / powerOfTen 308) (n - 308)
termination_by n

/-- The double that is found by scaling the leading digits once; none if it is
    too large. -/
def coarse? (n : Numeral) : Option Float :=
  let (lead, cut) := gather 0 n.whole
  let (significand, cutFraction) := gather lead n.fraction
  let place : Int := n.power.getD 0 + cut + cutFraction - n.fraction.length
  let x := Float.ofNat significand
  (if 0 ≤ place then scaleUp? x place.toNat else some (scaleDown x place.natAbs)).map n.withSign

end Numeral

/-- What comes back of a double that was written into a record. A double that is
    too large to come back counts as infinite. -/
def reread (x : Float) : Float :=
  if x.isFinite then (Numeral.ofFloat x).coarse?.getD infinity else x

end Decimal

end Rescale
