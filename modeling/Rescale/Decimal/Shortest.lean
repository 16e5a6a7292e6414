import Rescale.Decimal.Binary
import Rescale.Text.Digits

/-!
# Shortest Decimal Text

The fewest decimal digits that read back as the same double.

For one digit, two digits and so on, the two neighbours of the value on the
grid of that many digits are tested; the first grid with a hit wins, and of two
hits the nearer. If any point of a grid reads back then one of the value's two
neighbours on it does, so no shorter decimal exists. Seventeen digits are always
enough; should a search end without a hit, the exact value is written instead,
never a guess.

A large value that ends in a quarter can lie in the middle between two hits.
Which of them is taken differs between kinds of text, so it is an argument.

`plain` writes the digits positionally, however large or small the value is, and
without a fraction when there is none. It takes the upper one of two hits that
are as near as each other.

## Main definitions

* `Tie`: Which of two decimals at the same distance is taken.
* `Binary.leadingPlace`: The least power of ten above a value.
* `Binary.shortest`: The shortest decimal that reads back.
* `plain`: The positional text of a double.
-/

namespace Rescale

namespace Decimal

/-- Which of two neighbouring decimals at the same distance is taken. -/
inductive Tie where
  /-- The upper one. -/
  | up
  /-- The one whose last digit is even. -/
  | even
  deriving DecidableEq, Repr

namespace Tie

/-- Whether the lower one is taken, if that one has the given digits. -/
def takesLower (tie : Tie) (digits : Nat) : Bool :=
  match tie with
  | up => false
  | even => digits % 2 == 0

end Tie

namespace Binary

/-- Raise `k` until `10 ^ k` is above the value, at most `steps` times. -/
def raisePlace (x : Binary) : Nat → Int → Int
  | 0, k => k
  | steps + 1, k =>
    if compareScaled 1 k x.significand x.exponent == .gt then k else raisePlace x steps (k + 1)

/-- The least `k` with the value below `10 ^ k`. The binary logarithm gives a
    `k` that is at most three too small. -/
def leadingPlace (x : Binary) : Int :=
  let log := (Nat.log2 x.significand : Int) + x.exponent
  raisePlace x 6 (Int.fdiv (log * 30103) 100000 - 1)

/-- The decimal nearest to the value among its two neighbours on the grid
    `10 ^ e` that read back. -/
def nearestOn? (tie : Tie) (x : Binary) (e : Int) : Option Scaled :=
  let num := x.significand * power 2 x.exponent * power 10 (-e)
  let den := power 2 (-x.exponent) * power 10 e
  let below : Scaled := ⟨num / den, e⟩
  let above : Scaled := ⟨num / den + 1, e⟩
  match x.readsBack below, x.readsBack above with
  | true, true =>
    match compare (2 * (num % den)) den with
    | .lt => some below
    | .eq => some (if tie.takesLower below.digits then below else above)
    | .gt => some above
  | true, false => some below
  | false, true => some above
  | false, false => none

/-- The value itself as a decimal. -/
def exact (x : Binary) : Scaled :=
  if 0 ≤ x.exponent then ⟨x.significand * power 2 x.exponent, 0⟩
  else ⟨x.significand * power 5 (-x.exponent), x.exponent⟩

/-- The shortest decimal that reads back as this double. -/
def shortest (tie : Tie) (x : Binary) : Scaled :=
  let k := x.leadingPlace
  ((List.range 17).findSome? fun n : Nat => x.nearestOn? tie (k - (n + 1))).getD x.exact

end Binary

/-- Move trailing zeros of the digits into the exponent, at most `steps` of
    them. -/
def Scaled.stripZeros : Nat → Scaled → Scaled
  | 0, d => d
  | steps + 1, d =>
    if d.digits != 0 && d.digits % 10 == 0 then stripZeros steps ⟨d.digits / 10, d.exponent + 1⟩
    else d

/-- A decimal written positionally, without an exponent. -/
def Scaled.positional (d : Scaled) : List Char :=
  let ds := Text.digits d.digits
  if 0 ≤ d.exponent then
    if d.digits == 0 then ['0'] else ds ++ List.replicate d.exponent.toNat '0'
  else
    let places := (-d.exponent).toNat
    let ds := List.replicate (places + 1 - ds.length) '0' ++ ds
    ds.take (ds.length - places) ++ ['.'] ++ ds.drop (ds.length - places)

/-- Put the sign of a double in front of the text of its magnitude, or write its
    name if it is no number. -/
def signed (x : Float) (magnitude : Binary → List Char) : String :=
  if x.isNaN then "NaN"
  else
    let sign := if Binary.isNegative x then ['-'] else []
    let body := if x.isInf then ['i', 'n', 'f'] else magnitude (Binary.ofFloat x)
    String.ofList (sign ++ body)

/-- The positional text of a double, with the fewest digits that read back. -/
def plain (x : Float) : String :=
  signed x fun m =>
    if m.significand == 0 then ['0'] else (Scaled.stripZeros 20 (m.shortest .up)).positional

end Decimal

end Rescale
