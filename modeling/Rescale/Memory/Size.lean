import Rescale.Text.Blank
import Rescale.Text.Digits

/-!
# Memory Sizes

Amounts of memory in bytes, and the texts that settings use for them.

A size is a run of digits and a unit in either case: none or `b` for bytes, then
`k`, `m`, `g`, `t`, each also with a `b` behind it, for powers of 1024. Blanks
may surround the text and may stand in front of the unit. A size has 64 bits, so
a count that is too large for its unit has no reading. Written sizes use the
largest unit up to `g` that divides them.

## Main definitions

* `MemorySize.ofText?`: Read a size as settings write it.
* `MemorySize.text`: Write a size in its largest unit.
-/

namespace Rescale

namespace MemorySize

/-- The bytes of a kibibyte. -/
def kibibyte : Nat := 1024

/-- The bytes of a mebibyte. -/
def mebibyte : Nat := 1024 * kibibyte

/-- The bytes of a gibibyte. -/
def gibibyte : Nat := 1024 * mebibyte

/-- The bytes of a tebibyte. -/
def tebibyte : Nat := 1024 * gibibyte

/-- The bytes that a unit stands for, in lower case. -/
def unit? : List Char → Option Nat
  | [] => some 1
  | ['b'] => some 1
  | ['k'] => some kibibyte
  | ['k', 'b'] => some kibibyte
  | ['m'] => some mebibyte
  | ['m', 'b'] => some mebibyte
  | ['g'] => some gibibyte
  | ['g', 'b'] => some gibibyte
  | ['t'] => some tebibyte
  | ['t', 'b'] => some tebibyte
  | _ => none

/-- The lower case of an ASCII letter; other characters stay. -/
def lower (c : Char) : Char :=
  if 'A' ≤ c && c ≤ 'Z' then Char.ofNat (c.toNat + 32) else c

/-- Read a size as settings write it. -/
def ofText? (s : String) : Option Nat :=
  let cs := (Text.trim s.toList).map lower
  match Text.natural? Text.wordLimit (cs.takeWhile Text.isDigit),
      unit? (Text.trim (cs.dropWhile Text.isDigit)) with
  | some count, some unit => if count * unit < Text.wordLimit then some (count * unit) else none
  | _, _ => none

/-- Write a size in the largest unit that divides it. -/
def text (bytes : Nat) : String :=
  if 0 < bytes && bytes % gibibyte == 0 then String.ofList (Text.digits (bytes / gibibyte) ++ ['g'])
  else if 0 < bytes && bytes % mebibyte == 0 then
    String.ofList (Text.digits (bytes / mebibyte) ++ ['m'])
  else if 0 < bytes && bytes % kibibyte == 0 then
    String.ofList (Text.digits (bytes / kibibyte) ++ ['k'])
  else String.ofList (Text.digits bytes ++ ['b'])

end MemorySize

end Rescale
