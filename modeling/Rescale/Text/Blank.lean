/-!
# Blank Characters

The characters that count as space around a setting, and trimming by them.

The class is Unicode's `White_Space` property, so a no-break space or an
ideographic space around a duration is as harmless as a plain one. A zero
width space is not in it.

## Main definitions

* `isBlank`: Membership in `White_Space`.
* `trimStart`: Drop the blanks in front.
* `trim`: Drop the blanks at both ends.
-/

namespace Rescale

namespace Text

/-- Whether a character has Unicode's `White_Space` property. -/
def isBlank (c : Char) : Bool :=
  let n := c.toNat
  (0x09 ≤ n && n ≤ 0x0D) || n == 0x20 || n == 0x85 || n == 0xA0 || n == 0x1680
    || (0x2000 ≤ n && n ≤ 0x200A) || n == 0x2028 || n == 0x2029 || n == 0x202F
    || n == 0x205F || n == 0x3000

/-- Drop the blanks in front. -/
def trimStart (cs : List Char) : List Char := cs.dropWhile isBlank

/-- Drop the blanks behind. -/
def trimEnd (cs : List Char) : List Char := (cs.reverse.dropWhile isBlank).reverse

/-- Drop the blanks at both ends. -/
def trim (cs : List Char) : List Char := trimEnd (trimStart cs)

end Text

end Rescale
