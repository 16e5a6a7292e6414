import Rescale.Text.Blank
import Rescale.Text.Digits

/-!
# Time Spans

Lengths of time in whole milliseconds, and the texts that settings use for them.

A span is written as a count and a unit, as in `500ms`, `30s`, `5m` or `1h`; a
bare count is seconds. Blanks may surround the text and may stand between count
and unit, and the count may have a plus sign. The units end in different
letters except for `ms` and `s`, and a count ends in a digit, so a text has at
most one reading: look at the last letters, then read what is left as a count.

Settings cannot say less than a millisecond, and the lengths that are measured lie
between instants, which are whole milliseconds here too. Parts of a millisecond,
which a finer clock would bring into the records, are left out. The whole seconds of
a length have 64 bits, and a count of minutes or hours that leads beyond them wraps
around.

## Main definitions

* `Span`: A length of time.
* `Span.limit`: The bound of lengths whose seconds have 64 bits.
* `Span.ofText?`: Read a span as settings write it.
* `Span.seconds`: The length in seconds, as a double.
-/

namespace Rescale

/-- A length of time in milliseconds. -/
structure Span where
  millis : Nat
  deriving DecidableEq, Repr

namespace Span

instance : Inhabited Span := ⟨⟨0⟩⟩

/-- A whole number of seconds. -/
def ofSeconds (n : Nat) : Span := ⟨n * 1000⟩

/-- A whole number of minutes. -/
def ofMinutes (n : Nat) : Span := ofSeconds (n * 60)

/-- The whole seconds of a span. -/
def wholeSeconds (s : Span) : Nat := s.millis / 1000

/-- The nanoseconds beyond the whole seconds. -/
def nanos (s : Span) : Nat := s.millis % 1000 * 1000000

/-- The length in seconds, as a double. The seconds and the fraction are rounded
    apart and then added. -/
def seconds (s : Span) : Float :=
  Float.ofNat s.wholeSeconds + Float.ofNat s.nanos / 1000000000.0

/-- The longer of two spans. -/
def max (a b : Span) : Span := if a.millis ≤ b.millis then b else a

/-- The shorter of two spans. -/
def min (a b : Span) : Span := if b.millis ≤ a.millis then b else a

/-- Lengths whose whole seconds have 64 bits stay below so many milliseconds. -/
def limit : Nat := Text.wordLimit * 1000

/-- A count of units that are `unit` milliseconds long. -/
def ofCount? (unit : Nat) (cs : List Char) : Option Span :=
  (Text.count? Text.wordLimit (Text.trim cs)).map fun n => ⟨n * unit % limit⟩

/-- Read a span from its characters in reverse order, blanks removed. -/
def ofReversed? : List Char → Option Span
  | 's' :: 'm' :: r => ofCount? 1 r.reverse
  | 's' :: r => ofCount? 1000 r.reverse
  | 'm' :: r => ofCount? 60000 r.reverse
  | 'h' :: r => ofCount? 3600000 r.reverse
  | r => ofCount? 1000 r.reverse

/-- Read a span as settings write it. -/
def ofText? (s : String) : Option Span :=
  ofReversed? (Text.trim s.toList).reverse

end Span

end Rescale
