import Rescale.Text.Digits
import Rescale.Time.Calendar
import Rescale.Time.Span

/-!
# Instants

Points in time, counted in milliseconds from the Unix epoch.

Instants order decisions, so they are compared as the integers they are, and
they are negative before 1970. Their text is RFC 3339 in UTC, with a fraction
only when there is one. Years of up to four digits are written with four;
any other year takes a sign, as ISO 8601 asks for expanded years.

A clock may run finer than that. Its parts of a millisecond are left out here, and
so are the texts with six or nine digits behind the point that would spell them.
Decisions go by the order of instants and by the lengths between them.

## Main definitions

* `Instant`: A point in time.
* `Instant.since`: The span between two instants, or nothing if it is negative.
* `Instant.secondOfDay`: The second of the UTC day.
* `Instant.toText`: RFC 3339 text, with a chosen spelling of UTC.
* `Instant.ofText?`: Read such a text.
-/

namespace Rescale

/-- A point in time, in milliseconds from 1970-01-01T00:00:00Z. -/
structure Instant where
  millis : Int
  deriving DecidableEq, Repr

namespace Instant

instance : Inhabited Instant := ⟨⟨0⟩⟩

instance : Ord Instant := ⟨fun a b => compare a.millis b.millis⟩

instance : Std.TransOrd Instant :=
  inferInstanceAs (Std.TransCmp (compareOn Instant.millis))

instance : Std.LawfulEqOrd Instant where
  eq_of_compare {a b} h := by
    cases a; cases b
    exact congrArg Instant.mk (Std.LawfulEqOrd.eq_of_compare (α := Int) h)

/-- The span from `start` to `i`, unless `i` is the earlier one. -/
def since? (i start : Instant) : Option Span :=
  if i.millis < start.millis then none else some ⟨(i.millis - start.millis).toNat⟩

/-- The span from `start` to `i`, and none at all if `i` is the earlier one. -/
def since (i start : Instant) : Span := ⟨(i.millis - start.millis).toNat⟩

/-- An instant some time later. -/
def add (i : Instant) (s : Span) : Instant := ⟨i.millis + s.millis⟩

/-- The number of the UTC day, rounded down. -/
def day (i : Instant) : Int := i.millis / 86400000

/-- The millisecond of the UTC day. -/
def milliOfDay (i : Instant) : Nat := (i.millis % 86400000).toNat

/-- The second of the UTC day; fractions of a second are dropped. -/
def secondOfDay (i : Instant) : Nat := i.milliOfDay / 1000

/-- A year with at least four digits, and with a sign if four are too few. -/
def yearText (y : Int) : List Char :=
  if y < 0 then '-' :: Text.padded 4 y.natAbs
  else if 9999 < y then '+' :: Text.padded 4 y.toNat
  else Text.padded 4 y.toNat

/-- RFC 3339 text; `utc` is the spelling of the time zone. -/
def toText (utc : String) (i : Instant) : String :=
  let date := CivilDate.ofDays i.day
  let second := i.secondOfDay
  let fraction := i.milliOfDay % 1000
  String.ofList <|
    yearText date.year ++ ['-'] ++ Text.padded 2 date.month ++ ['-'] ++ Text.padded 2 date.day
      ++ ['T'] ++ Text.padded 2 (second / 3600) ++ [':'] ++ Text.padded 2 (second / 60 % 60)
      ++ [':'] ++ Text.padded 2 (second % 60)
      ++ (if fraction == 0 then [] else '.' :: Text.padded 3 fraction)
      ++ utc.toList

/-- The text of an instant inside stored and printed records. -/
def recordText (i : Instant) : String := i.toText "Z"

/-- The text of an instant in listings, with UTC as an offset. -/
def listingText (i : Instant) : String := i.toText "+00:00"

/-- Years with more than six digits are out of range, on both sides of year 0. -/
def yearLimit : Nat := 1000000

/-- A two-digit field and the rest behind it. -/
def twoDigits? : List Char → Option (Nat × List Char)
  | a :: b :: rest => (Text.natural? 100 [a, b]).map (·, rest)
  | _ => none

/-- A field of two digits that follows the mark `c`. -/
def fieldAfter? (c : Char) : List Char → Option (Nat × List Char)
  | c' :: rest => if c == c' then twoDigits? rest else none
  | [] => none

/-- The sign of a year, and what is behind it. -/
def yearSign : List Char → Int × List Char
  | '-' :: rest => (-1, rest)
  | '+' :: rest => (1, rest)
  | rest => (1, rest)

/-- The three digits behind a point, or nothing if there is none. -/
def fraction? : List Char → Option (Nat × List Char)
  | '.' :: a :: b :: c :: rest => (Text.natural? 1000 [a, b, c]).map (·, rest)
  | rest => some (0, rest)

/-- Read the text that `recordText` writes. -/
def ofText? (s : String) : Option Instant := do
  let (sign, cs) := yearSign s.toList
  let year ← Text.natural? yearLimit (cs.takeWhile Text.isDigit)
  let (month, cs) ← fieldAfter? '-' (cs.dropWhile Text.isDigit)
  let (day, cs) ← fieldAfter? '-' cs
  let (hour, cs) ← fieldAfter? 'T' cs
  let (minute, cs) ← fieldAfter? ':' cs
  let (second, cs) ← fieldAfter? ':' cs
  let (milli, cs) ← fraction? cs
  if cs != ['Z'] then none
  else
    let days := CivilDate.toDays ⟨sign * year, month, day⟩
    some ⟨days * 86400000 + ((hour * 60 + minute) * 60 + second) * 1000 + milli⟩

end Instant

end Rescale
