/-!
# The Civil Calendar

Days of the proleptic Gregorian calendar, counted from 1970-01-01.

The count starts the year in March, so that the leap day is the last day of a
year and the lengths of the months follow one line, and groups years in eras of
400, which all have the same 146097 days. All divisions round down, so dates
before the epoch need no case of their own.

## Main definitions

* `CivilDate`: A year, a month and a day.
* `CivilDate.daysBefore`, `CivilDate.yearAt`: The years of an era and their days.
* `CivilDate.ofDays`: The date of a day number.
* `CivilDate.toDays`: The day number of a date.
-/

namespace Rescale

/-- A date of the Gregorian calendar. Year 0 is the year before year 1. -/
structure CivilDate where
  year : Int
  month : Nat
  day : Nat
  deriving DecidableEq, Repr

namespace CivilDate

/-- The days of an era in front of a year of it. -/
def daysBefore (yearOfEra : Nat) : Nat := yearOfEra * 365 + yearOfEra / 4 - yearOfEra / 100

/-- The year of an era that a day of it falls in. -/
def yearAt (dayOfEra : Nat) : Nat :=
  (dayOfEra - dayOfEra / 1460 + dayOfEra / 36524 - dayOfEra / 146096) / 365

/-- The date of the `n`-th day after 1970-01-01. -/
def ofDays (n : Int) : CivilDate :=
  let shifted := n + 719468
  let era := shifted / 146097
  let dayOfEra := (shifted % 146097).toNat
  let yearOfEra := yearAt dayOfEra
  let dayOfYear := dayOfEra - daysBefore yearOfEra
  let march := (5 * dayOfYear + 2) / 153
  let month := if march < 10 then march + 3 else march - 9
  let year := (yearOfEra : Int) + era * 400 + (if month ≤ 2 then 1 else 0)
  ⟨year, month, dayOfYear - (153 * march + 2) / 5 + 1⟩

/-- The number of days from 1970-01-01 to a date. -/
def toDays (d : CivilDate) : Int :=
  let year := if d.month ≤ 2 then d.year - 1 else d.year
  let era := year / 400
  let yearOfEra := (year % 400).toNat
  let march := if d.month > 2 then d.month - 3 else d.month + 9
  let dayOfYear := (153 * march + 2) / 5 + d.day - 1
  let dayOfEra := daysBefore yearOfEra + dayOfYear
  era * 146097 + dayOfEra - 719468

end CivilDate

end Rescale
