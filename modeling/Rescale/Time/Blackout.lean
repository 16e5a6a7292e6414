import Rescale.Time.Instant

/-!
# Blackout Windows

Daily windows, in UTC, during which no scaling is applied.

A window is written `HH:MM-HH:MM`. It holds the minutes from its start up to but
not including its end, and one that ends before it starts runs over midnight.
Start and end have to differ: a window of no length and a window of a whole day
could not be told apart. Each time of day may have one or two digits per field,
with blanks in front of a field.

## Main definitions

* `Blackout`: A window from one minute of the day to another.
* `Blackout.contains`: Whether a second of the day lies in the window.
* `Blackout.ofText?`: Read a window as settings write it.
-/

namespace Rescale

/-- A daily window, from one minute of the day up to another. -/
structure Blackout where
  start : Nat
  stop : Nat
  deriving DecidableEq, Repr

namespace Blackout

/-- Whether a second of the day lies in the window. -/
def contains (w : Blackout) (second : Nat) : Bool :=
  if w.start ≤ w.stop then w.start * 60 ≤ second && second < w.stop * 60
  else w.start * 60 ≤ second || second < w.stop * 60

/-- Whether an instant lies in the window of its day. -/
def covers (w : Blackout) (i : Instant) : Bool := w.contains i.secondOfDay

/-- One or two digits below `limit` behind optional blanks, and what follows. -/
def field? (limit : Nat) (cs : List Char) : Option (Nat × List Char) :=
  match Text.trimStart cs with
  | a :: b :: rest =>
    if Text.isDigit b then (Text.natural? limit [a, b]).map (·, rest)
    else (Text.natural? limit [a]).map (·, b :: rest)
  | [a] => (Text.natural? limit [a]).map (·, [])
  | [] => none

/-- The minute of the day written `HH:MM`. -/
def minute? (cs : List Char) : Option Nat :=
  match field? 24 cs with
  | some (hour, ':' :: rest) =>
    match field? 60 rest with
    | some (minute, []) => some (hour * 60 + minute)
    | _ => none
  | _ => none

/-- Read a window as settings write it: two different times of day around the
    first hyphen. -/
def ofText? (s : String) : Option Blackout :=
  let cs := s.toList
  let front := cs.takeWhile (· != '-')
  match cs.dropWhile (· != '-') with
  | _ :: back =>
    match minute? (Text.trim front), minute? (Text.trim back) with
    | some start, some stop => if start == stop then none else some ⟨start, stop⟩
    | _, _ => none
  | [] => none

/-- A minute of the day as `HH:MM:SS`. -/
def clockText (minute : Nat) : String :=
  String.ofList <|
    Text.padded 2 (minute / 60) ++ [':'] ++ Text.padded 2 (minute % 60) ++ ":00".toList

end Blackout

end Rescale
