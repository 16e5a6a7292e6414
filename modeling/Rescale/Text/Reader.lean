/-!
# Readers

Reading documents character by character.

A reader takes characters from the front of a text. It fails, or it returns what
it read together with the rest; what is tried and fails takes nothing. Lists are
read by trying an element again and again, and since an element takes at least
one character, the length of the text bounds how often that can succeed.

## Main definitions

* `Text.Reader`: A reader of text.
* `Reader.next`, `Reader.literal`, `Reader.takeWhile`: The simplest readers.
* `Reader.optional`: Try a reader.
* `Reader.many`: Repeat a reader as long as it succeeds.
* `Reader.all?`: Read a whole text.
-/

namespace Rescale

namespace Text

/-- A reader of text: it fails, or returns a value and the text behind it. -/
abbrev Reader := StateT (List Char) Option

namespace Reader

variable {α β : Type}

/-- The next character. -/
def next : Reader Char
  | c :: rest => some (c, rest)
  | [] => none

/-- The next character, which stays in place. -/
def peek? : Reader (Option Char) := fun cs => some (cs.head?, cs)

/-- One character of a class. -/
def one (p : Char → Bool) : Reader Char
  | c :: rest => if p c then some (c, rest) else none
  | [] => none

/-- A given character. -/
def char (c : Char) : Reader Unit := do let _ ← one (· == c)

/-- The given characters, one after the other. -/
def literal : List Char → Reader Unit
  | [] => pure ()
  | c :: rest => do char c; literal rest

/-- The longest run of characters of a class; it may be empty. -/
def takeWhile (p : Char → Bool) : Reader (List Char) := fun cs =>
  some (cs.takeWhile p, cs.dropWhile p)

/-- A run of at least one character of a class. -/
def takeWhile1 (p : Char → Bool) : Reader (List Char) := do
  let cs ← takeWhile p
  if cs.isEmpty then failure else return cs

/-- Pass over a run of characters of a class. -/
def skipWhile (p : Char → Bool) : Reader Unit := fun cs => some ((), cs.dropWhile p)

/-- What a reader reads if it succeeds. -/
def optional (r : Reader α) : Reader (Option α) := fun cs =>
  match r cs with
  | some (x, rest) => some (some x, rest)
  | none => some (none, cs)

/-- Whether a reader succeeds; what it reads is passed over. -/
def accept (r : Reader α) : Reader Bool := return (← optional r).isSome

/-- Repeat a reader as long as it succeeds, at most `n` times. -/
def upTo (n : Nat) (r : Reader α) : Reader (List α) := fun cs =>
  match n with
  | 0 => some ([], cs)
  | n + 1 =>
    match r cs with
    | some (x, rest) => do
      let (xs, rest) ← upTo n r rest
      return (x :: xs, rest)
    | none => some ([], cs)

/-- Repeat a reader that takes something as long as it succeeds. -/
def many (r : Reader α) : Reader (List α) := fun cs => upTo cs.length r cs

/-- At least one element, with a separator between elements. -/
def separated (separator : Reader β) (r : Reader α) : Reader (List α) := do
  let x ← r
  let xs ← many do
    let _ ← separator
    r
  return x :: xs

/-- Whether nothing is left. -/
def atEnd : Reader Bool := fun cs => some (cs.isEmpty, cs)

/-- What a reader makes of a whole text. -/
def all? (r : Reader α) (s : String) : Option α :=
  match r s.toList with
  | some (x, []) => some x
  | _ => none

end Reader

end Text

end Rescale
