import Rescale.Json.Basic

/-!
# Writing JSON

From a JSON value to text.

Numbers are written as they are spelled, and strings with the fewest escapes.

## Main definitions

* `Json.compact`: A value in one line.
* `Json.pretty`: A value with one element or member per line.
-/

namespace Rescale

namespace Json

/-- Two hexadecimal digits. -/
def hexPair (n : Nat) : List Char :=
  [Nat.digitChar (n / 16 % 16), Nat.digitChar (n % 16)]

/-- One character inside a string. -/
def escaped (c : Char) : List Char :=
  if c == '"' || c == '\\' then ['\\', c]
  else if c == '\x08' then ['\\', 'b']
  else if c == '\x0c' then ['\\', 'f']
  else if c == '\n' then ['\\', 'n']
  else if c == '\r' then ['\\', 'r']
  else if c == '\t' then ['\\', 't']
  else if c.toNat < 0x20 then ['\\', 'u', '0', '0'] ++ hexPair c.toNat
  else [c]

/-- A string between quotes. -/
def quoted (s : String) : List Char := ['"'] ++ s.toList.flatMap escaped ++ ['"']

/-- The text of a value that has no parts. -/
def leafText : Json → List Char
  | bool b => (if b then "true" else "false").toList
  | number n => n.text
  | string s => quoted s
  | _ => ['n', 'u', 'l', 'l']

/-- The line break and the indentation at a depth. -/
def lineBreak (depth : Nat) : List Char := '\n' :: List.replicate (2 * depth) ' '

mutual

/-- A value in one line. -/
def compactText : Json → List Char
  | array items => ['['] ++ compactItems items ++ [']']
  | object members => ['\x7b'] ++ compactMembers members ++ ['\x7d']
  | leaf => leafText leaf

/-- The elements of an array in one line. -/
def compactItems : List Json → List Char
  | [] => []
  | [j] => compactText j
  | j :: rest => compactText j ++ [','] ++ compactItems rest

/-- The members of an object in one line. -/
def compactMembers : List (String × Json) → List Char
  | [] => []
  | [(name, j)] => quoted name ++ [':'] ++ compactText j
  | (name, j) :: rest => quoted name ++ [':'] ++ compactText j ++ [','] ++ compactMembers rest

end

mutual

/-- A value with its parts on lines of their own, indented for a depth. -/
def prettyText (depth : Nat) : Json → List Char
  | array [] => ['[', ']']
  | array items => ['['] ++ prettyItems (depth + 1) items ++ lineBreak depth ++ [']']
  | object [] => ['\x7b', '\x7d']
  | object members =>
    ['\x7b'] ++ prettyMembers (depth + 1) members ++ lineBreak depth ++ ['\x7d']
  | leaf => leafText leaf

/-- The elements of an array, each on a line. -/
def prettyItems (depth : Nat) : List Json → List Char
  | [] => []
  | [j] => lineBreak depth ++ prettyText depth j
  | j :: rest => lineBreak depth ++ prettyText depth j ++ [','] ++ prettyItems depth rest

/-- The members of an object, each on a line. -/
def prettyMembers (depth : Nat) : List (String × Json) → List Char
  | [] => []
  | [(name, j)] => lineBreak depth ++ quoted name ++ [':', ' '] ++ prettyText depth j
  | (name, j) :: rest =>
    lineBreak depth ++ quoted name ++ [':', ' '] ++ prettyText depth j ++ [',']
      ++ prettyMembers depth rest

end

/-- A value in one line. -/
def compact (j : Json) : String := String.ofList j.compactText

/-- A value with one element or member per line. -/
def pretty (j : Json) : String := String.ofList (prettyText 0 j)

end Json

end Rescale
