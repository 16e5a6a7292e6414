import Rescale.Toml.Scalar

/-!
# TOML Documents

From text to the entries of a document.

A document is a run of sections: entries at its top, and behind them headers with
the entries below each. The text is read into that form first, and then the
sections are laid into the document one after the other. Arrays may span lines
and hold comments; tables in braces stay on their line. Values nest to a fixed
depth, and so do keys.

## Main definitions

* `Toml.valueUpTo`: A value that nests to a depth.
* `Toml.Section`: A header with its entries.
* `Toml.ofText?`: Read a document.
-/

namespace Rescale

namespace Toml

open Text (Reader)

/-- Values in brackets and the names of a key may nest to less than this depth. -/
def depthLimit : Nat := 80

/-- A comment, up to the end of its line. -/
def comment : Reader Unit := do
  Reader.char '#'
  Reader.skipWhile isText

/-- Pass over space, comments and line breaks. -/
def blankLines : Reader Unit := do
  space
  let _ ← Reader.many do
    let _ ← Reader.optional comment
    newline
    space

/-! ### Keys -/

/-- Whether a character can stand in a key without quotes. -/
def isBare (c : Char) : Bool :=
  Text.isDigit c || ('a' ≤ c && c ≤ 'z') || ('A' ≤ c && c ≤ 'Z') || c == '_' || c == '-'

/-- One name of a key. -/
def keyName : Reader String :=
  basicLine <|> literalLine <|> (do return String.ofList (← Reader.takeWhile1 isBare))

/-- A key: the names on the way, and the last one. -/
def key : Reader (List String × String) := do
  let names ← Reader.separated (Reader.char '.') do
    space
    let name ← keyName
    space
    return name
  if depthLimit ≤ names.length then failure
  match names.getLast? with
  | some last => return (names.dropLast, last)
  | none => failure

/-- A key and its value. -/
def entry (value : Reader Toml) : Reader (List String × String × Toml) := do
  let (path, name) ← key
  Reader.char '='
  space
  let x ← value
  return (path, name, x)

/-! ### Values -/

/-- An array, whose elements `value` reads. -/
def arrayOf (value : Reader Toml) : Reader Toml := do
  Reader.char '['
  let items ← Reader.many do
    blankLines
    let x ← value
    blankLines
    let comma ← Reader.accept (Reader.char ',')
    if !comma then
      if (← Reader.peek?) != some ']' then failure
    return x
  blankLines
  Reader.char ']'
  return array items

/-- A table in braces, whose values `value` reads. -/
def inlineOf (value : Reader Toml) : Reader Toml := do
  Reader.char '\x7b'
  space
  if ← Reader.accept (Reader.char '\x7d') then return table .inline []
  else
    let body ← Reader.separated (Reader.char ',') do
      let e ← entry value
      space
      return e
    Reader.char '\x7d'
    match Entries.assignAll? [] body with
    | some entries => return table .inline entries
    | none => failure

/-- A value in which brackets nest at most `depth` deep. -/
def valueUpTo (depth : Nat) : Reader Toml := do
  match ← Reader.peek? with
  | some '"' => return string (← anyString)
  | some '\'' => return string (← anyString)
  | some '[' =>
    match depth with
    | 0 => failure
    | depth + 1 => arrayOf (valueUpTo depth)
  | some '\x7b' =>
    match depth with
    | 0 => failure
    | depth + 1 => inlineOf (valueUpTo depth)
  | some 't' => truthValue
  | some 'f' => truthValue
  | _ => numberOrMoment

/-- A value. -/
def value : Reader Toml := valueUpTo (depthLimit - 1)

/-! ### Sections -/

/-- The end of a line: space, perhaps a comment, and a line break or the end of the
    text. -/
def lineEnd : Reader Unit := do
  space
  let _ ← Reader.optional comment
  if ← Reader.atEnd then return () else newline

/-- A header with the entries below it. -/
structure Section where
  /-- The header stands in double brackets. -/
  repeated : Bool
  path : List String
  name : String
  body : List (List String × String × Toml)

/-- Entries on lines of their own. -/
def body : Reader (List (List String × String × Toml)) := do
  blankLines
  Reader.many do
    let e ← entry value
    lineEnd
    blankLines
    return e

/-- A section. -/
def sectionBlock : Reader Section := do
  Reader.char '['
  let repeated ← Reader.accept (Reader.char '[')
  let (path, name) ← key
  Reader.char ']'
  if repeated then Reader.char ']'
  lineEnd
  let body ← body
  return { repeated, path, name, body }

/-- Lay sections into a document, one after the other. -/
def layAll? (t : Entries) : List Section → Option Entries
  | [] => some t
  | s :: rest => do
    let t ←
      if s.repeated then t.append? s.path s.name s.body else t.open? s.path s.name s.body
    layAll? t rest

/-- The entries of a document. -/
def document : Reader Entries := do
  let top ← body
  let sections ← Reader.many sectionBlock
  let _ ← Reader.optional comment
  match Entries.assignAll? [] top with
  | some t =>
    match layAll? t sections with
    | some t => return t
    | none => failure
  | none => failure

/-- Read a document; a byte-order mark in front of it is passed over. -/
def ofText? (s : String) : Option Entries :=
  Reader.all? (do let _ ← Reader.optional (Reader.char '\ufeff'); document) s

end Toml

end Rescale
