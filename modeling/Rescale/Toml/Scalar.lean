import Rescale.Decimal.Reader
import Rescale.Text.Digits
import Rescale.Text.Reader
import Rescale.Toml.Basic

/-!
# TOML Scalars

Strings, numbers, truth values and moments of TOML documents.

A text in double quotes has escapes, one in single quotes has none, and either
can span lines between three quotes. Numbers may have underscores between their
digits and no superfluous zeros in front. Whole numbers have 64 bits. A double
too large to be finite is refused, unless its name says that it is infinite.
Moments are checked as calendar dates and clock times, but their value is not
kept: no option is a moment.

## Main definitions

* `Toml.basicLine`, `Toml.literalLine`: A string in one line, which can be a key.
* `Toml.anyString`: A string.
* `Toml.numberOrMoment`: A number or a moment.
-/

namespace Rescale

namespace Toml

open Text (Reader)

/-- Space inside a line. -/
def isSpace (c : Char) : Bool := c == ' ' || c == '\t'

/-- Pass over space inside a line. -/
def space : Reader Unit := Reader.skipWhile isSpace

/-- A line break. -/
def newline : Reader Unit
  | '\n' :: rest => some ((), rest)
  | '\r' :: '\n' :: rest => some ((), rest)
  | _ => none

/-- Whether a character can stand in a comment or a string: no control but the
    tabulator. -/
def isText (c : Char) : Bool := c == '\t' || (0x20 ≤ c.toNat && c.toNat != 0x7F)

/-! ### Strings -/

/-- Whether a character is a hexadecimal digit. -/
def isHexDigit (c : Char) : Bool :=
  Text.isDigit c || ('a' ≤ c && c ≤ 'f') || ('A' ≤ c && c ≤ 'F')

/-- The value of a hexadecimal digit. -/
def hexValue (c : Char) : Nat :=
  if Text.isDigit c then c.toNat - 48
  else if 'a' ≤ c then c.toNat - 87
  else c.toNat - 55

/-- The value of digits in some base. -/
def valueIn (base : Nat) (ds : List Char) : Nat :=
  ds.foldl (fun n c => n * base + hexValue c) 0

/-- The character with a code point of `n` hexadecimal digits. -/
def codePoint (n : Nat) : Reader Char := fun cs =>
  let ds := cs.take n
  let value := valueIn 16 ds
  if ds.length == n && ds.all isHexDigit && value.isValidChar then
    some (Char.ofNat value, cs.drop n)
  else none

/-- The character that an escape stands for, behind its backslash. -/
def escape : Reader Char := do
  match ← Reader.next with
  | 'b' => return '\x08'
  | 't' => return '\t'
  | 'n' => return '\n'
  | 'f' => return '\x0c'
  | 'r' => return '\r'
  | '"' => return '"'
  | '\\' => return '\\'
  | 'u' => codePoint 4
  | 'U' => codePoint 8
  | _ => failure

/-- A character of a string in double quotes. -/
def basicChar : Reader Char := do
  let c ← Reader.one fun c => isText c && c != '"'
  if c == '\\' then escape else return c

/-- A string in double quotes on one line. -/
def basicLine : Reader String := do
  Reader.char '"'
  let cs ← Reader.many basicChar
  Reader.char '"'
  return String.ofList cs

/-- A string in single quotes on one line. -/
def literalLine : Reader String := do
  Reader.char '\''
  let cs ← Reader.takeWhile fun c => isText c && c != '\''
  Reader.char '\''
  return String.ofList cs

/-- Three quotes. -/
def threeQuotes (quote : Char) : Reader Unit := Reader.literal [quote, quote, quote]

/-- The quotes that end a string over several lines: up to two more than needed
    belong to the string. -/
def closingQuotes (quote : Char) : Reader (List Char) := fun cs =>
  let n := (cs.takeWhile (· == quote)).length
  if n < 3 then none
  else
    let extra := min (n - 3) 2
    some (List.replicate extra quote, cs.drop (extra + 3))

/-- One or two quotes inside a string over several lines. -/
def innerQuotes (quote : Char) : Reader (List Char) := fun cs =>
  let run := cs.takeWhile (· == quote)
  if run.isEmpty || 3 ≤ run.length then none else some (run, cs.drop run.length)

/-- A backslash at the end of a line, with the line breaks and space behind it. -/
def lineJoin : Reader (List Char) := do
  Reader.char '\\'
  space
  newline
  let _ ← Reader.many (newline <|> (do let _ ← Reader.one isSpace))
  return []

/-- A line break inside a string; it counts as one character. -/
def innerNewline : Reader (List Char) := do
  newline
  return ['\n']

/-- A string over several lines, of parts that `part` reads. -/
def severalLines (quote : Char) (part : Reader (List Char)) : Reader String := do
  threeQuotes quote
  let _ ← Reader.optional newline
  let parts ← Reader.many (innerQuotes quote <|> innerNewline <|> part)
  let extra ← closingQuotes quote
  return String.ofList (parts.flatten ++ extra)

/-- A string. -/
def anyString : Reader String :=
  severalLines '"' (lineJoin <|> (do return [← basicChar]))
    <|> basicLine
    <|> severalLines '\'' (do return [← Reader.one fun c => isText c && c != '\''])
    <|> literalLine

/-! ### Numbers -/

/-- Digits of a class with underscores between them. -/
def digitsOf (isDigit : Char → Bool) : Reader (List Char) := do
  let groups ← Reader.separated (Reader.char '_') (Reader.takeWhile1 isDigit)
  return groups.flatten

/-- An optional sign: whether it is a minus. -/
def sign : Reader Bool := do
  if ← Reader.accept (Reader.char '-') then return true
  else
    let _ ← Reader.optional (Reader.char '+')
    return false

/-- The digits of a whole number: a zero alone, or digits without one in front. -/
def wholeDigits : Reader (List Char) := do
  match ← Reader.peek? with
  | some '0' => do Reader.char '0'; return ['0']
  | _ => digitsOf Text.isDigit

/-- A whole number of 64 bits. -/
def integerOf (negative : Bool) (magnitude : Nat) : Reader Toml :=
  let n : Int := if negative then -magnitude else magnitude
  if -9223372036854775808 ≤ n ∧ n < 9223372036854775808 then return integer n else failure

/-- A whole number in another base, behind its mark. -/
def integerIn (base : Nat) (mark : Char) (isDigit : Char → Bool) : Reader Toml := do
  Reader.literal ['0', mark]
  integerOf false (valueIn base (← digitsOf isDigit))

/-- A whole number in decimal. -/
def decimalInteger : Reader Toml := do
  let negative ← sign
  integerOf negative (Nat.ofDigitChars 10 (← wholeDigits) 0)

/-- The exponent of a double. -/
def exponent : Reader Int := do
  let _ ← Reader.one fun c => c == 'e' || c == 'E'
  let negative ← sign
  let n := Nat.ofDigitChars 10 (← digitsOf Text.isDigit) 0
  return if negative then -n else n

/-- The fraction of a double. -/
def fraction : Reader (List Char) := do
  Reader.char '.'
  digitsOf Text.isDigit

/-- A double with a fraction, an exponent, or both. -/
def decimalFloat : Reader Toml := do
  let negative ← sign
  let whole ← wholeDigits
  let part ← Reader.optional fraction
  let power ← if part.isSome then Reader.optional exponent else some <$> exponent
  let part := part.getD []
  let x := Decimal.toFloat (Nat.ofDigitChars 10 (whole ++ part) 0) (power.getD 0 - part.length)
  if negative then return float (-x)
  else if x.isInf then failure
  else return float x

/-- A double that is written by its name. -/
def namedFloat : Reader Toml := do
  let negative ← sign
  let x ← (do Reader.literal ['i', 'n', 'f']; pure Decimal.infinity)
    <|> (do Reader.literal ['n', 'a', 'n']; pure (0.0 / 0.0))
  return float (if negative then -x else x)

/-! ### Moments -/

/-- A number of exactly `width` digits in a range. -/
def fieldIn (width low high : Nat) : Reader Nat := fun cs => do
  let n ← Text.natural? (high + 1) (cs.take width)
  if (cs.take width).length == width && low ≤ n then some (n, cs.drop width) else none

/-- The number of days of a month. -/
def daysIn (year month : Nat) : Nat :=
  if month == 2 then
    if year % 4 == 0 && (year % 100 != 0 || year % 400 == 0) then 29 else 28
  else if month == 4 || month == 6 || month == 9 || month == 11 then 30
  else 31

/-- A calendar date. -/
def date : Reader Unit := do
  let year ← fieldIn 4 0 9999
  Reader.char '-'
  let month ← fieldIn 2 1 12
  Reader.char '-'
  let _ ← fieldIn 2 1 (daysIn year month)

/-- A clock time; a minute may have a leap second. -/
def clockTime : Reader Unit := do
  let _ ← fieldIn 2 0 23
  Reader.char ':'
  let _ ← fieldIn 2 0 59
  Reader.char ':'
  let _ ← fieldIn 2 0 60
  let _ ← Reader.optional do
    Reader.char '.'
    Reader.takeWhile1 Text.isDigit

/-- The distance of a clock from UTC. -/
def offset : Reader Unit := do
  if ← Reader.accept (Reader.one fun c => c == 'Z' || c == 'z') then return ()
  else
    let _ ← Reader.one fun c => c == '+' || c == '-'
    let _ ← fieldIn 2 0 23
    Reader.char ':'
    let _ ← fieldIn 2 0 59

/-- A date with a clock time, either of them alone, and perhaps an offset. -/
def momentValue : Reader Toml := do
  if ← Reader.accept date then
    let _ ← Reader.optional do
      let _ ← Reader.one fun c => c == 'T' || c == 't' || c == ' '
      clockTime
      let _ ← Reader.optional offset
  else clockTime
  return moment

/-- A number or a moment. -/
def numberOrMoment : Reader Toml :=
  momentValue <|> decimalFloat <|> namedFloat
    <|> integerIn 16 'x' isHexDigit
    <|> integerIn 8 'o' (fun c => '0' ≤ c && c ≤ '7')
    <|> integerIn 2 'b' (fun c => c == '0' || c == '1')
    <|> decimalInteger

/-- A truth value. -/
def truthValue : Reader Toml :=
  (do Reader.literal ['t', 'r', 'u', 'e']; pure (boolean true))
    <|> (do Reader.literal ['f', 'a', 'l', 's', 'e']; pure (boolean false))

end Toml

end Rescale
