import Rescale.Json.Basic
import Rescale.Text.Digits
import Rescale.Text.Reader

/-!
# Reading JSON

From text to a JSON value.

The grammar is the strict one: no comments, no trailing commas, no leading zeros,
no control characters inside strings, and nothing but space around the document.
Numbers keep their spelling, however long it is. Values nest; the reader of one
level is built from the reader of the level inside it.

## Main definitions

* `Json.ofText?`: Read a document.
-/

namespace Rescale

namespace Json

open Text (Reader)

/-- Space between the parts of a document. -/
def isSpace (c : Char) : Bool := c == ' ' || c == '\t' || c == '\n' || c == '\r'

/-- Pass over space. -/
def space : Reader Unit := Reader.skipWhile isSpace

/-- The value of a hexadecimal digit. -/
def hexDigit? (c : Char) : Option Nat :=
  if Text.isDigit c then some (c.toNat - 48)
  else if 'a' ≤ c && c ≤ 'f' then some (c.toNat - 87)
  else if 'A' ≤ c && c ≤ 'F' then some (c.toNat - 55)
  else none

/-- A code unit of four hexadecimal digits. -/
def codeUnit? (a b c d : Char) : Option Nat := do
  return (((← hexDigit? a) * 16 + (← hexDigit? b)) * 16 + (← hexDigit? c)) * 16 + (← hexDigit? d)

/-- The character that a letter behind a backslash stands for. -/
def escape? : Char → Option Nat
  | '"' => some 0x22
  | '\\' => some 0x5C
  | '/' => some 0x2F
  | 'b' => some 0x08
  | 'f' => some 0x0C
  | 'n' => some 0x0A
  | 'r' => some 0x0D
  | 't' => some 0x09
  | _ => none

/-- The code units of a string up to its closing quote. A character that is not
    escaped counts as one unit, whatever its size. -/
def codeUnits : Reader (List Nat)
  | [] => none
  | '"' :: rest => some ([], rest)
  | '\\' :: 'u' :: a :: b :: c :: d :: rest => do
    let unit ← codeUnit? a b c d
    let (units, rest) ← codeUnits rest
    return (unit :: units, rest)
  | '\\' :: c :: rest => do
    let unit ← escape? c
    let (units, rest) ← codeUnits rest
    return (unit :: units, rest)
  | c :: rest => do
    if c == '\\' || c.toNat < 0x20 then none
    let (units, rest) ← codeUnits rest
    return (c.toNat :: units, rest)

/-- Whether a code unit is the first half of a surrogate pair. -/
def isHighHalf (unit : Nat) : Bool := 0xD800 ≤ unit && unit < 0xDC00

/-- Whether a code unit is the second half of a surrogate pair. -/
def isLowHalf (unit : Nat) : Bool := 0xDC00 ≤ unit && unit < 0xE000

/-- The characters of some code units, unless half a pair stands alone. -/
def decodeUnits? : List Nat → Option (List Char)
  | [] => some []
  | [unit] => if isHighHalf unit || isLowHalf unit then none else some [Char.ofNat unit]
  | unit :: low :: rest =>
    if isLowHalf unit then none
    else if isHighHalf unit then do
      if !isLowHalf low then none
      let cs ← decodeUnits? rest
      return Char.ofNat (0x10000 + (unit - 0xD800) * 0x400 + (low - 0xDC00)) :: cs
    else do
      let cs ← decodeUnits? (low :: rest)
      return Char.ofNat unit :: cs

/-- A string behind its opening quote, as far as it has a value. -/
def stringBody : Reader (Option String) := do
  return (decodeUnits? (← codeUnits)).map String.ofList

/-- A run of digits. -/
def digitRun : Reader (List Char) := Reader.takeWhile1 Text.isDigit

/-- The exponent of a number, behind its mark. -/
def exponent : Reader Int := do
  let negative ← Reader.accept (Reader.char '-')
  if !negative then let _ ← Reader.optional (Reader.char '+')
  let n := Nat.ofDigitChars 10 (← digitRun) 0
  return if negative then -n else n

/-- The digits behind the point, or none without a point. -/
def fractionPart : Reader (List Char) := do
  if ← Reader.accept (Reader.char '.') then digitRun else return []

/-- The power of ten, if one is marked. -/
def powerPart : Reader (Option Int) := do
  if ← Reader.accept (Reader.one fun c => c == 'e' || c == 'E') then some <$> exponent
  else return none

/-- A number. -/
def numeral : Reader Decimal.Numeral := do
  let negative ← Reader.accept (Reader.char '-')
  let whole ← digitRun
  if whole.head? == some '0' && 1 < whole.length then failure
  let fraction ← fractionPart
  let power ← powerPart
  return { negative, whole, fraction, power }

/-- A member of an object, with a name that may lack a value. -/
def member (value : Reader Json) : Reader (Option String × Json) := do
  space
  Reader.char '"'
  let name ← stringBody
  space
  Reader.char ':'
  let j ← value
  return (name, j)

/-- An object of some members. -/
def ofMembers (members : List (Option String × Json)) : Json :=
  match members.mapM fun m => m.1.map (·, m.2) with
  | some members => object members
  | none => unreadable

/-- Elements with commas between them, up to a closing mark. -/
def listed {α : Type} (close : Char) (r : Reader α) : Reader (List α) := do
  space
  if ← Reader.accept (Reader.char close) then return []
  else
    let items ← Reader.separated (Reader.char ',') r
    Reader.char close
    return items

/-- A value, by the character it begins with; `inner` reads the values inside it. -/
def valueOf (inner : Reader Json) : Option Char → Reader Json
  | some 'n' => do Reader.literal ['n', 'u', 'l', 'l']; return null
  | some 't' => do Reader.literal ['t', 'r', 'u', 'e']; return bool true
  | some 'f' => do Reader.literal ['f', 'a', 'l', 's', 'e']; return bool false
  | some '"' => do
    Reader.char '"'
    return ((← stringBody).map string).getD unreadable
  | some '[' => do
    Reader.char '['
    return array (← listed ']' inner)
  | some '\x7b' => do
    Reader.char '\x7b'
    return ofMembers (← listed '\x7d' (member inner))
  | _ => number <$> numeral

/-- A value with the space around it; `inner` reads the values inside it. -/
def value (inner : Reader Json) : Reader Json := do
  space
  let j ← valueOf inner (← Reader.peek?)
  space
  return j

/-- A value in which values may nest `depth` deep. -/
def valueUpTo : Nat → Reader Json
  | 0 => value failure
  | depth + 1 => value (valueUpTo depth)

/-- Read a document. Its length bounds how deep it nests. -/
def ofText? (s : String) : Option Json := Reader.all? (valueUpTo s.length) s

end Json

end Rescale
