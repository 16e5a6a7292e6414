import Rescale.Text.Printable

/-!
# Quoted Text

How a rejected setting is shown inside an error message.

The text stands between double quotes. Quotes and backslashes take a backslash,
the usual controls their letter, and every other character without a glyph of
its own is shown by its code point in hexadecimal, as in `\u{200b}`. A reader of
the message can therefore tell which characters the setting held.

## Main definitions

* `Text.escaped`: One character inside quoted text.
* `Text.quoted`: A text in quotes.
-/

namespace Rescale

namespace Text

/-- One character inside quoted text. -/
def escaped (c : Char) : List Char :=
  if c == '"' || c == '\\' then ['\\', c]
  else if c == '\t' then ['\\', 't']
  else if c == '\n' then ['\\', 'n']
  else if c == '\r' then ['\\', 'r']
  else if c == '\x00' then ['\\', '0']
  else if isPrintable c then [c]
  else ['\\', 'u', '\x7b'] ++ Nat.toDigits 16 c.toNat ++ ['\x7d']

/-- A text between double quotes. -/
def quoted (s : String) : String :=
  String.ofList (['"'] ++ s.toList.flatMap escaped ++ ['"'])

end Text

end Rescale
