import Rescale.Decimal.Numeral
import Rescale.SortedMap.Basic

/-!
# JSON Values

The values of JSON documents, and reading typed values off them.

Objects keep their members as written: what a repeated member means is decided
by whoever reads the object. Numbers are kept as they are spelled, and any number
can stand where a double is wanted.

A string can spell code units that are no character, namely one half of a
surrogate pair. Such a string has no value, and neither has an object with such a
name in it; both are well formed, so a reader that has no use for them can pass
over them.

## Main definitions

* `Json`: A value.
* `Json.fields?`: The members of a record.
* `Json.float?` and its siblings: A value as a number, a string or a map.
-/

namespace Rescale

/-- A value of a JSON document. -/
inductive Json where
  | null
  | bool (b : Bool)
  | number (n : Decimal.Numeral)
  | string (s : String)
  | array (items : List Json)
  | object (members : List (String × Json))
  /-- Well-formed text without a value. -/
  | unreadable
  deriving Inhabited

namespace Json

/-- A whole number. -/
def int (n : Int) : Json := number (Decimal.Numeral.ofInt n)

/-- A natural number. -/
def nat (n : Nat) : Json := int n

/-- A double. Numbers that are not finite have no spelling; null stands for them. -/
def float (x : Float) : Json := if x.isFinite then number (Decimal.Numeral.ofFloat x) else null

/-- A value that may be missing. -/
def ofOption {α : Type} (f : α → Json) : Option α → Json
  | some x => f x
  | none => null

/-- A map whose keys have names. -/
def ofMap {κ : Type} [Ord κ] {α : Type} (name : κ → String) (f : α → Json)
    (m : SortedMap κ α) : Json :=
  object (m.toList.map fun e => (name e.1, f e.2))

/-- A truth value. -/
def bool? : Json → Option Bool
  | bool b => some b
  | _ => none

/-- A string. -/
def string? : Json → Option String
  | string s => some s
  | _ => none

/-- A number as a double by the coarse rule, unless it is too large for one. -/
def float? : Json → Option Float
  | number n => n.coarse?
  | _ => none

/-- A whole number. -/
def int? : Json → Option Int
  | number n => n.int?
  | _ => none

/-- A whole number that is not negative and below a limit. -/
def nat? (limit : Nat) (j : Json) : Option Nat := do
  let n ← j.int?
  if 0 ≤ n ∧ n < limit then some n.toNat else none

/-- The elements of an array. -/
def array? : Json → Option (List Json)
  | array items => some items
  | _ => none

/-- The members of an object. -/
def object? : Json → Option (List (String × Json))
  | object members => some members
  | _ => none

/-- A map whose keys have names; of a repeated key the last member counts. -/
def map? {κ : Type} [Ord κ] [Std.TransOrd κ] [Std.LawfulEqOrd κ] {α : Type}
    (key? : String → Option κ) (read : Json → Option α) (j : Json) : Option (SortedMap κ α) := do
  let entries ← (← j.object?).mapM fun m => return (← key? m.1, ← read m.2)
  return SortedMap.ofList entries

/-- A value that may be null. -/
def nullable? {α : Type} (read : Json → Option α) : Json → Option (Option α)
  | null => some none
  | j => (read j).map some

/-- The members of a record with the given field names. A record is an object, in
    which each field stands at most once, or an array with its first fields in
    order. -/
def fields? (names : List String) : Json → Option (List (String × Json))
  | object members =>
    if names.all fun name => (members.filter fun m => m.1 == name).length ≤ 1 then some members
    else none
  | array items => if items.length ≤ names.length then some (names.zip items) else none
  | _ => none

/-- A field that has to be there. -/
def required {α : Type} (members : List (String × Json)) (name : String)
    (read : Json → Option α) : Option α := do read (← members.lookup name)

/-- A field that may be missing. -/
def fieldOr {α : Type} (members : List (String × Json)) (name : String) (default : α)
    (read : Json → Option α) : Option α :=
  match members.lookup name with
  | some j => read j
  | none => some default

end Json

end Rescale
