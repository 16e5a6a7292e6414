/-!
# TOML Values

The values of TOML documents, and how tables grow while one is read.

A table can be spread over a document: a header opens it, dotted keys reach into
it, and headers of tables inside it name it on their way. Each table remembers
how it came about, because that decides what may still be added. One written with
braces is complete. One that a header opened is not opened again, and dotted keys
from outside do not reach into it. One that was only named on the way to another
can still be opened once. The last table of a list stands for the list on any
way.

## Main definitions

* `Toml`: A value.
* `Toml.Origin`: How a table came about.
* `Entries.assign?`: Add a value under a dotted key.
* `Entries.open?`: Add the table of a header.
* `Entries.append?`: Add a table to the list of a header.
-/

namespace Rescale

namespace Toml

/-- How a table came about. -/
inductive Origin where
  /-- Written with braces. -/
  | inline
  /-- Opened by a header. -/
  | header
  /-- Named on the way to a table inside it. -/
  | passage
  /-- Made by dotted keys. -/
  | dotted
  deriving DecidableEq, Repr

end Toml

/-- A value of a TOML document. -/
inductive Toml where
  | string (s : String)
  | integer (n : Int)
  | float (x : Float)
  | boolean (b : Bool)
  /-- A date, a time of day, or both. -/
  | moment
  | array (items : List Toml)
  | table (origin : Toml.Origin) (entries : List (String × Toml))
  /-- A list of tables, from headers in double brackets. -/
  | tables (members : List (List (String × Toml)))
  deriving Inhabited

namespace Toml

/-- The entries of a table, in the order in which they were added. -/
abbrev Entries := List (String × Toml)

namespace Entries

/-- Put a value under a key, in place of the one that is there. -/
def put (t : Entries) (key : String) (x : Toml) : Entries :=
  if t.any fun e => e.1 == key then t.map fun e => if e.1 == key then (key, x) else e
  else t ++ [(key, x)]

/-- Change the last element of a list. -/
def changeLast? {α : Type} (f : α → Option α) (xs : List α) : Option (List α) := do
  return xs.dropLast ++ [← f (← xs.getLast?)]

/-- Add a value under a key that does not stand in the table yet. -/
def add? (t : Entries) (key : String) (x : Toml) : Option Entries :=
  if t.any fun e => e.1 == key then none else some (t ++ [(key, x)])

/-- Add a value at the end of a dotted key. What the key reaches into has to be a
    table that is still open, and the table at its end one that dotted keys made;
    `fits` says so of the table at hand. -/
def assign? (key : String) (x : Toml) (fits : Bool) : List String → Entries → Option Entries
  | [], t => if fits then t.add? key x else none
  | name :: path, t =>
    match t.lookup name with
    | none => do
      let inner ← assign? key x true path []
      return t.put name (.table .dotted inner)
    | some (.table .dotted inner) => do
      let inner ← assign? key x true path inner
      return t.put name (.table .dotted inner)
    | some (.table .passage inner) => do
      let inner ← assign? key x false path inner
      return t.put name (.table .passage inner)
    | some (.tables members) => do
      let members ← changeLast? (assign? key x false path) members
      return t.put name (.tables members)
    | some _ => none

/-- Add values under dotted keys, one after the other. -/
def assignAll? (t : Entries) : List (List String × String × Toml) → Option Entries
  | [] => some t
  | (path, key, x) :: rest => do assignAll? (← assign? key x true path t) rest

/-- Change the table that a way of names leads to; tables that are missing on the
    way are added. -/
def at? (change : Entries → Option Entries) : List String → Entries → Option Entries
  | [], t => change t
  | name :: path, t =>
    match t.lookup name with
    | none => do
      let inner ← at? change path []
      return t.put name (.table .passage inner)
    | some (.table .inline _) => none
    | some (.table origin inner) => do
      let inner ← at? change path inner
      return t.put name (.table origin inner)
    | some (.tables members) => do
      let members ← changeLast? (at? change path) members
      return t.put name (.tables members)
    | some _ => none

/-- Open the table of a header and fill it. -/
def open? (t : Entries) (path : List String) (key : String)
    (body : List (List String × String × Toml)) : Option Entries :=
  at?
    (fun t =>
      match t.lookup key with
      | none => do
        let inner ← assignAll? [] body
        return t.put key (.table .header inner)
      | some (.table .passage inner) => do
        let inner ← assignAll? inner body
        return t.put key (.table .header inner)
      | some _ => none)
    path t

/-- Add a table to the list of a header and fill it. -/
def append? (t : Entries) (path : List String) (key : String)
    (body : List (List String × String × Toml)) : Option Entries :=
  at?
    (fun t =>
      match t.lookup key with
      | none => do
        let inner ← assignAll? [] body
        return t.put key (.tables [inner])
      | some (.tables members) => do
        let inner ← assignAll? [] body
        return t.put key (.tables (members ++ [inner]))
      | some _ => none)
    path t

end Entries

end Toml

end Rescale
