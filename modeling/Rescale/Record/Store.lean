import Rescale.Store.Database

/-!
# The Store as a Document

All tables of a store in one JSON object.

The document has one object per table, with the text of every record under its key.
A program that goes on with a store has to find in it what was put, so its doubles
are read as the nearest ones here, and a number that was not finite stays one that
cannot be looked up.

## Main definitions

* `Table.name`: The name of a table in the document.
* `Database.toJson`, `Database.ofJson?`: The tables of a store.
* `Database.store?`: The store that some tables are those of.
-/

namespace Rescale

namespace Table

/-- The name of a table in the document. -/
def name : Table → String
  | histories => "histories"
  | restartLogs => "restart_logs"
  | parallelisms => "parallelisms"
  | profiles => "profiles"
  | configChanges => "config_changes"
  | holds => "holds"
  | periods => "periods"
  | generations => "generations"
  | nodes => "nodes"

/-- All tables. -/
def all : List Table := ofJobs ++ [generations, nodes]

end Table

namespace Database

/-- Tables as JSON. -/
def toJson (d : Database) : Json :=
  .object (Table.all.map fun t => (t.name, Json.ofMap id Json.string (d.rows t)))

/-- Read tables; every table has to be there. -/
def ofJson? (j : Json) : Option Database := do
  let fields ← j.fields? (Table.all.map Table.name)
  let tables ← Table.all.mapM fun t =>
    return (t, ← Json.required fields t.name (Json.map? Json.textKey? Json.string?))
  return ⟨fun t => (tables.lookup t).getD ∅⟩

/-- The records of a table. -/
def records? {α : Type} (d : Database) (t : Table) (read : Json → Option α) :
    Option (SortedMap String α) := do
  let entries ← (d.rows t).toList.mapM fun e => return (e.1, ← read (← Json.ofText? e.2))
  return SortedMap.ofList entries

/-- The store that some tables are those of. -/
def store? (d : Database) : Option Store := do
  return {
    histories := ← d.records? .histories (History.ofJson? Json.storedFloat?)
    restartLogs := ← d.records? .restartLogs RestartLog.ofJson?
    parallelisms := ← d.records? .parallelisms Overrides.ofJson?
    profiles := ← d.records? .profiles Overrides.ofJson?
    configChanges := ← d.records? .configChanges Overrides.ofChangesJson?
    holds := ← d.records? .holds Holds.ofJson?
    periods := ← d.records? .periods (Json.nat? Text.wordLimit)
    generations := ← d.records? .generations (Generation.ofJson? Json.storedFloat?)
    nodes := ← d.records? .nodes Node.ofJson? }

end Database

end Rescale
