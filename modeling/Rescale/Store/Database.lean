import Rescale.Json.Printer
import Rescale.Json.Reader
import Rescale.Record.Job
import Rescale.Record.Node
import Rescale.Store.Basic

/-!
# The Tables of the Store

The store as it is kept: tables of texts.

Every record is written as a JSON document in one line, whatever its numbers are,
and every look-up reads it anew. What cannot be read is an error. A number that is
not finite has no spelling, so a record with one is lost when it is put; and the
doubles of a record are what its numerals are read as. Counting one more decision is
a look-up and a write at once, so it can fail where every other write succeeds.

`Store` keeps the records themselves and says what comes back of them. Its tables
are these, with every record as its text.

## Main definitions

* `Table`: The tables.
* `Database`: Tables of texts.
* `Database.decode`: Read the text of a record.
* `Database.put`, `Database.find?`: Write and look up a record.
* `Database.history?` and its siblings: Look up the records of a job.
* `Database.putHistory` and its siblings: Write them.
* `Database.deleteJob`: Remove all records of a job.
* `Store.database`: The tables of a store.
-/

namespace Rescale

/-- The tables of the store. -/
inductive Table where
  | histories
  | restartLogs
  | parallelisms
  | profiles
  | configChanges
  | holds
  | periods
  | generations
  | nodes
  deriving DecidableEq, Repr

namespace Table

/-- The tables with one record per job, under the name of the job. -/
def ofJobs : List Table :=
  [histories, restartLogs, parallelisms, profiles, configChanges, holds, periods]

end Table

/-- The store as it is kept: the texts in its tables. -/
structure Database where
  rows : Table → SortedMap String String := fun _ => ∅

namespace Database

instance : Inhabited Database := ⟨{}⟩

/-! ### Rows -/

/-- Read the text of a record. -/
def decode {α : Type} (read : Json → Option α) (text : String) : Except StoreError α :=
  match (Json.ofText? text).bind read with
  | some x => .ok x
  | none => .error .unreadable

/-- Change one table. -/
def modify (d : Database) (t : Table) (f : SortedMap String String → SortedMap String String) :
    Database :=
  ⟨fun t' => if t' = t then f (d.rows t) else d.rows t'⟩

/-- Write a record into a table. -/
def put (d : Database) (t : Table) (key : String) (record : Json) : Database :=
  d.modify t fun rows => rows.insert key record.compact

/-- Look up a record. -/
def find? {α : Type} (d : Database) (t : Table) (key : String) (read : Json → Option α) :
    Except StoreError (Option α) :=
  Store.readBack? (decode read) ((d.rows t).get? key)

/-! ### Records of a job -/

/-- The applied changes of a job. -/
def history? (d : Database) (job : JobId) : Except StoreError (Option History) :=
  d.find? .histories job (History.ofJson? Json.float?)

/-- The restart log of a job. -/
def restartLog? (d : Database) (job : JobId) : Except StoreError (Option RestartLog) :=
  d.find? .restartLogs job RestartLog.ofJson?

/-- The parallelism that each vertex of a job is set to. -/
def parallelism? (d : Database) (job : JobId) : Except StoreError (Option Overrides) :=
  d.find? .parallelisms job Overrides.ofJson?

/-- The slot profile that each vertex of a job is set to. -/
def profiles? (d : Database) (job : JobId) : Except StoreError (Option Overrides) :=
  d.find? .profiles job Overrides.ofJson?

/-- The options changed by memory tuning. -/
def configChanges? (d : Database) (job : JobId) : Except StoreError (Option Overrides) :=
  d.find? .configChanges job Overrides.ofChangesJson?

/-- The pending scale-downs of a job. -/
def pending? (d : Database) (job : JobId) : Except StoreError (Option PendingScaleDowns) :=
  d.find? .holds job PendingScaleDowns.ofJson?

/-- The number of applied decisions of a job. -/
def period (d : Database) (job : JobId) : Except StoreError Nat := do
  return (← d.find? .periods job (Json.nat? Text.wordLimit)).getD 0

/-- Store the applied changes of a job. -/
def putHistory (d : Database) (job : JobId) (h : History) : Database :=
  d.put .histories job h.toJson

/-- Store the restart log of a job. -/
def putRestartLog (d : Database) (job : JobId) (log : RestartLog) : Database :=
  d.put .restartLogs job log.toJson

/-- Store the parallelism that each vertex of a job is set to. -/
def putParallelism (d : Database) (job : JobId) (o : Overrides) : Database :=
  d.put .parallelisms job o.toJson

/-- Store the slot profile that each vertex of a job is set to. -/
def putProfiles (d : Database) (job : JobId) (o : Overrides) : Database :=
  d.put .profiles job o.toJson

/-- Store the options changed by memory tuning. -/
def putConfigChanges (d : Database) (job : JobId) (o : Overrides) : Database :=
  d.put .configChanges job o.changesJson

/-- Store the pending scale-downs of a job. -/
def putPending (d : Database) (job : JobId) (p : PendingScaleDowns) : Database :=
  d.put .holds job p.toJson

/-- Count one more applied decision. -/
def advancePeriod (d : Database) (job : JobId) : Except StoreError Database := do
  let n ← d.period job
  return d.put .periods job (.nat ((n + 1) % Text.wordLimit))

/-! ### Generations -/

/-- The generation of a job under a period. -/
def generation? (d : Database) (job : JobId) (period : Nat) :
    Except StoreError (Option Generation) :=
  d.find? .generations (Store.generationKey job period) (Generation.ofJson? Json.float?)

/-- The generations of a job, in the order of their keys. -/
def generationsOf (d : Database) (job : JobId) : Except StoreError (List Generation) :=
  Store.readBackAll (decode (Generation.ofJson? Json.float?))
    ((d.rows .generations).filter fun key _ => Store.isGenerationOf job key).values

/-- Store a generation under its period. -/
def putGeneration (d : Database) (job : JobId) (g : Generation) : Database :=
  d.put .generations (Store.generationKey job g.period) g.toJson

/-! ### Jobs and nodes -/

/-- How many records are removed with a job. -/
def recordCount (d : Database) (job : JobId) : Nat :=
  (Table.ofJobs.countP fun t => (d.rows t).contains job)
    + ((d.rows .generations).filter fun key _ => Store.isGenerationOf job key).size

/-- Remove all records of a job. -/
def deleteJob (d : Database) (job : JobId) : Database :=
  let rest : Database := ⟨fun t => if t ∈ Table.ofJobs then (d.rows t).erase job else d.rows t⟩
  rest.modify .generations fun rows => rows.filter fun key _ => !Store.isGenerationOf job key

/-- Store a node under its identifier. -/
def putNode (d : Database) (n : Node) : Database := d.put .nodes n.id n.toJson

/-- The nodes of the cluster, by identifier. -/
def nodeList (d : Database) : Except StoreError (List Node) :=
  Store.readBackAll (decode Node.ofJson?) (d.rows .nodes).values

/-- Remove a node. -/
def deleteNode (d : Database) (id : String) : Database :=
  d.modify .nodes fun rows => rows.erase id

end Database

/-- The tables of a store. The number of decisions has 64 bits. -/
def Store.database (s : Store) : Database where
  rows
    | .histories => s.histories.mapValues fun _ h => h.toJson.compact
    | .restartLogs => s.restartLogs.mapValues fun _ log => log.toJson.compact
    | .parallelisms => s.parallelisms.mapValues fun _ o => o.toJson.compact
    | .profiles => s.profiles.mapValues fun _ o => o.toJson.compact
    | .configChanges => s.configChanges.mapValues fun _ o => o.changesJson.compact
    | .holds => s.holds.mapValues fun _ h => h.toJson.compact
    | .periods => s.periods.mapValues fun _ n => (Json.nat (n % Text.wordLimit)).compact
    | .generations => s.generations.mapValues fun _ g => g.toJson.compact
    | .nodes => s.nodes.mapValues fun _ n => n.toJson.compact

end Rescale
