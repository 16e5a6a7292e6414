import Rescale.Autoscaler
import Rescale.Config.Document
import Rescale.Console.Error
import Rescale.Console.Listing
import Rescale.Record.Snapshot

/-!
# Commands

What can be done from a command line.

Commands need files: configurations and snapshots to read, and a store to open
and to keep. They reach them through `Files`, whatever monad that lives in, so
that a command runs on a disk as well as on a working folder in memory. Each
command loads its configuration first. A command returns what it prints.

## Main definitions

* `Files`: Access to files.
* `Command`: The commands.
* `Command.run`: Run a command.
-/

namespace Rescale

universe u

/-- Access to files by their paths. -/
structure Files (m : Type → Type u) where
  /-- The text of a file, if it can be read. -/
  readText : String → m (Option String)
  isFolder : String → m Bool
  /-- Make the folder in which a file is to stand, or say why not. -/
  makeParent : String → m (Except String Unit)
  /-- The store in a file, if the file holds one; a new file holds an empty one. -/
  openStore : String → m (Option Store)
  saveStore : String → Store → m Unit

/-- A node as it is described on the command line. -/
structure NodeDraft where
  id : String
  cpu : Float
  memory : String
  usedCpu : Float := 0.0
  usedMemory : String := "0"
  unschedulable : Bool := false
  deriving DecidableEq

namespace NodeDraft

/-- Thousandths of a core, rounded to the nearest. -/
def thousandths (cores : Float) : Nat := (cores * 1000.0).round.toUInt64.toNat

/-- Read an amount of memory. -/
def readMemory (text : String) : Except CommandError Nat :=
  match MemorySize.ofText? text with
  | some n => .ok n
  | none => .error (.memorySize text)

/-- The node that a description stands for. -/
def resolve (d : NodeDraft) : Except CommandError Node := do
  if !(0.0 < d.cpu) then throw (.cpuNotPositive d.cpu)
  if !(0.0 ≤ d.usedCpu) then throw .usedCpuNegative
  let memory ← readMemory d.memory
  let usedMemory ← readMemory d.usedMemory
  return {
    id := d.id
    cpuCapacity := thousandths d.cpu
    memoryCapacity := memory
    cpuUsed := thousandths d.usedCpu
    memoryUsed := usedMemory
    unschedulable := d.unschedulable }

end NodeDraft

/-- The engine of a cluster: its nodes limit what can be placed, unless none is
    registered. -/
def Engine.ofNodes (nodes : List Node) : Engine :=
  { capacity := if nodes.isEmpty then .unlimited else .nodes nodes }

/-- The commands that end. -/
inductive Command where
  /-- One cycle of the job of a snapshot, at an instant. -/
  | decide (snapshot : String) (now : Instant)
  | showText (job : JobId)
  | showJson (job : JobId)
  /-- Remove all records of a job. -/
  | reset (job : JobId)
  | addNode (node : NodeDraft)
  | listNodes
  | removeNode (id : String)

namespace Command

variable {m : Type → Type} [Monad m]

/-- The configuration in a file, or the defaults without one. -/
def loadConfig (files : Files m) : Option String → ExceptT CommandError m Config
  | none => return {}
  | some path => do
    match ← files.readText path with
    | none => throw (.config path)
    | some text =>
      match Config.ofText text with
      | .ok config => return config
      | .error _ => throw (.config path)

/-- The snapshot in a file. -/
def loadSnapshot (files : Files m) (path : String) : ExceptT CommandError m Snapshot := do
  match ← files.readText path with
  | none => throw (.snapshotUnread path)
  | some text =>
    match Snapshot.ofText? text with
    | some snapshot => return snapshot
    | none => throw (.snapshotUnparsed path)

/-- The store in a file. -/
def openStore (files : Files m) (path : String) : ExceptT CommandError m Store := do
  match ← files.makeParent path with
  | .error why => throw (.folder why)
  | .ok () =>
    match ← files.openStore path with
    | some store => return store
    | none => throw (.storeUnopened path)

/-- What the store answers, as a step of a command. -/
def ofStore {α : Type} : Except StoreError α → ExceptT CommandError m α
  | .ok x => return x
  | .error e => throw (.store e)

/-- The lines that report the parallelism of each vertex. -/
def targetLines (o : Overrides) : String :=
  String.join (o.toList.map fun e => "\n  " ++ e.1 ++ " = " ++ e.2)

/-- The report of a cycle: its outcome, and what a new decision set. -/
def report (job : JobId) (outcome : Outcome) (store : Store) : String :=
  job ++ ": " ++ outcome.text
    ++ if outcome.isScaled then targetLines ((store.parallelism? job).getD ∅) else ""

/-- One cycle of the job of a snapshot: the report, and the events told. What the
    cycle wrote is kept even if it fails. -/
def runCycle (files : Files m) (db : String) (config : Config) (path : String) (now : Instant) :
    ExceptT CommandError m (String × List Event) := do
  let snapshot ← loadSnapshot files path
  let store ← openStore files db
  let autoscaler : Autoscaler := { engine := Engine.ofNodes store.nodeList, config }
  let start : Journal := { ledger := Ledger.ofStore store }
  let (result, stop) := autoscaler.runSnapshot snapshot.job snapshot now start
  files.saveStore db stop.ledger.store
  match result with
  | .ok outcome => return (report snapshot.job outcome stop.ledger.store, stop.events)
  | .error e => throw (.decision e)

/-- Run a command with a configuration: what it prints, and the events told. -/
def runWith (files : Files m) (db : String) (config : Config) :
    Command → ExceptT CommandError m (String × List Event)
  | .decide path now => do
    let (report, events) ← runCycle files db config path now
    return (report ++ "\n", events)
  | .showText job => do
    let store ← openStore files db
    return ((← ofStore (store.jobText job)) ++ "\n", [])
  | .showJson job => do
    let store ← openStore files db
    return ((← ofStore (store.jobJson job)).pretty ++ "\n", [])
  | .reset job => do
    let store ← openStore files db
    files.saveStore db (store.deleteJob job)
    return ("✓ Removed " ++ toString (store.recordCount job) ++ " records of " ++ job ++ "\n", [])
  | .addNode draft => do
    match draft.resolve with
    | .error e => throw e
    | .ok node =>
      let store ← openStore files db
      files.saveStore db (store.putNode node)
      return ("✓ Registered node " ++ node.id ++ "\n", [])
  | .listNodes => do
    let store ← openStore files db
    return (String.join (store.nodeList.map fun n => n.line ++ "\n"), [])
  | .removeNode id => do
    let store ← openStore files db
    if store.nodes.contains id then
      files.saveStore db (store.deleteNode id)
      return ("✓ Removed node " ++ id ++ "\n", [])
    else return ("node " ++ id ++ " not found\n", [])

/-- Run a command. -/
def run (files : Files m) (db : String) (config : Option String) (command : Command) :
    ExceptT CommandError m (String × List Event) := do
  let config ← loadConfig files config
  runWith files db config command

/-- Whether a folder of snapshots is there to watch; the configuration to watch it
    with. -/
def prepareWatch (files : Files m) (config : Option String) (folder : String) :
    ExceptT CommandError m Config := do
  let config ← loadConfig files config
  if ← files.isFolder folder then return config else throw (.noFolder folder)

end Command

end Rescale
