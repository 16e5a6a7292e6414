import Rescale.Console.Arguments
import Rescale.Console.Path
import Rescale.Event.Throttle
import Rescale.Record.Store
import Rescale.SnapshotFolder
import Std.Time.DateTime.Timestamp

/-!
# The Command Line

The program: files on disk, the clock, and the two output streams.

The tables of a store are kept as a JSON document, written anew after every change. What commands
print goes to the standard output; logged events and errors go to the standard
error stream.

## Main definitions

* `Disk.files`: Access to the files on disk.
* `main`: The program.
-/

namespace Rescale

namespace Disk

/-- The text of a file, if it can be read. -/
def readText (path : String) : IO (Option String) := do
  try
    return some (← IO.FS.readFile path)
  catch _ => return none

/-- Whether a path leads to a folder. -/
def isFolder (path : String) : IO Bool := do
  try
    (← IO.FS.realPath path).isDir
  catch _ => return false

/-- Make the folder in which a file is to stand. -/
def makeParent (path : String) : IO (Except String Unit) := do
  let p := Path.ofText path
  if p.parentSteps.isEmpty then return .ok ()
  try
    IO.FS.createDirAll (Path.ofReversed p.absolute p.parentSteps).text
    return .ok ()
  catch e => return .error (toString e)

/-- Write a store to its file. -/
def saveStore (path : String) (s : Store) : IO Unit :=
  IO.FS.writeFile path s.database.toJson.compact

/-- Whether something stands at a path. -/
def isThere (path : String) : IO Bool := do
  try
    (← IO.FS.realPath path).pathExists
  catch _ => return false

/-- The store in a file; a file that is missing or empty becomes an empty store. -/
def openStore (path : String) : IO (Option Store) := do
  match ← readText path with
  | some text =>
    if text.isEmpty then
      saveStore path {}
      return some {}
    else return ((Json.ofText? text).bind Database.ofJson?).bind Database.store?
  | none =>
    if ← isThere path then return none
    try
      saveStore path {}
      return some {}
    catch _ => return none

/-- Access to the files on disk. -/
def files : Files IO where
  readText
  isFolder
  makeParent
  openStore
  saveStore

/-- The snapshots of a folder, as a source. -/
def source (folder : String) : IO Source := do
  try
    let entries ← (← IO.FS.realPath folder).readDir
    let mut listing := []
    for e in entries do
      if !(← e.path.isDir) then
        listing := (e.fileName, ← readText e.path.toString) :: listing
    return (SnapshotFolder.ofListing listing).source
  catch _ => return Source.missingFolder folder

end Disk

/-- The present instant. -/
def presentInstant : IO Instant := do
  let now ← Std.Time.Timestamp.now
  return ⟨now.toMillisecondsSinceUnixEpoch.val⟩

/-- The present reading of the clock that runs on whatever the calendar says. -/
def presentTick : IO Tick := return ⟨← IO.monoNanosNow⟩

/-- Log events, as far as they are not repeats. -/
def logEvents (throttle : Throttle) : List Event → IO Throttle
  | [] => return throttle
  | e :: rest => do
    let (line, throttle) := throttle.log e (← presentTick)
    if let some l := line then
      let level := match l.severity with
        | .normal => "INFO"
        | .warning => "WARN"
      IO.eprintln (level ++ " " ++ l.job ++ " " ++ l.reason ++ ": " ++ l.message)
    logEvents throttle rest

/-- Run rounds over a folder, with a pause after each, until the program is
    stopped. -/
partial def watch (autoscaler : Autoscaler) (db folder : String) (seconds : Nat) (store : Store)
    (throttle : Throttle) : IO Unit := do
  let now ← presentInstant
  let source ← Disk.source folder
  let (result, stop) := autoscaler.runRound source now { ledger := Ledger.ofStore store }
  Disk.saveStore db stop.ledger.store
  let throttle ← logEvents throttle stop.events
  if let .error why := result then
    IO.eprintln why
  IO.sleep (UInt32.ofNat (min (seconds * 1000) (Text.halfWordLimit - 1)))
  watch autoscaler db folder seconds stop.ledger.store throttle

/-- Do what a command line asks for. -/
def serve (r : Request) : ExceptT CommandError IO Unit := do
  match r.action with
  | .inl command => do
    let (text, events) ← command.run Disk.files r.db r.config
    let _ ← logEvents {} events
    IO.print text
  | .inr (folder, seconds) => do
    let config ← Command.prepareWatch Disk.files r.config folder
    let store ← Command.openStore Disk.files r.db
    let autoscaler : Autoscaler := { engine := Engine.ofNodes store.nodeList, config }
    watch autoscaler r.db folder seconds store {}

end Rescale

/-- The program. -/
def main (words : List String) : IO UInt32 := do
  match Rescale.Request.ofWords? (← Rescale.presentInstant) words with
  | none =>
    IO.eprint Rescale.Request.usage
    return 2
  | some request =>
    match ← (Rescale.serve request).run with
    | .ok () => return 0
    | .error e =>
      IO.eprintln ("Error: " ++ e.message)
      return 1
