import Rescale.Console.Command
import Rescale.Json.Reader

/-!
# Command-Line Arguments

From the words of a command line to a request.

A word that starts with two hyphens is an option, with its value in the next word
unless it is a mark. The other words are the command and what it is about, and
they may stand on either side of options.

## Main definitions

* `Request`: What a command line asks for.
* `Arguments`: Words and options, apart.
* `Request.ofWords?`: Read a command line.
-/

namespace Rescale

/-- What a command line asks for. -/
structure Request where
  config : Option String := none
  db : String := "rescale.json"
  /-- The command, or else a folder to watch and the seconds between rounds. -/
  action : Command ⊕ (String × Nat)

/-- The words of a command line, with the options apart. -/
structure Arguments where
  words : List String := []
  options : List (String × String) := []
  deriving DecidableEq, Repr

namespace Arguments

instance : Inhabited Arguments := ⟨{}⟩

/-- The options that are marks, without a value. -/
def marks : List String := ["--unschedulable"]

/-- Part words and options. -/
def ofWords : List String → Arguments
  | [] => {}
  | word :: rest =>
    if marks.contains word then
      let a := ofWords rest
      { a with options := (word, "") :: a.options }
    else if ['-', '-'].isPrefixOf word.toList then
      match rest with
      | value :: rest =>
        let a := ofWords rest
        { a with options := (word, value) :: a.options }
      | [] => { options := [(word, "")] }
    else
      let a := ofWords rest
      { a with words := word :: a.words }

/-- The value of an option. -/
def option? (a : Arguments) (name : String) : Option String := a.options.lookup name

/-- A number as an option. -/
def number? (a : Arguments) (name : String) : Option Float := do
  (← Json.ofText? (← a.option? name)).float?

/-- The node that a command line describes. -/
def node? (a : Arguments) (id : String) : Option NodeDraft := do
  return {
    id
    cpu := ← a.number? "--cpu"
    memory := ← a.option? "--memory"
    usedCpu := ← if (a.option? "--used-cpu").isSome then a.number? "--used-cpu" else some 0.0
    usedMemory := (a.option? "--used-memory").getD "0"
    unschedulable := (a.option? "--unschedulable").isSome }

/-- The command of a command line that is read at the instant `now`. -/
def command? (a : Arguments) (now : Instant) : Option Command :=
  match a.words with
  | ["decide", snapshot] =>
    match a.option? "--at" with
    | some text => (Instant.ofText? text).map (.decide snapshot ·)
    | none => some (.decide snapshot now)
  | ["show", job] =>
    if a.option? "--format" == some "json" then some (.showJson job) else some (.showText job)
  | ["reset", job] => some (.reset job)
  | ["node", "add", id] => (a.node? id).map .addNode
  | ["node", "list"] => some .listNodes
  | ["node", "remove", id] => some (.removeNode id)
  | _ => none

/-- The folder to watch and the seconds between rounds. -/
def watch? (a : Arguments) : Option (String × Nat) := do
  if a.words != ["run"] then none
  let folder ← a.option? "--snapshots"
  let seconds ← Text.natural? Text.wordLimit ((a.option? "--interval").getD "30").toList
  return (folder, seconds)

end Arguments

namespace Request

/-- What a command line asks for at the instant `now`. -/
def ofWords? (now : Instant) (words : List String) : Option Request := do
  let a := Arguments.ofWords words
  let action ← ((a.command? now).map Sum.inl).or (a.watch?.map Sum.inr)
  return { config := a.option? "--config", db := (a.option? "--db").getD "rescale.json", action }

/-- How the program is called. -/
def usage : String :=
  "usage: rescale [--config FILE] [--db FILE] COMMAND\n"
    ++ "  decide SNAPSHOT [--at INSTANT]\n"
    ++ "  run --snapshots FOLDER [--interval SECONDS]\n"
    ++ "  show JOB [--format text|json]\n"
    ++ "  reset JOB\n"
    ++ "  node add ID --cpu CORES --memory SIZE [--used-cpu CORES] [--used-memory SIZE]"
    ++ " [--unschedulable]\n"
    ++ "  node list\n"
    ++ "  node remove ID\n"

end Request

end Rescale
