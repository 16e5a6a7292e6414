import Rescale.Json.Ordered
import Rescale.Json.Printer
import Rescale.Memory.Size
import Rescale.Record.Node
import Rescale.Store.Basic
import Rescale.Text.Blank

/-!
# Listings

What the store knows of a job, and the nodes of the cluster, for people to read.

The text of a job has a section for each kind of record. The sections for slot
profiles, options and pending scale-downs are left out when there is nothing in
them, and blanks at the end of the text are dropped. The JSON form has every
record, and null for those that are missing.

## Main definitions

* `Store.jobText`: A job as text.
* `Store.jobJson`: A job as JSON.
* `Node.line`: A node in one line.
-/

namespace Rescale

namespace Store

/-- A line that is indented one step. -/
def headingLine (text : String) : String := "  " ++ text ++ "\n"

/-- Values by name, one per line. -/
def valueLines (o : Overrides) : String :=
  String.join (o.toList.map fun e => "    " ++ e.1 ++ " = " ++ e.2 ++ "\n")

/-- A section of values that is left out when there are none. -/
def optionalSection (heading : String) (o : Overrides) : String :=
  if o.isEmpty then "" else headingLine heading ++ valueLines o

/-- The applied changes of a job, one per line. -/
def historyLines (h : History) : String :=
  String.join <| h.toList.flatMap fun v =>
    v.2.toList.map fun e =>
      "    " ++ e.1.listingText ++ " " ++ v.1 ++ ": " ++ toString e.2.current ++ " -> "
        ++ toString e.2.target ++ "\n"

/-- The pending scale-downs of a job, one per line. -/
def holdLines (h : Holds) : String :=
  String.join <| h.toList.map fun e =>
    "    " ++ e.1 ++ ": since " ++ e.2.since.listingText ++ ", max recommended "
      ++ toString e.2.peak ++ "\n"

/-- What the store knows of a job, as text. -/
def jobText (s : Store) (job : JobId) : Except StoreError String := do
  let history ← s.history? job
  let holds := (s.holds? job).getD ∅
  let text :=
    "job " ++ job ++ "\n"
      ++ headingLine ("period: " ++ toString (s.period job))
      ++ headingLine "parallelism:" ++ valueLines ((s.parallelism? job).getD ∅)
      ++ optionalSection "resources:" ((s.profiles? job).getD ∅)
      ++ optionalSection "config:" ((s.configChanges? job).getD ∅)
      ++ headingLine "history:" ++ historyLines (history.getD ∅)
      ++ (if holds.isEmpty then "" else headingLine "pending scale-downs:" ++ holdLines holds)
  return String.ofList (Text.trimEnd text.toList)

/-- What the store knows of a job, as JSON. -/
def jobJson (s : Store) (job : JobId) : Except StoreError Json := do
  let history ← s.history? job
  let generations ← s.generationsOf job
  return Json.ordered <| .object
    [("job_id", .string job),
      ("period", .nat (s.period job)),
      ("parallelism_overrides", .ofOption Overrides.toJson (s.parallelism? job)),
      ("resource_profile_overrides", .ofOption Overrides.toJson (s.profiles? job)),
      ("config_changes", .ofOption Overrides.changesJson (s.configChanges? job)),
      ("history", .ofOption History.toJson history),
      ("tracking", .ofOption RestartLog.toJson (s.restartLog? job)),
      ("delayed_scale_down", .ofOption Holds.toJson (s.holds? job)),
      ("scaling_configurations", .array (generations.map Generation.toJson))]

end Store

/-- A node in one line: used and total CPU, used and total memory, and whether it is
    cordoned. -/
def Node.line (n : Node) : String :=
  n.id ++ "\tcpu " ++ toString n.cpuUsed ++ "/" ++ toString n.cpuCapacity ++ "m\tmemory "
    ++ MemorySize.text n.memoryUsed ++ "/" ++ MemorySize.text n.memoryCapacity
    ++ if n.unschedulable then "\tunschedulable" else ""

end Rescale
