import Rescale.Job.Metric
import Rescale.Memory.SlotProfile
import Rescale.Time.Instant

/-!
# Changes and their History

Proposed changes of parallelism, and the record of those that were applied.

A change names the parallelism it starts from and the one it leads to, with the
readings it was based on. What does not change anything is no change, and a
vertex cannot run at parallelism zero, so the checked constructor refuses both.
Applied changes are kept per vertex, under the instant of the decision.

## Main definitions

* `Change`: A proposed change of one vertex.
* `Change.of?`: Build a change, or say why it is none.
* `Proposal`: The changes of one cycle.
* `History`: The applied changes of a job.
* `History.record`: Add the changes of a decision.
* `Proposal.report`: A proposal, one line per vertex.
-/

namespace Rescale

/-- Why two parallelisms are no change. -/
inductive ChangeError where
  | unchanged (parallelism : Nat)
  | zeroParallelism
  deriving DecidableEq, Repr

namespace ChangeError

/-- The wording of an error. -/
def message : ChangeError → String
  | unchanged n =>
    "parallelism " ++ toString n ++ " is unchanged, a summary must describe a change"
  | zeroParallelism => "parallelism must be positive"

end ChangeError

/-- A proposed change of the parallelism of one vertex. -/
structure Change where
  current : Nat
  target : Nat
  currentProfile : Option SlotProfile := none
  targetProfile : Option SlotProfile := none
  /-- The readings that the change was based on. -/
  readings : Readings := ∅
  deriving DecidableEq

namespace Change

/-- The change from one parallelism to another. -/
def of? (current target : Nat) (readings : Readings) : Except ChangeError Change :=
  if current == target then .error (.unchanged target)
  else if target == 0 then .error .zeroParallelism
  else .ok { current, target, readings }

/-- Whether the vertex gains parallelism. -/
def isScaleUp (c : Change) : Bool := c.current < c.target

/-- Change every number in the change that is a double. -/
def mapFloats (f : Float → Float) (c : Change) : Change :=
  { c with
    currentProfile := c.currentProfile.map (·.mapFloats f)
    targetProfile := c.targetProfile.map (·.mapFloats f)
    readings := c.readings.mapValues fun _ r => r.mapFloats f }

/-- Whether every number in the change is finite. -/
def isFinite (c : Change) : Bool :=
  c.readings.values.all Reading.isFinite
    && c.currentProfile.all (·.cpuCores.isFinite)
    && c.targetProfile.all (·.cpuCores.isFinite)

end Change

/-- The changes proposed in one cycle. -/
abbrev Proposal := SortedMap VertexId Change

/-- The applied changes of one vertex, by the instant of the decision. -/
abbrev VertexHistory := SortedMap Instant Change

/-- The applied changes of a job. -/
abbrev History := SortedMap VertexId VertexHistory

namespace History

/-- Add the changes that were decided at `now`. -/
def record (h : History) (now : Instant) (p : Proposal) : History :=
  p.toList.foldl (fun h e => h.update e.1 fun past => (past.getD ∅).insert now e.2) h

/-- The applied changes of one vertex. -/
def ofVertex (h : History) (v : VertexId) : VertexHistory := h.getD v ∅

/-- Change every number in the history that is a double. -/
def mapFloats (f : Float → Float) (h : History) : History :=
  h.mapValues fun _ past => past.mapValues fun _ c => c.mapFloats f

/-- Whether every number in the history is finite. -/
def isFinite (h : History) : Bool := h.values.all fun past => past.values.all Change.isFinite

end History

namespace Proposal

/-- One line of a report. -/
def reportLine (v : VertexId) (c : Change) : String :=
  "\n  " ++ v ++ ": parallelism " ++ toString c.current ++ " -> " ++ toString c.target
    ++ match c.targetProfile with
      | some profile => ", resources " ++ profile.text
      | none => ""

/-- A proposal, one line per vertex. -/
def report (p : Proposal) : String := String.join (p.toList.map fun e => reportLine e.1 e.2)

end Proposal

end Rescale
