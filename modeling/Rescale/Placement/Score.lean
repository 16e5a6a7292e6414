import Rescale.Placement.Node
import Rescale.Text.Digits

/-!
# Scoring Nodes

Which node a task manager goes to.

A node that cannot take one more instance of the shape has no score. Of the
others, the one that will be fullest afterwards scores highest, so that large
gaps stay open for later.

## Main definitions

* `Node.instancesThatFit`: How many instances of a shape a node still takes.
* `NodeScore`: The score of a node.
* `rankNodes`: Nodes by falling score.
-/

namespace Rescale

/-- The largest number that a count of instances can be, which stands for no
    limit. -/
def unlimitedInstances : Nat := Text.wordLimit - 1

/-- How many times `asked` fits into `free`. Nothing asked is no limit. -/
def fitsInto (free asked : Nat) : Nat :=
  if 0 < asked then free / asked else unlimitedInstances

/-- The part of `capacity` in use after one more request, at most all of it. A
    dimension without capacity counts as half full. -/
def fillAfter (used asked capacity : Nat) : Float :=
  if 0 < capacity then
    let part := Float.ofNat (used + asked) / Float.ofNat capacity
    if part ≤ 1.0 then part else 1.0
  else 0.5

namespace Node

/-- How many instances of a shape a node still takes. -/
def instancesThatFit (n : Node) (s : Shape) : Nat :=
  min (fitsInto n.memoryFree s.memory) (fitsInto n.cpuFree s.cpu)

end Node

/-- The score of a node, from 0 to 100, with the number of instances it still
    takes. -/
structure NodeScore where
  id : String
  score : Float
  capacity : Nat
  deriving DecidableEq, Repr

namespace Node

/-- The score of a node for one instance of a shape. -/
def score? (n : Node) (s : Shape) : Option NodeScore :=
  if n.unschedulable || n.instancesThatFit s == 0 then none
  else
    let memoryFill := fillAfter n.memoryUsed s.memory n.memoryCapacity
    let cpuFill := fillAfter n.cpuUsed s.cpu n.cpuCapacity
    some ⟨n.id, (memoryFill + cpuFill) / 2.0 * 100.0, n.instancesThatFit s⟩

end Node

/-- The nodes that can take a shape, by falling score; equal scores keep the
    order of the nodes. -/
def rankNodes (nodes : List Node) (s : Shape) : List NodeScore :=
  (nodes.filterMap (·.score? s)).mergeSort fun a b => !(a.score < b.score)

end Rescale
