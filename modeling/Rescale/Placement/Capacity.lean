import Rescale.Placement.Score

/-!
# Cluster Capacity

Whether more task managers would find room.

Going from `current` to `target` task managers needs room only for the
difference, since the running ones are part of what is in use already. The
placement is simulated one instance at a time, each on the node with the best
score at that point.

## Main definitions

* `Capacity`: What is known of the room in the cluster.
* `allocateOn`: Reserve a shape on the node with an identifier.
* `placeAll`: Place a number of instances.
* `Capacity.hasRoom`: Whether the cluster can grow to a number of task managers.
-/

namespace Rescale

/-- What is known of the room in the cluster. -/
inductive Capacity where
  /-- Nothing limits it. -/
  | unlimited
  /-- It is that of some nodes. -/
  | nodes (nodes : List Node)
  deriving DecidableEq

/-- Reserve a shape on the first node with an identifier, if there is one. -/
def allocateOn (id : String) (s : Shape) : List Node → Option (List Node)
  | [] => none
  | n :: rest =>
    if n.id == id then some (n.allocate s :: rest)
    else (allocateOn id s rest).map (n :: ·)

/-- Place one instance on the node with the best score. -/
def placeOne (s : Shape) (nodes : List Node) : Option (List Node) :=
  match rankNodes nodes s with
  | [] => none
  | best :: _ => allocateOn best.id s nodes

/-- Place a number of instances, one after the other. -/
def placeAll (s : Shape) : Nat → List Node → Option (List Node)
  | 0, nodes => some nodes
  | n + 1, nodes => (placeOne s nodes).bind (placeAll s n)

namespace Capacity

/-- Whether the cluster can grow from `current` to `target` task managers of a
    shape. Shrinking always works. -/
def hasRoom (c : Capacity) (current target : Nat) (cores : Float) (memory : Nat) : Bool :=
  match c with
  | unlimited => true
  | nodes ns =>
    target ≤ current || (placeAll (Shape.ofCores cores memory) (target - current) ns).isSome

end Capacity

end Rescale
