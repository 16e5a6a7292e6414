import Rescale.Decimal.Places
import Rescale.Memory.Size

/-!
# Slot Profiles

The resources of one task slot, and the ladder of managed memory.

Vertical scaling moves a vertex along a ladder of memory levels. The size class
of the task manager fixes heap, network and the managed memory of level 0; each
level above doubles the managed memory, and a vertex without state stands below
the ladder with none.

## Main definitions

* `SlotProfile`: The resources of one task slot.
* `SlotProfile.ofLevel`: The profile of a level of the ladder.
* `SlotProfile.text`: A profile in one line.
-/

namespace Rescale

/-- Resources assigned to one task slot; memory in mebibytes. -/
structure SlotProfile where
  cpuCores : Float
  taskHeap : Nat
  taskOffHeap : Nat
  managed : Nat
  network : Nat
  deriving DecidableEq, Repr

namespace SlotProfile

/-- Fixed allocations of one size class of task managers, in mebibytes. -/
structure SizeClass where
  taskHeap : Nat
  network : Nat
  /-- Managed memory of level 0. -/
  managedBase : Nat

/-- Task managers of four gibibytes and more. -/
def large : SizeClass := ⟨363, 84, 343⟩

/-- Task managers below four gibibytes. -/
def small : SizeClass := ⟨134, 39, 158⟩

/-- The size class of a task manager, by its process memory in bytes. -/
def sizeClass (processSize : Nat) : SizeClass :=
  if 3 < processSize / MemorySize.gibibyte then large else small

/-- The memory level of a vertex without state, below the ladder. -/
def statelessLevel : Int := -1

/-- Managed memory of a level: doubled per level, and none below level 0. The
    doubling stops at level 32. -/
def managedAt (base : Nat) (level : Int) : Nat :=
  if level < 0 then 0 else base * Nat.pow 2 (min level.toNat 32)

/-- The profile of a level of the memory ladder on a task manager with the given
    process memory in bytes. -/
def ofLevel (processSize : Nat) (level : Int) : SlotProfile :=
  let c := sizeClass processSize
  ⟨1.0, c.taskHeap, 0, managedAt c.managedBase level, c.network⟩

/-- Change the number that is a double. -/
def mapFloats (f : Float → Float) (p : SlotProfile) : SlotProfile :=
  { p with cpuCores := f p.cpuCores }

/-- All memory of a profile in mebibytes. -/
def totalMemory (p : SlotProfile) : Nat := p.taskHeap + p.taskOffHeap + p.managed + p.network

/-- A profile in one line. -/
def text (p : SlotProfile) : String :=
  "cpu=" ++ Decimal.places 1 p.cpuCores
    ++ ",task_heap=" ++ toString p.taskHeap
    ++ "m,task_off_heap=" ++ toString p.taskOffHeap
    ++ "m,managed=" ++ toString p.managed
    ++ "m,network=" ++ toString p.network ++ "m"

end SlotProfile

end Rescale
