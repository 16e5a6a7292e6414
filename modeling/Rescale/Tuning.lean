import Rescale.Config.Resolve
import Rescale.Event.Basic
import Rescale.Job.Context

/-!
# Memory Tuning

Sizing task managers by their heap usage.

The tuned process memory is the one at which the observed peak of heap usage
would sit at the target ratio, in whole mebibytes and not below the least size.
If tuning is enabled, the size is handed on as an override of the configuration;
if not, it is only recommended. Either way an event says so.

## Main definitions

* `Tuner`: How task managers are sized.
* `roundedUp`: The whole number that an amount is rounded up to.
* `tunedSize`: The process memory for a heap usage.
* `Tuner.tune`: The overrides of one cycle.
-/

namespace Rescale

/-- How task managers are sized. -/
inductive Tuner where
  /-- Not at all. -/
  | off
  /-- By the peak of their heap usage. -/
  | heap
  deriving DecidableEq, Repr

/-- What tuning asks for in one cycle. -/
structure Tuning where
  overrides : Overrides := ∅
  events : List Event := []
  deriving DecidableEq

/-- The whole number, with 64 bits, that an amount is rounded up to. What is below
    zero or not a number counts as zero. -/
def roundedUp (amount : Float) : Nat :=
  let whole := amount.toUInt64
  if whole.toFloat < amount then min (whole.toNat + 1) (Text.wordLimit - 1) else whole.toNat

/-- The process memory that puts a heap usage at its target, in bytes: rounded
    up to whole mebibytes, not below the least size, and with 64 bits. -/
def tunedSize (options : Config.Memory) (total : Nat) (heapUsage : Float) : Nat :=
  let scaled := Float.ofNat total * heapUsage / options.targetHeapUsage
  let mebibytes := roundedUp (scaled / Float.ofNat MemorySize.mebibyte)
  max (mebibytes * MemorySize.mebibyte % Text.wordLimit) options.minProcessSize

/-- The heap usage that tuning goes by, if it is a usable number. -/
def usableHeapUsage? (readings : JobReadings) : Option Float :=
  ((readings.overall? .heapMaxUsageRatio).map (·.average)).filter fun u =>
    u.isFinite && 0.0 < u

/-- The size that heap tuning arrives at, if it differs from the present one. -/
def newSize? (ctx : JobContext) (readings : JobReadings) : Option Nat :=
  match ctx.processSize? ctx.config.memory, usableHeapUsage? readings with
  | some total, some usage =>
    let size := tunedSize ctx.config.memory total usage
    if size == total then none else some size
  | _, _ => none

/-- An event about memory tuning. -/
def tuningEvent (ctx : JobContext) (message : String) : Event where
  job := ctx.id
  severity := .normal
  reason := "MemoryTuning"
  message
  key := some "memoryTuning"
  interval := some ctx.config.scaling.eventInterval

namespace Tuner

/-- The overrides that tuning asks for in one cycle. -/
def tune (t : Tuner) (ctx : JobContext) (readings : JobReadings) : Tuning :=
  match t with
  | off => {}
  | heap =>
    match newSize? ctx readings with
    | none => {}
    | some size =>
      let setting := Config.processSizeKey ++ "=" ++ MemorySize.text size
      if ctx.config.memory.tuningEnabled then
        { overrides := SortedMap.empty.insert Config.processSizeKey (MemorySize.text size)
          events := [tuningEvent ctx ("Memory tuning set " ++ setting)] }
      else
        { events := [tuningEvent ctx
            ("Memory tuning recommends " ++ setting ++ " (automatic tuning is disabled)")] }

end Tuner

end Rescale
