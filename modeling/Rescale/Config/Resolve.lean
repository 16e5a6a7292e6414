import Rescale.Config.Basic
import Rescale.Config.Draft
import Rescale.Config.Error
import Rescale.SortedMap.Basic

/-!
# Resolving Configurations

From a draft to options that are fit to run with.

Resolving reads the texts of a draft in the order of its sections and fields,
lays them over the defaults and checks the result; the first text without a
reading, or else the first range that is missed, is the error. A not-a-number
fails every check that asks for a range, and it passes the one of the CPU quota,
which only excludes values.

Overrides are changes to a resolved configuration, by the name of the option.
They are laid over it in the order of their names, and the result is checked
again.

## Main definitions

* `Config.check`: The first range that a configuration misses.
* `Draft.resolve`: The options that a draft stands for.
* `Config.withOverrides`: Options with overrides on top.
-/

namespace Rescale

namespace Config

/-- Refuse a value that is out of range. -/
def require (ok : Bool) (field reason : String) : Except ConfigError Unit :=
  if ok then .ok () else .error (.outOfRange field reason)

/-- Refuse a configuration that misses a range; the first one missed counts. -/
def check (c : Config) : Except ConfigError Unit := do
  require (c.scaling.slotsPerTaskManager != 0) "scaling.num_task_slots" "must be at least 1"
  require (c.vertex.minParallelism != 0) "vertex.min_parallelism" "must be at least 1"
  require (c.vertex.minParallelism ≤ c.vertex.maxParallelism) "vertex.min_parallelism"
    "must not exceed vertex.max_parallelism"
  require (0.0 < c.vertex.targetUtilization && c.vertex.targetUtilization ≤ 1.0)
    "vertex.target_utilization" "must be in (0, 1]"
  require (0.0 ≤ c.vertex.maxScaleDownFactor && c.vertex.maxScaleDownFactor ≤ 1.0)
    "vertex.max_scale_down_factor" "must be in [0, 1]"
  require (0.0 < c.memory.targetHeapUsage && c.memory.targetHeapUsage ≤ 1.0)
    "memory.target_heap_usage" "must be in (0, 1]"
  require (1 ≤ c.elastic.maxLevel) "elastic.max_memory_level" "must be at least 1"
  require (c.quota.cpu.all fun cpu => !(cpu ≤ 0.0 : Bool)) "quota.cpu" "must be positive"

/-- The configuration itself, if it is fit to run with. -/
def checked (c : Config) : Except ConfigError Config := do
  c.check
  return c

/-- Read a span option. -/
def readSpan (field value : String) : Except ConfigError Span :=
  match Span.ofText? value with
  | some s => .ok s
  | none => .error (.invalidSpan field value)

/-- Read a size option. -/
def readSize (field value : String) : Except ConfigError Nat :=
  match MemorySize.ofText? value with
  | some n => .ok n
  | none => .error (.invalidSize field value)

/-- Read a blackout window. -/
def readBlackout (value : String) : Except ConfigError Blackout :=
  match Blackout.ofText? value with
  | some w => .ok w
  | none => .error (.invalidBlackout value)

/-- Read an option if it is written, and keep its default otherwise. -/
def readOr {α β : Type} (read : α → Except ConfigError β) (written : Option α) (default : β) :
    Except ConfigError β :=
  match written with
  | some a => read a
  | none => .ok default

end Config

namespace Draft

open Config (readSpan readSize readBlackout readOr)

/-- The options of the section `scaling`. -/
def Scaling.resolve (s : Scaling) : Except ConfigError Config.Scaling := do
  let d : Config.Scaling := {}
  let blackouts ← readOr (·.mapM readBlackout) s.blackouts d.blackouts
  let eventInterval ← readOr (readSpan "scaling.event_interval") s.eventInterval d.eventInterval
  return {
    enabled := s.enabled.getD d.enabled
    blackouts
    eventInterval
    slotsPerTaskManager := s.slotsPerTaskManager.getD d.slotsPerTaskManager
    gcPressureThreshold := s.gcPressureThreshold.getD d.gcPressureThreshold
    heapUsageThreshold := s.heapUsageThreshold.getD d.heapUsageThreshold
    excluded := s.excluded.getD d.excluded }

/-- The options of the section `memory`. -/
def Memory.resolve (s : Memory) : Except ConfigError Config.Memory := do
  let d : Config.Memory := {}
  let processSize ←
    readOr (fun v => return some (← readSize "memory.process_size" v)) s.processSize d.processSize
  let minProcessSize ←
    readOr (readSize "memory.min_process_size") s.minProcessSize d.minProcessSize
  return {
    tuningEnabled := s.tuningEnabled.getD d.tuningEnabled
    processSize
    targetHeapUsage := s.targetHeapUsage.getD d.targetHeapUsage
    minProcessSize }

/-- The options of the section `quota`. -/
def Quota.resolve (s : Quota) : Except ConfigError Config.Quota := do
  let memory ← readOr (fun v => return some (← readSize "quota.memory" v)) s.memory none
  return { cpu := s.cpu, memory }

/-- The options of the section `restart`. -/
def Restart.resolve (s : Restart) : Except ConfigError Config.Restart := do
  let d : Config.Restart := {}
  let restartTime ← readOr (readSpan "restart.restart_time") s.restartTime d.restartTime
  let trackedLimit ← readOr (readSpan "restart.tracked_limit") s.trackedLimit d.trackedLimit
  let catchUp ← readOr (readSpan "restart.catch_up_duration") s.catchUp d.catchUp
  let preferTracked := s.preferTracked.getD d.preferTracked
  return { restartTime, preferTracked, trackedLimit, catchUp }

/-- The options of the section `vertex`. -/
def Vertex.resolve (s : Vertex) : Except ConfigError Config.Vertex := do
  let d : Config.Vertex := {}
  let scaleDownInterval ←
    readOr (readSpan "vertex.scale_down_interval") s.scaleDownInterval d.scaleDownInterval
  return {
    minParallelism := s.minParallelism.getD d.minParallelism
    maxParallelism := s.maxParallelism.getD d.maxParallelism
    targetUtilization := s.targetUtilization.getD d.targetUtilization
    scaleDownInterval
    maxScaleDownFactor := s.maxScaleDownFactor.getD d.maxScaleDownFactor
    ineffectiveThreshold := s.ineffectiveThreshold.getD d.ineffectiveThreshold }

/-- The options of the section `elastic`. -/
def Elastic.resolve (s : Elastic) : Config.Elastic :=
  let d : Config.Elastic := {}
  { enabled := s.enabled.getD d.enabled
    minHitRate := s.minHitRate.getD d.minHitRate
    maxHitRate := s.maxHitRate.getD d.maxHitRate
    improvedHitRate := s.improvedHitRate.getD d.improvedHitRate
    improvedThroughput := s.improvedThroughput.getD d.improvedThroughput
    latencyThreshold := s.latencyThreshold.getD d.latencyThreshold
    maxLevel := s.maxLevel.getD d.maxLevel }

/-- The options that a draft stands for, if they are fit to run with. -/
def resolve (d : Draft) : Except ConfigError Config := do
  let scaling ← d.scaling.resolve
  let memory ← d.memory.resolve
  let quota ← d.quota.resolve
  let restart ← d.restart.resolve
  let vertex ← d.vertex.resolve
  Config.checked { scaling, memory, quota, restart, vertex, elastic := d.elastic.resolve }

end Draft

/-- Values by name: of options, or of vertices. -/
abbrev Overrides := SortedMap String String

namespace Config

/-- The option that sets the process memory of a task manager. -/
def processSizeKey : String := "memory.process_size"

/-- The option that sets the slots of a task manager. -/
def slotsKey : String := "scaling.num_task_slots"

/-- Change one option by its name. -/
def setOption (c : Config) (key value : String) : Except ConfigError Config :=
  if key == processSizeKey then do
    let size ← readSize "memory.process_size" value
    return { c with memory := { c.memory with processSize := some size } }
  else if key == slotsKey then
    match Text.count? Text.halfWordLimit (Text.trim value.toList) with
    | some n => .ok { c with scaling := { c.scaling with slotsPerTaskManager := n } }
    | none => .error (.outOfRange "scaling.num_task_slots" "must be a positive integer")
  else .error (.unknownOverride key)

/-- Change the options of a list, one after the other. -/
def setOptions (c : Config) : List (String × String) → Except ConfigError Config
  | [] => .ok c
  | (key, value) :: rest => do
    let c ← c.setOption key value
    c.setOptions rest

/-- The configuration with overrides on top, if it is still fit to run with. -/
def withOverrides (c : Config) (o : Overrides) : Except ConfigError Config := do
  let c ← c.setOptions o.toList
  c.checked

end Config

end Rescale
