import Rescale.Config.Resolve
import Rescale.Toml.Document

/-!
# Configuration Documents

From a configuration file to a draft, and on to options.

A file has a table for each section and a key for each option; what it does not
know is passed over. A section can also be an array with the values of all its
options in order. A whole number will do where a double is wanted, but not the
other way round, and whole numbers have 32 bits.

## Main definitions

* `Draft.ofToml?`: The draft that a document holds.
* `Config.ofText`: The options that a file holds.
-/

namespace Rescale

namespace Toml

/-- A truth value. -/
def boolean? : Toml → Option Bool
  | boolean b => some b
  | _ => none

/-- A text. -/
def string? : Toml → Option String
  | string s => some s
  | _ => none

/-- A list of texts. -/
def strings? : Toml → Option (List String)
  | array items => items.mapM string?
  | _ => none

/-- A number. -/
def float? : Toml → Option Float
  | float x => some x
  | integer n => some (Decimal.ofInt n)
  | _ => none

/-- A count of 32 bits. -/
def count? : Toml → Option Nat
  | integer n => if 0 ≤ n ∧ n < Text.halfWordLimit then some n.toNat else none
  | _ => none

/-- A whole number of 32 bits, one of them the sign. -/
def integer? : Toml → Option Int
  | integer n => if -2147483648 ≤ n ∧ n < 2147483648 then some n else none
  | _ => none

/-- The options of a section. A moment has none that a section knows. -/
def options? (names : List String) : Toml → Option Entries
  | table _ entries => some entries
  | array items => if names.length ≤ items.length then some (names.zip items) else none
  | tables members =>
    if names.length ≤ members.length then some (names.zip (members.map (table .header)))
    else none
  | moment => some []
  | _ => none

namespace Entries

/-- An option that may be missing. -/
def option? {α : Type} (t : Entries) (name : String) (read : Toml → Option α) :
    Option (Option α) :=
  match t.lookup name with
  | some x => (read x).map some
  | none => some none

/-- A section that may be missing. -/
def sectionOr {α : Type} (t : Entries) (name : String) (default : α)
    (read : Toml → Option α) : Option α :=
  match t.lookup name with
  | some x => read x
  | none => some default

end Entries

end Toml

namespace Draft

/-- The section `scaling` of a document. -/
def Scaling.ofToml? (x : Toml) : Option Scaling := do
  let t ←
    x.options?
      ["enabled", "excluded_periods", "event_interval", "num_task_slots", "gc_pressure_threshold",
        "heap_usage_threshold", "vertex_exclude_ids"]
  return {
    enabled := ← t.option? "enabled" Toml.boolean?
    blackouts := ← t.option? "excluded_periods" Toml.strings?
    eventInterval := ← t.option? "event_interval" Toml.string?
    slotsPerTaskManager := ← t.option? "num_task_slots" Toml.count?
    gcPressureThreshold := ← t.option? "gc_pressure_threshold" Toml.float?
    heapUsageThreshold := ← t.option? "heap_usage_threshold" Toml.float?
    excluded := ← t.option? "vertex_exclude_ids" Toml.strings? }

/-- The section `memory` of a document. -/
def Memory.ofToml? (x : Toml) : Option Memory := do
  let t ← x.options? ["tuning_enabled", "process_size", "target_heap_usage", "min_process_size"]
  return {
    tuningEnabled := ← t.option? "tuning_enabled" Toml.boolean?
    processSize := ← t.option? "process_size" Toml.string?
    targetHeapUsage := ← t.option? "target_heap_usage" Toml.float?
    minProcessSize := ← t.option? "min_process_size" Toml.string? }

/-- The section `quota` of a document. -/
def Quota.ofToml? (x : Toml) : Option Quota := do
  let t ← x.options? ["cpu", "memory"]
  return {
    cpu := ← t.option? "cpu" Toml.float?
    memory := ← t.option? "memory" Toml.string? }

/-- The section `restart` of a document. -/
def Restart.ofToml? (x : Toml) : Option Restart := do
  let t ← x.options? ["restart_time", "prefer_tracked", "tracked_limit", "catch_up_duration"]
  return {
    restartTime := ← t.option? "restart_time" Toml.string?
    preferTracked := ← t.option? "prefer_tracked" Toml.boolean?
    trackedLimit := ← t.option? "tracked_limit" Toml.string?
    catchUp := ← t.option? "catch_up_duration" Toml.string? }

/-- The section `vertex` of a document. -/
def Vertex.ofToml? (x : Toml) : Option Vertex := do
  let t ←
    x.options?
      ["min_parallelism", "max_parallelism", "target_utilization", "scale_down_interval",
        "max_scale_down_factor", "ineffective_scale_up_threshold"]
  return {
    minParallelism := ← t.option? "min_parallelism" Toml.count?
    maxParallelism := ← t.option? "max_parallelism" Toml.count?
    targetUtilization := ← t.option? "target_utilization" Toml.float?
    scaleDownInterval := ← t.option? "scale_down_interval" Toml.string?
    maxScaleDownFactor := ← t.option? "max_scale_down_factor" Toml.float?
    ineffectiveThreshold := ← t.option? "ineffective_scale_up_threshold" Toml.float? }

/-- The section `elastic` of a document. -/
def Elastic.ofToml? (x : Toml) : Option Elastic := do
  let t ←
    x.options?
      ["enabled", "min_cache_hit_rate", "max_cache_hit_rate", "improved_cache_hit_rate_threshold",
        "min_improved_throughput", "state_access_latency_threshold", "max_memory_level"]
  return {
    enabled := ← t.option? "enabled" Toml.boolean?
    minHitRate := ← t.option? "min_cache_hit_rate" Toml.float?
    maxHitRate := ← t.option? "max_cache_hit_rate" Toml.float?
    improvedHitRate := ← t.option? "improved_cache_hit_rate_threshold" Toml.float?
    improvedThroughput := ← t.option? "min_improved_throughput" Toml.float?
    latencyThreshold := ← t.option? "state_access_latency_threshold" Toml.float?
    maxLevel := ← t.option? "max_memory_level" Toml.integer? }

/-- The draft that a document holds. -/
def ofToml? (t : Toml.Entries) : Option Draft := do
  return {
    scaling := ← t.sectionOr "scaling" {} Scaling.ofToml?
    memory := ← t.sectionOr "memory" {} Memory.ofToml?
    quota := ← t.sectionOr "quota" {} Quota.ofToml?
    restart := ← t.sectionOr "restart" {} Restart.ofToml?
    vertex := ← t.sectionOr "vertex" {} Vertex.ofToml?
    elastic := ← t.sectionOr "elastic" {} Elastic.ofToml? }

end Draft

namespace Config

/-- The options that the entries of a document hold. -/
def ofEntries (t : Toml.Entries) : Except ConfigError Config :=
  match Draft.ofToml? t with
  | some draft => draft.resolve
  | none => .error .unparsable

/-- The options that a configuration file holds. -/
def ofText (s : String) : Except ConfigError Config :=
  match Toml.ofText? s with
  | some t => ofEntries t
  | none => .error .unparsable

end Config

end Rescale
