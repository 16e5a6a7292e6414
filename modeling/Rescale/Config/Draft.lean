/-!
# Configuration Drafts

A configuration as it was written.

Every option may be missing, and spans, sizes and windows are still the texts
that stand in the file. `Config.Resolve` turns a draft into options.

## Main definitions

* `Draft`: A configuration as written, by section.
-/

namespace Rescale

namespace Draft

/-- The section `scaling` as written. -/
structure Scaling where
  enabled : Option Bool := none
  blackouts : Option (List String) := none
  eventInterval : Option String := none
  slotsPerTaskManager : Option Nat := none
  gcPressureThreshold : Option Float := none
  heapUsageThreshold : Option Float := none
  excluded : Option (List String) := none
  deriving DecidableEq

/-- The section `memory` as written. -/
structure Memory where
  tuningEnabled : Option Bool := none
  processSize : Option String := none
  targetHeapUsage : Option Float := none
  minProcessSize : Option String := none
  deriving DecidableEq

/-- The section `quota` as written. -/
structure Quota where
  cpu : Option Float := none
  memory : Option String := none
  deriving DecidableEq

/-- The section `restart` as written. -/
structure Restart where
  restartTime : Option String := none
  preferTracked : Option Bool := none
  trackedLimit : Option String := none
  catchUp : Option String := none
  deriving DecidableEq

/-- The section `vertex` as written. -/
structure Vertex where
  minParallelism : Option Nat := none
  maxParallelism : Option Nat := none
  targetUtilization : Option Float := none
  scaleDownInterval : Option String := none
  maxScaleDownFactor : Option Float := none
  ineffectiveThreshold : Option Float := none
  deriving DecidableEq

/-- The section `elastic` as written. -/
structure Elastic where
  enabled : Option Bool := none
  minHitRate : Option Float := none
  maxHitRate : Option Float := none
  improvedHitRate : Option Float := none
  improvedThroughput : Option Float := none
  latencyThreshold : Option Float := none
  maxLevel : Option Int := none
  deriving DecidableEq

end Draft

/-- A configuration as written. A missing section and an empty one mean the
    same. -/
structure Draft where
  scaling : Draft.Scaling := {}
  memory : Draft.Memory := {}
  quota : Draft.Quota := {}
  restart : Draft.Restart := {}
  vertex : Draft.Vertex := {}
  elastic : Draft.Elastic := {}
  deriving DecidableEq

end Rescale
