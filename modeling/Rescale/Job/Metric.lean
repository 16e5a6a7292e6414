import Rescale.SortedMap.Basic

/-!
# Metrics

What is measured of a job and of its vertices.

An evaluator outside measures every vertex once per cycle. Each reading has the
value of the current window and a rolling average, and any metric may be
missing.

## Main definitions

* `Metric`: The metrics, by name.
* `Reading`: A value and its average.
* `Readings`: The readings of one vertex.
* `JobReadings`: The readings of one cycle of a job.

## Theorems

* `rank_inj`: Metrics are told apart by their places in the listing order.
-/

namespace Rescale

/-- The identifier of a job. -/
abbrev JobId := String

/-- The identifier of a vertex of a job's graph. -/
abbrev VertexId := String

/-- The metrics that decisions are based on. -/
inductive Metric where
  /-- Records per second the vertex could process at full utilization. -/
  | trueProcessingRate
  /-- Processing rate below which the vertex should be scaled up. -/
  | scaleUpRateThreshold
  /-- Processing rate above which the vertex should be scaled down. -/
  | scaleDownRateThreshold
  /-- Instances the vertex runs with. -/
  | parallelism
  /-- Instances the vertex can run with at most. -/
  | maxParallelism
  /-- Records per second arriving at the vertex. -/
  | targetDataRate
  /-- Share of time the job spends collecting garbage. -/
  | gcPressure
  /-- Share of the heap the job uses at its peak. -/
  | heapMaxUsageRatio
  /-- Task slots the job occupies. -/
  | numTaskSlotsUsed
  /-- Set by the autoscaler itself, for reports. -/
  | recommendedParallelism
  /-- Hit rate of the state cache, zero for a vertex without state. -/
  | cacheHitRate
  /-- State access latency in milliseconds. -/
  | stateAccessLatency
  deriving DecidableEq, Repr

namespace Metric

/-- All metrics, in the order in which they are listed. -/
def all : List Metric :=
  [trueProcessingRate, scaleUpRateThreshold, scaleDownRateThreshold, parallelism, maxParallelism,
    targetDataRate, gcPressure, heapMaxUsageRatio, numTaskSlotsUsed, recommendedParallelism,
    cacheHitRate, stateAccessLatency]

/-- The place of a metric in the listing order. -/
def rank : Metric → Nat
  | trueProcessingRate => 0
  | scaleUpRateThreshold => 1
  | scaleDownRateThreshold => 2
  | parallelism => 3
  | maxParallelism => 4
  | targetDataRate => 5
  | gcPressure => 6
  | heapMaxUsageRatio => 7
  | numTaskSlotsUsed => 8
  | recommendedParallelism => 9
  | cacheHitRate => 10
  | stateAccessLatency => 11

/-- Every metric is listed at its place. -/
theorem getElem?_all_rank (m : Metric) : all[m.rank]? = some m := by
  cases m <;> rfl

/-- Different metrics have different places, since a place lists one metric. -/
theorem rank_inj {a b : Metric} (h : a.rank = b.rank) : a = b :=
  Option.some.inj (by rw [← getElem?_all_rank a, h, getElem?_all_rank b])

instance : Ord Metric := ⟨fun a b => compare a.rank b.rank⟩

instance : Std.TransOrd Metric := inferInstanceAs (Std.TransCmp (compareOn Metric.rank))

instance : Std.LawfulEqOrd Metric where
  eq_of_compare h := rank_inj (Std.LawfulEqOrd.eq_of_compare (α := Nat) h)

/-- The name of a metric in records. -/
def key : Metric → String
  | trueProcessingRate => "TRUE_PROCESSING_RATE"
  | scaleUpRateThreshold => "SCALE_UP_RATE_THRESHOLD"
  | scaleDownRateThreshold => "SCALE_DOWN_RATE_THRESHOLD"
  | parallelism => "PARALLELISM"
  | maxParallelism => "MAX_PARALLELISM"
  | targetDataRate => "TARGET_DATA_RATE"
  | gcPressure => "GC_PRESSURE"
  | heapMaxUsageRatio => "HEAP_MAX_USAGE_RATIO"
  | numTaskSlotsUsed => "NUM_TASK_SLOTS_USED"
  | recommendedParallelism => "RECOMMENDED_PARALLELISM"
  | cacheHitRate => "CACHE_HIT_RATE"
  | stateAccessLatency => "STATE_ACCESS_LATENCY"

/-- The name of a metric in error messages. -/
def title : Metric → String
  | trueProcessingRate => "TrueProcessingRate"
  | scaleUpRateThreshold => "ScaleUpRateThreshold"
  | scaleDownRateThreshold => "ScaleDownRateThreshold"
  | parallelism => "Parallelism"
  | maxParallelism => "MaxParallelism"
  | targetDataRate => "TargetDataRate"
  | gcPressure => "GcPressure"
  | heapMaxUsageRatio => "HeapMaxUsageRatio"
  | numTaskSlotsUsed => "NumTaskSlotsUsed"
  | recommendedParallelism => "RecommendedParallelism"
  | cacheHitRate => "CacheHitRate"
  | stateAccessLatency => "StateAccessLatency"

/-- The metric with a name from records. -/
def ofKey? (s : String) : Option Metric := all.find? fun m => m.key == s

end Metric

/-- A metric's value for the current window and its rolling average. -/
structure Reading where
  current : Float
  average : Float
  deriving DecidableEq, Repr

namespace Reading

/-- A point value, which is its own average. -/
def point (x : Float) : Reading := ⟨x, x⟩

/-- Change both values. -/
def mapFloats (f : Float → Float) (r : Reading) : Reading := ⟨f r.current, f r.average⟩

/-- Whether both values are finite. -/
def isFinite (r : Reading) : Bool := r.current.isFinite && r.average.isFinite

end Reading

/-- The readings of one vertex, or of a job as a whole. -/
abbrev Readings := SortedMap Metric Reading

/-- The readings of one cycle. -/
structure JobReadings where
  vertices : SortedMap VertexId Readings := ∅
  /-- Readings of the job as a whole. -/
  overall : Readings := ∅
  deriving DecidableEq

namespace JobReadings

instance : Inhabited JobReadings := ⟨{}⟩

/-- A reading of the job as a whole. -/
def overall? (r : JobReadings) (m : Metric) : Option Reading := r.overall.get? m

end JobReadings

/-- The whole number that a measured parallelism stands for: fractions are cut
    off, and what is negative or not a number is zero. -/
def parallelismOf (x : Float) : Nat := x.toUInt32.toNat

/-- The whole number that a measured count stands for, with 64 bits. -/
def countOf (x : Float) : Nat := x.toUInt64.toNat

end Rescale
