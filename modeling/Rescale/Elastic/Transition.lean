import Rescale.Config.Basic
import Rescale.Elastic.Stance

/-!
# The Elastic Policy

How a stance follows from the one before.

The policy looks at what it did to a vertex in the previous generation and
whether that helped. A vertical move climbs one level of the memory ladder and
keeps the parallelism; a horizontal move keeps the level and accepts the
proposed parallelism. A climb that helped neither hit rate nor latency is rolled
back by one level. A vertex whose proposed parallelism is the one it has keeps
its level and its flags.

The transition is a function of one fresh stance, the previous stance and the
thresholds, and of nothing else.

## Main definitions

* `Situation`: Where a vertex stands relative to the previous generation.
* `Stance.situation`: Which situation it is.
* `Stance.next`: The stance that follows.
* `Generation.advance`: All stances of a generation, moved on.
-/

namespace Rescale

/-- Where a vertex stands relative to the previous generation. -/
inductive Situation where
  /-- There is no state to cache, so memory cannot help. -/
  | stateless
  /-- The previous generation does not know the vertex. -/
  | firstDecision
  /-- The parallelism changed, after a vertical move. -/
  | previousVertical (previous : Stance)
  /-- The parallelism changed, after a move that was not vertical. -/
  | previousHorizontal (previous : Stance)
  /-- The parallelism is the same as before. -/
  | unchanged (previous : Stance)
  deriving DecidableEq, Repr

namespace Stance

/-- Which situation a fresh stance is in. -/
def situation (fresh : Stance) (previous : Option Stance) : Situation :=
  if fresh.isStateless then .stateless
  else
    match previous with
    | none => .firstDecision
    | some p =>
      if p.parallelism == fresh.parallelism then .unchanged p
      else if p.vertical then .previousVertical p
      else .previousHorizontal p

/-- Whether the cache is missed too often or state is too slow. -/
def needsMemory (s : Stance) (options : Config.Elastic) : Bool :=
  s.hitRate < options.minHitRate || s.latency > options.latencyThreshold

/-- Whether the ladder goes on above this level. -/
def hasRoom (s : Stance) (options : Config.Elastic) : Bool :=
  s.memoryLevel + 1 < options.maxLevel

/-- Whether hit rate or latency is better than before. -/
def improvedOn (s previous : Stance) (options : Config.Elastic) : Bool :=
  s.hitRate - previous.hitRate > options.improvedHitRate || s.latency < previous.latency

/-- Whether throughput is better than before by the required part. -/
def gainedOn (s previous : Stance) (options : Config.Elastic) : Bool :=
  s.throughput > previous.throughput * (1.0 + options.improvedThroughput)

/-- Climb one level from the previous stance, at its parallelism. -/
def climb (fresh previous : Stance) : Stance :=
  { fresh with
    parallelism := previous.parallelism
    memoryLevel := previous.memoryLevel + 1
    vertical := true }

/-- Accept the proposed parallelism at a memory level. -/
def spread (fresh : Stance) (level : Int) : Stance :=
  { fresh with memoryLevel := level, horizontal := true }

/-- The stance that follows, from a fresh one and the previous one. -/
def next (fresh : Stance) (previous : Option Stance) (options : Config.Elastic) : Stance :=
  match fresh.situation previous with
  | .stateless => { fresh with memoryLevel := SlotProfile.statelessLevel }
  | .firstDecision =>
    if fresh.parallelism == 1 then fresh
    else if fresh.needsMemory options then
      { fresh with parallelism := 1, memoryLevel := 1, vertical := true }
    else { fresh with horizontal := true }
  | .previousVertical p =>
    -- A climb that did not help is rolled back, and the flag tells so.
    if !fresh.improvedOn p options then
      { fresh.spread (p.memoryLevel - 1) with stopVertical := true }
    else if fresh.gainedOn p options && fresh.hitRate < options.maxHitRate && p.hasRoom options then
      fresh.climb p
    else fresh.spread p.memoryLevel
  | .previousHorizontal p =>
    if fresh.needsMemory options && p.hasRoom options then fresh.climb p
    else fresh.spread p.memoryLevel
  | .unchanged p =>
    { fresh with
      memoryLevel := p.memoryLevel
      vertical := p.vertical
      horizontal := p.horizontal
      stopVertical := p.stopVertical }

end Stance

namespace Generation

/-- The stance of a vertex in a generation that may be missing. -/
def stance? (previous : Option Generation) (v : VertexId) : Option Stance :=
  previous.bind fun g => g.stances.get? v

/-- Move every fresh stance of a generation on from the previous generation. -/
def advance (fresh : Generation) (previous : Option Generation) (options : Config.Elastic) :
    Generation :=
  { fresh with
    stances := fresh.stances.mapValues fun v s => s.next (stance? previous v) options }

end Generation

end Rescale
