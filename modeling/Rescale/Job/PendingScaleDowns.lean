import Rescale.Job.Metric
import Rescale.Time.Instant

/-!
# Pending Scale-Downs

Vertices whose scale-down is being held back.

A scale-down is applied only after it has been proposed for a while, and then at
the highest parallelism recommended meanwhile. Each vertex that waits has a hold
with the instant of the first proposal and that highest recommendation. The set
remembers whether it was changed since it was loaded, so that it is stored only
when there is something to store.

## Main definitions

* `Hold`: A scale-down that waits.
* `PendingScaleDowns`: The holds of a job.
* `PendingScaleDowns.propose`: Propose a scale-down.
* `PendingScaleDowns.release`: Forget the hold of a vertex.
-/

namespace Rescale

/-- A scale-down that waits. -/
structure Hold where
  /-- When the scale-down was first proposed. -/
  since : Instant
  /-- The highest parallelism recommended since then. -/
  peak : Nat
  deriving DecidableEq, Repr

/-- The holds of a job, by vertex. -/
abbrev Holds := SortedMap VertexId Hold

/-- The holds of a job, with a mark that says whether they were changed since
    they were loaded. -/
structure PendingScaleDowns where
  holds : Holds := ∅
  changed : Bool := false
  deriving DecidableEq

namespace PendingScaleDowns

instance : Inhabited PendingScaleDowns := ⟨{}⟩

/-- Holds as they are loaded. -/
def ofHolds (holds : Holds) : PendingScaleDowns := { holds }

/-- The hold of a vertex. -/
def get? (p : PendingScaleDowns) (v : VertexId) : Option Hold := p.holds.get? v

/-- Whether nothing waits. -/
def isEmpty (p : PendingScaleDowns) : Bool := p.holds.isEmpty

/-- The hold of a vertex after a proposal: a new one starts at `now`, and one
    that waits already can only rise. -/
def proposed (p : PendingScaleDowns) (v : VertexId) (now : Instant) (parallelism : Nat) : Hold :=
  match p.holds.get? v with
  | some hold => { hold with peak := max hold.peak parallelism }
  | none => ⟨now, parallelism⟩

/-- Propose a scale-down of a vertex. -/
def propose (p : PendingScaleDowns) (v : VertexId) (now : Instant) (parallelism : Nat) :
    PendingScaleDowns :=
  ⟨p.holds.insert v (p.proposed v now parallelism), true⟩

/-- Forget the hold of a vertex. -/
def release (p : PendingScaleDowns) (v : VertexId) : PendingScaleDowns :=
  ⟨p.holds.erase v, p.changed || p.holds.contains v⟩

/-- Forget all holds. -/
def releaseAll (p : PendingScaleDowns) : PendingScaleDowns :=
  ⟨∅, p.changed || !p.holds.isEmpty⟩

end PendingScaleDowns

end Rescale
