import Rescale.SortedMap.Lemmas
import Rescale.Vertex.Scaler

/-!
# Operations on Pending Scale-Downs

What the mark of a change is worth.

Holds are stored only if they are marked as changed since they were loaded, so
the mark must never be missing where they did change. It is set by hand, in each
operation: a proposal always sets it, a release only where there was something to
release. Once set it stays. As long as it is not set, nothing was proposed and
there was nothing to release, and so the holds are those that were loaded.

The decision about a vertex is made of such operations, at most one for each.

## Main definitions

* `HoldOp`: An operation on the holds of a job.
* `PendingScaleDowns.perform`: Some operations, one after the other.
* `PendingScaleDowns.Tracks`: Holds without the mark are those that were loaded.
* `Scaler.leaves`: The holds after the decision about one vertex.

## Theorems

* `tracks_apply`, `tracks_perform`: The mark is never missing.
* `exists_leaves_eq_perform`: A decision about a vertex acts by operations.
-/

namespace Rescale

/-- An operation on the holds of a job. -/
inductive HoldOp where
  | propose (v : VertexId) (now : Instant) (parallelism : Nat)
  | release (v : VertexId)
  | releaseAll

/-- The holds after an operation. -/
def HoldOp.apply (pending : PendingScaleDowns) : HoldOp → PendingScaleDowns
  | propose v now parallelism => pending.propose v now parallelism
  | release v => pending.release v
  | releaseAll => pending.releaseAll

namespace PendingScaleDowns

/-- The holds after some operations, one after the other. -/
def perform (pending : PendingScaleDowns) (ops : List HoldOp) : PendingScaleDowns :=
  ops.foldl HoldOp.apply pending

/-- Holds that are not marked as changed are those that were loaded. -/
def Tracks (loaded : Holds) (pending : PendingScaleDowns) : Prop :=
  pending.changed = false → pending.holds = loaded

variable {loaded : Holds} {pending : PendingScaleDowns}

theorem tracks_ofHolds (loaded : Holds) : (ofHolds loaded).Tracks loaded := fun _ => rfl

/-- Every operation that changes the holds sets the mark, and none removes it. -/
theorem tracks_apply (h : pending.Tracks loaded) (op : HoldOp) :
    (op.apply pending).Tracks loaded := by
  intro hchanged
  cases op with
  | propose v now n => cases hchanged
  | release v =>
      rcases Bool.or_eq_false_iff.1 hchanged with ⟨hbefore, hnone⟩
      exact (SortedMap.erase_of_not_contains hnone).trans (h hbefore)
  | releaseAll =>
      rcases Bool.or_eq_false_iff.1 hchanged with ⟨hbefore, hempty⟩
      rw [Bool.not_eq_false'] at hempty
      rw [← h hbefore]
      exact (SortedMap.eq_empty_of_isEmpty hempty).symm

/-- By induction on the operations. -/
theorem tracks_perform (h : pending.Tracks loaded) (ops : List HoldOp) :
    (pending.perform ops).Tracks loaded := by
  induction ops generalizing pending with
  | nil => exact h
  | cons op rest ih => exact ih (tracks_apply h op)

theorem perform_append (ops later : List HoldOp) :
    pending.perform (ops ++ later) = (pending.perform ops).perform later :=
  List.foldl_append

end PendingScaleDowns

/-- The holds after the decision about one vertex. One that fails returns none, so
    they stay. -/
def Scaler.leaves (s : Scaler) (ctx : JobContext) (pending : PendingScaleDowns)
    (r : VertexRequest) : PendingScaleDowns :=
  match s.decide ctx r pending with
  | .ok decision => decision.pending
  | .error _ => pending

open PendingScaleDowns

/-- A demand acts on the holds by at most one operation. -/
theorem exists_pending_decide (d : Demand) (ctx : JobContext) (r : VertexRequest)
    (pending : PendingScaleDowns) :
    ∃ ops, (d.decide ctx r pending).pending = pending.perform ops := by
  cases d with
  | unusable => exact ⟨[], rfl⟩
  | needs current target trueRate =>
      rw [Demand.decide]
      by_cases heq : (target == current) = true
      · rw [if_pos heq]
        exact ⟨[.release r.vertex], rfl⟩
      · rw [if_neg heq]
        by_cases hup : current < target
        · rw [if_pos hup]
          -- A scale-up that is refused releases the vertex like one that is followed.
          cases shortfall? ctx.config.vertex.ineffectiveThreshold r.history current trueRate with
          | some gains => exact ⟨[.release r.vertex], rfl⟩
          | none => exact ⟨[.release r.vertex], rfl⟩
        · rw [if_neg hup]
          exact ⟨[.propose r.vertex r.now target], rfl⟩

/-- The decision about a vertex acts on the holds by operations. -/
theorem exists_leaves_eq_perform (s : Scaler) (ctx : JobContext) (pending : PendingScaleDowns)
    (r : VertexRequest) : ∃ ops, s.leaves ctx pending r = pending.perform ops := by
  unfold Scaler.leaves Scaler.decide
  cases s with
  | listed targets => exact ⟨[], rfl⟩
  | rate =>
      cases hdemand : demandOf ctx.config r with
      | error e => exact ⟨[], rfl⟩
      | ok demand => exact exists_pending_decide demand ctx r pending

/-- By induction on the requests: so do decisions about one vertex after the
    other. -/
theorem exists_foldl_leaves_eq_perform (s : Scaler) (ctx : JobContext)
    (requests : List VertexRequest) : ∀ pending : PendingScaleDowns,
      ∃ ops, requests.foldl (s.leaves ctx) pending = pending.perform ops := by
  induction requests with
  | nil => exact fun _ => ⟨[], rfl⟩
  | cons r rest ih =>
      intro pending
      rcases exists_leaves_eq_perform s ctx pending r with ⟨ops, hops⟩
      rcases ih (s.leaves ctx pending r) with ⟨later, hlater⟩
      refine ⟨ops ++ later, ?_⟩
      rw [List.foldl_cons, hlater, hops, perform_append]

end Rescale
