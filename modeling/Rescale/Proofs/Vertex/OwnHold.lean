import Rescale.Proofs.Config.Check
import Rescale.Proofs.Vertex.Bounds

/-!
# The Own Hold of a Vertex

What the rate scaler looks at when it decides about a vertex, and what it touches.

The scaler is handed the holds of the whole job, and it hands them back. Of all
of them it asks only the hold of the vertex that it decides about, and only that
one is different afterwards. So a decision is the same if the scaler is shown
this hold and no other one.

A decision that names a parallelism always names a change. It differs from the
present parallelism, and it is at least what the load needs, as a hold can only
be raised by a proposal. So with options that passed their check, by which no
vertex is to run at zero, it is positive.

## Main definitions

* `PendingScaleDowns.only`: The hold of one vertex alone.

## Theorems

* `ScalerCall.decide_only`: A decision goes by the hold of its vertex.
* `ScalerCall.get?_of_decide_of_ne`: A decision keeps the holds of other vertices.
* `ScalerCall.target_of_decide`: A decision names a change.
* `ScalerCall.lower_pos`: Checked options have a positive lower bound.
-/

namespace Rescale

variable {pending pending' : PendingScaleDowns}

namespace PendingScaleDowns

/-- The hold of one vertex alone, as if it had just been loaded. -/
def only (pending : PendingScaleDowns) (v : VertexId) : PendingScaleDowns :=
  .ofHolds (pending.holds.filter fun w _ => w == v)

variable {v : VertexId}

theorem get?_only (w : VertexId) :
    (pending.only v).get? w = if w = v then pending.get? w else none := by
  rw [get?, only, ofHolds, SortedMap.get?_filter, get?]
  by_cases hw : w = v
  · rw [if_pos hw, beq_iff_eq.2 hw, hw]
    cases pending.holds.get? v with
    | none => rfl
    | some hold => rfl
  · rw [if_neg hw, beq_eq_false_iff_ne.2 hw]
    cases pending.holds.get? w with
    | none => rfl
    | some hold => rfl

/-- The hold of a vertex is all that is left of the others. -/
theorem only_congr (h : pending.get? v = pending'.get? v) : pending.only v = pending'.only v := by
  refine congrArg ofHolds (SortedMap.ext fun w => ?_)
  change (pending.only v).get? w = (pending'.only v).get? w
  rw [get?_only, get?_only]
  by_cases hw : w = v
  · rw [if_pos hw, if_pos hw, hw, h]
  · rw [if_neg hw, if_neg hw]

theorem proposed_congr (h : pending.get? v = pending'.get? v) (now : Instant) (n : Nat) :
    pending.proposed v now n = pending'.proposed v now n := by
  rw [get?, get?] at h
  rw [proposed, proposed, h]

end PendingScaleDowns

namespace Demand

/-- What a demand leads to is a matter of the hold of its vertex. -/
theorem target_congr (d : Demand) (ctx : JobContext) (r : VertexRequest)
    (h : pending.get? r.vertex = pending'.get? r.vertex) :
    (d.decide ctx r pending).target = (d.decide ctx r pending').target := by
  cases d with
  | unusable => rfl
  | needs current target trueRate =>
      by_cases hdown : target < current
      · rw [decide_of_lt hdown, decide_of_lt hdown, PendingScaleDowns.proposed_congr h]
      · rw [decide, decide]
        by_cases heq : (target == current) = true
        · rw [if_pos heq, if_pos heq]
        · rw [if_neg heq, if_neg heq]
          -- A scale-up does not ask the hold.
          have hup : current < target := by
            rw [beq_iff_eq] at heq
            omega
          rw [if_pos hup, if_pos hup]
          cases shortfall? ctx.config.vertex.ineffectiveThreshold r.history current trueRate with
          | some gains => rfl
          | none => rfl

/-- A demand leads to another parallelism than the present one, if to any, and not
    below its target. -/
theorem target_of_decide {current target n : Nat} {trueRate : Float} {ctx : JobContext}
    {r : VertexRequest}
    (h : ((needs current target trueRate).decide ctx r pending).target = some n) :
    n ≠ current ∧ target ≤ n := by
  rcases Nat.lt_or_ge target current with hdown | hle
  · -- A scale-down leads to the peak of the hold, and the target has raised that.
    rw [decide_of_lt hdown, Hold.allowed?_eq] at h
    split at h
    · next hallowed =>
      obtain rfl := Option.some.inj h
      refine ⟨hallowed.2.ne, ?_⟩
      rw [PendingScaleDowns.proposed]
      split
      · exact le_max_right _ _
      · exact le_rfl
    · cases h
  · rcases target_of_le hle h with ⟨rfl, hup⟩
    exact ⟨hup.ne', le_rfl⟩

end Demand

namespace ScalerCall

variable {c : ScalerCall} {d : VertexDecision}

theorem leaves_of_decide (h : c.decide pending = .ok d) : c.leaves pending = d.pending := by
  rw [leaves, h]

/-- A decision goes by the hold of its vertex, and it leaves that hold the same,
    whatever the other ones are. -/
theorem decide_only (h : c.decide pending = .ok d) :
    ∃ d', c.decide (pending.only c.request.vertex) = .ok d' ∧ d'.target = d.target ∧
      d'.pending.get? c.request.vertex = d.pending.get? c.request.vertex := by
  have hown : (pending.only c.request.vertex).get? c.request.vertex =
      pending.get? c.request.vertex := by
    rw [PendingScaleDowns.get?_only, if_pos rfl]
  cases hdemand : demandOf c.ctx.config c.request with
  | error err =>
      simp only [decide, Scaler.decide, hdemand] at h
      cases h
  | ok demand =>
      -- The demand comes from the readings, before any hold is asked.
      have hdecide : ∀ pending, c.decide pending = .ok (demand.decide c.ctx c.request pending) := by
        intro pending
        simp only [decide, Scaler.decide, hdemand]
        rfl
      refine ⟨_, hdecide _, ?_, ?_⟩
      · obtain rfl := Except.ok.inj ((hdecide pending).symm.trans h)
        exact demand.target_congr c.ctx c.request hown
      · rw [← leaves_of_decide (hdecide _), ← leaves_of_decide h, get?_leaves, get?_leaves, hown]

/-- A decision keeps the holds of all other vertices. -/
theorem get?_of_decide_of_ne (h : c.decide pending = .ok d) {v : VertexId}
    (hne : v ≠ c.request.vertex) : d.pending.get? v = pending.get? v := by
  rw [← leaves_of_decide h, get?_leaves, findings_of_ne hne, List.foldl_nil]

theorem current_of_finding? {f : Finding} (hf : c.finding? = some f) :
    ∃ instances, c.request.readings.get? .parallelism = some instances ∧
      f.current = parallelismOf instances.current := by
  rw [finding?] at hf
  split at hf
  · next instances rate load hinstances hrate hload =>
    split at hf
    · cases hf
      exact ⟨instances, hinstances, rfl⟩
    · cases hf
  · cases hf

/-- A decision names a change: another parallelism than the reported one, and one
    that is not below the bounds of the call. -/
theorem target_of_decide (h : c.decide pending = .ok d) {n : Nat} (hn : d.target = some n) :
    ∃ instances, c.request.readings.get? .parallelism = some instances ∧
      n ≠ parallelismOf instances.current ∧ c.bounds.lower ≤ n := by
  rcases c.decide_cases pending with ⟨_, (⟨m, hfails⟩ | hkeeps)⟩ | ⟨f, rate, hfound, _, hfollows⟩
  · rw [hfails] at h
    cases h
  · rw [hkeeps] at h
    cases h
    cases hn
  · rw [hfollows] at h
    cases h
    rcases Demand.target_of_decide hn with ⟨hne, hle⟩
    rcases current_of_finding? hfound with ⟨instances, hinstances, hcurrent⟩
    rw [hcurrent] at hne
    exact ⟨instances, hinstances, hne, (finding?_bounds hfound).1.trans hle⟩

/-- Options that passed their check leave no vertex at zero. -/
theorem lower_pos (hcheck : c.ctx.config.check = .ok ()) : 0 < c.bounds.lower := by
  rcases Config.check_eq_ok_iff.1 hcheck with ⟨_, hmin, hmax, _⟩
  have hpos : 0 < c.ctx.config.vertex.minParallelism := Nat.pos_of_ne_zero (bne_iff_ne.1 hmin)
  refine lt_min hpos ?_
  -- There is at least one key group, if their number is known.
  unfold keyGroups?
  cases c.request.readings.get? .maxParallelism with
  | none => exact hpos.trans_le hmax
  | some r => exact lt_min (lt_max_of_lt_right Nat.one_pos) (hpos.trans_le hmax)

end ScalerCall

end Rescale
