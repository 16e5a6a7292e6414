import Rescale.Config.Resolve
import Rescale.Proofs.Vertex.KeyGroups
import Rescale.Proofs.Vertex.Window

/-!
# Alignment to Key Groups

What it means for a decision that a target is raised to a divisor of the key
groups.

The search for that divisor does not know the present parallelism. A vertex that
runs at six and needs five is aligned to eight if it has 128 key groups, and so it
is scaled up although it needs less than it has. This happens exactly if nothing
from the target up to the present parallelism splits the key groups and something
above it does, unless the last scale-up of the vertex was ineffective.

## Main definitions

* `ScalerCall.unaligned?`: What a call finds before its target is aligned.
* `ScalerCall.Refuses`: The last scale-up of a vertex was ineffective.

## Theorems

* `ScalerCall.finding?_eq_map`: A target is aligned last.
* `Demand.decide_above_iff`: When a demand leads above the present parallelism.
* `decide_above_current_iff`: When a vertex that needs no more is scaled up.
-/

namespace Rescale

/-! ### Calls -/

namespace ScalerCall

/-- The range of parallelisms of the vertex of a call. -/
def bounds (c : ScalerCall) : Bounds := c.request.bounds c.ctx.config.vertex

/-- What a call finds before its target is aligned to key groups. -/
def unaligned? (c : ScalerCall) : Option Finding :=
  let r := c.request
  match r.readings.get? .parallelism, r.readings.get? .trueProcessingRate,
      r.readings.get? .targetDataRate with
  | some instances, some rate, some load =>
    let current := parallelismOf instances.current
    if UsableRate rate.average then
      some ⟨r.now, current, boundedTarget c.ctx.config r current rate.average load.average⟩
    else none
  | _, _, _ => none

/-- The last scale-up of the vertex led to its present parallelism and was
    ineffective, so no further one follows. -/
def Refuses (c : ScalerCall) (current : Nat) : Prop :=
  ∃ rate, c.request.readings.get? .trueProcessingRate = some rate ∧
    (shortfall? c.ctx.config.vertex.ineffectiveThreshold c.request.history current
      rate.average).isSome

/-- A target is aligned after everything else. -/
theorem finding?_eq_map (c : ScalerCall) :
    c.finding? = c.unaligned?.map fun f =>
      { f with target := alignedTarget c.ctx.config c.request f.target } := by
  rw [finding?, unaligned?]
  -- Both look for the same readings in the same order.
  cases c.request.readings.get? .parallelism with
  | none => rfl
  | some instances =>
  cases c.request.readings.get? .trueProcessingRate with
  | none => rfl
  | some rate =>
  cases c.request.readings.get? .targetDataRate with
  | none => rfl
  | some load =>
      by_cases husable : UsableRate rate.average
      · simp only [husable, if_true, Option.map_some]
      · simp only [husable, if_false, Option.map_none]

/-- A call that finds something decides by it, at the rate that the vertex
    reports. -/
theorem exists_decide_eq {c : ScalerCall} {f : Finding} (hf : c.finding? = some f)
    (pending : PendingScaleDowns) :
    ∃ rate, c.request.readings.get? .trueProcessingRate = some rate ∧ c.decide pending =
      .ok ((Demand.needs f.current f.target rate.average).decide c.ctx c.request pending) := by
  rw [finding?] at hf
  cases hinstances : c.request.readings.get? .parallelism with
  | none =>
      simp only [hinstances] at hf
      cases hf
  | some instances =>
  cases hrate : c.request.readings.get? .trueProcessingRate with
  | none =>
      simp only [hinstances, hrate] at hf
      cases hf
  | some rate =>
  cases hload : c.request.readings.get? .targetDataRate with
  | none =>
      simp only [hinstances, hrate, hload] at hf
      cases hf
  | some load =>
      simp only [hinstances, hrate, hload] at hf
      split at hf
      · next husable =>
        rw [usableRate_iff] at husable
        obtain rfl := Option.some.inj hf
        refine ⟨rate, rfl, ?_⟩
        rw [decide, Scaler.decide, demandOf, currentParallelism, requireReading, requireReading,
          requireReading, hinstances, hrate, hload]
        simp only [bind, Except.bind, pure, Except.pure, husable]
        rfl
      · cases hf

end ScalerCall

/-! ### Decisions above the present parallelism -/

/-- A demand leads above the present parallelism only where its target is, and
    then unless a further scale-up is refused. -/
theorem Demand.decide_above_iff {current target p : Nat} (hp : current < p) (trueRate : Float)
    (ctx : JobContext) (r : VertexRequest) (pending : PendingScaleDowns) :
    ((needs current target trueRate).decide ctx r pending).target = some p ↔
      target = p ∧
        shortfall? ctx.config.vertex.ineffectiveThreshold r.history current trueRate = none := by
  rw [decide]
  by_cases heq : target = current
  · rw [if_pos (beq_iff_eq.2 heq)]
    constructor
    · intro h
      cases h
    · rintro ⟨rfl, _⟩
      omega
  · rw [if_neg (mt beq_iff_eq.1 heq)]
    by_cases hup : current < target
    · rw [if_pos hup]
      cases shortfall? ctx.config.vertex.ineffectiveThreshold r.history current trueRate with
      | some gains => simp only [reduceCtorEq, and_false]
      | none => simp only [Option.some.injEq, and_true]
    · -- What a hold allows is below the present parallelism.
      rw [if_neg hup]
      constructor
      · intro hallowed
        simp only [Hold.allowed?_eq] at hallowed
        split at hallowed
        · next hdown =>
          rw [Option.some.injEq] at hallowed
          omega
        · cases hallowed
      · rintro ⟨rfl, _⟩
        omega

namespace ScalerCall

variable {c : ScalerCall} {f : Finding}

/-- A call leads above the present parallelism exactly where its aligned target
    is, unless a further scale-up is refused. -/
theorem decide_above_iff (hf : c.finding? = some f) {p : Nat} (hp : f.current < p)
    (pending : PendingScaleDowns) :
    (∃ d, c.decide pending = .ok d ∧ d.target = some p) ↔
      f.target = p ∧ ¬c.Refuses f.current := by
  rcases exists_decide_eq hf pending with ⟨rate, hrate, hdecide⟩
  have hrefuses : ¬c.Refuses f.current ↔ shortfall? c.ctx.config.vertex.ineffectiveThreshold
      c.request.history f.current rate.average = none := by
    simp only [Refuses, hrate, Option.some.injEq, exists_eq_left', Option.not_isSome_iff_eq_none]
  simp only [hdecide, Except.ok.injEq, exists_eq_left', hrefuses]
  exact Demand.decide_above_iff hp rate.average c.ctx c.request pending

/-- With inputs and key groups, the target is what the search makes of the
    unaligned one. -/
theorem finding?_of_keyGroups {n : Nat} (hf : c.unaligned? = some f)
    (hkeys : keyGroups? c.request.readings = some n) (hinputs : c.request.inputs.isEmpty = false) :
    c.finding? = some { f with target := alignToKeyGroups f.target n c.bounds.upper } := by
  rw [finding?_eq_map, hf, Option.map_some, alignedTarget, hkeys]
  simp only [hinputs, Bool.false_eq_true, if_false]
  rfl

end ScalerCall

/-- Take a usable call for a vertex with inputs and key groups that does not need
    more than it has. It leads above the present parallelism exactly if nothing
    from the target up to there splits the key groups, but something above does
    within the upper bound and half of the key groups, and a further scale-up is
    not refused; it then leads to the least such parallelism. So a vertex is not
    scaled up if something that is not above its present parallelism splits its key
    groups. -/
theorem decide_above_current_iff (c : ScalerCall) (pending : PendingScaleDowns) (f : Finding)
    (n : Nat) (hf : c.unaligned? = some f) (hkeys : keyGroups? c.request.readings = some n)
    (hinputs : c.request.inputs.isEmpty = false) (hneeds : f.target ≤ f.current) :
    (∀ p, f.current < p → ((∃ d, c.decide pending = .ok d ∧ d.target = some p) ↔
      IsLeast {q | Splits f.target n c.bounds.upper q} p ∧ ¬c.Refuses f.current)) ∧
    ((∃ q ≤ f.current, Splits f.target n c.bounds.upper q) →
      ∀ d p, c.decide pending = .ok d → d.target = some p → p ≤ f.current) := by
  have hfound := ScalerCall.finding?_of_keyGroups hf hkeys hinputs
  have habove : ∀ p, f.current < p → ((∃ d, c.decide pending = .ok d ∧ d.target = some p) ↔
      IsLeast {q | Splits f.target n c.bounds.upper q} p ∧ ¬c.Refuses f.current) := by
    intro p hp
    rw [ScalerCall.decide_above_iff hfound hp pending]
    exact and_congr_left' (alignToKeyGroups_eq_iff_of_lt hneeds hp)
  refine ⟨habove, ?_⟩
  rintro ⟨q, hq, hsplits⟩ d p hdecide htarget
  by_contra hp
  -- It would lead to the least divisor, but one that is not above is in reach.
  have hleast := ((habove p (by omega)).1 ⟨d, hdecide, htarget⟩).1
  have hpq : p ≤ q := hleast.2 hsplits
  omega

namespace UnevenKeyGroups

/-- A vertex with 128 key groups runs at `n` and handles a hundred records per
    second, of which eighty arrive. -/
def call (n : Float) : ScalerCall where
  ctx := { id := "job", config := { vertex := { targetUtilization := 1.0 } } }
  request :=
    { vertex := "map"
      inputs := SortedMap.ofList [("source", ())]
      readings := SortedMap.ofList [(.parallelism, Reading.point n),
        (.trueProcessingRate, Reading.point 100.0), (.targetDataRate, Reading.point 80.0),
        (.maxParallelism, Reading.point 128.0)]
      now := ⟨0⟩ }

theorem unaligned?_six : (call 6.0).unaligned? = some ⟨⟨0⟩, 6, 5⟩ := by decide +kernel

theorem unaligned?_nine : (call 9.0).unaligned? = some ⟨⟨0⟩, 9, 8⟩ := by decide +kernel

theorem keyGroups?_call (n : Float) : keyGroups? (call n).request.readings = some 128 := by
  have hreading :
      (call n).request.readings.get? .maxParallelism = some (Reading.point 128.0) := rfl
  rw [keyGroups?, hreading]
  decide

theorem bounds_call (n : Float) : (call n).bounds = ⟨1, 128⟩ := by
  rw [ScalerCall.bounds, VertexRequest.bounds, keyGroups?_call]
  rfl

/-- At six it needs five, and is scaled up to eight. At nine it needs eight, which
    splits the key groups, and so it is not scaled up. -/
theorem decide_above_current_iff_six :
    ((call 6.0).unaligned? = some ⟨⟨0⟩, 6, 5⟩ ∧
      ∃ d, (call 6.0).decide {} = .ok d ∧ d.target = some 8) ∧
    ((call 9.0).unaligned? = some ⟨⟨0⟩, 9, 8⟩ ∧
      ∀ d p, (call 9.0).decide {} = .ok d → d.target = some p → p ≤ 9) := by
  refine ⟨⟨unaligned?_six, ?_⟩, ⟨unaligned?_nine, ?_⟩⟩
  · refine ((decide_above_current_iff (call 6.0) {} _ 128 unaligned?_six (keyGroups?_call 6.0)
      rfl (by decide)).1 8 (by decide)).2 ⟨⟨?_, ?_⟩, ?_⟩
    · rw [bounds_call]
      exact ⟨by decide, by decide, by decide, by decide, by decide⟩
    · -- Five, six and seven do not divide.
      rintro q ⟨hreached, _, _, _, hdivides⟩
      by_contra hq
      have hq' : q < 8 := by omega
      interval_cases q <;> revert hdivides <;> decide
    · -- There was no scale-up yet.
      rintro ⟨rate, _, hshortfall⟩
      change (shortfall? 0.1 ∅ 6 rate.average).isSome = true at hshortfall
      cases hshortfall
  · refine (decide_above_current_iff (call 9.0) {} _ 128 unaligned?_nine (keyGroups?_call 9.0)
      rfl (by decide)).2 ⟨8, by decide, ?_⟩
    rw [bounds_call]
    exact ⟨by decide, by decide, by decide, by decide, by decide⟩

/-- The configuration is sound, and six is within bounds and more than the five
    that are needed. And yet the vertex is scaled up to eight. -/
theorem target_above_current :
    (call 6.0).ctx.config.check = .ok () ∧ (call 6.0).request.inputs.isEmpty = false ∧
      keyGroups? (call 6.0).request.readings = some 128 ∧ (call 6.0).bounds = ⟨1, 128⟩ ∧
      (call 6.0).unaligned? = some ⟨⟨0⟩, 6, 5⟩ ∧
      (call 6.0).decide {} = .ok ⟨some 8, {}, none⟩ :=
  ⟨by decide, rfl, keyGroups?_call 6.0, bounds_call 6.0, unaligned?_six,
    by decide +kernel⟩

end UnevenKeyGroups

end Rescale
