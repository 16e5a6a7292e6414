import Rescale.Proofs.Vertex.Alignment

/-!
# Decisions and Bounds

Whether a decided parallelism lies within the bounds of the call that decides it.

What a call finds always does: the target is clamped, and alignment does not
leave the bounds either. A scale-up is followed at that target. A scale-down is
followed at the largest target in the window of its vertex, and most of the window
stems from earlier calls, which had bounds of their own. None of these targets can
be too small, as the largest of them is not below the present one. But they can
be too large, if the upper bound was lowered below the present parallelism while
the scale-down was held back. So the decision is within bounds exactly if the
whole window is.

## Main definitions

* `LoweredBound.call`: A vertex that is called with different numbers of key
  groups.

## Theorems

* `ScalerCall.finding?_bounds`: A target lies within the bounds of its call.
* `Hold.peak_of_ofWindow`: The peak of a hold is the largest target in its window.
* `proposed_holdsAfter`: The hold that a scale-down asks.
* `mem_window`: A window consists of what calls for the vertex found.
* `decided_bounds_iff`: When a decision is within the bounds of its call.
-/

namespace Rescale

/-! ### What a call finds -/

namespace Bounds

theorem lower_le_upper (options : Config.Vertex) (keyGroups : Option Nat) :
    (ofOptions options keyGroups).lower ≤ (ofOptions options keyGroups).upper :=
  Nat.min_le_right _ _

theorem clamp_bounds {b : Bounds} (h : b.lower ≤ b.upper) (n : Nat) :
    b.lower ≤ b.clamp n ∧ b.clamp n ≤ b.upper := by
  unfold clamp
  omega

end Bounds

/-- Alignment keeps a target within bounds. -/
theorem alignedTarget_bounds (config : Config) {r : VertexRequest} {target : Nat}
    (h : target ≤ (r.bounds config.vertex).upper) :
    target ≤ alignedTarget config r target ∧
      alignedTarget config r target ≤ (r.bounds config.vertex).upper := by
  unfold alignedTarget
  cases keyGroups? r.readings with
  | none => exact ⟨le_rfl, h⟩
  | some n =>
      by_cases hinputs : r.inputs.isEmpty = true
      · simp only [hinputs, if_true]
        exact ⟨le_rfl, h⟩
      · simp only [hinputs, Bool.false_eq_true, if_false]
        exact alignToKeyGroups_bounds h

namespace ScalerCall

variable {c : ScalerCall} {f : Finding}

theorem unaligned?_bounds (hf : c.unaligned? = some f) :
    c.bounds.lower ≤ f.target ∧ f.target ≤ c.bounds.upper := by
  simp only [unaligned?] at hf
  split at hf
  · split at hf
    · cases hf
      exact Bounds.clamp_bounds (Bounds.lower_le_upper _ _) _
    · cases hf
  · cases hf

/-- A target lies within the bounds of its call. -/
theorem finding?_bounds (hf : c.finding? = some f) :
    c.bounds.lower ≤ f.target ∧ f.target ≤ c.bounds.upper := by
  rw [finding?_eq_map] at hf
  rcases Option.map_eq_some_iff.1 hf with ⟨g, hg, rfl⟩
  rcases unaligned?_bounds hg with ⟨hlower, hupper⟩
  rcases alignedTarget_bounds c.ctx.config hupper with ⟨hraised, hbounded⟩
  exact ⟨hlower.trans hraised, hbounded⟩

end ScalerCall

/-! ### Windows -/

/-- The peak of a hold is the largest target in its window. -/
theorem Hold.peak_of_ofWindow {w : List Finding} {hold : Hold}
    (h : Hold.ofWindow w = some hold) :
    (∃ g ∈ w, g.target = hold.peak) ∧ ∀ g ∈ w, g.target ≤ hold.peak := by
  rcases Option.bind_eq_some_iff.1 h with ⟨first, _, hmap⟩
  rcases Option.map_eq_some_iff.1 hmap with ⟨peak, hpeak, rfl⟩
  rcases List.max?_eq_some_iff.1 hpeak with ⟨hmem, hmost⟩
  exact ⟨List.mem_map.1 hmem, fun g hg => hmost g.target (List.mem_map_of_mem hg)⟩

theorem mem_findings_iff {v : VertexId} {calls : List ScalerCall} {f : Finding} :
    f ∈ findings v calls ↔ ∃ b ∈ calls, b.request.vertex = v ∧ b.finding? = some f := by
  simp only [findings, List.mem_filterMap, List.mem_filter, beq_iff_eq, and_assoc]

/-- A window consists of what calls for the vertex found. -/
theorem mem_window {v : VertexId} {calls : List ScalerCall} {g : Finding}
    (h : g ∈ window (findings v calls)) :
    ∃ b ∈ calls, b.request.vertex = v ∧ b.finding? = some g :=
  mem_findings_iff.1 ((List.rtakeWhile_suffix _ _).subset h)

section Call

variable {c : ScalerCall} {f : Finding}

/-- The hold that a scale-down asks is the one of the window that it comes to. -/
theorem proposed_holdsAfter (hf : c.finding? = some f) (hdown : f.isScaleDown = true)
    (before : List ScalerCall) :
    Hold.ofWindow (window (findings c.request.vertex (before ++ [c]))) =
      some ((holdsAfter before).proposed c.request.vertex f.now f.target) := by
  rw [← get?_holdsAfter, holdsAfter, List.foldl_append, List.foldl_cons, List.foldl_nil,
    ScalerCall.leaves_of_finding hf, if_pos hdown, PendingScaleDowns.get?_propose, if_pos rfl]
  rfl

/-- A scale-down comes to the window of its vertex, and anything else empties it. -/
theorem window_concat (hf : c.finding? = some f) (before : List ScalerCall) :
    window (findings c.request.vertex (before ++ [c])) =
      if f.isScaleDown then window (findings c.request.vertex before) ++ [f] else [] := by
  rw [findings_append, findings_self, hf, Option.toList_some, window]
  by_cases hdown : f.isScaleDown = true
  · rw [if_pos hdown, List.rtakeWhile_concat_pos _ _ _ hdown, window]
  · rw [if_neg hdown, List.rtakeWhile_concat_neg _ _ _ hdown]

end Call

/-! ### Decisions -/

/-- A demand that is not below the present parallelism is followed at its target,
    if at all. -/
theorem Demand.target_of_le {current target p : Nat} (h : current ≤ target) {trueRate : Float}
    {ctx : JobContext} {r : VertexRequest} {pending : PendingScaleDowns}
    (hp : ((needs current target trueRate).decide ctx r pending).target = some p) :
    p = target ∧ current < p := by
  have hle := (decide_of_le h trueRate ctx r pending).2 p hp
  rcases hle.eq_or_lt with rfl | hlt
  · -- A decision for the present parallelism would be one for the target.
    rw [decide] at hp
    by_cases heq : target = current
    · rw [if_pos (beq_iff_eq.2 heq)] at hp
      cases hp
    · rw [if_neg (mt beq_iff_eq.1 heq), if_pos (by omega)] at hp
      split at hp
      · cases hp
      · cases hp
        exact absurd rfl heq
  · exact ⟨((decide_above_iff hlt trueRate ctx r pending).1 hp).1.symm, hlt⟩

/-- After any calls that share their holds, none at first, let one more call
    decide on a parallelism. It differs from the present one and is not below the
    lower bound of the call. It is not above the upper bound exactly if no target
    in the window of the vertex is. So it is within bounds if the present
    parallelism is not above the upper bound, or if no earlier call for the vertex
    had a higher one. -/
theorem decided_bounds_iff (before : List ScalerCall) (c : ScalerCall) (d : VertexDecision)
    (p : Nat) (hdecide : c.decide (holdsAfter before) = .ok d) (htarget : d.target = some p) :
    ∃ f, c.finding? = some f ∧ p ≠ f.current ∧ c.bounds.lower ≤ p ∧
      (p ≤ c.bounds.upper ↔
        ∀ g ∈ window (findings c.request.vertex (before ++ [c])),
          g.target ≤ c.bounds.upper) ∧
      (f.current ≤ c.bounds.upper → p ≤ c.bounds.upper) ∧
      ((∀ b ∈ before, b.request.vertex = c.request.vertex →
        b.bounds.upper ≤ c.bounds.upper) → p ≤ c.bounds.upper) := by
  rcases c.decide_cases (holdsAfter before) with
    ⟨_, (⟨m, hfails⟩ | hkeeps)⟩ | ⟨f, rate, hfound, hnow, hfollows⟩
  · rw [hfails] at hdecide
    cases hdecide
  · rw [hkeeps] at hdecide
    cases hdecide
    cases htarget
  rw [hfollows] at hdecide
  cases hdecide
  rcases ScalerCall.finding?_bounds hfound with ⟨hlower, hupper⟩
  refine ⟨f, hfound, ?_⟩
  by_cases hdown : f.target < f.current
  · -- What is followed is the peak of the window.
    have hisdown : f.isScaleDown = true := decide_eq_true hdown
    have hhold := proposed_holdsAfter hfound hisdown before
    rw [Demand.decide_of_lt hdown, ← hnow, Hold.allowed?_eq] at htarget
    split at htarget
    · next hallowed =>
      obtain rfl := Option.some.inj htarget
      rcases Hold.peak_of_ofWindow hhold with ⟨⟨g, hg, hpeak⟩, hmost⟩
      have hself : f ∈ window (findings c.request.vertex (before ++ [c])) := by
        rw [window_concat hfound, if_pos hisdown]
        exact List.mem_append_right _ (List.mem_singleton_self f)
      have hraised := hmost f hself
      refine ⟨by omega, by omega, ⟨fun h g hg => (hmost g hg).trans h, fun h => ?_⟩,
        fun h => by omega, fun h => ?_⟩
      · rw [← hpeak]
        exact h g hg
      · -- The peak was found by this call or by an earlier one.
        rcases mem_window hg with ⟨b, hb, hvertex, hfoundb⟩
        rw [← hpeak]
        rcases List.mem_append.1 hb with hbefore | hthis
        · exact (ScalerCall.finding?_bounds hfoundb).2.trans (h b hbefore hvertex)
        · obtain rfl := List.mem_singleton.1 hthis
          exact (ScalerCall.finding?_bounds hfoundb).2
    · cases htarget
  · -- A scale-up is followed at its target, and the window is empty.
    rcases Demand.target_of_le (Nat.not_lt.1 hdown) htarget with ⟨rfl, hup⟩
    have hempty : window (findings c.request.vertex (before ++ [c])) = [] := by
      rw [window_concat hfound, if_neg (by rwa [Finding.isScaleDown, decide_eq_true_iff])]
    rw [hempty]
    exact ⟨hup.ne', hlower, ⟨fun _ => List.forall_mem_nil _, fun _ => hupper⟩, fun _ => hupper,
      fun _ => hupper⟩

namespace LoweredBound

/-- Ten instances that could handle a hundred records per second get eighty, some
    minutes after midnight and with `n` key groups. -/
def call (minute : Int) (n : Float) : ScalerCall where
  ctx := { id := "job", config := { vertex := { targetUtilization := 1.0 } } }
  request :=
    { vertex := "map"
      readings := SortedMap.ofList [(.parallelism, Reading.point 10.0),
        (.trueProcessingRate, Reading.point 100.0), (.targetDataRate, Reading.point 80.0),
        (.maxParallelism, Reading.point n)]
      now := ⟨minute * 60000⟩ }

/-- With twelve key groups all the time, the vertex goes down to eight after an
    hour, which is within bounds. -/
theorem decided_bounds_iff_eight :
    (∃ d, (call 60 12.0).decide (holdsAfter [call 0 12.0]) = .ok d ∧ d.target = some 8) ∧
      8 ≤ (call 60 12.0).bounds.upper := by
  have hdecide : (call 60 12.0).decide (holdsAfter [call 0 12.0]) =
      .ok ⟨some 8, ⟨SortedMap.ofList [("map", ⟨⟨0⟩, 8⟩)], true⟩, none⟩ := by
    decide +kernel
  rcases decided_bounds_iff [call 0 12.0] (call 60 12.0) _ 8 hdecide rfl with
    ⟨_, _, _, _, _, _, hbounded⟩
  refine ⟨⟨_, hdecide, rfl⟩, hbounded fun b hb _ => ?_⟩
  obtain rfl := List.mem_singleton.1 hb
  exact le_rfl

/-- The number of key groups is lowered to five while the scale-down is held back,
    and still the vertex goes down to eight. -/
theorem target_above_upper :
    (call 0 12.0).ctx.config.check = .ok () ∧ (call 60 5.0).bounds = ⟨1, 5⟩ ∧
      (call 60 5.0).decide (holdsAfter [call 0 12.0]) =
        .ok ⟨some 8, ⟨SortedMap.ofList [("map", ⟨⟨0⟩, 8⟩)], true⟩, none⟩ := by
  decide +kernel

end LoweredBound

end Rescale
