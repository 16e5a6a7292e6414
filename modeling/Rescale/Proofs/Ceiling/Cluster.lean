import Rescale.Proofs.Ceiling.Slots
import Rescale.Proofs.Double.Whole

/-!
# The Cluster Ceiling of Shrinking Jobs

When a job that only shrinks runs into the capacity of the cluster.

One would expect never, and for a job that is fully running this is so: its
estimate does not exceed its usage. But the ceiling compares a usage that is
reported with an estimate that goes by parallelisms, and the first may lag behind
the second. While a job restarts, few of its slots are in use. The estimate is
then the highest parallelism after the proposal, and where that is above the
usage, the cluster is asked for room as if the job were to grow.

So a shrinking job runs into the ceiling exactly if its highest parallelism after
the proposal is above its usage, and the cluster lacks room for the difference.
A usage that has reached the highest parallelism rules that out.

## Main definitions

* `Proposal.Shrinks`: A proposal only takes vertices down.

## Theorems

* `clusterCeiling_eq_cluster_iff`: When the cluster lacks room.
* `scaledSlots_le_used`: An estimate within the usage.
* `clusterCeiling_of_shrinks`: When a shrinking job runs into the ceiling.
-/

namespace Rescale

/-! ### Ceilings of the cluster -/

/-- Without room for it, a number of task managers is above the present one. -/
theorem Capacity.lt_of_hasRoom_eq_false {c : Capacity} {current target memory : Nat}
    {cores : Float} (h : c.hasRoom current target cores memory = false) : current < target := by
  cases c with
  | unlimited => cases h
  | nodes ns =>
      rw [hasRoom, Bool.or_eq_false_iff, decide_eq_false_iff_not] at h
      exact Nat.lt_of_not_le h.1

theorem taskManagers_mono {slots slots' : Nat} (perTaskManager : Nat) (h : slots ≤ slots') :
    taskManagers slots perTaskManager ≤ taskManagers slots' perTaskManager :=
  ceilDiv_mono (by omega) h

section Ceilings

variable {options : Config.Scaling} {cores : Option Float} {memory : Option Nat}
  {readings : JobReadings} {p : Proposal} {capacity : Capacity} {current target : Nat}

/-- A proposal runs into the capacity of the cluster exactly if the size of a task
    manager and the usage of the job are known, and there is no room for what the
    estimate asks for. -/
theorem clusterCeiling_eq_cluster_iff :
    clusterCeiling options cores memory readings p capacity =
        .ok (some (.cluster current target)) ↔
      ∃ cpu bytes reported after, cores = some cpu ∧ 0.0 < cpu ∧ memory = some bytes ∧
        0 < bytes ∧ readings.overall? .numTaskSlotsUsed = some reported ∧
        slotsAfter readings p (countOf reported.current) = .ok after ∧
        taskManagers (countOf reported.current) options.slotsPerTaskManager = current ∧
        taskManagers after options.slotsPerTaskManager = target ∧
        capacity.hasRoom current target cpu bytes = false := by
  constructor
  · intro h
    unfold clusterCeiling at h
    split at h
    · next cpu bytes hcpu hbytes =>
      rcases Option.filter_eq_some_iff.1 hcpu with ⟨rfl, hcpuPos⟩
      rcases Option.filter_eq_some_iff.1 hbytes with ⟨rfl, hbytesPos⟩
      split at h
      · cases h
      · next reported hreported =>
        cases hafter : slotsAfter readings p (countOf reported.current) with
        | error err =>
            simp only [hafter] at h
            cases h
        | ok after =>
            simp only [hafter] at h
            change Except.ok (if capacity.hasRoom _ _ cpu bytes = true then none else some _) = _
              at h
            split at h
            · cases h
            · next hroom =>
              cases h
              exact ⟨cpu, bytes, reported, after, rfl, of_decide_eq_true hcpuPos, rfl,
                of_decide_eq_true hbytesPos, hreported, hafter, rfl, rfl,
                Bool.eq_false_iff.2 hroom⟩
    · cases h
  · rintro ⟨cpu, bytes, reported, after, rfl, hcpu, rfl, hbytes, hreported, hafter, rfl, rfl, hroom⟩
    have hcpu' : (some cpu).filter (0.0 < ·) = some cpu :=
      Option.filter_eq_some_iff.2 ⟨rfl, decide_eq_true hcpu⟩
    have hbytes' : (some bytes).filter (0 < ·) = some bytes :=
      Option.filter_eq_some_iff.2 ⟨rfl, decide_eq_true hbytes⟩
    simp only [clusterCeiling, hcpu', hbytes', hreported, hafter]
    change Except.ok (if capacity.hasRoom _ _ cpu bytes = true then none else some _) = _
    rw [hroom]
    rfl

/-! ### Shrinking jobs -/

/-- A proposal only shrinks a job: a vertex that reports and changes starts from
    the parallelism that it reports, and goes below it. -/
def Proposal.Shrinks (p : Proposal) (readings : JobReadings) : Prop :=
  ∀ v r c, readings.vertices.get? v = some r → p.get? v = some c →
    currentParallelism v r = .ok c.current ∧ c.target < c.current

theorem after_le_of_shrinks (h : p.Shrinks readings) {v : VertexId} {n : Nat}
    (hruns : readings.Runs v n) : p.after v n ≤ n := by
  rcases hruns with ⟨r, reading, hr, hreading, rfl⟩
  refine after_of_change (P := fun m => m ≤ countOf reading.current) le_rfl fun c hc => ?_
  rcases h v r c hr hc with ⟨hcurrent, hdown⟩
  rw [currentParallelism, requireReading, hreading] at hcurrent
  -- The change starts from the reported parallelism with 32 bits.
  have hfrom : parallelismOf reading.current = c.current := Except.ok.inj hcurrent
  calc c.target ≤ c.current := hdown.le
    _ = parallelismOf reading.current := hfrom.symm
    _ ≤ countOf reading.current := parallelismOf_le_countOf reading.current

/-- If neither the usage nor the highest parallelism before is exceeded by the
    highest one after, the estimate stays within the usage. -/
theorem scaledSlots_le_used {used highest target : Nat} (hless : target ≤ highest)
    (hused : target ≤ used) : scaledSlots used highest target ≤ used := by
  rcases Nat.eq_zero_or_pos highest with rfl | hpos
  · exact le_rfl
  rcases Nat.lt_or_ge highest used with hlt | hle
  · exact (scaledSlots_le_of_le hpos hless).trans (Nat.max_eq_left hlt.le).le
  · rw [scaledSlots_of_le hpos hle]
    exact hused

/-- An estimate for a shrinking job that is above its usage is the highest
    parallelism after the proposal, and if that is above the usage, it is the
    estimate. -/
theorem slotsAfter_above_iff (hshrinks : p.Shrinks readings) {used after : Nat}
    (habove : used < after) :
    slotsAfter readings p used = .ok after ↔
      readings.AllReport ∧ IsGreatest (readings.countsAfter p) after := by
  -- No vertex is taken above the highest parallelism before.
  have hbound : ∀ {highest target}, IsLUB readings.counts highest →
      IsLUB (readings.countsAfter p) target → target ≤ highest := by
    intro highest target hhighest htarget
    refine htarget.2 ?_
    rintro _ ⟨v, n, hruns, rfl⟩
    exact (after_le_of_shrinks hshrinks hruns).trans (hhighest.1 ⟨v, hruns⟩)
  constructor
  · intro h
    rcases slotsAfter_eq_ok_iff.1 h with ⟨hreport, highest, target, hhighest, htarget, rfl⟩
    have hless := hbound hhighest htarget
    have hshort : used < target := by
      by_contra hused
      exact absurd (scaledSlots_le_used hless (Nat.not_lt.1 hused)) habove.not_ge
    rw [scaledSlots_of_le (by omega) (by omega)]
    exact ⟨hreport, isGreatest_of_isLUB_of_pos htarget (by omega)⟩
  · rintro ⟨hreport, hafter⟩
    rcases exists_isLUB_counts hreport p with ⟨highest, _, hhighest, _⟩
    have hless := hbound hhighest hafter.isLUB
    exact slotsAfter_eq_ok_iff.2 ⟨hreport, highest, after, hhighest, hafter.isLUB,
      scaledSlots_of_le (by omega) (by omega)⟩

/-- A proposal that only shrinks a job runs into the capacity of the cluster
    exactly if the size of a task manager is known, the highest parallelism after
    the proposal is above the number of slots in use, and the cluster lacks room
    for as many task managers as that parallelism takes. So it never does for a job
    whose usage has reached its highest parallelism. -/
theorem clusterCeiling_of_shrinks (hshrinks : p.Shrinks readings) (options : Config.Scaling)
    (cores : Option Float) (memory : Option Nat) (capacity : Capacity) (current target : Nat) :
    (clusterCeiling options cores memory readings p capacity =
        .ok (some (.cluster current target)) ↔
      ∃ cpu bytes reported highest, cores = some cpu ∧ 0.0 < cpu ∧ memory = some bytes ∧
        0 < bytes ∧ readings.overall? .numTaskSlotsUsed = some reported ∧
        countOf reported.current < highest ∧ readings.AllReport ∧
        IsGreatest (readings.countsAfter p) highest ∧
        taskManagers (countOf reported.current) options.slotsPerTaskManager = current ∧
        taskManagers highest options.slotsPerTaskManager = target ∧
        capacity.hasRoom current target cpu bytes = false) ∧
    (∀ reported, readings.overall? .numTaskSlotsUsed = some reported →
      (∀ v n, readings.Runs v n → n ≤ countOf reported.current) →
      clusterCeiling options cores memory readings p capacity ≠
        .ok (some (.cluster current target))) := by
  -- Room is lacking only for more task managers than there are, so for more slots.
  have habove : ∀ {used after cpu bytes}, taskManagers used options.slotsPerTaskManager = current →
      taskManagers after options.slotsPerTaskManager = target →
      capacity.hasRoom current target cpu bytes = false → used < after := by
    intro used after cpu bytes hcurrent htarget hroom
    by_contra hle
    have hgrows := Capacity.lt_of_hasRoom_eq_false hroom
    have hmono := taskManagers_mono options.slotsPerTaskManager (Nat.not_lt.1 hle)
    omega
  rw [clusterCeiling_eq_cluster_iff]
  refine ⟨⟨?_, ?_⟩, fun reported hreported hused hceiling => ?_⟩
  · rintro ⟨cpu, bytes, reported, after, hcores, hcpu, hmemory, hbytes, hreported, hafter,
      hcurrent, htarget, hroom⟩
    have hmore := habove hcurrent htarget hroom
    rcases (slotsAfter_above_iff hshrinks hmore).1 hafter with ⟨hreport, hhighest⟩
    exact ⟨cpu, bytes, reported, after, hcores, hcpu, hmemory, hbytes, hreported, hmore, hreport,
      hhighest, hcurrent, htarget, hroom⟩
  · rintro ⟨cpu, bytes, reported, highest, hcores, hcpu, hmemory, hbytes, hreported, hmore,
      hreport, hhighest, hcurrent, htarget, hroom⟩
    have hafter := (slotsAfter_above_iff hshrinks hmore).2 ⟨hreport, hhighest⟩
    exact ⟨cpu, bytes, reported, highest, hcores, hcpu, hmemory, hbytes, hreported, hafter,
      hcurrent, htarget, hroom⟩
  · rcases clusterCeiling_eq_cluster_iff.1 hceiling with
      ⟨_, _, reported', after, _, _, _, _, hreported', hafter, hcurrent, htarget, hroom⟩
    obtain rfl := Option.some.inj (hreported.symm.trans hreported')
    have hmore := habove hcurrent htarget hroom
    rcases (slotsAfter_above_iff hshrinks hmore).1 hafter with ⟨_, hhighest⟩
    -- The highest parallelism after the proposal is that of a vertex that runs as much.
    rcases hhighest.1 with ⟨v, n, hruns, rfl⟩
    exact absurd ((after_le_of_shrinks hshrinks hruns).trans (hused v n hruns)) hmore.not_ge

end Ceilings

namespace RestartingJob

/-- Ten instances of the map are reported, and a number of slots. -/
def readings (used : Float) : JobReadings where
  vertices := SortedMap.ofList [("map", SortedMap.ofList [(.parallelism, Reading.point 10.0)])]
  overall := SortedMap.ofList [(.numTaskSlotsUsed, Reading.point used)]

/-- The map is to go down. -/
def proposal : Proposal := SortedMap.ofList [("map", { current := 10, target := 8 })]

theorem shrinks_proposal (used : Float) : proposal.Shrinks (readings used) := by
  intro v r c hr hc
  have hv := SortedMap.mem_toList_iff.2 hr
  have hp := SortedMap.mem_toList_iff.2 hc
  obtain ⟨rfl, rfl⟩ := Prod.mk.inj (List.mem_singleton.1 hv)
  obtain ⟨-, rfl⟩ := Prod.mk.inj (List.mem_singleton.1 hp)
  decide +kernel

/-- With all ten slots in use, not even a cluster without nodes is in the way. -/
theorem clusterCeiling_of_shrinks_running :
    proposal.Shrinks (readings 10.0) ∧
      ∀ current target, clusterCeiling {} (some 1.0) (some 1024) (readings 10.0) proposal
        (.nodes []) ≠ .ok (some (.cluster current target)) := by
  refine ⟨shrinks_proposal 10.0, fun current target => ?_⟩
  refine (clusterCeiling_of_shrinks (shrinks_proposal 10.0) {} (some 1.0) (some 1024)
    (.nodes []) current target).2 (Reading.point 10.0) rfl ?_
  rintro v n ⟨r, reading, hr, hreading, rfl⟩
  obtain ⟨-, rfl⟩ := Prod.mk.inj (List.mem_singleton.1 (SortedMap.mem_toList_iff.2 hr))
  obtain rfl := Option.some.inj hreading
  exact le_rfl

/-- With two of them in use, because the job restarts, it is refused to go down. -/
theorem cluster_refuses_shrinking :
    proposal.Shrinks (readings 2.0) ∧
      clusterCeiling {} (some 1.0) (some 1024) (readings 2.0) proposal (.nodes []) =
        .ok (some (.cluster 2 8)) := by
  refine ⟨shrinks_proposal 2.0, ?_⟩
  decide +kernel

end RestartingJob

end Rescale
