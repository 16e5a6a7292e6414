import Rescale.Proofs.Ceiling.Quota

/-!
# Quotas and Growth

Which proposals the quotas leave alone, and which ones they refuse together.

The quotas look at a proposal through its slot-sharing groups: per group the
highest parallelism among the changed members, before and after, and the sums of
these. So three things follow for every topology. Where no vertex grows, no group
does, and quotas bind only growth. Where one proposal is refused for its memory,
one that goes further is refused too, and all the more with a smaller quota or
with larger task managers. And a vertex without a group is not seen at all.

## Main definitions

* `Topology.Grouped`: A vertex belongs to a slot-sharing group.
* `Config.memoryBound`: Options with a memory quota and no other one.

## Theorems

* `quotaSlots_of_noGrowth`: No growth of vertices is none of slots.
* `grouped_of_mem_groups`: Members of groups are vertices with a group.
* `quotaSlots_congr`: Slots are a matter of grouped vertices.
* `quotaCeiling_memoryBound_iff`: When a memory quota alone refuses a proposal.
* `quotaCeiling_monotone`: What the quotas leave alone and what they refuse.
-/

namespace Rescale

/-! ### Without growth -/

section NoGrowth

variable {p : Proposal}

/-- A highest parallelism that starts below another one stays there, as each
    change adds to both sides. -/
theorem groupSlots_of_noGrowth (h : ∀ v c, p.get? v = some c → c.target ≤ c.current)
    (members : List VertexId) : (groupSlots p members).2 ≤ (groupSlots p members).1 := by
  refine List.foldlRecOn (motive := fun slots : Nat × Nat => slots.2 ≤ slots.1)
    (members.filterMap p.get?) _ le_rfl fun highest hless c hc => ?_
  rcases List.mem_filterMap.1 hc with ⟨v, _, hv⟩
  exact max_le_max hless (h v c hv)

theorem quotaSlots_of_noGrowth (h : ∀ v c, p.get? v = some c → c.target ≤ c.current)
    (t : Topology) : (quotaSlots t p).2 ≤ (quotaSlots t p).1 :=
  List.foldlRecOn (motive := fun slots : Nat × Nat => slots.2 ≤ slots.1) t.groups.toList _ le_rfl
    fun _ hless g _ => Nat.add_le_add hless (groupSlots_of_noGrowth h g.2.keys)

end NoGrowth

/-! ### Vertices without a group -/

/-- A vertex belongs to a slot-sharing group. -/
def Topology.Grouped (t : Topology) (v : VertexId) : Prop :=
  ∃ stage g, t.get? v = some stage ∧ stage.group = some g

section Groups

variable {t : Topology} {p q : Proposal}

/-- The members of a group were entered one by one, each for the group that it
    names. -/
theorem grouped_of_mem_groups {g : String} {members : SortedSet VertexId} {v : VertexId}
    (hg : t.groups.get? g = some members) (hv : v ∈ members.keys) : t.Grouped v := by
  -- What holds of every group on the way, and so of the last ones.
  refine List.foldlRecOn
    (motive := fun groups : SortedMap String (SortedSet VertexId) =>
      ∀ g members, groups.get? g = some members → ∀ v ∈ members.keys, t.Grouped v)
    t.stages.toList _ (fun _ _ h => by cases h) (fun groups hgroups e he => ?_) g members hg v hv
  intro g members hg v hv
  cases hgroup : e.2.group with
  | none =>
      simp only [hgroup] at hg
      exact hgroups g members hg v hv
  | some g' =>
      simp only [hgroup, SortedMap.get?_update] at hg
      split at hg
      · -- The group of this vertex has it as one more member.
        obtain rfl := Option.some.inj hg
        rcases SortedMap.mem_keys_iff.1 hv with ⟨_, hfound⟩
        by_cases hsame : v = e.1
        · rw [hsame]
          exact ⟨e.2, g', SortedMap.mem_toList_iff.1 he, hgroup⟩
        · rw [SortedMap.get?_insert_of_ne _ _ hsame] at hfound
          cases hbefore : groups.get? g' with
          | none =>
              rw [hbefore] at hfound
              cases hfound
          | some before =>
              rw [hbefore] at hfound
              exact hgroups g' before hbefore v (SortedMap.mem_keys_iff.2 ⟨_, hfound⟩)
      · exact hgroups g members hg v hv

/-- A group needs the same slots for proposals that agree on its members. -/
theorem groupSlots_congr {members : List VertexId} (h : ∀ v ∈ members, p.get? v = q.get? v) :
    groupSlots p members = groupSlots q members := by
  rw [groupSlots, groupSlots, List.filterMap_congr h]

/-- Slots are the same for proposals that agree on the vertices with a group. -/
theorem quotaSlots_congr (h : ∀ v, t.Grouped v → p.get? v = q.get? v) :
    quotaSlots t p = quotaSlots t q := by
  refine List.foldl_ext _ _ _ fun total g hg => ?_
  have hmembers : ∀ v ∈ g.2.keys, p.get? v = q.get? v := fun v hv =>
    h v (grouped_of_mem_groups (SortedMap.mem_toList_iff.1 hg) hv)
  simp only [groupSlots_congr hmembers]

end Groups

/-! ### Memory quotas -/

/-- Options with a memory quota and no other one. -/
def Config.memoryBound (options : Config) (most : Nat) : Config :=
  { options with quota := { memory := some most } }

theorem memoryOf_mono {memory memory' n n' : Nat} (hmemory : memory ≤ memory') (hn : n ≤ n') :
    memoryOf memory n ≤ memoryOf memory' n' :=
  min_le_min_right _ (Nat.mul_le_mul hmemory hn)

section MemoryBound

variable {options : Config} {cores : Option Float} {memory : Option Nat} {t : Topology}
  {p : Proposal} {most : Nat} {c : Ceiling}

/-- A memory quota alone refuses a proposal exactly if it grows and needs more
    memory than that. -/
theorem quotaCeiling_memoryBound_iff :
    quotaCeiling (options.memoryBound most) cores memory t p = some c ↔
      (quotaTaskManagers options t p).1 < (quotaTaskManagers options t p).2 ∧
        most < memoryOf (memory.getD 0) (quotaTaskManagers options t p).2 ∧
        c = .memoryQuota (memoryOf (memory.getD 0) (quotaTaskManagers options t p).2) most := by
  change (if (quotaTaskManagers options t p).2 ≤ (quotaTaskManagers options t p).1 then none
    else (none : Option Ceiling).or
      (if most < memoryOf (memory.getD 0) (quotaTaskManagers options t p).2 then
        some (.memoryQuota (memoryOf (memory.getD 0) (quotaTaskManagers options t p).2) most)
      else none)) = some c ↔ _
  split
  · next hshrinks => exact iff_of_false nofun fun h => h.1.not_ge hshrinks
  · next hgrows =>
    rw [Option.none_or]
    split
    · next hmore =>
      rw [Option.some.injEq, eq_comm]
      exact ⟨fun h => ⟨Nat.lt_of_not_le hgrows, hmore, h⟩, fun h => h.2.2⟩
    · next hfits => exact iff_of_false nofun fun h => hfits h.2.1

end MemoryBound

/-! ### Both ways -/

/-- The quotas refuse no proposal in which no vertex grows. A proposal that a
    memory quota alone refuses is refused for its memory by every smaller quota,
    with task managers that are larger, and so is every one that goes further. And
    the answer does not depend on changes of vertices without a group. -/
theorem quotaCeiling_monotone (options : Config) (cores : Option Float) (memory : Option Nat)
    (t : Topology) (p : Proposal) :
    ((∀ v c, p.get? v = some c → c.target ≤ c.current) →
      quotaCeiling options cores memory t p = none) ∧
    (∀ most, quotaCeiling (options.memoryBound most) cores memory t p ≠ none →
      ∀ q most' cores' memory', p.AtMost q → most' ≤ most → memory.getD 0 ≤ memory'.getD 0 →
        ∃ required, quotaCeiling (options.memoryBound most') cores' memory' t q =
          some (.memoryQuota required most')) ∧
    (∀ q : Proposal, (∀ v, t.Grouped v → p.get? v = q.get? v) →
      quotaCeiling options cores memory t p = quotaCeiling options cores memory t q) := by
  -- Both sides of the comparison move with the slots, which are all that is asked.
  refine ⟨fun hnone => ?_, fun most hlimit q most' cores' memory' hfurther hquota hmemory => ?_,
    fun q hagree => ?_⟩
  · exact quotaCeiling_eq_none_iff.2
      (Or.inl (Nat.div_le_div_right (quotaSlots_of_noGrowth hnone t)))
  · rcases Option.ne_none_iff_exists'.1 hlimit with ⟨c, hc⟩
    rcases quotaCeiling_memoryBound_iff.1 hc with ⟨hgrows, hmore, _⟩
    have htms : SlotsAtMost (quotaTaskManagers options t p) (quotaTaskManagers options t q) :=
      quotaTaskManagers_of_atMost hfurther
    refine ⟨_, quotaCeiling_memoryBound_iff.2 ⟨?_, ?_, rfl⟩⟩
    · -- The one that goes further starts from as many task managers.
      calc (quotaTaskManagers options t q).1 = (quotaTaskManagers options t p).1 := htms.1.symm
        _ < (quotaTaskManagers options t p).2 := hgrows
        _ ≤ (quotaTaskManagers options t q).2 := htms.2
    · calc most' ≤ most := hquota
        _ < memoryOf (memory.getD 0) (quotaTaskManagers options t p).2 := hmore
        _ ≤ memoryOf (memory'.getD 0) (quotaTaskManagers options t q).2 :=
          memoryOf_mono hmemory htms.2
  · simp only [quotaCeiling, quotaSlots_congr hagree]

namespace LonelySource

/-- Map has a group and source has none. -/
def topology : Topology := (({} : Topology).addVertex "source").setGroup "map" "left"

/-- Map is to go from two to some other parallelism. -/
def toward (n : Nat) : Proposal := SortedMap.ofList [("map", { current := 2, target := n })]

/-- Source is to grow as well. -/
def withSource (p : Proposal) : Proposal := p.insert "source" { current := 1, target := 100 }

/-- Going from two to four task managers is too much for a quota of three thousand
    bytes, and so is going to six of them for a smaller quota. Going to one is none
    for any quota, and source does not count. -/
theorem quotaCeiling_monotone_map :
    quotaCeiling { quota := { cpu := some 0.5, memory := some 1 } } (some 1.0) (some 1000) topology
        (toward 1) = none ∧
      (∃ required, quotaCeiling (({} : Config).memoryBound 2500) none (some 1500) topology
        (toward 6) = some (.memoryQuota required 2500)) ∧
      quotaCeiling (({} : Config).memoryBound 3000) (some 1.0) (some 1000) topology (toward 4) =
        quotaCeiling (({} : Config).memoryBound 3000) (some 1.0) (some 1000) topology
          (withSource (toward 4)) := by
  refine ⟨?_, ?_, ?_⟩
  · refine (quotaCeiling_monotone _ _ _ topology (toward 1)).1 fun v c hc => ?_
    have hmem := SortedMap.mem_toList_iff.2 hc
    obtain ⟨-, rfl⟩ := Prod.mk.inj (List.mem_singleton.1 hmem)
    decide
  · have hlimit : quotaCeiling (({} : Config).memoryBound 3000) (some 1.0) (some 1000) topology
        (toward 4) ≠ none := by decide +kernel
    have hfurther : (toward 4).AtMost (toward 6) :=
      retarget_atMost (p := toward 2) (f := fun _ _ => 4) (g := fun _ _ => 6)
        fun _ _ _ => by decide
    exact (quotaCeiling_monotone {} _ _ topology (toward 4)).2.1 3000 hlimit (toward 6) 2500 none
      (some 1500) hfurther (by decide) (by decide)
  · refine (quotaCeiling_monotone _ _ _ topology (toward 4)).2.2 _ fun v hv => ?_
    have hne : v ≠ "source" := by
      rintro rfl
      rcases hv with ⟨stage, g, hstage, hg⟩
      have hsource : topology.get? "source" = some {} := by decide +kernel
      obtain rfl := Option.some.inj (hsource.symm.trans hstage)
      cases hg
    exact (SortedMap.get?_insert_of_ne _ _ hne).symm

end LonelySource

end Rescale
