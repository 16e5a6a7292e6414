import Mathlib.Order.MinMax
import Rescale.Ceiling.Quota
import Rescale.Proofs.Config.Check
import Rescale.Proofs.Double.Product
import Rescale.SortedMap.Lemmas

/-!
# Quotas of Growing Proposals

How the quotas answer two proposals of which one goes further than the other.

Both change the same vertices from the same parallelisms, so their groups have
the same changed members, and a group needs as many slots before. After, the
one that goes further needs at least as many, since a highest parallelism and a
sum can only grow with what they are taken of. Task managers follow by division.
Whole groups come and go with their members, so the comparison is made fold by
fold, and each fold from two starting points that already compare.

## Main definitions

* `Proposal.AtMost`: One proposal goes at most as far as another.
* `Proposal.retarget`: A proposal with other targets.
* `quotaTaskManagers`: Task managers that the quotas count.
* `FitsQuotas`: Both quotas have room for some task managers.

## Theorems

* `quotaSlots_of_atMost`: Slots of two proposals of which one goes further.
* `quotaCeiling_eq_none_iff`: When the quotas put no ceiling on a proposal.
* `fitsQuotas_mono`: What fits the quotas fits them with fewer task managers.
* `quotaCeiling_of_atMost`: A proposal that goes no further than one without a
  ceiling has none.
* `quotaCeiling_retarget_iff`: When other targets run into a ceiling.
-/

namespace Rescale

/-! ### Slots -/

/-- Two proposals change the same vertices from the same parallelisms, and the
    first takes each to at most what the second takes it to. -/
def Proposal.AtMost (p q : Proposal) : Prop :=
  ∀ v, (p.get? v = none ∧ q.get? v = none) ∨
    ∃ c d : Change, p.get? v = some c ∧ q.get? v = some d ∧
      c.current = d.current ∧ c.target ≤ d.target

/-- A proposal with other targets for the same vertices. -/
def Proposal.retarget (p : Proposal) (f : VertexId → Change → Nat) : Proposal :=
  p.mapValues fun v c => { c with target := f v c }

theorem get?_retarget (p : Proposal) (f : VertexId → Change → Nat) (v : VertexId) :
    (p.retarget f).get? v = (p.get? v).map fun c => { c with target := f v c } :=
  SortedMap.get?_mapValues _ _ _

theorem retarget_target (p : Proposal) : p.retarget (fun _ c => c.target) = p := by
  refine SortedMap.ext fun v => ?_
  rw [get?_retarget]
  cases p.get? v with
  | none => rfl
  | some c => rfl

theorem retarget_atMost {p : Proposal} {f g : VertexId → Change → Nat}
    (h : ∀ v c, p.get? v = some c → f v c ≤ g v c) : (p.retarget f).AtMost (p.retarget g) := by
  intro v
  rw [get?_retarget, get?_retarget]
  cases hc : p.get? v with
  | none => exact Or.inl ⟨rfl, rfl⟩
  | some c => exact Or.inr ⟨_, _, rfl, rfl, rfl, h v c hc⟩

/-- Slots before and after: the same before, and at most as many after. -/
def SlotsAtMost (a b : Nat × Nat) : Prop := a.1 = b.1 ∧ a.2 ≤ b.2

section Slots

variable {p q : Proposal}

/-- By induction on the members, from any two starting points that compare: a
    member changes in both proposals or in none. -/
theorem highest_of_atMost (h : p.AtMost q) (members : List VertexId) :
    ∀ a b, SlotsAtMost a b →
      SlotsAtMost
        ((members.filterMap p.get?).foldl
          (fun highest c => (max highest.1 c.current, max highest.2 c.target)) a)
        ((members.filterMap q.get?).foldl
          (fun highest c => (max highest.1 c.current, max highest.2 c.target)) b) := by
  induction members with
  | nil =>
      intro a b hab
      exact hab
  | cons v rest ih =>
      intro a b hab
      rcases h v with ⟨hp, hq⟩ | ⟨c, d, hp, hq, hcurrent, htarget⟩
      · -- Neither proposal changes this member.
        rw [List.filterMap_cons_none hp, List.filterMap_cons_none hq]
        exact ih a b hab
      · -- Both do, so the starting points for the others compare again.
        rw [List.filterMap_cons_some hp, List.filterMap_cons_some hq, List.foldl_cons,
          List.foldl_cons]
        refine ih _ _ ⟨?_, ?_⟩
        · rw [hab.1, hcurrent]
        · exact max_le_max hab.2 htarget

theorem groupSlots_of_atMost (h : p.AtMost q) (members : List VertexId) :
    SlotsAtMost (groupSlots p members) (groupSlots q members) :=
  highest_of_atMost h members (0, 0) (0, 0) ⟨rfl, le_rfl⟩

/-- By induction on the groups: each adds the same before and at most as much
    after. -/
theorem total_of_atMost (h : p.AtMost q) (groups : List (String × SortedSet VertexId)) :
    ∀ a b, SlotsAtMost a b →
      SlotsAtMost
        (groups.foldl (fun total g => (total.1 + (groupSlots p g.2.keys).1,
          total.2 + (groupSlots p g.2.keys).2)) a)
        (groups.foldl (fun total g => (total.1 + (groupSlots q g.2.keys).1,
          total.2 + (groupSlots q g.2.keys).2)) b) := by
  induction groups with
  | nil =>
      intro a b hab
      exact hab
  | cons g rest ih =>
      intro a b hab
      have hgroup := groupSlots_of_atMost h g.2.keys
      rw [List.foldl_cons, List.foldl_cons]
      refine ih _ _ ⟨?_, ?_⟩
      · rw [hab.1, hgroup.1]
      · exact Nat.add_le_add hab.2 hgroup.2

theorem quotaSlots_of_atMost (h : p.AtMost q) (t : Topology) :
    SlotsAtMost (quotaSlots t p) (quotaSlots t q) :=
  total_of_atMost h t.groups.toList (0, 0) (0, 0) ⟨rfl, le_rfl⟩

end Slots

/-! ### Task managers -/

/-- The whole task managers that the slots of a proposal fill, before and
    after. -/
def quotaTaskManagers (options : Config) (t : Topology) (p : Proposal) : Nat × Nat :=
  ((quotaSlots t p).1 / max options.scaling.slotsPerTaskManager 1,
    (quotaSlots t p).2 / max options.scaling.slotsPerTaskManager 1)

/-- Both quotas have room for some task managers of a shape. -/
def FitsQuotas (options : Config) (cores : Option Float) (memory : Option Nat) (n : Nat) : Prop :=
  cpuQuotaCeiling options.quota.cpu cores n = none ∧
    memoryQuotaCeiling options.quota.memory memory n = none

section Ceilings

variable {options : Config} {cores : Option Float} {memory : Option Nat} {t : Topology}
  {p q : Proposal}

theorem quotaTaskManagers_of_atMost (h : p.AtMost q) :
    SlotsAtMost (quotaTaskManagers options t p) (quotaTaskManagers options t q) := by
  have hslots := quotaSlots_of_atMost h t
  refine ⟨?_, ?_⟩
  · simp only [quotaTaskManagers, hslots.1]
  · exact Nat.div_le_div_right hslots.2

/-- Other targets make no difference to what is needed before: both proposals go
    at most as far as one with the larger targets. -/
theorem quotaTaskManagers_retarget (f : VertexId → Change → Nat) :
    (quotaTaskManagers options t (p.retarget f)).1 = (quotaTaskManagers options t p).1 := by
  have hother : (p.retarget f).AtMost (p.retarget fun v c => max (f v c) c.target) :=
    retarget_atMost fun v c _ => le_max_left _ _
  have hsame : (p.retarget fun _ c => c.target).AtMost
      (p.retarget fun v c => max (f v c) c.target) :=
    retarget_atMost fun v c _ => le_max_right _ _
  rw [retarget_target] at hsame
  exact (quotaTaskManagers_of_atMost hother).1.trans (quotaTaskManagers_of_atMost hsame).1.symm

/-- The quotas put no ceiling on a proposal that does not grow, nor on one whose
    task managers they have room for, and on any other they do. -/
theorem quotaCeiling_eq_none_iff :
    quotaCeiling options cores memory t p = none ↔
      (quotaTaskManagers options t p).2 ≤ (quotaTaskManagers options t p).1 ∨
        FitsQuotas options cores memory (quotaTaskManagers options t p).2 := by
  unfold quotaCeiling
  simp only [FitsQuotas, quotaTaskManagers]
  by_cases hgrows : (quotaSlots t p).2 / max options.scaling.slotsPerTaskManager 1 ≤
      (quotaSlots t p).1 / max options.scaling.slotsPerTaskManager 1
  · rw [if_pos hgrows]
    exact iff_of_true rfl (Or.inl hgrows)
  · rw [if_neg hgrows, Option.or_eq_none_iff]
    exact ⟨Or.inr, fun h => h.resolve_left hgrows⟩

theorem memoryQuotaCeiling_eq_none_iff {quota : Option Nat} {n : Nat} :
    memoryQuotaCeiling quota memory n = none ↔
      ∀ most, quota = some most → memoryOf (memory.getD 0) n ≤ most := by
  unfold memoryQuotaCeiling
  cases quota with
  | none => exact iff_of_true rfl nofun
  | some most =>
      simp only [Option.some.injEq, forall_eq', ite_eq_right_iff, reduceCtorEq, imp_false, not_lt]

/-- What fits the memory quota fits it with fewer task managers. -/
theorem memoryQuotaCeiling_mono {quota : Option Nat} {n m : Nat} (hnm : n ≤ m)
    (h : memoryQuotaCeiling quota memory m = none) :
    memoryQuotaCeiling quota memory n = none := by
  rw [memoryQuotaCeiling_eq_none_iff] at h ⊢
  intro most hmost
  have hless : memoryOf (memory.getD 0) n ≤ memoryOf (memory.getD 0) m :=
    min_le_min_right _ (Nat.mul_le_mul_left _ hnm)
  exact hless.trans (h most hmost)

theorem cpuQuotaCeiling_eq_none_iff {quota : Option Float} {n : Nat} :
    cpuQuotaCeiling quota cores n = none ↔
      ∀ most, quota = some most → ¬most < cores.getD 0.0 * Float.ofNat n := by
  unfold cpuQuotaCeiling
  cases quota with
  | none => exact iff_of_true rfl nofun
  | some most =>
      simp only [Option.some.injEq, forall_eq', ite_eq_right_iff, reduceCtorEq, imp_false,
        gt_iff_lt]

/-- What fits a CPU quota that is not negative fits it with fewer task
    managers. -/
theorem cpuQuotaCeiling_mono {quota : Option Float} {n m : Nat} (hnm : n ≤ m)
    (hquota : ∀ most, quota = some most → ¬most < 0.0)
    (h : cpuQuotaCeiling quota cores m = none) : cpuQuotaCeiling quota cores n = none := by
  rw [cpuQuotaCeiling_eq_none_iff] at h ⊢
  intro most hmost hless
  exact h most hmost (Double.mul_ofNat_mono hnm (hquota most hmost) hless)

/-- What fits the quotas of options that passed their check fits them with fewer
    task managers. -/
theorem fitsQuotas_mono {n m : Nat} (hnm : n ≤ m) (hcheck : options.check = .ok ())
    (h : FitsQuotas options cores memory m) : FitsQuotas options cores memory n := by
  have hquota : ∀ most, options.quota.cpu = some most → ¬most < 0.0 := by
    intro most hmost hneg
    -- A checked quota is above zero, or else there is none.
    have hpositive := (Config.check_eq_ok_iff.1 hcheck).2.2.2.2.2.2.2 most hmost
    exact hpositive (Double.le_of_lt hneg)
  exact ⟨cpuQuotaCeiling_mono hnm hquota h.1, memoryQuotaCeiling_mono hnm h.2⟩

/-- A proposal that goes no further than one without a ceiling has none either. -/
theorem quotaCeiling_of_atMost (hcheck : options.check = .ok ()) (h : p.AtMost q)
    (hq : quotaCeiling options cores memory t q = none) :
    quotaCeiling options cores memory t p = none := by
  rw [quotaCeiling_eq_none_iff] at hq ⊢
  have hless : SlotsAtMost (quotaTaskManagers options t p) (quotaTaskManagers options t q) :=
    quotaTaskManagers_of_atMost h
  -- It does not grow if the other one does not, and it fits if the other one does.
  rcases hq with hq | hq
  · exact Or.inl (hless.2.trans (hq.trans hless.1.ge))
  · exact Or.inr (fitsQuotas_mono hless.2 hcheck hq)

/-- If there is no ceiling on a proposal, then there is none on one with other
    targets exactly when that needs no more task managers than the job had or than
    were proposed, or the quotas have room for what it needs. -/
theorem quotaCeiling_retarget_iff {f : VertexId → Change → Nat} (hcheck : options.check = .ok ())
    (hp : quotaCeiling options cores memory t p = none) :
    quotaCeiling options cores memory t (p.retarget f) = none ↔
      (quotaTaskManagers options t (p.retarget f)).2 ≤
          max (quotaTaskManagers options t p).1 (quotaTaskManagers options t p).2 ∨
        FitsQuotas options cores memory (quotaTaskManagers options t (p.retarget f)).2 := by
  rw [quotaCeiling_eq_none_iff] at hp ⊢
  rw [quotaTaskManagers_retarget]
  constructor
  · rintro (hshrinks | hfits)
    · exact Or.inl (hshrinks.trans (le_max_left _ _))
    · exact Or.inr hfits
  · rintro (hmost | hfits)
    · rcases le_max_iff.1 hmost with hbefore | hproposed
      · exact Or.inl hbefore
      · -- No more than was proposed, and that did not grow or did fit.
        rcases hp with hp | hp
        · exact Or.inl (hproposed.trans hp)
        · exact Or.inr (fitsQuotas_mono hproposed hcheck hp)
    · exact Or.inr hfits

end Ceilings

end Rescale
