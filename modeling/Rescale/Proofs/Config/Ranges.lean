import Rescale.Config.Document
import Rescale.Proofs.Ceiling.Quota
import Rescale.Proofs.Config.Check
import Rescale.Proofs.Double.Level

/-!
# Ranges of Accepted Configurations

Which options a configuration can have that was accepted.

A configuration is accepted when its draft resolves, and again whenever overrides
are laid over it. Both end in the same check, so all that has to be known about
sections, defaults and overrides is that a configuration comes out of them. Its
options are then in their ranges, whatever numbers were written, as a double that
is not a number is in no range.

The quota for the CPU is the exception. Its check does not ask for a positive
number but refuses one that is not above zero, and these are two things for a
double that is not a number. Such a quota is accepted, and no number of task
managers is ever too many for it. No override changes the quota, so it is a
matter of the draft alone: all of an accepted configuration is in range exactly
if the quota that was written is a number.

## Main definitions

* `Config.InRange`: The options are in their ranges, but for the quotas.
* `Config.PositiveQuota`, `Config.NumericQuota`: A quota for the CPU is above
  zero, and it is a number.
* `Draft.Accepts`: A configuration that a draft leads to, with overrides or
  without.

## Theorems

* `isNaN_iff_level`, `lt_iff_not_isNaN`: Doubles that are not numbers.
* `check_eq_ok_iff_inRange`: Which configurations pass their check.
* `positiveQuota_iff`: When the quota of one that passed is positive.
* `check_of_resolve`, `quota_of_withOverrides`: Where the quota comes from.
* `accepts_of_ofText`: The configuration of a file is one of a draft.
* `accepted_inRange`: What an accepted configuration promises.
* `cpuQuotaCeiling_of_isNaN`: What a quota that is not a number is good for.
-/

namespace Rescale

namespace Double

/-- A double that is not a number has no level, and every other one has. -/
theorem isNaN_iff_level {x : Float} : x.isNaN = true ↔ levelOf? x = none := by
  change x.toModel.unpack.isNaN = true ↔ level? x.toModel.unpack = none
  cases x.toModel.unpack with
  | notANumber => exact iff_of_true rfl rfl
  | infinity _ => exact iff_of_false Bool.false_ne_true nofun
  | zero _ => exact iff_of_false Bool.false_ne_true nofun
  | finite _ _ _ _ => exact iff_of_false Bool.false_ne_true nofun

/-- A double that is not at most a number is above it exactly if it is a number
    itself. -/
theorem lt_iff_not_isNaN {x y : Float} (hy : y.isNaN = false) (h : ¬x ≤ y) :
    y < x ↔ x.isNaN = false := by
  rw [← Bool.not_eq_true, isNaN_iff_level] at hy ⊢
  rcases Option.ne_none_iff_exists'.1 hy with ⟨b, hb⟩
  rw [le_iff] at h
  rw [lt_iff]
  constructor
  · rintro ⟨_, a, _, ha, _⟩
    rw [ha]
    exact Option.some_ne_none a
  · -- Both are numbers then, and of two numbers that are not ordered one way the other way holds.
    intro hx
    rcases Option.ne_none_iff_exists'.1 hx with ⟨a, ha⟩
    refine ⟨b, a, hb, ha, Int.lt_of_not_ge fun hle => ?_⟩
    exact h ⟨a, b, ha, hb, hle⟩

end Double

namespace Config

/-! ### The check -/

/-- The options of a configuration are in their ranges, but for the quotas. -/
structure InRange (c : Config) : Prop where
  slots : 1 ≤ c.scaling.slotsPerTaskManager
  minParallelism : 1 ≤ c.vertex.minParallelism
  maxParallelism : c.vertex.minParallelism ≤ c.vertex.maxParallelism
  targetUtilization : 0.0 < c.vertex.targetUtilization ∧ c.vertex.targetUtilization ≤ 1.0
  maxScaleDownFactor : 0.0 ≤ c.vertex.maxScaleDownFactor ∧ c.vertex.maxScaleDownFactor ≤ 1.0
  targetHeapUsage : 0.0 < c.memory.targetHeapUsage ∧ c.memory.targetHeapUsage ≤ 1.0
  maxLevel : 1 ≤ c.elastic.maxLevel

/-- A quota for the CPU, if there is one, is above zero. -/
def PositiveQuota (cpu : Option Float) : Prop := ∀ most, cpu = some most → 0.0 < most

/-- A quota for the CPU, if there is one, is a number. -/
def NumericQuota (cpu : Option Float) : Prop := ∀ most, cpu = some most → most.isNaN = false

theorem check_eq_ok_iff_inRange {c : Config} :
    c.check = .ok () ↔ c.InRange ∧ ∀ cpu, c.quota.cpu = some cpu → ¬cpu ≤ 0.0 := by
  rw [check_eq_ok_iff]
  constructor
  · rintro ⟨hslots, hmin, hmax, hutilization, hfactor, hheap, hlevel, hquota⟩
    exact ⟨⟨Nat.one_le_iff_ne_zero.2 (bne_iff_ne.1 hslots),
      Nat.one_le_iff_ne_zero.2 (bne_iff_ne.1 hmin), hmax, hutilization, hfactor, hheap, hlevel⟩,
      hquota⟩
  · rintro ⟨⟨hslots, hmin, hmax, hutilization, hfactor, hheap, hlevel⟩, hquota⟩
    exact ⟨bne_iff_ne.2 (Nat.one_le_iff_ne_zero.1 hslots),
      bne_iff_ne.2 (Nat.one_le_iff_ne_zero.1 hmin), hmax, hutilization, hfactor, hheap, hlevel,
      hquota⟩

/-- A quota that passed its check is positive exactly if it is a number. -/
theorem positiveQuota_iff {c : Config} (hcheck : c.check = .ok ()) :
    PositiveQuota c.quota.cpu ↔ NumericQuota c.quota.cpu := by
  have hzero : (0.0 : Float).isNaN = false := by decide +kernel
  have hquota := (check_eq_ok_iff_inRange.1 hcheck).2
  refine forall_congr' fun most => forall_congr' fun hmost => ?_
  exact Double.lt_iff_not_isNaN hzero (hquota most hmost)

/-! ### Drafts and overrides -/

/-- Overrides leave the quotas as they are. -/
theorem quota_of_withOverrides {c c' : Config} {overrides : Overrides}
    (h : c.withOverrides overrides = .ok c') : c'.quota = c.quota := by
  obtain ⟨_, _, rfl⟩ := exists_of_withOverrides h
  rfl

end Config

namespace Draft

/-- A draft resolves to options that pass their check, with the quota for the CPU
    as it was written. -/
theorem check_of_resolve {d : Draft} {c : Config} (h : d.resolve = .ok c) :
    c.check = .ok () ∧ c.quota.cpu = d.quota.cpu := by
  simp only [resolve, Config.bind_eq_ok_iff, Quota.resolve] at h
  -- Of the sections only the one of the quotas matters here, and behind all of them the check.
  rcases h with ⟨_, _, _, _, _, ⟨_, _, hquota⟩, _, _, _, _, hchecked⟩
  rcases Config.checked_eq_ok_iff.1 hchecked with ⟨hcheck, rfl⟩
  refine ⟨hcheck, ?_⟩
  cases hquota
  rfl

/-- A configuration that a draft leads to: the one that it resolves to, and what
    accepted overrides make of it, one map after the other. -/
inductive Accepts (d : Draft) : Config → Prop
  | resolved {c : Config} (h : d.resolve = .ok c) : Accepts d c
  | overridden {c c' : Config} (overrides : Overrides) (before : Accepts d c)
      (h : c.withOverrides overrides = .ok c') : Accepts d c'

variable {d : Draft} {c : Config}

/-- What a file holds is what its draft resolves to. -/
theorem accepts_of_ofText {text : String} (h : Config.ofText text = .ok c) :
    ∃ d : Draft, d.Accepts c := by
  rw [Config.ofText] at h
  split at h
  · next entries _ =>
    rw [Config.ofEntries] at h
    split at h
    · next draft _ => exact ⟨draft, .resolved h⟩
    · cases h
  · cases h

/-- By induction on the overrides: each of them ends in the check, and none
    touches the quotas. -/
theorem check_of_accepts (h : d.Accepts c) : c.check = .ok () ∧ c.quota.cpu = d.quota.cpu := by
  induction h with
  | resolved h => exact check_of_resolve h
  | overridden _ _ h ih =>
      exact ⟨Config.check_of_withOverrides h, Config.quota_of_withOverrides h ▸ ih.2⟩

/-- Whatever was written, and whatever overrides came on top, an accepted
    configuration has its options in their ranges. A quota for the CPU in it is
    above zero as well, exactly if the one that was written is a number. -/
theorem accepted_inRange (d : Draft) (c : Config) (h : d.Accepts c) :
    c.InRange ∧ (Config.PositiveQuota c.quota.cpu ↔ Config.NumericQuota d.quota.cpu) := by
  rcases check_of_accepts h with ⟨hcheck, hquota⟩
  refine ⟨(Config.check_eq_ok_iff_inRange.1 hcheck).1, ?_⟩
  rw [Config.positiveQuota_iff hcheck, hquota]

end Draft

namespace TightQuota

/-- Two and a half cores at most, and vertices with four to eight instances. -/
def draft : Draft where
  quota := { cpu := some 2.5 }
  vertex := { minParallelism := some 4, maxParallelism := some 8 }

/-- Three slots for each task manager. -/
def overrides : Overrides := SortedMap.ofList [("scaling.num_task_slots", "3")]

def config (slots : Nat) : Config where
  scaling := { slotsPerTaskManager := slots }
  quota := { cpu := some 2.5 }
  vertex := { minParallelism := 4, maxParallelism := 8 }

theorem accepts_config : draft.Accepts (config 3) := by
  have hresolve : draft.resolve = .ok (config 1) := by decide +kernel
  have hoverrides : (config 1).withOverrides overrides = .ok (config 3) := by decide +kernel
  exact .overridden overrides (.resolved hresolve) hoverrides

theorem accepted_inRange_slots :
    draft.Accepts (config 3) ∧ (config 3).InRange ∧ Config.PositiveQuota (config 3).quota.cpu := by
  rcases Draft.accepted_inRange draft (config 3) accepts_config with ⟨hrange, hquota⟩
  refine ⟨accepts_config, hrange, hquota.2 ?_⟩
  rintro _ ⟨⟩
  decide +kernel

end TightQuota

namespace UnorderedQuota

/-- The quota for the CPU is not a number. -/
def draft : Draft where
  quota := { cpu := some (0.0 / 0.0) }

def config : Config where
  quota := { cpu := some (0.0 / 0.0) }

/-- A file that says so is accepted, and the quota in it is not above zero. -/
theorem accepts_unordered :
    Config.ofText "[quota]\ncpu = nan\n" = .ok config ∧ draft.Accepts config ∧
      ¬Config.PositiveQuota config.quota.cpu := by
  refine ⟨by decide +kernel, .resolved (by decide +kernel), fun hpositive => ?_⟩
  have hnot : ¬(0.0 : Float) < 0.0 / 0.0 := by decide +kernel
  exact hnot (hpositive _ rfl)

end UnorderedQuota

/-! ### A quota that is not a number -/

/-- A quota that is not a number is no limit to any number of task managers. -/
theorem cpuQuotaCeiling_of_isNaN {most : Float} (h : most.isNaN = true) (cores : Option Float)
    (n : Nat) : cpuQuotaCeiling (some most) cores n = none := by
  rw [cpuQuotaCeiling_eq_none_iff]
  rintro _ ⟨⟩ hless
  rcases Double.lt_iff.1 hless with ⟨a, _, ha, _, _⟩
  rw [Double.isNaN_iff_level.1 h] at ha
  cases ha

end Rescale
