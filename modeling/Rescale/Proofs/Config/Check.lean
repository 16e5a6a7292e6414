import Rescale.Config.Resolve

/-!
# Checked Configurations

What the check of a configuration promises.

The check is a chain of ranges of which the first one missed is the error, so a
configuration passes it exactly when it misses none. Overrides end in the same
check, and so the configuration of a cycle has passed it too. What they can change
is the size of a process and the number of slots, and nothing else.

## Main definitions

* `Config.set`: Options with what overrides can change.

## Theorems

* `check_eq_ok_iff`: Which configurations pass.
* `withOverrides_eq_ok_iff`: What overrides make of a configuration.
* `check_of_withOverrides`: Overrides leave a configuration that passes.
* `exists_of_withOverrides`: All that overrides can change.
-/

namespace Rescale

namespace Config

/-- Options with another size of a process and other slots. -/
def set (c : Config) (size : Option Nat) (slots : Nat) : Config :=
  { c with
    memory := { c.memory with processSize := size }
    scaling := { c.scaling with slotsPerTaskManager := slots } }

/-- A computation that goes on returns exactly when both of its halves do. -/
theorem bind_eq_ok_iff {α β : Type} {x : Except ConfigError α} {f : α → Except ConfigError β}
    {b : β} : (x >>= f) = .ok b ↔ ∃ a, x = .ok a ∧ f a = .ok b := by
  cases x with
  | error err =>
      refine iff_of_false nofun ?_
      rintro ⟨_, ⟨⟩, _⟩
  | ok a =>
      constructor
      · exact fun h => ⟨a, rfl, h⟩
      · rintro ⟨_, ⟨⟩, h⟩
        exact h

/-- A chain of checks passes exactly when its first one and the rest do. -/
theorem require_bind_eq_ok_iff {β : Type} {ok : Bool} {field reason : String} {b : β}
    {rest : Unit → Except ConfigError β} :
    (require ok field reason >>= rest) = .ok b ↔ ok = true ∧ rest () = .ok b := by
  cases ok with
  | true => exact (and_iff_right rfl).symm
  | false => exact iff_of_false (fun h => by cases h) (fun h => Bool.false_ne_true h.1)

theorem require_eq_ok_iff {ok : Bool} {field reason : String} :
    require ok field reason = .ok () ↔ ok = true := by
  cases ok with
  | true => exact iff_of_true rfl rfl
  | false => exact iff_of_false (fun h => by cases h) Bool.false_ne_true

/-- A configuration passes its check when it misses none of its ranges. -/
theorem check_eq_ok_iff {c : Config} :
    c.check = .ok () ↔
      (c.scaling.slotsPerTaskManager != 0) = true ∧
      (c.vertex.minParallelism != 0) = true ∧
      c.vertex.minParallelism ≤ c.vertex.maxParallelism ∧
      (0.0 < c.vertex.targetUtilization ∧ c.vertex.targetUtilization ≤ 1.0) ∧
      (0.0 ≤ c.vertex.maxScaleDownFactor ∧ c.vertex.maxScaleDownFactor ≤ 1.0) ∧
      (0.0 < c.memory.targetHeapUsage ∧ c.memory.targetHeapUsage ≤ 1.0) ∧
      1 ≤ c.elastic.maxLevel ∧
      ∀ cpu, c.quota.cpu = some cpu → ¬cpu ≤ 0.0 := by
  simp only [check, require_bind_eq_ok_iff, require_eq_ok_iff, Bool.and_eq_true, decide_eq_true_eq,
    Option.all_eq_true, Bool.not_eq_true', decide_eq_false_iff_not]

theorem checked_eq_ok_iff {c c' : Config} : c.checked = .ok c' ↔ c.check = .ok () ∧ c' = c := by
  unfold checked
  cases c.check with
  | ok u => exact ⟨fun h => ⟨rfl, (Except.ok.inj h).symm⟩, fun h => congrArg Except.ok h.2.symm⟩
  | error err => exact iff_of_false (fun h => by cases h) (fun h => by cases h.1)

/-- The options are set first, and what comes of that is checked. -/
theorem withOverrides_eq_ok_iff {c tuned : Config} {overrides : Overrides} :
    c.withOverrides overrides = .ok tuned ↔
      c.setOptions overrides.toList = .ok tuned ∧ tuned.check = .ok () := by
  simp only [withOverrides, bind_eq_ok_iff, checked_eq_ok_iff]
  constructor
  · rintro ⟨_, hset, hcheck, rfl⟩
    exact ⟨hset, hcheck⟩
  · rintro ⟨hset, hcheck⟩
    exact ⟨tuned, hset, hcheck, rfl⟩

/-- Options with overrides on top have passed the check. -/
theorem check_of_withOverrides {c tuned : Config} {overrides : Overrides}
    (h : c.withOverrides overrides = .ok tuned) : tuned.check = .ok () :=
  (withOverrides_eq_ok_iff.1 h).2

/-- All that an override can change is the size of a process or the slots. -/
theorem exists_of_setOption {c c' : Config} {key value : String}
    (h : c.setOption key value = .ok c') : ∃ size slots, c' = c.set size slots := by
  rw [setOption] at h
  split at h
  · rcases bind_eq_ok_iff.1 h with ⟨size, _, hset⟩
    cases hset
    exact ⟨some size, c.scaling.slotsPerTaskManager, rfl⟩
  · split at h
    · split at h
      · cases h
        exact ⟨c.memory.processSize, _, rfl⟩
      · cases h
    · cases h

/-- By induction on the list of overrides. -/
theorem exists_of_setOptions {entries : List (String × String)} :
    ∀ {c c' : Config}, c.setOptions entries = .ok c' → ∃ size slots, c' = c.set size slots := by
  induction entries with
  | nil =>
      intro c c' h
      cases h
      exact ⟨c.memory.processSize, c.scaling.slotsPerTaskManager, rfl⟩
  | cons e rest ih =>
      intro c c' h
      rcases bind_eq_ok_iff.1 h with ⟨between, hfirst, hrest⟩
      obtain ⟨_, _, rfl⟩ := exists_of_setOption hfirst
      obtain ⟨size, slots, rfl⟩ := ih hrest
      exact ⟨size, slots, rfl⟩

/-- Overrides leave all other options as they are. -/
theorem exists_of_withOverrides {c c' : Config} {overrides : Overrides}
    (h : c.withOverrides overrides = .ok c') : ∃ size slots, c' = c.set size slots :=
  exists_of_setOptions (withOverrides_eq_ok_iff.1 h).1

end Config

end Rescale
