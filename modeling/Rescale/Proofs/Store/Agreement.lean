import Rescale.Proofs.Store.Keys
import Rescale.Proofs.Store.Writes

/-!
# Stores that Agree on a Job

What belongs to a job in a store, and where writes for it stay.

The records of a job are its rows in the tables of jobs and its generations,
under the keys that name it. Two stores can agree on them and differ in anything
else. A write for the job then does the same to both of them, so they agree
afterwards, and everything that is not a record of the job stays as it was: the
rows of other jobs, all other keys of generations, and the nodes. A key names one
job only, so what is confined to one job cannot be seen in the records of
another one, whatever the two are called.

## Main definitions

* `JobWrite.Keeps`: A write deletes nothing.
* `Store.AgreeOn`: Two stores have the same records of a job.
* `Store.Confined`: Nothing but records of a job differs.

## Theorems

* `AgreeOn.perform`: Writes for a job keep stores in agreement on it.
* `confined_perform`: Writes for a job are confined to it.
* `Confined.agreeOn`: What is confined to one job keeps the records of others.
* `eq_of_agreeOn`: Stores that agree on all jobs and on the rest are equal.
-/

namespace Rescale

/-- A write deletes nothing. -/
def JobWrite.Keeps : JobWrite → Prop
  | .delete => False
  | _ => True

theorem JobWrite.Keeps.exists_within {w : JobWrite} (hw : w.Keeps) :
    ∃ period, w.Within period := by
  cases w with
  | generation g => exact ⟨g.period, rfl⟩
  | delete => exact hw.elim
  | _ => exact ⟨0, trivial⟩

namespace Store

/-- Two stores have the same records of a job: its rows and its generations. -/
structure AgreeOn (job : JobId) (s t : Store) : Prop extends SameRows job s t where
  generations : ∀ n, t.generations.get? (generationKey job n) =
    s.generations.get? (generationKey job n)

/-- Two stores differ at most in records of a job. -/
structure Confined (job : JobId) (s t : Store) : Prop where
  rows : ∀ other, other ≠ job → SameRows other s t
  generations : ∀ key, (∀ n, key ≠ generationKey job n) → t.generations.get? key =
    s.generations.get? key
  nodes : t.nodes = s.nodes

variable {job other : JobId} {s t u : Store}

/-! ### Agreement -/

namespace AgreeOn

theorem refl (job : JobId) (s : Store) : AgreeOn job s s :=
  ⟨.refl job s, fun _ => rfl⟩

theorem trans (h : AgreeOn job s t) (h' : AgreeOn job t u) : AgreeOn job s u :=
  ⟨h.toSameRows.trans h'.toSameRows, fun n => (h'.generations n).trans (h.generations n)⟩

theorem symm (h : AgreeOn job s t) : AgreeOn job t s where
  history := h.history.symm
  restartLog := h.restartLog.symm
  parallelism := h.parallelism.symm
  profiles := h.profiles.symm
  configChanges := h.configChanges.symm
  holds := h.holds.symm
  period := h.period.symm
  generations := fun n => (h.generations n).symm

/-- The number of decisions is counted in the records of the job. -/
theorem period_eq (h : AgreeOn job s t) : t.period job = s.period job :=
  congrArg (·.getD 0) h.period

/-- A write for a job that deletes nothing does the same to stores that agree on
    the job. -/
theorem perform (h : AgreeOn job s t) {w : JobWrite} (hw : w.Keeps) :
    AgreeOn job (s.perform job w) (t.perform job w) := by
  have hstored : ∀ {α : Type} (m m' : SortedMap JobId α) (x : α),
      (m.insert job x).get? job = (m'.insert job x).get? job := by
    intro α m m' x
    rw [SortedMap.get?_insert_self, SortedMap.get?_insert_self]
  cases w with
  | history r => exact { h with history := hstored _ _ r }
  | restartLog r => exact { h with restartLog := hstored _ _ r }
  | parallelism r => exact { h with parallelism := hstored _ _ r }
  | profiles r => exact { h with profiles := hstored _ _ r }
  | configChanges r => exact { h with configChanges := hstored _ _ r }
  | holds r => exact { h with holds := hstored _ _ r.holds }
  | generation g =>
      refine { h with generations := fun n => ?_ }
      rw [Store.perform, Store.perform, putGeneration, putGeneration, SortedMap.get?_insert,
        SortedMap.get?_insert, h.generations n]
  | advancePeriod =>
      refine { h with period := ?_ }
      rw [Store.perform, Store.perform, advancePeriod, advancePeriod, h.period_eq]
      exact hstored _ _ _
  | delete => exact hw.elim

end AgreeOn

/-! ### Confinement -/

namespace Confined

theorem refl (job : JobId) (s : Store) : Confined job s s :=
  ⟨fun other _ => .refl other s, fun _ _ => rfl, rfl⟩

theorem trans (h : Confined job s t) (h' : Confined job t u) : Confined job s u where
  rows := fun other hne => (h.rows other hne).trans (h'.rows other hne)
  generations := fun key hkey => (h'.generations key hkey).trans (h.generations key hkey)
  nodes := h'.nodes.trans h.nodes

/-- What is confined to one job keeps the records of every other one, since no
    key of a generation names both. -/
theorem agreeOn (h : Confined job s t) (hne : other ≠ job) : AgreeOn other s t :=
  ⟨h.rows other hne, fun _ => h.generations _ fun _ heq => hne (generationKey_inj.1 heq).1⟩

end Confined

theorem confined_perform (s : Store) {w : JobWrite} (hw : w.Keeps) :
    Confined job s (s.perform job w) := by
  rcases hw.exists_within with ⟨period, hwithin⟩
  have hsame : SameElsewhere job period s (s.perform job w) := sameElsewhere_perform s hwithin
  exact ⟨hsame.rows, fun key hkey => hsame.generations key (hkey period), hsame.nodes⟩

/-! ### All jobs -/

/-- Stores that agree on every job, on the keys that no job has and on the nodes
    are equal. -/
theorem eq_of_agreeOn (hjobs : ∀ job, AgreeOn job s t)
    (hkeys : ∀ key, (∀ job n, key ≠ generationKey job n) → t.generations.get? key =
      s.generations.get? key) (hnodes : t.nodes = s.nodes) : t = s := by
  have hgenerations : t.generations = s.generations := by
    refine SortedMap.ext fun key => ?_
    by_cases hkey : ∃ job n, key = generationKey job n
    · rcases hkey with ⟨job, n, rfl⟩
      exact (hjobs job).generations n
    · exact hkeys key fun job n heq => hkey ⟨job, n, heq⟩
  cases s
  cases t
  congr
  · exact SortedMap.ext fun job => (hjobs job).history
  · exact SortedMap.ext fun job => (hjobs job).restartLog
  · exact SortedMap.ext fun job => (hjobs job).parallelism
  · exact SortedMap.ext fun job => (hjobs job).profiles
  · exact SortedMap.ext fun job => (hjobs job).configChanges
  · exact SortedMap.ext fun job => (hjobs job).holds
  · exact SortedMap.ext fun job => (hjobs job).period

end Store

end Rescale
