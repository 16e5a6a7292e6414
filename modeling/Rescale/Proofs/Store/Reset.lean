import Rescale.Proofs.Store.Isolation

/-!
# Resetting a Job

Deleting a job leaves nothing of it, and the number reported is that of the
records it took.

A job is forgotten if every question about it is answered as in an empty store.
That is more than the removal of seven rows: the generations of a job share a
table with those of other jobs, one under each period, and a single one left
behind would be taken for the previous generation of a job that starts again.
The number of records goes down by what was counted beforehand, table by table: a
table of jobs loses an entry if it has one, and the table of generations is split
into what is listed with the job and the rest. Deleting the job once more finds
nothing to count, and a job without records is deleted by changing nothing.

## Main definitions

* `Store.jobRecords`: The number of records of all jobs.
* `Store.Forgotten`: Nothing is stored for a job.

## Theorems

* `forgotten_deleteJob`: A deleted job is forgotten.
* `jobRecords_deleteJob_add`: The records that are gone are those counted.
* `deleteJob_of_recordCount_eq_zero`: Without records, nothing is deleted.
* `reset_complete_and_counted`: A reset is complete, counted and done once.
-/

namespace Rescale

namespace Store

/-- The number of records of all jobs, the generations among them. -/
def jobRecords (s : Store) : Nat :=
  s.histories.size + s.restartLogs.size + s.parallelisms.size + s.profiles.size
    + s.configChanges.size + s.holds.size + s.periods.size + s.generations.size

/-- Nothing is stored for a job: no record, no counted decision, no generation
    under any period and none in the list. -/
structure Forgotten (job : JobId) (s : Store) : Prop where
  history : s.history? job = .ok none
  restartLog : s.restartLog? job = none
  parallelism : s.parallelism? job = none
  profiles : s.profiles? job = none
  configChanges : s.configChanges? job = none
  holds : s.holds? job = none
  period : s.period job = 0
  generation : ∀ period, s.generation? job period = .ok none
  generations : s.generationsOf job = .ok []

/-! ### What is left -/

/-- Nothing that is listed with a deleted job is kept. -/
theorem filter_isGenerationOf_deleteJob (s : Store) (job : JobId) :
    (s.deleteJob job).generations.filter (fun key _ => isGenerationOf job key) = ∅ := by
  refine SortedMap.ext fun key => ?_
  rw [SortedMap.get?_filter, get?_generations_deleteJob, SortedMap.get?_empty]
  split
  · rfl
  case isFalse hlisted => exact Option.filter_eq_none_iff.2 fun _ _ => hlisted

/-- A deleted job is forgotten. -/
theorem forgotten_deleteJob (s : Store) (job : JobId) : (s.deleteJob job).Forgotten job where
  history := congrArg (readBack? rereadHistory) (SortedMap.get?_erase_self _ _)
  restartLog := SortedMap.get?_erase_self _ _
  parallelism := SortedMap.get?_erase_self _ _
  profiles := SortedMap.get?_erase_self _ _
  configChanges := SortedMap.get?_erase_self _ _
  holds := SortedMap.get?_erase_self _ _
  period := congrArg (·.getD 0) (SortedMap.get?_erase_self _ _)
  generation := fun period => by
    rw [generation?, get?_generations_deleteJob,
      if_pos (isGenerationOf_generationKey_iff.2 (Or.inl rfl))]
    rfl
  generations := by
    rw [generationsOf, filter_isGenerationOf_deleteJob]
    rfl

/-! ### What is counted -/

/-- The records that are gone are those that were counted. -/
theorem jobRecords_deleteJob_add (s : Store) (job : JobId) :
    (s.deleteJob job).jobRecords + s.recordCount job = s.jobRecords := by
  have hrow {α : Type} (table : SortedMap JobId α) :
      (table.erase job).size + countOf table job = table.size :=
    SortedMap.size_erase_add table job
  have hgenerations := SortedMap.size_filter_add (fun key _ => isGenerationOf job key) s.generations
  simp only [jobRecords, recordCount, deleteJob, ← hrow s.histories, ← hrow s.restartLogs,
    ← hrow s.parallelisms, ← hrow s.profiles, ← hrow s.configChanges, ← hrow s.holds,
    ← hrow s.periods, ← hgenerations]
  omega

theorem countOf_erase {α : Type} (table : SortedMap JobId α) (job : JobId) :
    countOf (table.erase job) job = 0 := by
  rw [countOf, SortedMap.contains, SortedMap.get?_erase_self]
  rfl

/-- Nothing is counted for a deleted job. -/
theorem recordCount_deleteJob (s : Store) (job : JobId) :
    (s.deleteJob job).recordCount job = 0 := by
  rw [recordCount, filter_isGenerationOf_deleteJob]
  simp only [deleteJob, countOf_erase]
  rfl

theorem erase_of_countOf_eq_zero {α : Type} {table : SortedMap JobId α} {job : JobId}
    (h : countOf table job = 0) : table.erase job = table := by
  refine SortedMap.erase_of_not_contains ?_
  cases hcontains : table.contains job with
  | false => rfl
  | true => rw [countOf, hcontains, if_pos rfl] at h; cases h

/-- A table without keys that are listed with a job is kept as it is. -/
theorem filter_not_isGenerationOf {table : SortedMap String Generation} {job : JobId}
    (h : (table.filter fun key _ => isGenerationOf job key).size = 0) :
    table.filter (fun key _ => !isGenerationOf job key) = table := by
  have hempty : table.filter (fun key _ => isGenerationOf job key) = ∅ :=
    SortedMap.eq_empty_of_isEmpty (List.isEmpty_iff_length_eq_zero.2 h)
  refine SortedMap.ext fun key => ?_
  have hkey := congrArg (·.get? key) hempty
  simp only [SortedMap.get?_filter, SortedMap.get?_empty] at hkey ⊢
  -- A record under the key is not listed, or it would be among none.
  cases hrow : table.get? key with
  | none => rfl
  | some g =>
      rw [hrow] at hkey
      have hlisted : isGenerationOf job key = false :=
        Bool.eq_false_iff.2 (Option.filter_eq_none_iff.1 hkey g rfl)
      rw [Option.filter_some, hlisted]
      rfl

/-- Where nothing is counted, nothing is deleted. -/
theorem deleteJob_of_recordCount_eq_zero {s : Store} {job : JobId} (h : s.recordCount job = 0) :
    s.deleteJob job = s := by
  simp only [recordCount, Nat.add_eq_zero_iff] at h
  obtain ⟨⟨⟨⟨⟨⟨⟨hhistory, hrestart⟩, hparallelism⟩, hprofiles⟩, hconfig⟩, hholds⟩, hperiod⟩,
    hgenerations⟩ := h
  rw [deleteJob, erase_of_countOf_eq_zero hhistory, erase_of_countOf_eq_zero hrestart,
    erase_of_countOf_eq_zero hparallelism, erase_of_countOf_eq_zero hprofiles,
    erase_of_countOf_eq_zero hconfig, erase_of_countOf_eq_zero hholds,
    erase_of_countOf_eq_zero hperiod, filter_not_isGenerationOf hgenerations]

/-! ### Resets -/

/-- Whatever a store holds, deleting a job leaves nothing that is stored for it.
    The number of records of all jobs goes down by the number that is reported,
    and no node is touched. Deleting the job again reports nothing and changes
    nothing. -/
theorem reset_complete_and_counted (s : Store) (job : JobId) :
    (s.deleteJob job).Forgotten job ∧
    (s.deleteJob job).jobRecords + s.recordCount job = s.jobRecords ∧
    (s.deleteJob job).nodes = s.nodes ∧
    (s.deleteJob job).recordCount job = 0 ∧
    (s.deleteJob job).deleteJob job = s.deleteJob job :=
  ⟨forgotten_deleteJob s job, jobRecords_deleteJob_add s job, rfl, recordCount_deleteJob s job,
    deleteJob_of_recordCount_eq_zero (recordCount_deleteJob s job)⟩

end Store

end Rescale
