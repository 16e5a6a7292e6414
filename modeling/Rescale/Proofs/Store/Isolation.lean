import Rescale.Proofs.Store.Finite
import Rescale.Proofs.Store.Keys

/-!
# Isolation of Jobs

What a write for one job can change in what the store answers about another.

The tables of jobs have a row for each job, and a single generation is found
under a key that tells its job, so neither shows what was written for another
job. Listing and deleting generations go by what a key starts with, and there
jobs get in each other's way: if one is called like another one with a colon and
more behind it, it is nested in that one. Deleting the outer job then takes the
generations of the inner one as well, and the list of the outer job shows them.
Between jobs that are not nested either way, nothing of the kind happens.

## Main definitions

* `Store.SameAnswers`: The store answers every question about a job alike.

## Theorems

* `generation?_perform`: A generation of another job survives unless the job it
  is nested in is deleted.
* `generationsOf_perform`: Lists of jobs that are not nested stay as they are.
* `exists_of_mem_generationsOf`: Whose generations a list shows.
* `perform_isolated`: Two jobs are isolated exactly if neither is nested in the
  other.
-/

namespace Rescale

namespace Store

/-- Two stores answer every question about a job alike. -/
structure SameAnswers (job : JobId) (s t : Store) : Prop where
  history : t.history? job = s.history? job
  restartLog : t.restartLog? job = s.restartLog? job
  parallelism : t.parallelism? job = s.parallelism? job
  profiles : t.profiles? job = s.profiles? job
  configChanges : t.configChanges? job = s.configChanges? job
  holds : t.holds? job = s.holds? job
  period : t.period job = s.period job
  generation : ∀ period, t.generation? job period = s.generation? job period
  generations : t.generationsOf job = s.generationsOf job

/-- Questions about the tables of jobs are answered from the rows of the job. -/
theorem sameAnswers_of_sameRows {job : JobId} {s t : Store} (h : SameRows job s t)
    (hgeneration : ∀ period, t.generation? job period = s.generation? job period)
    (hgenerations : t.generationsOf job = s.generationsOf job) : SameAnswers job s t where
  history := congrArg (readBack? rereadHistory) h.history
  restartLog := h.restartLog
  parallelism := h.parallelism
  profiles := h.profiles
  configChanges := h.configChanges
  holds := h.holds
  period := congrArg (·.getD 0) h.period
  generation := hgeneration
  generations := hgenerations

/-! ### Single generations -/

section Generations

variable {job other : JobId}

/-- Deleting a job removes the keys that are listed with it, and no others. -/
theorem get?_generations_deleteJob (s : Store) (job : JobId) (key : String) :
    (s.deleteJob job).generations.get? key =
      if isGenerationOf job key = true then none else s.generations.get? key := by
  rw [deleteJob, SortedMap.get?_filter]
  cases hlisted : isGenerationOf job key with
  | true => exact Option.filter_eq_none_iff.2 fun _ _ => Bool.false_ne_true
  | false => cases s.generations.get? key <;> rfl

/-- A generation of another job is found as before, unless a job is deleted that
    the other one is nested in. -/
theorem generation?_perform (hne : job ≠ other) (s : Store) {w : JobWrite}
    (hkept : w = .delete → ¬JobId.Nests job other) (period : Nat) :
    (s.perform job w).generation? other period = s.generation? other period := by
  refine congrArg (readBack? rereadGeneration) ?_
  cases w with
  | generation g =>
      exact SortedMap.get?_insert_of_ne _ _ fun hkey => hne (generationKey_inj.1 hkey).1.symm
  | delete =>
      rw [perform, get?_generations_deleteJob, if_neg]
      intro hlisted
      exact (isGenerationOf_generationKey_iff.1 hlisted).elim hne (hkept rfl)
  | _ => rfl

/-- Deleting a job takes the generations of the jobs that are nested in it. -/
theorem generation?_deleteJob_of_nests (hnests : JobId.Nests job other) (s : Store)
    (period : Nat) : (s.deleteJob job).generation? other period = .ok none := by
  rw [generation?, get?_generations_deleteJob,
    if_pos (isGenerationOf_generationKey_iff.2 (Or.inr hnests))]
  rfl

/-! ### Lists of generations -/

/-- A list goes by the keys that start with the job, and no write for a job that
    is not nested with it touches one of those. -/
theorem generationsOf_perform (hne : job ≠ other) (hnests : ¬JobId.Nests job other)
    (hnests' : ¬JobId.Nests other job) (s : Store) (w : JobWrite) :
    (s.perform job w).generationsOf other = s.generationsOf other := by
  have hrows : ((s.perform job w).generations.filter fun key _ => isGenerationOf other key) =
      s.generations.filter fun key _ => isGenerationOf other key := by
    refine SortedMap.ext fun key => ?_
    rw [SortedMap.get?_filter, SortedMap.get?_filter]
    by_cases hother : isGenerationOf other key = true
    · -- A key of the other job is no key of this one, so it is neither put nor removed.
      have hjob : isGenerationOf job key = false :=
        not_isGenerationOf_both (Ne.symm hne) hnests' hnests hother
      refine congrArg (Option.filter _) ?_
      cases w with
      | generation g =>
          refine SortedMap.get?_insert_of_ne _ _ fun hkey => ?_
          rw [hkey, isGenerationOf_generationKey_iff.2 (Or.inl rfl)] at hjob
          cases hjob
      | delete =>
          rw [perform, get?_generations_deleteJob, hjob, if_neg Bool.false_ne_true]
      | _ => rfl
    · -- What is not listed does not count.
      have hnone : ∀ row : Option Generation,
          row.filter (fun _ => isGenerationOf other key) = none :=
        fun _ => Option.filter_eq_none_iff.2 fun _ _ => hother
      exact (hnone _).trans (hnone _).symm
  exact congrArg (fun rows => readBackAll rereadGeneration rows.values) hrows

/-- A list shows generations of its job and of those that are nested in it, each
    as it is found under its period. -/
theorem exists_of_mem_generationsOf {s : Store} (hs : s.Filed) {gs : List Generation}
    (h : s.generationsOf job = .ok gs) {g : Generation} (hg : g ∈ gs) :
    ∃ owner, (owner = job ∨ JobId.Nests job owner) ∧
      s.generation? owner g.period = .ok (some g) := by
  rw [generationsOf, readBackAll_eq rereadGeneration_eq] at h
  split at h
  · next hfinite =>
    obtain rfl := Except.ok.inj h
    rcases List.mem_map.1 hg with ⟨stored, hstored, rfl⟩
    have hread : rereadGeneration stored = .ok (stored.mapFloats Decimal.reread) := by
      rw [rereadGeneration_eq, if_pos (List.all_eq_true.1 hfinite stored hstored)]
    rcases List.mem_map.1 hstored with ⟨⟨key, value⟩, hmem, hvalue⟩
    obtain rfl : value = stored := hvalue
    rcases List.mem_filter.1 hmem with ⟨hentry, hlisted⟩
    have hfound := SortedMap.mem_toList_iff.1 hentry
    rcases hs.generations key _ hfound with ⟨owner, rfl⟩
    refine ⟨owner, (isGenerationOf_generationKey_iff.1 hlisted).imp_left Eq.symm, ?_⟩
    -- Rereading does not change the period.
    change readBack? rereadGeneration (s.generations.get? (generationKey owner value.period)) = _
    rw [hfound, readBack?, hread]
    rfl
  · cases h

end Generations

/-! ### Isolation -/

/-- A store with one empty generation of a job. -/
def withGenerationOf (job : JobId) : Store := ({} : Store).perform job (.generation { period := 0 })

theorem generation?_withGenerationOf (job : JobId) :
    (withGenerationOf job).generation? job 0 = .ok (some { period := 0 }) := by
  rw [generation?, withGenerationOf, perform, putGeneration, SortedMap.get?_insert_self]
  rfl

theorem generationsOf_empty (job : JobId) : ({} : Store).generationsOf job = .ok [] := rfl

/-- The list of a job shows a generation of a job that is nested in it. -/
theorem generationsOf_withGenerationOf {outer inner : JobId} (h : JobId.Nests outer inner) :
    (withGenerationOf inner).generationsOf outer = .ok [{ period := 0 }] := by
  have hlisted : isGenerationOf outer (generationKey inner 0) = true :=
    isGenerationOf_generationKey_iff.2 (Or.inr h)
  -- The only key is listed, so nothing of the table is left out.
  have hall : (withGenerationOf inner).generations.filter (fun key _ => isGenerationOf outer key) =
      (withGenerationOf inner).generations := by
    refine SortedMap.ext fun key => ?_
    rw [SortedMap.get?_filter, withGenerationOf, perform, putGeneration]
    by_cases hkey : key = generationKey inner 0
    · rw [hkey, SortedMap.get?_insert_self, hlisted]
      rfl
    · rw [SortedMap.get?_insert_of_ne _ _ hkey]
      rfl
  rw [generationsOf, hall]
  rfl

/-- Writes for one job never show in the tables of jobs for another one, and
    they leave its single generations alone unless a job is deleted that it is
    nested in, which takes all of them. All questions are answered as before, by
    any store and after any write, exactly if neither job is nested in the
    other. What is listed for a job is then stored for it, or else for a job
    that is nested in it. -/
theorem perform_isolated (job other : JobId) (hne : job ≠ other) :
    (∀ (s : Store) (w : JobWrite), SameRows other s (s.perform job w)) ∧
    (∀ (s : Store) (w : JobWrite), (w = .delete → ¬JobId.Nests job other) →
      ∀ period, (s.perform job w).generation? other period = s.generation? other period) ∧
    (JobId.Nests job other →
      ∀ (s : Store) period, (s.perform job .delete).generation? other period = .ok none) ∧
    ((∀ (s : Store) (w : JobWrite), SameAnswers other s (s.perform job w)) ↔
      ¬JobId.Nests job other ∧ ¬JobId.Nests other job) ∧
    ∀ s : Store, s.Reachable → ∀ gs, s.generationsOf other = .ok gs → ∀ g ∈ gs,
      ∃ owner, (owner = other ∨ JobId.Nests other owner) ∧
        s.generation? owner g.period = .ok (some g) := by
  refine ⟨fun s w => sameRows_perform (Ne.symm hne) s w, fun s w => generation?_perform hne s,
    fun hnests s => generation?_deleteJob_of_nests hnests s, ?_,
    fun s hs gs hlist g hg => exists_of_mem_generationsOf (filed_of_reachable hs) hlist hg⟩
  constructor
  · intro hsame
    refine ⟨fun hnests => ?_, fun hnests => ?_⟩
    · -- Deleting the outer job is seen by the inner one.
      have hfound := (hsame (withGenerationOf other) .delete).generation 0
      rw [perform, generation?_deleteJob_of_nests hnests, generation?_withGenerationOf] at hfound
      cases hfound
    · -- A generation of the inner job is listed with the outer one.
      have hlisted := (hsame {} (.generation { period := 0 })).generations
      rw [generationsOf_empty, ← withGenerationOf, generationsOf_withGenerationOf hnests] at hlisted
      cases hlisted
  · rintro ⟨hnests, hnests'⟩ s w
    exact sameAnswers_of_sameRows (sameRows_perform (Ne.symm hne) s w)
      (generation?_perform hne s fun _ => hnests) (generationsOf_perform hne hnests hnests' s w)

/-- The jobs `orders` and `payments` do not see each other, and deleting `orders`
    takes what `orders:eu` has. -/
theorem perform_isolated_orders :
    ("orders" ≠ "payments" ∧ "orders" ≠ "orders:eu") ∧
    (∀ (s : Store) (w : JobWrite), SameAnswers "payments" s (s.perform "orders" w)) ∧
    ∀ (s : Store) period, (s.perform "orders" .delete).generation? "orders:eu" period = .ok none :=
  ⟨⟨by decide, by decide⟩,
    (perform_isolated "orders" "payments" (by decide)).2.2.2.1.2
      ⟨by decide +kernel, by decide +kernel⟩,
    (perform_isolated "orders" "orders:eu" (by decide)).2.2.1 (by decide +kernel)⟩

/-- The only generation of a store is one of `orders:eu`. The list of `orders`
    shows it, and it is gone once `orders` is deleted. -/
theorem generation?_deleteJob_orders :
    (withGenerationOf "orders:eu").generation? "orders:eu" 0 = .ok (some { period := 0 }) ∧
    (withGenerationOf "orders:eu").generationsOf "orders" = .ok [{ period := 0 }] ∧
    ((withGenerationOf "orders:eu").deleteJob "orders").generation? "orders:eu" 0 = .ok none := by
  have hnests : JobId.Nests "orders" "orders:eu" := by decide +kernel
  exact ⟨generation?_withGenerationOf _, generationsOf_withGenerationOf hnests,
    generation?_deleteJob_of_nests hnests _ 0⟩

end Store

end Rescale
