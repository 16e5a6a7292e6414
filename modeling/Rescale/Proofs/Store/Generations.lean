import Mathlib.Data.Set.List
import Rescale.Proofs.Store.Faithful
import Rescale.Proofs.Store.Isolation

/-!
# The Table of Generations

A store gives back the generation that was last put for a job and a period, and it
lists those of a job by their periods.

The generations of all jobs share one table, in which a single text stands for the
job and the period. That such a table works as if it had two columns hangs on this
text alone. It tells both parts apart for every job, so a look-up finds what was put
for exactly that job and period. And since periods of 64 bits fill twenty digits, the
order of the texts is that of the periods as long as the job is the same. A list is
read off the table in the order of the texts, so the generations of its job come by
period, each of them once. Those of nested jobs may stand between them, but their
order does not change by that.

As with histories, what is found comes back with its doubles reread, and not at all
if one of them is not finite. A list comes back only as a whole.

## Main definitions

* `Store.lastGeneration?`: The last generation of a job under a period, unless it was
  removed.
* `Store.Listing`: What is listed for a job, and how it comes back.
* `Store.keyed`: A row of the table, out of a job and its generation.

## Theorems

* `get?_generations_after`: The table holds what was last put into it.
* `readsBack_generation?`: So it is found by its job and its period.
* `exists_keyed`, `exists_listing`: What is listed are rows of jobs, by their periods.
* `generations_faithful`: Keys encode jobs and periods faithfully.
-/

namespace Rescale

namespace Store

/-! ### What was last put -/

/-- What an operation does to the generation of a job under a period, if it does
    anything: it puts one there, or it removes what is there, with the job or with a
    job that this one is nested in. -/
def Operation.generationFor? (job : JobId) (period : Nat) : Operation → Option (Option Generation)
  | .write owner (.generation g) =>
    if owner = job ∧ g.period = period then some (some g) else none
  | .write owner .delete => if owner = job ∨ JobId.Nests owner job then some none else none
  | _ => none

/-- The last generation that was put for a job under a period, unless it was removed
    since. -/
def lastGeneration? (job : JobId) (period : Nat) (ops : List Operation) : Option Generation :=
  (ops.filterMap (Operation.generationFor? job period)).getLast?.join

/-- All periods under which generations are put have 64 bits. -/
def PeriodsFit (ops : List Operation) : Prop :=
  ∀ job g, Operation.write job (.generation g) ∈ ops → g.period < Text.wordLimit

/-- An operation puts or removes what is found under the key of a job and a period,
    or leaves it alone. -/
theorem get?_generations_apply (s : Store) (op : Operation) (job : JobId) (period : Nat) :
    (s.apply op).generations.get? (generationKey job period) =
      (op.generationFor? job period).getD (s.generations.get? (generationKey job period)) := by
  cases op with
  | write owner w =>
      cases w with
      | generation g =>
          rw [apply, perform, putGeneration, Operation.generationFor?]
          by_cases hkey : owner = job ∧ g.period = period
          · rw [if_pos hkey, hkey.1, hkey.2, SortedMap.get?_insert_self, Option.getD_some]
          · have hne : generationKey job period ≠ generationKey owner g.period := by
              rw [ne_comm, ne_eq, generationKey_inj]
              exact hkey
            rw [if_neg hkey, SortedMap.get?_insert_of_ne _ _ hne, Option.getD_none]
      | delete =>
          rw [apply, perform, get?_generations_deleteJob, Operation.generationFor?]
          simp only [isGenerationOf_generationKey_iff]
          split
          · rw [Option.getD_some]
          · rw [Option.getD_none]
      | _ => rfl
  | putNode n => rfl
  | deleteNode id => rfl

theorem get?_generations_after (job : JobId) (period : Nat) (ops : List Operation) :
    (after ops).generations.get? (generationKey job period) = lastGeneration? job period ops :=
  found_after (fun s => s.generations.get? (generationKey job period)) rfl
    (fun s op => get?_generations_apply s op job period) ops

/-- What an operation puts for a job and a period is a generation of this period. -/
theorem eq_of_generationFor? {job : JobId} {period : Nat} {op : Operation} {g : Generation}
    (h : op.generationFor? job period = some (some g)) :
    op = .write job (.generation g) ∧ g.period = period := by
  cases op with
  | write owner w =>
      cases w with
      | generation g' =>
          rw [Operation.generationFor?] at h
          split at h
          · next hkey =>
            obtain rfl := Option.some.inj (Option.some.inj h)
            exact ⟨by rw [hkey.1], hkey.2⟩
          · cases h
      | delete =>
          rw [Operation.generationFor?] at h
          split at h
          · cases Option.some.inj h
          · cases h
      | _ => cases h
  | putNode n => cases h
  | deleteNode id => cases h

/-- What was last put was put by one of the operations. -/
theorem mem_of_lastGeneration? {job : JobId} {period : Nat} {ops : List Operation}
    {g : Generation} (h : lastGeneration? job period ops = some g) :
    Operation.write job (.generation g) ∈ ops ∧ g.period = period := by
  have hlast := List.mem_of_getLast? (Option.join_eq_some_iff.1 h)
  rcases List.mem_filterMap.1 hlast with ⟨op, hop, hput⟩
  rcases eq_of_generationFor? hput with ⟨rfl, hperiod⟩
  exact ⟨hop, hperiod⟩

/-- The last generation that was put is found, with its doubles reread, unless one of
    them is not finite. -/
theorem readsBack_generation? (ops : List Operation) (job : JobId) (period : Nat) :
    ReadsBack Generation.isFinite (·.mapFloats Decimal.reread) (lastGeneration? job period ops)
      ((after ops).generation? job period) := by
  rw [generation?, get?_generations_after]
  exact readsBack_readBack? rereadGeneration_eq _

/-! ### Lists of generations -/

/-- A row of the table, out of a job and a generation of it. -/
def keyed (row : JobId × Generation) : String × Generation :=
  (generationKey row.1 row.2.period, row.2)

theorem keyed_injective : Function.Injective keyed := by
  rintro ⟨job, g⟩ ⟨job', g'⟩ h
  obtain ⟨hkey, hg⟩ := Prod.mk.inj h
  obtain rfl : g = g' := hg
  obtain rfl : job = job' := (generationKey_inj.1 hkey).1
  rfl

/-- What is listed with a job are rows of jobs. -/
theorem exists_keyed {s : Store} (hs : s.Filed) (job : JobId) :
    ∃ rows : List (JobId × Generation),
      (s.generations.filter fun key _ => isGenerationOf job key).toList = rows.map keyed := by
  have hrows : (s.generations.filter fun key _ => isGenerationOf job key).toList ∈
      Set.range (List.map keyed) := by
    rw [Set.range_list_map]
    rintro ⟨key, g⟩ hentry
    have hfound := SortedMap.mem_toList_iff.1 (List.mem_filter.1 hentry).1
    rcases hs.generations key g hfound with ⟨owner, rfl⟩
    exact ⟨(owner, g), rfl⟩
  rcases hrows with ⟨rows, hrows⟩
  exact ⟨rows, hrows.symm⟩

/-- What is listed for a job after some operations, as jobs and their generations, and
    how the list comes back. -/
structure Listing (ops : List Operation) (job : JobId) (rows : List (JobId × Generation))
    (answer : Except StoreError (List Generation)) : Prop where
  /-- The last generation under every period is listed, for the job and for those that
      are nested in it. -/
  mem_iff : ∀ owner g, (owner, g) ∈ rows ↔
    (owner = job ∨ JobId.Nests job owner) ∧ lastGeneration? owner g.period ops = some g
  /-- They come in the order of their keys. -/
  byKey : rows.Pairwise fun a b =>
    Text.bytes (generationKey a.1 a.2.period) < Text.bytes (generationKey b.1 b.2.period)
  /-- Those of the job itself come by their periods, none of them twice. -/
  byPeriod : (rows.filter fun row => row.1 = job).Pairwise fun a b => a.2.period < b.2.period
  /-- If all are finite, they come back with their doubles reread. -/
  finite : (∀ row ∈ rows, row.2.isFinite = true) →
    answer = .ok (rows.map fun row => row.2.mapFloats Decimal.reread)
  /-- If one of them is lost, the list is. -/
  lost : ∀ row ∈ rows, row.2.isFinite = false → answer = .error .unreadable

theorem exists_listing {ops : List Operation} (hops : PeriodsFit ops) (job : JobId) :
    ∃ rows, Listing ops job rows ((after ops).generationsOf job) := by
  rcases exists_keyed (filed_after ops) job with ⟨rows, hrows⟩
  have hmem : ∀ owner g, (owner, g) ∈ rows ↔
      (owner = job ∨ JobId.Nests job owner) ∧ lastGeneration? owner g.period ops = some g := by
    intro owner g
    rw [← List.mem_map_of_injective keyed_injective, ← hrows, keyed, SortedMap.filter,
      List.mem_filter, SortedMap.mem_toList_iff, get?_generations_after,
      isGenerationOf_generationKey_iff, and_comm, eq_comm (a := owner)]
  have hkeys : rows.Pairwise fun a b =>
      Text.bytes (generationKey a.1 a.2.period) < Text.bytes (generationKey b.1 b.2.period) := by
    have hsorted := ((after ops).generations.filter fun key _ => isGenerationOf job key).sorted
    rw [hrows, List.pairwise_map] at hsorted
    exact hsorted.imp Text.compare_eq_lt_iff.1
  have hread : (after ops).generationsOf job =
      if rows.all fun row => row.2.isFinite
      then .ok (rows.map fun row => row.2.mapFloats Decimal.reread)
      else .error .unreadable := by
    have hvalues : ((after ops).generations.filter fun key _ => isGenerationOf job key).values =
        rows.map Prod.snd := by
      rw [SortedMap.values, hrows, List.map_map]
      rfl
    rw [generationsOf, hvalues, readBackAll_eq rereadGeneration_eq, List.all_map, List.map_map]
    rfl
  refine ⟨rows, hmem, hkeys, ?_, fun hfinite => ?_, fun row hrow hlost => ?_⟩
  · -- Among the keys of one job the order is that of the periods.
    refine (hkeys.filter _).imp_of_mem fun {a b} ha hb hlt => ?_
    rcases List.mem_filter.1 ha with ⟨ha, hajob⟩
    rcases List.mem_filter.1 hb with ⟨hb, hbjob⟩
    have hfit : ∀ row ∈ rows, row.2.period < Text.wordLimit := fun row hrow =>
      hops row.1 row.2 (mem_of_lastGeneration? ((hmem row.1 row.2).1 hrow).2).1
    rw [of_decide_eq_true hajob, of_decide_eq_true hbjob] at hlt
    exact (bytes_generationKey_lt_iff (hfit a ha) (hfit b hb)).1 hlt
  · rw [hread, if_pos (List.all_eq_true.2 hfinite)]
  · have hnot : ¬(rows.all fun row => row.2.isFinite) = true := fun hall =>
      Bool.false_ne_true (hlost.symm.trans (List.all_eq_true.1 hall row hrow))
    rw [hread, if_neg hnot]

/-! ### Faithfulness -/

/-- Keys encode jobs and periods faithfully. Two keys are the same only for the same
    job and period, whatever the job is called, and those of one job are in the order
    of its periods. So after any operations, on any jobs and with periods of 64 bits,
    what is found for a job and a period is the last generation that was put for
    exactly these two, and the list of a job consists of the last generation under
    every period, for the job and for those that are nested in it. Those of the job
    itself come by their periods, each of them once. -/
theorem generations_faithful (ops : List Operation) (hops : PeriodsFit ops) :
    (∀ job job' period period', generationKey job period = generationKey job' period' ↔
      job = job' ∧ period = period') ∧
    (∀ job, ∀ p < Text.wordLimit, ∀ q < Text.wordLimit,
      (Text.bytes (generationKey job p) < Text.bytes (generationKey job q) ↔ p < q)) ∧
    (∀ job period,
      ReadsBack Generation.isFinite (·.mapFloats Decimal.reread) (lastGeneration? job period ops)
        ((after ops).generation? job period)) ∧
    ∀ job, ∃ rows, Listing ops job rows ((after ops).generationsOf job) :=
  ⟨fun _ _ _ _ => generationKey_inj, fun _ _ hp _ hq => bytes_generationKey_lt_iff hp hq,
    readsBack_generation? ops, exists_listing hops⟩

namespace Measured

/-- A generation of one vertex, with the hit rate that was measured. -/
def generation (period parallelism : Nat) (hitRate : Float) : Generation where
  period := period
  stances := SortedMap.ofList [("map", ⟨parallelism, 0, hitRate, 0.0, 0.0, true, false, false⟩)]

/-- Ten is put before nine and once more after it, and a nested job has a nine too. -/
def ops : List Operation :=
  [.write "orders" (.generation (generation 10 2 0.5)),
    .write "orders" (.generation (generation 9 2 0.5)),
    .write "orders:eu" (.generation (generation 9 8 0.5)),
    .write "orders" (.generation (generation 10 4 0.75))]

theorem periodsFit_ops : PeriodsFit ops := by
  intro job g hmem
  simp only [ops, List.mem_cons, List.not_mem_nil, or_false, Operation.write.injEq,
    JobWrite.generation.injEq] at hmem
  rcases hmem with ⟨_, rfl⟩ | ⟨_, rfl⟩ | ⟨_, rfl⟩ | ⟨_, rfl⟩
  all_goals decide

/-- The nine and the second ten of `orders` are found and listed, in this order, and
    so is the nine of `orders:eu`. -/
theorem generations_faithful_orders :
    PeriodsFit ops ∧
    (after ops).generation? "orders" 9 = .ok (some (generation 9 2 0.5)) ∧
    (after ops).generation? "orders" 10 = .ok (some (generation 10 4 0.75)) ∧
    ∃ rows, Listing ops "orders" rows ((after ops).generationsOf "orders") ∧
      ("orders", generation 9 2 0.5) ∈ rows ∧ ("orders", generation 10 4 0.75) ∈ rows ∧
      ("orders", generation 10 2 0.5) ∉ rows ∧ ("orders:eu", generation 9 8 0.5) ∈ rows := by
  rcases generations_faithful ops periodsFit_ops with ⟨_, _, hfound, hlisted⟩
  rcases hlisted "orders" with ⟨rows, hrows⟩
  refine ⟨periodsFit_ops, ?_, ?_, rows, hrows, ?_, ?_, ?_, ?_⟩
  · exact (hfound "orders" 9).same _ rfl (by decide +kernel) (by decide +kernel)
  · exact (hfound "orders" 10).same _ rfl (by decide +kernel) (by decide +kernel)
  · exact (hrows.mem_iff _ _).2 ⟨Or.inl rfl, rfl⟩
  · exact (hrows.mem_iff _ _).2 ⟨Or.inl rfl, rfl⟩
  · exact fun hmem => absurd ((hrows.mem_iff _ _).1 hmem).2 (by decide +kernel)
  · exact (hrows.mem_iff _ _).2 ⟨Or.inr (by decide +kernel), by decide +kernel⟩

/-- One generation with a hit rate that is no number, and one with a hit rate of sixteen
    digits. -/
def inexact : List Operation :=
  [.write "orders" (.generation (generation 0 4 (0.0 / 0.0))),
    .write "payments" (.generation (generation 0 4 0.9011114869586621))]

/-- The first one was put and cannot be read. Of the second one, although it is finite,
    a neighbour is found. -/
theorem generation?_inexact :
    (lastGeneration? "orders" 0 inexact = some (generation 0 4 (0.0 / 0.0)) ∧
      (after inexact).generation? "orders" 0 = .error .unreadable) ∧
    (generation 0 4 0.9011114869586621).isFinite = true ∧
    lastGeneration? "payments" 0 inexact = some (generation 0 4 0.9011114869586621) ∧
    (after inexact).generation? "payments" 0 = .ok (some (generation 0 4 0.901111486958662)) ∧
    generation 0 4 0.901111486958662 ≠ generation 0 4 0.9011114869586621 := by
  decide +kernel

end Measured

end Store

end Rescale
