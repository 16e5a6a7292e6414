import Mathlib.Order.Bounds.Basic
import Mathlib.Order.Lattice.Nat
import Rescale.Ceiling.Cluster
import Rescale.SortedMap.Lemmas

/-!
# Slots after a Proposal

How many task slots a job is reckoned to use once a proposal is applied.

The estimate goes by the highest parallelism of the job, before and after. A job
that uses no more slots than its highest parallelism has its vertices share them,
and it will use as many as the new highest parallelism. A job that uses more has
several sharing groups, and its usage is scaled by the ratio of the two, rounded
up. The two cases fit together where they meet: usage equal to the highest
parallelism scales to the new one exactly. So the estimate grows with the usage
and with each parallelism that is proposed, without a step down at the switch.

What the two highest parallelisms are is said without the walk over the vertices:
they are the greatest elements of two sets, that of the reported parallelisms and
that of the same after the proposal.

## Main definitions

* `JobReadings.Runs`: How many instances of a vertex are reported.
* `JobReadings.AllReport`: Every vertex reports its parallelism.
* `Proposal.after`: What a vertex runs after a proposal.
* `JobReadings.counts`, `JobReadings.countsAfter`: All parallelisms, before and
  after a proposal.

## Theorems

* `ceilDiv_le_iff`: A quotient that is rounded up is the least multiple to do.
* `isLUB_highestParallelism`: What the walk over the vertices finds.
* `slotsAfter_eq_ok_iff`: When there is an estimate, and which one.
* `scaledSlots_mono`: The estimate grows with all it depends on.
* `scaledSlots_self`, `scaledSlots_le_of_le`: No growth without growing vertices.
* `slotsAfter_bounds`: The estimate and its bounds.
-/

namespace Rescale

/-! ### Quotients rounded up -/

theorem ceilDiv_le_iff {a b r : Nat} (hb : 0 < b) : ceilDiv a b ≤ r ↔ a ≤ r * b := by
  rw [ceilDiv, Nat.div_le_iff_le_mul_add_pred hb, Nat.mul_comm b r]
  omega

theorem isLeast_ceilDiv (a : Nat) {b : Nat} (hb : 0 < b) :
    IsLeast {r | a ≤ r * b} (ceilDiv a b) :=
  ⟨(ceilDiv_le_iff hb).1 le_rfl, fun _ h => (ceilDiv_le_iff hb).2 h⟩

theorem ceilDiv_mono {a a' b : Nat} (hb : 0 < b) (h : a ≤ a') : ceilDiv a b ≤ ceilDiv a' b :=
  (ceilDiv_le_iff hb).2 (h.trans ((ceilDiv_le_iff hb).1 le_rfl))

/-- What goes into whole parts needs no rounding. -/
theorem ceilDiv_mul_self (a : Nat) {b : Nat} (hb : 0 < b) : ceilDiv (a * b) b = a :=
  eq_of_forall_ge_iff fun _ => (ceilDiv_le_iff hb).trans (Nat.mul_le_mul_right_iff hb)

/-! ### Slots from highest parallelisms -/

section ScaledSlots

variable {used used' current target target' : Nat}

theorem scaledSlots_of_le (hpos : 0 < current) (h : used ≤ current) :
    scaledSlots used current target = target := by
  rw [scaledSlots, if_neg (by rw [beq_iff_eq]; omega), if_pos h]

theorem scaledSlots_of_lt (hpos : 0 < current) (h : current < used) :
    scaledSlots used current target = ceilDiv (used * target) current := by
  rw [scaledSlots, if_neg (by rw [beq_iff_eq]; omega), if_neg (by omega)]

/-- A job is never reckoned to use fewer slots than its highest parallelism. -/
theorem le_scaledSlots (hpos : 0 < current) : target ≤ scaledSlots used current target := by
  rcases Nat.lt_or_ge current used with hlt | hle
  · rw [scaledSlots_of_lt hpos hlt]
    -- At a usage of the highest parallelism the ratio comes out even.
    calc target = ceilDiv (target * current) current := (ceilDiv_mul_self target hpos).symm
      _ ≤ ceilDiv (used * target) current := by
        refine ceilDiv_mono hpos ?_
        rw [Nat.mul_comm used target]
        exact Nat.mul_le_mul_left target hlt.le
  · rw [scaledSlots_of_le hpos hle]

/-- More usage and a higher parallelism need at least as many slots. Only where
    the usage passes the highest parallelism do the two cases meet, and there the
    second one is above all values of the first. -/
theorem scaledSlots_mono (hpos : 0 < current) (hused : used ≤ used') (htarget : target ≤ target') :
    scaledSlots used current target ≤ scaledSlots used' current target' := by
  rcases Nat.lt_or_ge current used with hlt | hle
  · rw [scaledSlots_of_lt hpos hlt, scaledSlots_of_lt hpos (hlt.trans_le hused)]
    exact ceilDiv_mono hpos (Nat.mul_le_mul hused htarget)
  · rw [scaledSlots_of_le hpos hle]
    exact htarget.trans (le_scaledSlots hpos)

/-- Where the highest parallelism stays, the usage does, once it has reached
    it. -/
theorem scaledSlots_self (used current : Nat) :
    scaledSlots used current current = max used current := by
  rcases Nat.eq_zero_or_pos current with rfl | hpos
  · exact (Nat.max_zero used).symm
  rcases Nat.lt_or_ge current used with hlt | hle
  · rw [scaledSlots_of_lt hpos hlt, ceilDiv_mul_self used hpos, Nat.max_eq_left hlt.le]
  · rw [scaledSlots_of_le hpos hle, Nat.max_eq_right hle]

theorem scaledSlots_le_of_le (hpos : 0 < current) (h : target ≤ current) :
    scaledSlots used current target ≤ max used current :=
  (scaledSlots_mono hpos le_rfl h).trans (scaledSlots_self used current).le

end ScaledSlots

/-! ### Highest parallelisms -/

/-- What a vertex that runs `n` instances runs after a proposal. -/
def Proposal.after (p : Proposal) (v : VertexId) (n : Nat) : Nat :=
  match p.get? v with
  | some c => c.target
  | none => n

namespace JobReadings

/-- A vertex reports that it runs `n` instances. -/
def Runs (readings : JobReadings) (v : VertexId) (n : Nat) : Prop :=
  ∃ r reading, readings.vertices.get? v = some r ∧ r.get? .parallelism = some reading ∧
    countOf reading.current = n

/-- Every vertex reports its parallelism. -/
def AllReport (readings : JobReadings) : Prop :=
  ∀ v r, readings.vertices.get? v = some r → ∃ reading, r.get? .parallelism = some reading

/-- The reported parallelisms. -/
def counts (readings : JobReadings) : Set Nat := {n | ∃ v, readings.Runs v n}

/-- The reported parallelisms as they are after a proposal. -/
def countsAfter (readings : JobReadings) (p : Proposal) : Set Nat :=
  {m | ∃ v n, readings.Runs v n ∧ p.after v n = m}

end JobReadings

/-- What becomes of the reported parallelisms of some vertices under a
    function. -/
def countsIn (l : List (VertexId × Readings)) (f : VertexId → Nat → Nat) : Set Nat :=
  {m | ∃ v r reading, (v, r) ∈ l ∧ r.get? .parallelism = some reading ∧
    f v (countOf reading.current) = m}

section Highest

variable {readings : JobReadings} {p : Proposal} {l : List (VertexId × Readings)}

theorem countsIn_nil (f : VertexId → Nat → Nat) : countsIn [] f = ∅ := by
  refine Set.eq_empty_of_forall_notMem fun m => ?_
  rintro ⟨v, r, reading, hmem, _⟩
  exact List.not_mem_nil hmem

theorem countsIn_cons {v : VertexId} {r : Readings} {reading : Reading}
    (hr : r.get? .parallelism = some reading) (f : VertexId → Nat → Nat) :
    countsIn ((v, r) :: l) f = insert (f v (countOf reading.current)) (countsIn l f) := by
  ext m
  constructor
  · rintro ⟨w, r', reading', hmem, hr', rfl⟩
    rcases List.mem_cons.1 hmem with heq | hrest
    · obtain ⟨rfl, rfl⟩ := Prod.mk.inj heq
      obtain rfl := Option.some.inj (hr.symm.trans hr')
      exact Set.mem_insert _ _
    · exact Set.mem_insert_of_mem _ ⟨w, r', reading', hrest, hr', rfl⟩
  · rintro (rfl | ⟨w, r', reading', hrest, hr', rfl⟩)
    · exact ⟨v, r, reading, List.mem_cons_self, hr, rfl⟩
    · exact ⟨w, r', reading', List.mem_cons_of_mem _ hrest, hr', rfl⟩

theorem countsIn_toList (f : VertexId → Nat → Nat) :
    countsIn readings.vertices.toList f = {m | ∃ v n, readings.Runs v n ∧ f v n = m} := by
  ext m
  constructor
  · rintro ⟨v, r, reading, hmem, hr, rfl⟩
    exact ⟨v, _, ⟨r, reading, SortedMap.mem_toList_iff.1 hmem, hr, rfl⟩, rfl⟩
  · rintro ⟨v, _, ⟨r, reading, hv, hr, rfl⟩, rfl⟩
    exact ⟨v, r, reading, SortedMap.mem_toList_iff.2 hv, hr, rfl⟩

/-- By induction on the vertices: where all of them report, there is a highest
    parallelism. -/
theorem exists_highestParallelism (p : Proposal) (l : List (VertexId × Readings))
    (h : ∀ e ∈ l, ∃ reading, e.2.get? .parallelism = some reading) :
    ∃ current target, highestParallelism p l = .ok (current, target) := by
  induction l with
  | nil => exact ⟨0, 0, rfl⟩
  | cons e rest ih =>
      rcases List.forall_mem_cons.1 h with ⟨⟨reading, hreading⟩, hrest⟩
      rcases ih hrest with ⟨currents, targets, hothers⟩
      simp only [highestParallelism, requireReading, hreading, hothers]
      exact ⟨_, _, rfl⟩

/-- By induction on the vertices: a highest parallelism takes all of them to
    report, and then it is the least bound of what they report. -/
theorem isLUB_highestParallelism (l : List (VertexId × Readings)) :
    ∀ current target, highestParallelism p l = .ok (current, target) →
      (∀ e ∈ l, ∃ reading, e.2.get? .parallelism = some reading) ∧
        IsLUB (countsIn l fun _ n => n) current ∧ IsLUB (countsIn l p.after) target := by
  induction l with
  | nil =>
      intro current target h
      cases h
      rw [countsIn_nil, countsIn_nil]
      exact ⟨List.forall_mem_nil _, isLUB_empty, isLUB_empty⟩
  | cons e rest ih =>
      intro current target h
      rcases e with ⟨v, r⟩
      cases hreading : r.get? .parallelism with
      | none =>
          -- The walk fails at the first vertex that does not report.
          simp only [highestParallelism, requireReading, hreading] at h
          cases h
      | some reading =>
          cases hothers : highestParallelism p rest with
          | error err =>
              simp only [highestParallelism, requireReading, hreading, hothers] at h
              cases h
          | ok highest =>
              rcases ih highest.1 highest.2 hothers with ⟨hreport, hcurrents, htargets⟩
              simp only [highestParallelism, requireReading, hreading, hothers] at h
              cases h
              rw [countsIn_cons hreading, countsIn_cons hreading]
              exact ⟨List.forall_mem_cons.2 ⟨⟨reading, hreading⟩, hreport⟩,
                hcurrents.insert _, htargets.insert _⟩

theorem forall_mem_toList_iff :
    (∀ e ∈ readings.vertices.toList, ∃ reading, e.2.get? .parallelism = some reading) ↔
      readings.AllReport :=
  ⟨fun h v r hv => h (v, r) (SortedMap.mem_toList_iff.2 hv),
    fun h e he => h e.1 e.2 (SortedMap.mem_toList_iff.1 he)⟩

/-- Without changes everything stays. -/
theorem countsAfter_empty : readings.countsAfter ∅ = readings.counts := by
  ext m
  exact ⟨fun ⟨v, n, hruns, heq⟩ => ⟨v, heq ▸ hruns⟩, fun ⟨v, hruns⟩ => ⟨v, m, hruns, rfl⟩⟩

/-- What the walk over the vertices of a job finds. -/
theorem highestParallelism_eq_ok_iff {current target : Nat} :
    highestParallelism p readings.vertices.toList = .ok (current, target) ↔
      readings.AllReport ∧ IsLUB readings.counts current ∧
        IsLUB (readings.countsAfter p) target := by
  have hcounts : countsIn readings.vertices.toList (fun _ n => n) = readings.counts :=
    (countsIn_toList fun _ n => n).trans countsAfter_empty
  have hafter : countsIn readings.vertices.toList p.after = readings.countsAfter p :=
    countsIn_toList p.after
  rw [← forall_mem_toList_iff, ← hcounts, ← hafter]
  constructor
  · exact isLUB_highestParallelism _ current target
  · rintro ⟨hreport, hcurrent, htarget⟩
    -- Something is found, and least bounds are unique.
    rcases exists_highestParallelism p _ hreport with ⟨current', target', hfound⟩
    rcases isLUB_highestParallelism _ _ _ hfound with ⟨_, hcurrent', htarget'⟩
    rw [hfound, hcurrent.unique hcurrent', htarget.unique htarget']

theorem slotsAfter_eq_ok_iff {used after : Nat} :
    slotsAfter readings p used = .ok after ↔
      readings.AllReport ∧ ∃ current target, IsLUB readings.counts current ∧
        IsLUB (readings.countsAfter p) target ∧ scaledSlots used current target = after := by
  rw [slotsAfter]
  constructor
  · intro h
    cases hfound : highestParallelism p readings.vertices.toList with
    | error err =>
        rw [hfound] at h
        cases h
    | ok found =>
        rw [hfound] at h
        cases h
        rcases highestParallelism_eq_ok_iff.1 hfound with ⟨hreport, hcurrent, htarget⟩
        exact ⟨hreport, found.1, found.2, hcurrent, htarget, rfl⟩
  · rintro ⟨hreport, current, target, hcurrent, htarget, rfl⟩
    rw [highestParallelism_eq_ok_iff.2 ⟨hreport, hcurrent, htarget⟩]
    rfl

/-- Where all vertices report, their parallelisms are bounded before and after. -/
theorem exists_isLUB_counts (hreport : readings.AllReport) (p : Proposal) :
    ∃ current target, IsLUB readings.counts current ∧ IsLUB (readings.countsAfter p) target := by
  rcases exists_highestParallelism p _ (forall_mem_toList_iff.2 hreport) with
    ⟨current, target, hfound⟩
  exact ⟨current, target, (highestParallelism_eq_ok_iff.1 hfound).2⟩

/-- The least bound of parallelisms is one of them, if there are any. -/
theorem isGreatest_of_isLUB {s : Set Nat} {n : Nat} (h : IsLUB s n) (hne : s.Nonempty) :
    IsGreatest s n := by
  refine ⟨?_, h.1⟩
  rw [← h.csSup_eq hne]
  exact Nat.sSup_mem hne h.bddAbove

theorem isGreatest_of_isLUB_of_pos {s : Set Nat} {n : Nat} (h : IsLUB s n) (hpos : 0 < n) :
    IsGreatest s n := by
  refine isGreatest_of_isLUB h (Set.nonempty_iff_ne_empty.2 ?_)
  rintro rfl
  exact absurd (isLUB_empty_iff.1 h 0) hpos.not_ge

end Highest

/-! ### Estimates -/

section Estimates

variable {readings : JobReadings} {p q : Proposal} {highest target target' : Nat}

/-- Where all vertices report, the highest parallelism after a proposal is that of
    one of them, and it gives the estimate. -/
theorem exists_slotsAfter (hreport : readings.AllReport)
    (hhighest : IsGreatest readings.counts highest) (p : Proposal) :
    ∃ target, IsGreatest (readings.countsAfter p) target ∧
      ∀ used, slotsAfter readings p used = .ok (scaledSlots used highest target) := by
  rcases exists_isLUB_counts hreport p with ⟨_, target, _, htarget⟩
  rcases hhighest.1 with ⟨v, hruns⟩
  exact ⟨target, isGreatest_of_isLUB htarget ⟨_, v, _, hruns, rfl⟩, fun used =>
    slotsAfter_eq_ok_iff.2 ⟨hreport, highest, target, hhighest.isLUB, htarget, rfl⟩⟩

/-- Of two proposals, the one that takes no vertex further has a highest
    parallelism that is no higher. -/
theorem countsAfter_mono (hp : IsGreatest (readings.countsAfter p) target)
    (hq : IsGreatest (readings.countsAfter q) target')
    (h : ∀ v n, readings.Runs v n → p.after v n ≤ q.after v n) : target ≤ target' := by
  rcases hp.1 with ⟨v, n, hruns, rfl⟩
  exact (h v n hruns).trans (hq.2 ⟨v, n, hruns, rfl⟩)

/-- What holds of the present parallelism and of each target holds after the
    proposal. -/
theorem after_of_change {P : Nat → Prop} {v : VertexId} {n : Nat} (hkept : P n)
    (hchange : ∀ c, p.get? v = some c → P c.target) : P (p.after v n) := by
  unfold Proposal.after
  cases hc : p.get? v with
  | none => exact hkept
  | some c => exact hchange c hc

/-- Let all vertices of a job report, and let the highest parallelism be positive.
    A job that uses no more slots than that will use as many as the highest
    parallelism after the proposal, and any other the least number that is not
    below its usage scaled by the two. So it is never below the new highest
    parallelism, and it grows with the usage and with what each vertex is to run.
    Where changes lead nowhere else, or there are none, the usage stays if it has
    reached the highest parallelism, and without growing vertices it is not
    exceeded. -/
theorem slotsAfter_bounds (hreport : readings.AllReport)
    (hhighest : IsGreatest readings.counts highest) (hpos : 0 < highest) (p : Proposal)
    (used : Nat) :
    ∃ target after, IsGreatest (readings.countsAfter p) target ∧
      slotsAfter readings p used = .ok after ∧
      (used ≤ highest → after = target) ∧
      (highest < used → IsLeast {r | used * target ≤ r * highest} after) ∧
      target ≤ after ∧
      (∀ used' q, used ≤ used' →
        (∀ v n, readings.Runs v n → p.after v n ≤ q.after v n) →
        ∃ after', slotsAfter readings q used' = .ok after' ∧ after ≤ after') ∧
      ((∀ v n c, readings.Runs v n → p.get? v = some c → c.target = n) →
        after = max used highest) ∧
      ((∀ v n c, readings.Runs v n → p.get? v = some c → c.target ≤ n) →
        after ≤ max used highest) := by
  rcases exists_slotsAfter hreport hhighest p with ⟨target, htarget, hafter⟩
  have hsame : IsGreatest (readings.countsAfter ∅) highest := by rwa [countsAfter_empty]
  refine ⟨target, _, htarget, hafter used, scaledSlots_of_le hpos, fun hlt => ?_,
    le_scaledSlots hpos, fun used' q hused hq => ?_, fun hkept => ?_, fun hless => ?_⟩
  · rw [scaledSlots_of_lt hpos hlt]
    exact isLeast_ceilDiv _ hpos
  · rcases exists_slotsAfter hreport hhighest q with ⟨target', htarget', hafter'⟩
    exact ⟨_, hafter' used', scaledSlots_mono hpos hused (countsAfter_mono htarget htarget' hq)⟩
  · -- The proposal goes exactly as far as the empty one.
    have heq : ∀ v n, readings.Runs v n → p.after v n = n := fun v n hruns =>
      after_of_change (P := fun m => m = n) rfl fun c hc => hkept v n c hruns hc
    have htargetEq : target = highest :=
      le_antisymm (countsAfter_mono htarget hsame fun v n hruns => (heq v n hruns).le)
        (countsAfter_mono hsame htarget fun v n hruns => (heq v n hruns).ge)
    rw [htargetEq, scaledSlots_self]
  · refine scaledSlots_le_of_le hpos (countsAfter_mono htarget hsame fun v n hruns => ?_)
    exact after_of_change (P := fun m => m ≤ n) le_rfl fun c hc => hless v n c hruns hc

end Estimates

namespace TwoGroups

/-- Map and sink do not share their slots. -/
def readings : JobReadings where
  vertices := SortedMap.ofList [("map", SortedMap.ofList [(.parallelism, Reading.point 4.0)]),
    ("sink", SortedMap.ofList [(.parallelism, Reading.point 2.5)])]

/-- The sink is to go up. -/
def proposal : Proposal := SortedMap.ofList [("sink", { current := 2, target := 6 })]

/-- Seven slots are in use. The highest parallelism goes from four to six, so there
    will be eleven of them, rounded up. -/
theorem slotsAfter_bounds_two_groups :
    readings.AllReport ∧ IsGreatest readings.counts 4 ∧ 0 < 4 ∧
      slotsAfter readings proposal 7 = .ok 11 := by
  have hfound : highestParallelism proposal readings.vertices.toList = .ok (4, 6) := by
    decide +kernel
  rcases highestParallelism_eq_ok_iff.1 hfound with ⟨hreport, hcounts, hcountsAfter⟩
  have hmap : readings.Runs "map" 4 := ⟨_, Reading.point 4.0, rfl, rfl, by decide +kernel⟩
  have hhighest : IsGreatest readings.counts 4 := isGreatest_of_isLUB hcounts ⟨4, "map", hmap⟩
  refine ⟨hreport, hhighest, by decide, ?_⟩
  rcases slotsAfter_bounds hreport hhighest (by decide) proposal 7 with
    ⟨target, after, htarget, hafter, _, hscaled, _⟩
  rw [htarget.isLUB.unique hcountsAfter] at hscaled
  rw [hafter, (hscaled (by decide)).unique (isLeast_ceilDiv (7 * 6) (by decide))]
  rfl

end TwoGroups

end Rescale
