import Mathlib.Order.Monotone.Basic
import Rescale.Time.Calendar

/-!
# Days and Dates

Every day has a date, and the date is that of no other day.

A record says on which date something happened and not on which day, so what is
found out by reading it is only as good as the count of days that the date stands
for. Counting back goes through the year: the year of a day is found by a division
that makes up for the leap days before it, and the days in front of a year are summed
up without any search. Both agree because the division is monotone. It is right on
the first day and on the last day of each of the four hundred years of an era, so it
is right in between.

## Theorems

* `yearAt_mono`: Later days fall in later years.
* `yearAt_bounds`: A day falls in the year that has begun last.
* `toDays_of_march`: Days are counted from March on.
* `toDays_ofDays`: The date of a day is the date of that day.
* `ofDays_bounds`: Months and days of the month have two digits.
-/

namespace Rescale

namespace CivilDate

/-- Later days fall in later years, one day at a time: where the division loses a leap
    day, it does not lose more than that. -/
theorem yearAt_mono : Monotone yearAt := by
  refine monotone_nat_of_le_succ fun d => ?_
  unfold yearAt
  omega

/-- The first and the last day of every year of an era, checked for all of them. -/
theorem yearAt_ends : ∀ y < 400,
    yearAt (daysBefore y) = y ∧ yearAt (daysBefore (y + 1) - 1) = y := by
  decide +kernel

/-- The year that a day of an era falls in starts on that day or less than a year
    before it. -/
theorem yearAt_bounds {d : Nat} (h : d < 146097) :
    yearAt d < 400 ∧ daysBefore (yearAt d) ≤ d ∧ d ≤ daysBefore (yearAt d) + 365 := by
  have hlast : yearAt d < 400 := by
    unfold yearAt
    omega
  refine ⟨hlast, ?_, ?_⟩
  · by_contra hlt
    cases hy : yearAt d with
    | zero =>
        rw [hy] at hlt
        exact hlt (Nat.zero_le _)
    | succ y =>
        rw [hy] at hlt hlast
        have hbefore := yearAt_mono (Nat.le_sub_one_of_lt (Nat.not_le.1 hlt))
        rw [hy, (yearAt_ends y (by omega)).2] at hbefore
        omega
  · by_cases hy : yearAt d + 1 < 400
    · have hlength : daysBefore (yearAt d + 1) ≤ daysBefore (yearAt d) + 366 := by
        unfold daysBefore
        omega
      by_contra hgt
      have hafter := yearAt_mono (hlength.trans (Nat.not_le.1 hgt))
      rw [(yearAt_ends _ hy).1] at hafter
      omega
    · -- The last year of an era is a leap year.
      have heq : yearAt d = 399 := by omega
      have hstart : daysBefore 399 = 145731 := rfl
      rw [heq, hstart]
      omega

/-- A date by its month from March on, and how the days to it are counted. -/
theorem toDays_of_march (era : Int) {y march : Nat} (day : Nat) (hy : y < 400)
    (hmarch : march < 12) :
    let month := if march < 10 then march + 3 else march - 9
    toDays ⟨(y : Int) + era * 400 + (if month ≤ 2 then 1 else 0), month, day⟩ =
      era * 146097 + (daysBefore y + ((153 * march + 2) / 5 + day - 1) : Nat) - 719468 := by
  by_cases hlate : march < 10
  · have hearly : ¬ march + 3 ≤ 2 := by omega
    have hafter : march + 3 > 2 := by omega
    have hera : ((y : Int) + era * 400 + 0) / 400 = era := by omega
    have hyear : (((y : Int) + era * 400 + 0) % 400).toNat = y := by omega
    simp only [toDays, if_pos hlate, if_neg hearly, if_pos hafter, hera, hyear, Nat.add_sub_cancel]
  · have hearly : march - 9 ≤ 2 := by omega
    have hafter : ¬ march - 9 > 2 := by omega
    have hera : ((y : Int) + era * 400 + 1 - 1) / 400 = era := by omega
    have hyear : (((y : Int) + era * 400 + 1 - 1) % 400).toNat = y := by omega
    have hmonth : march - 9 + 9 = march := by omega
    simp only [toDays, if_neg hlate, if_pos hearly, if_neg hafter, hera, hyear, hmonth]

/-- The date of a day is that day. -/
theorem toDays_ofDays (n : Int) : (ofDays n).toDays = n := by
  have hday : ((n + 719468) % 146097).toNat < 146097 := by omega
  obtain ⟨hyear, hstart, hend⟩ := yearAt_bounds hday
  rw [ofDays, toDays_of_march _ _ hyear (by omega)]
  omega

/-- Months and days of the month have two digits. -/
theorem ofDays_bounds (n : Int) : (ofDays n).month < 100 ∧ (ofDays n).day < 100 := by
  have hday : ((n + 719468) % 146097).toNat < 146097 := by omega
  obtain ⟨_, hstart, hend⟩ := yearAt_bounds hday
  simp only [ofDays]
  constructor
  · split <;> omega
  · omega

end CivilDate

end Rescale
