import Rescale.Proofs.Text.Padded
import Rescale.Proofs.Time.Calendar
import Rescale.Time.Instant

/-!
# Instants as Texts

An instant that is written into a record is read back as that instant.

The text says the date and the time of day, each part with as many digits as it
needs and a mark behind it. So a reader knows where a part ends without looking at
what it is worth, and the parts together give the day and the millisecond of the day
again. Only years can be of any length, and those of more than six digits are not
read. Clocks do not go that far.

## Main definitions

* `Instant.inRange`: The year of an instant has at most six digits.

## Theorems

* `fieldAfter?_padded`: A written field is read as its number.
* `yearSign_yearText`: The sign of a written year stands in front of its digits.
* `ofText?_recordText`: The text of an instant is read as the instant.
-/

namespace Rescale

namespace Instant

/-- The year of an instant has at most six digits. -/
def inRange (i : Instant) : Bool := (CivilDate.ofDays i.day).year.natAbs < yearLimit

/-- A field of two digits is read as its number. -/
theorem fieldAfter?_padded (c : Char) {n : Nat} (h : n < 100) (rest : List Char) :
    fieldAfter? c (c :: (Text.padded 2 n ++ rest)) = some (n, rest) := by
  have hlength : (Text.padded 2 n).length = 2 := Text.length_padded (by decide) h
  obtain ⟨a, b, hpadded⟩ := List.length_eq_two.1 hlength
  have hread : Text.natural? 100 [a, b] = some n := by
    rw [← hpadded]
    exact Text.natural?_padded h
  simp only [fieldAfter?, beq_self_eq_true, if_true, hpadded, List.cons_append, List.nil_append,
    twoDigits?, hread, Option.map_some]

/-- A fraction of three digits is read as its number, and one that is not written
    as zero. -/
theorem fraction?_padded {n : Nat} (h : n < 1000) :
    fraction? ((if n == 0 then [] else '.' :: Text.padded 3 n) ++ ['Z']) = some (n, ['Z']) := by
  by_cases hzero : n = 0
  · rw [hzero]
    rfl
  · have hlength : (Text.padded 3 n).length = 3 := Text.length_padded (by decide) h
    obtain ⟨a, b, c, hpadded⟩ := List.length_eq_three.1 hlength
    have hread : Text.natural? 1000 [a, b, c] = some n := by
      rw [← hpadded]
      exact Text.natural?_padded h
    rw [beq_false_of_ne hzero, if_neg Bool.false_ne_true, hpadded]
    simp only [List.cons_append, List.nil_append, fraction?, hread, Option.map_some]

/-- The digits of a year, and what is behind them. -/
theorem yearDigits (n : Nat) (rest : List Char) :
    (Text.padded 4 n ++ '-' :: rest).takeWhile Text.isDigit = Text.padded 4 n ∧
      (Text.padded 4 n ++ '-' :: rest).dropWhile Text.isDigit = '-' :: rest := by
  have hdigits : ∀ c ∈ Text.padded 4 n, Text.isDigit c = true := fun _ => Text.isDigit_of_mem_padded
  have hmark : Text.isDigit '-' = false := rfl
  constructor
  · rw [List.takeWhile_append_of_pos hdigits, List.takeWhile_cons, hmark]
    exact List.append_nil _
  · rw [List.dropWhile_append_of_pos hdigits, List.dropWhile_cons, hmark]
    rfl

/-- The sign of a written year stands in front of the digits of its magnitude. -/
theorem yearSign_yearText (y : Int) :
    ∃ sign, (∀ rest, yearSign (yearText y ++ rest) = (sign, Text.padded 4 y.natAbs ++ rest)) ∧
      sign * (y.natAbs : Int) = y := by
  have hplain : ∀ rest, yearSign (Text.padded 4 y.natAbs ++ rest) =
      (1, Text.padded 4 y.natAbs ++ rest) := by
    intro rest
    obtain ⟨c, cs, hpadded⟩ := List.exists_cons_of_ne_nil (Text.padded_ne_nil 4 y.natAbs)
    have hmark : ∀ mark rest', c :: (cs ++ rest) = mark :: rest' → Text.isDigit mark = true := by
      intro mark rest' heq
      rw [← (List.cons.inj heq).1]
      exact Text.isDigit_of_mem_padded (hpadded ▸ List.mem_cons_self)
    rw [hpadded, List.cons_append, yearSign]
    · exact fun rest' heq => absurd (hmark '-' rest' heq) (by decide)
    · exact fun rest' heq => absurd (hmark '+' rest' heq) (by decide)
  unfold yearText
  split
  · exact ⟨-1, fun _ => rfl, by omega⟩
  · have hnat : y.toNat = y.natAbs := by omega
    rw [hnat]
    split
    · exact ⟨1, fun _ => rfl, by omega⟩
    · exact ⟨1, hplain, by omega⟩

/-- A day, and the time of day in its parts, are an instant again. -/
theorem millis_eq (i : Instant) :
    i.day * 86400000 +
        (((i.secondOfDay / 3600 : Nat) * 60 + (i.secondOfDay / 60 % 60 : Nat)) * 60 +
          (i.secondOfDay % 60 : Nat)) * 1000 + (i.milliOfDay % 1000 : Nat) = i.millis := by
  simp only [day, secondOfDay, milliOfDay]
  omega

/-- The text of an instant is read as the instant. -/
theorem ofText?_recordText {i : Instant} (h : i.inRange = true) :
    ofText? i.recordText = some i := by
  have hyearLimit : (CivilDate.ofDays i.day).year.natAbs < yearLimit := of_decide_eq_true h
  obtain ⟨hmonth, hday⟩ := CivilDate.ofDays_bounds i.day
  have hsecond : i.secondOfDay < 86400 := by
    unfold secondOfDay milliOfDay
    omega
  have hhour : i.secondOfDay / 3600 < 100 := by omega
  have hminute : i.secondOfDay / 60 % 60 < 100 := by omega
  have hrest : i.secondOfDay % 60 < 100 := by omega
  have hmilli : i.milliOfDay % 1000 < 1000 := Nat.mod_lt _ (by decide)
  have hdate : CivilDate.toDays ⟨(CivilDate.ofDays i.day).year, (CivilDate.ofDays i.day).month,
      (CivilDate.ofDays i.day).day⟩ = i.day := CivilDate.toDays_ofDays i.day
  have hutc : ("Z" : String).toList = ['Z'] := rfl
  have hmark : (['Z'] != ['Z']) = false := rfl
  obtain ⟨sign, hsign, hyear⟩ := yearSign_yearText (CivilDate.ofDays i.day).year
  -- Each reader stops where the part ends that it reads.
  simp only [ofText?, recordText, toText, String.toList_ofList, hutc, List.append_assoc,
    List.cons_append, List.nil_append, hsign, (yearDigits _ _).1, (yearDigits _ _).2,
    Text.natural?_padded hyearLimit, fieldAfter?_padded _ hmonth, fieldAfter?_padded _ hday,
    fieldAfter?_padded _ hhour, fieldAfter?_padded _ hminute, fieldAfter?_padded _ hrest,
    fraction?_padded hmilli, hmark, Option.bind_eq_bind, Option.bind_some, hyear]
  simp only [Bool.false_eq_true, if_false, hdate, millis_eq]

end Instant

end Rescale
