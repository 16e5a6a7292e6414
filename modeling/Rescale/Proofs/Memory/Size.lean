import Mathlib.Algebra.Order.Ring.Nat
import Rescale.Memory.Size
import Rescale.Proofs.Text.Trim

/-!
# Spellings of Memory Sizes

Which texts are sizes, and that a written size is one of them.

The reader of sizes is a few library calls behind each other: trim, lower, cut
at the first character that is no digit, look the rest up. `Spells` says the same
without them, as a grammar, with one table of units in place of a case for each
unit. A text has at most one spelling, since neither a blank nor the first letter
of a unit is a digit. A text without a spelling has no reading, be it for a sign
in front, for blanks between the digits or for digits of another script, and one
whose size does not fit in 64 bits has none either.

A written size is spelled by the grammar, whatever unit it is written in, so it
reads back.

## Main definitions

* `MemorySize.units`: The units and their powers of 1024.
* `MemorySize.Spelling`: A text is a count and a unit by the grammar.
* `MemorySize.Spells`: A text spells a size that fits in 64 bits.

## Theorems

* `unit?_eq_some_iff`: The table holds the units that the reader knows.
* `Spelling.ofText?_eq`: What is spelled is read unless it is too large.
* `ofText?_eq_some_iff`: What the reader accepts is the grammar.
* `exists_text_eq`: A written size is a count of one of the units.
* `spells_text`: A written size is spelled by the grammar.
* `size_text_codec`: Sizes read back, and nothing else than sizes is read.
-/

namespace Rescale

namespace MemorySize

/-- The units in lower case, each with its power of 1024. -/
def units : List (String × Nat) :=
  [("", 0), ("b", 0), ("k", 1), ("kb", 1), ("m", 2), ("mb", 2), ("g", 3), ("gb", 3),
    ("t", 4), ("tb", 4)]

/-- The text `s`, trimmed and in lower case, is the digits `number`, optional blanks
    and a unit of 1024 to the given power. -/
inductive Spelling (s : String) (number : List Char) (power : Nat) : Prop
  | intro {blanks : List Char} {name : String}
      (shape : (Text.trim s.toList).map lower = number ++ (blanks ++ name.toList))
      (number_ne_nil : number ≠ [])
      (digits : ∀ c ∈ number, Text.isDigit c = true)
      (spaces : ∀ c ∈ blanks, Text.isBlank c = true)
      (unit : (name, power) ∈ units)

/-- The number that a run of digits denotes. -/
def value (number : List Char) : Nat := Nat.ofDigitChars 10 number 0

/-- The text `s` spells a size: a count of 64 bits and a unit that make `size`
    bytes, which is again a number of 64 bits. -/
def Spells (s : String) (size : Nat) : Prop :=
  ∃ number power, Spelling s number power ∧ value number < Text.wordLimit ∧
    size = value number * 1024 ^ power ∧ size < Text.wordLimit

/-! ### Characters -/

/-- The characters of units are no blanks, no digits, and lower. -/
theorem units_chars : ∀ u ∈ units, ∀ c ∈ u.1.toList,
    Text.isBlank c = false ∧ Text.isDigit c = false ∧ lower c = c := by
  have hall : (units.all fun u => u.1.toList.all fun c =>
      !Text.isBlank c && !Text.isDigit c && lower c == c) = true := by decide
  intro u hu c hc
  have hchar := List.all_eq_true.1 (List.all_eq_true.1 hall u hu) c hc
  simpa only [Bool.and_eq_true, Bool.not_eq_true', beq_iff_eq, and_assoc] using hchar

theorem lower_of_isDigit {c : Char} (h : Text.isDigit c = true) : lower c = c := by
  have hrange := Text.toNat_of_isDigit h
  refine if_neg fun hupper => ?_
  simp only [Bool.and_eq_true, decide_eq_true_eq, Char.le_def, UInt32.le_iff_toNat_le] at hupper
  have : 65 ≤ c.toNat := hupper.1
  omega

/-- Letters are no blanks in either case. -/
theorem isBlank_lower (c : Char) : Text.isBlank (lower c) = Text.isBlank c := by
  unfold lower
  split
  case isFalse => rfl
  case isTrue h =>
    simp only [Bool.and_eq_true, decide_eq_true_eq, Char.le_def, UInt32.le_iff_toNat_le] at h
    have hrange : 65 ≤ c.toNat ∧ c.toNat ≤ 90 := h
    have hlower : (Char.ofNat (c.toNat + 32)).toNat = c.toNat + 32 := by
      have hvalid : (c.toNat + 32).isValidChar := Or.inl (by omega)
      rw [Char.ofNat, dif_pos hvalid]
      rfl
    rw [Bool.eq_iff_iff]
    simp only [Text.isBlank, hlower, Bool.or_eq_true, Bool.and_eq_true, decide_eq_true_eq,
      beq_iff_eq]
    omega

/-! ### Reading -/

/-- The table holds the units that the reader knows. -/
theorem unit?_eq_some_iff {cs : List Char} {bytes : Nat} :
    unit? cs = some bytes ↔ ∃ u ∈ units, u.1.toList = cs ∧ 1024 ^ u.2 = bytes := by
  constructor
  · intro h
    unfold unit? at h
    split at h <;> cases h <;> decide
  · rintro ⟨u, hu, rfl, rfl⟩
    have hall : ∀ u ∈ units, unit? u.1.toList = some (1024 ^ u.2) := by decide
    exact hall u hu

/-- What is read is spelled. The reader trims twice and the grammar only has blanks
    before the unit: behind it none are left. -/
theorem spells_of_ofText? {s : String} {size : Nat} (h : ofText? s = some size) :
    Spells s size := by
  simp only [ofText?] at h
  split at h
  case h_2 => cases h
  case h_1 count bytes hcount hbytes =>
    obtain ⟨hlt, hsize⟩ := Option.ite_none_right_eq_some.1 h
    obtain rfl := Option.some.inj hsize
    obtain ⟨hne, hdigits, rfl, hcount⟩ := Text.natural?_eq_some_iff.1 hcount
    obtain ⟨⟨name, power⟩, hunit, hname, rfl⟩ := unit?_eq_some_iff.1 hbytes
    have hend : Text.trimEnd ((Text.trim s.toList).map lower) = (Text.trim s.toList).map lower := by
      rw [Text.trimEnd_map isBlank_lower, Text.trimEnd_trim]
    have hrest := Text.eq_blanks_append_trim
      (Text.trimEnd_eq_self_of_suffix (List.dropWhile_suffix Text.isDigit) hend)
    rw [← hname] at hrest
    have hspelling : Spelling s _ power :=
      .intro (by rw [← hrest, List.takeWhile_append_dropWhile]) hne hdigits
        (fun _ => List.mem_takeWhile_imp) hunit
    exact ⟨_, power, hspelling, hcount, rfl, hlt⟩

/-- What is spelled is read unless it is too large. Neither a blank nor the first
    letter of a unit is a digit, so the reader cuts the text where the grammar
    does. -/
theorem Spelling.ofText?_eq {s : String} {number : List Char} {power : Nat}
    (h : Spelling s number power) :
    ofText? s = if value number < Text.wordLimit ∧ value number * 1024 ^ power < Text.wordLimit
      then some (value number * 1024 ^ power) else none := by
  cases h with
  | @intro blanks name shape hne hdigits hspaces hunit =>
      have hchars := units_chars _ hunit
      have hrest : ∀ c ∈ blanks ++ name.toList, ¬Text.isDigit c = true := by
        intro c hc hdigit
        rcases List.mem_append.1 hc with hblank | hname
        · have hnot := Text.isBlank_eq_false_of_isDigit hdigit
          exact Bool.false_ne_true (hnot.symm.trans (hspaces c hblank))
        · exact Bool.false_ne_true ((hchars c hname).2.1.symm.trans hdigit)
      have htake : (number ++ (blanks ++ name.toList)).takeWhile Text.isDigit = number := by
        rw [List.takeWhile_append_of_pos hdigits,
          List.takeWhile_eq_nil_iff.2 fun hl => hrest _ (List.get_mem _ _), List.append_nil]
      have hdrop : Text.trim ((number ++ (blanks ++ name.toList)).dropWhile Text.isDigit) =
          name.toList := by
        rw [List.dropWhile_append_of_pos hdigits,
          List.dropWhile_eq_self_iff.2 fun hl => hrest _ (List.getElem_mem hl),
          Text.trim_append hspaces, Text.trim_eq_self fun c hc => (hchars c hc).1]
      have hbytes : unit? name.toList = some (1024 ^ power) :=
        unit?_eq_some_iff.2 ⟨_, hunit, rfl, rfl⟩
      simp only [ofText?, shape, htake, hdrop, hbytes]
      by_cases hcount : value number < Text.wordLimit
      · have hread : Text.natural? Text.wordLimit number = some (value number) :=
          Text.natural?_eq_some_iff.2 ⟨hne, hdigits, rfl, hcount⟩
        simp only [hread, hcount, true_and]
      · have hnone : Text.natural? Text.wordLimit number = none := by
          rw [Option.eq_none_iff_forall_ne_some]
          rintro _ hread
          obtain ⟨-, -, rfl, hlt⟩ := Text.natural?_eq_some_iff.1 hread
          exact hcount hlt
        rw [hnone, if_neg fun h => hcount h.1]

/-- What the reader accepts is the grammar. -/
theorem ofText?_eq_some_iff {s : String} {size : Nat} :
    ofText? s = some size ↔ Spells s size := by
  refine ⟨spells_of_ofText?, ?_⟩
  rintro ⟨number, power, hspelling, hcount, rfl, hlt⟩
  rw [hspelling.ofText?_eq, if_pos ⟨hcount, hlt⟩]

/-! ### Writing -/

/-- A written size is a count of one of the units. -/
theorem exists_text_eq (n : Nat) : ∃ u ∈ units, ∃ count,
    text n = String.ofList (Text.digits count ++ u.1.toList) ∧ count * 1024 ^ u.2 = n := by
  have hcancel {unit : Nat} (h : (decide (0 < n) && n % unit == 0) = true) :
      n / unit * unit = n := by
    rw [Bool.and_eq_true, beq_iff_eq] at h
    exact Nat.div_mul_cancel (Nat.dvd_of_mod_eq_zero h.2)
  unfold text
  split_ifs with hg hm hk
  · exact ⟨("g", 3), by decide, n / gibibyte, rfl, hcancel hg⟩
  · exact ⟨("m", 2), by decide, n / mebibyte, rfl, hcancel hm⟩
  · exact ⟨("k", 1), by decide, n / kibibyte, rfl, hcancel hk⟩
  · exact ⟨("b", 0), by decide, n, rfl, Nat.mul_one n⟩

/-- A written size is spelled by the grammar: it has no blanks and no capitals,
    and its count is at most the size. -/
theorem spells_text {n : Nat} (h : n < Text.wordLimit) : Spells (text n) n := by
  obtain ⟨u, hu, count, htext, hn⟩ := exists_text_eq n
  have hchars := units_chars u hu
  have hblank : ∀ c ∈ Text.digits count ++ u.1.toList, Text.isBlank c = false := by
    intro c hc
    rcases List.mem_append.1 hc with hdigit | hname
    · exact Text.isBlank_eq_false_of_isDigit (Text.isDigit_of_mem_digits hdigit)
    · exact (hchars c hname).1
  have hlower : ∀ c ∈ Text.digits count ++ u.1.toList, lower c = id c := by
    intro c hc
    rcases List.mem_append.1 hc with hdigit | hname
    · exact lower_of_isDigit (Text.isDigit_of_mem_digits hdigit)
    · exact (hchars c hname).2.2
  have hcount : count ≤ n := hn ▸ Nat.le_mul_of_pos_right count (Nat.pow_pos (by decide))
  have hvalue : value (Text.digits count) = count := Nat.ofDigitChars_ten_toDigits
  have hshape : (Text.trim (text n).toList).map lower =
      Text.digits count ++ ([] ++ u.1.toList) := by
    rw [htext, String.toList_ofList, Text.trim_eq_self hblank, List.map_congr_left hlower,
      List.map_id, List.nil_append]
  have hspelling : Spelling (text n) (Text.digits count) u.2 :=
    .intro hshape (Text.digits_ne_nil count) (fun _ => Text.isDigit_of_mem_digits)
      (List.forall_mem_nil _) hu
  exact ⟨_, _, hspelling, by rw [hvalue]; exact hcount.trans_lt h, by rw [hvalue, hn], h⟩

/-- A written size below two to the 64th reads back. -/
theorem ofText?_text {n : Nat} (h : n < Text.wordLimit) : ofText? (text n) = some n :=
  ofText?_eq_some_iff.2 (spells_text h)

/-- Every size of 64 bits reads back as it was written. A text is read as a size
    if and only if the grammar spells that size. Every other text has no reading,
    be it that it has no spelling or that its count or its size is too large. -/
theorem size_text_codec :
    (∀ n < Text.wordLimit, ofText? (text n) = some n) ∧
    (∀ s size, ofText? s = some size ↔ Spells s size) ∧
    (∀ s, (∀ number power, ¬Spelling s number power) → ofText? s = none) ∧
    ∀ s number power, Spelling s number power →
      Text.wordLimit ≤ value number * 1024 ^ power → ofText? s = none := by
  refine ⟨fun n => ofText?_text, fun s size => ofText?_eq_some_iff, fun s hnone => ?_,
    fun s number power hspelling hlarge => ?_⟩
  · rw [Option.eq_none_iff_forall_ne_some]
    intro size hread
    obtain ⟨number, power, hspelling, -⟩ := spells_of_ofText? hread
    exact hnone number power hspelling
  · rw [hspelling.ofText?_eq, if_neg fun h => hlarge.not_gt h.2]

/-- Half a gibibyte more than one is written in mebibytes, and a capital unit
    behind a blank reads the same. A tebibyte too many is no size. -/
theorem size_text_codec_mebibytes :
    ofText? (text 1610612736) = some 1610612736 ∧ ofText? " 1536 MB" = some 1610612736 ∧
      ofText? "16777216 t" = none := by
  have hmebi : Spelling " 1536 MB" ['1', '5', '3', '6'] 2 :=
    @Spelling.intro _ _ _ [' '] "mb" (by decide +kernel) (by decide)
      (List.all_eq_true.1 (by decide)) (List.all_eq_true.1 (by decide)) (by decide)
  have htebi : Spelling "16777216 t" ['1', '6', '7', '7', '7', '2', '1', '6'] 4 :=
    @Spelling.intro _ _ _ [' '] "t" (by decide +kernel) (by decide)
      (List.all_eq_true.1 (by decide)) (List.all_eq_true.1 (by decide)) (by decide)
  exact ⟨size_text_codec.1 _ (by decide),
    (size_text_codec.2.1 _ _).2 ⟨_, _, hmebi, by decide, by decide, by decide⟩,
    size_text_codec.2.2.2 _ _ _ htebi (by decide)⟩

end MemorySize

end Rescale
