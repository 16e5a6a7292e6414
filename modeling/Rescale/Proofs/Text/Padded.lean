import Mathlib.Algebra.Group.Nat.Defs
import Mathlib.Data.String.Basic
import Rescale.Text.Digits

/-!
# Padded Numbers

Numbers with zeros in front.

The zeros change neither what the characters are nor what they are worth, so a
padded number reads as the number it pads, and two of them are equal only if
their numbers are. What they change is the length: as long as a number has room
in the width, its text has exactly that width. Among texts of one length the place
that decides which comes first is also the place that decides which number is
smaller. So padded numbers are listed in the order of the numbers, and that is
what they are padded for.

## Theorems

* `mul_pow_le_ofDigitChars`, `ofDigitChars_lt`: What digits behind others add.
* `ofDigitChars_lt_of_lt`: Digits of one length are ordered as their numbers.
* `isDigit_of_mem_padded`: A padded number consists of digits.
* `length_padded`: A number that has room is as long as the width.
* `ofDigitChars_padded`: Zeros in front do not change a number.
* `padded_lt_padded_iff`: Numbers that have room are ordered as their texts.
* `natural?_padded`: A padded number below the bound reads back.
-/

namespace Rescale

namespace Text

/-! ### Digits -/

/-- Any further digits make a number larger. -/
theorem mul_pow_le_ofDigitChars (significand : Nat) (ds : List Char) :
    significand * 10 ^ ds.length ≤ Nat.ofDigitChars 10 ds significand := by
  rw [Nat.ofDigitChars_eq_ofDigitChars_zero, Nat.mul_comm]
  exact Nat.le_add_right _ _

/-- Digits make a number with as many places. By induction on the digits, with
    those that are there already. -/
theorem ofDigitChars_lt {ds : List Char} (h : ∀ c ∈ ds, c.isDigit = true) (significand : Nat) :
    Nat.ofDigitChars 10 ds significand < (significand + 1) * 10 ^ ds.length := by
  induction ds generalizing significand with
  | nil =>
      rw [Nat.ofDigitChars_nil, List.length_nil, pow_zero, Nat.mul_one]
      exact Nat.lt_succ_self _
  | cons c rest ih =>
      rcases List.forall_mem_cons.1 h with ⟨hc, hrest⟩
      have hdigit : c.toNat - '0'.toNat ≤ 9 := by
        have hrange : 48 ≤ c.toNat ∧ c.toNat ≤ 57 := Char.isDigit_iff_toNat.1 hc
        change c.toNat - 48 ≤ 9
        omega
      rw [Nat.ofDigitChars_cons, List.length_cons, pow_succ, Nat.mul_comm (10 ^ rest.length),
        ← Nat.mul_assoc]
      exact (ih hrest _).trans_le (Nat.mul_le_mul_right _ (by omega))

/-- Digits of one length are ordered as their numbers. By the first place where
    they differ, with the digits that are there already. -/
theorem ofDigitChars_lt_of_lt {cs ds : List Char} (h : cs < ds) (hlength : cs.length = ds.length)
    (hcs : ∀ c ∈ cs, c.isDigit = true) (hds : ∀ d ∈ ds, d.isDigit = true) (significand : Nat) :
    Nat.ofDigitChars 10 cs significand < Nat.ofDigitChars 10 ds significand := by
  induction h generalizing significand with
  | nil => cases hlength
  | @rel c cs d ds hlt =>
      rcases List.forall_mem_cons.1 hcs with ⟨hc, hcs⟩
      rw [List.length_cons, List.length_cons, Nat.add_right_cancel_iff] at hlength
      have hdigit : c.toNat - '0'.toNat + 1 ≤ d.toNat - '0'.toNat := by
        have hrange : 48 ≤ c.toNat ∧ c.toNat ≤ 57 := Char.isDigit_iff_toNat.1 hc
        have hbelow : c.toNat < d.toNat := hlt
        change c.toNat - 48 + 1 ≤ d.toNat - 48
        omega
      -- What follows the smaller digit does not make up for it.
      rw [Nat.ofDigitChars_cons, Nat.ofDigitChars_cons]
      calc Nat.ofDigitChars 10 cs (10 * significand + (c.toNat - '0'.toNat))
          < (10 * significand + (c.toNat - '0'.toNat) + 1) * 10 ^ cs.length :=
            ofDigitChars_lt hcs _
        _ ≤ (10 * significand + (d.toNat - '0'.toNat)) * 10 ^ ds.length := by
            rw [hlength]
            exact Nat.mul_le_mul_right _ (by omega)
        _ ≤ Nat.ofDigitChars 10 ds (10 * significand + (d.toNat - '0'.toNat)) :=
            mul_pow_le_ofDigitChars _ _
  | cons _ ih =>
      rw [Nat.ofDigitChars_cons, Nat.ofDigitChars_cons]
      exact ih (Nat.succ.inj hlength) (List.forall_mem_cons.1 hcs).2
        (List.forall_mem_cons.1 hds).2 _

/-! ### Numbers with zeros in front -/

theorem isDigit_of_mem_padded {width n : Nat} {c : Char} (h : c ∈ padded width n) :
    isDigit c = true := by
  rcases List.mem_append.1 h with hzero | hdigit
  · rw [List.eq_of_mem_replicate hzero]
    rfl
  · exact isDigit_of_mem_digits hdigit

theorem colon_notMem_padded (width n : Nat) : ':' ∉ padded width n := by
  intro h
  have hdigit := isDigit_of_mem_padded h
  exact absurd hdigit (by decide)

theorem padded_ne_nil (width n : Nat) : padded width n ≠ [] :=
  List.append_ne_nil_of_right_ne_nil _ (digits_ne_nil n)

/-- A number that has room in the width takes all of it. -/
theorem length_padded {width n : Nat} (hwidth : 0 < width) (h : n < 10 ^ width) :
    (padded width n).length = width := by
  have hdigits : (digits n).length ≤ width := (Nat.length_toDigits_le_iff (by decide) hwidth).2 h
  rw [padded, List.length_append, List.length_replicate, Nat.sub_add_cancel hdigits]

/-- Zeros in front do not change a number. -/
theorem ofDigitChars_padded (width n : Nat) : Nat.ofDigitChars 10 (padded width n) 0 = n := by
  have hzeros : ∀ k, Nat.ofDigitChars 10 (List.replicate k '0') 0 = 0 := by
    intro k
    induction k with
    | zero => rfl
    | succ k ih => rw [List.replicate_succ, Nat.ofDigitChars_cons]; exact ih
  rw [padded, Nat.ofDigitChars_append, hzeros, digits, Nat.ofDigitChars_ten_toDigits]

theorem padded_inj {width m n : Nat} : padded width m = padded width n ↔ m = n := by
  refine ⟨fun h => ?_, fun h => congrArg _ h⟩
  rw [← ofDigitChars_padded width m, h, ofDigitChars_padded]

/-- Numbers that have room in the width are ordered as their texts. -/
theorem padded_lt_padded_iff {width m n : Nat} (hwidth : 0 < width) (hm : m < 10 ^ width)
    (hn : n < 10 ^ width) : padded width m < padded width n ↔ m < n := by
  have hdigits : ∀ k, ∀ c ∈ padded width k, c.isDigit = true := by
    intro k c hc
    have hdigit := isDigit_of_mem_padded hc
    simpa only [isDigit, Char.isDigit, Char.le_def, ge_iff_le] using hdigit
  have hlt : ∀ {m n}, m < 10 ^ width → n < 10 ^ width → padded width m < padded width n →
      m < n := by
    intro m n hm hn h
    have hlength : (padded width m).length = (padded width n).length := by
      rw [length_padded hwidth hm, length_padded hwidth hn]
    have hvalue := ofDigitChars_lt_of_lt h hlength (hdigits m) (hdigits n) 0
    rwa [ofDigitChars_padded, ofDigitChars_padded] at hvalue
  refine ⟨hlt hm hn, fun h => ?_⟩
  rcases lt_trichotomy (padded width m) (padded width n) with hbefore | hsame | hafter
  · exact hbefore
  · exact absurd (padded_inj.1 hsame) h.ne
  · exact absurd (hlt hn hm hafter) h.asymm

/-- A padded number below the bound reads back. -/
theorem natural?_padded {limit width n : Nat} (h : n < limit) :
    natural? limit (padded width n) = some n :=
  natural?_eq_some_iff.2 ⟨padded_ne_nil width n, fun _ => isDigit_of_mem_padded,
    ofDigitChars_padded width n, h⟩

end Text

end Rescale
