import Mathlib.Data.List.DropRight
import Rescale.Text.Blank
import Rescale.Text.Digits

/-!
# Trimmed Texts

What is left of a text once the blanks around it are gone.

A text is trimmed if trimming leaves it alone, and that only depends on its two
ends. So a trimmed text stays one when its characters are replaced by others of
the same kind, and so does every end piece of it, as far as the end is
concerned. That is all a reader needs which trims, cuts a word off in front and
trims the rest again: the second time no blank is found behind.

## Theorems

* `trim_append`, `trim_append_right`: Blanks in front and behind do not count.
* `trim_eq_self`: A text without blanks is trimmed.
* `trimEnd_trim`: What is trimmed ends without a blank.
* `trimEnd_map`: Replacing characters by others of their kind changes no end.
* `trimEnd_eq_self_of_suffix`: An end piece ends as the whole does.
* `eq_blanks_append_trim`: Where the end has no blank, the rest is in front.
* `trimStart_eq_self_of_prefix`, `eq_trim_append_blanks`: The same for the other
  end.
-/

namespace Rescale

namespace Text

theorem trimEnd_eq_self_iff {cs : List Char} :
    trimEnd cs = cs ↔ ∀ h : cs ≠ [], ¬isBlank (cs.getLast h) = true :=
  List.rdropWhile_eq_self_iff

/-- A text without blanks is trimmed. -/
theorem trim_eq_self {cs : List Char} (h : ∀ c ∈ cs, isBlank c = false) : trim cs = cs := by
  have hstart : trimStart cs = cs :=
    List.dropWhile_eq_self_iff.2 fun hl => Bool.eq_false_iff.1 (h _ (List.getElem_mem hl))
  rw [trim, hstart, trimEnd_eq_self_iff]
  exact fun hne => Bool.eq_false_iff.1 (h _ (List.getLast_mem hne))

/-- Blanks in front do not count. -/
theorem trim_append {blanks : List Char} (h : ∀ c ∈ blanks, isBlank c = true) (cs : List Char) :
    trim (blanks ++ cs) = trim cs := by
  rw [trim, trim, trimStart, trimStart, List.dropWhile_append_of_pos h]

/-- What is trimmed ends without a blank. -/
theorem trimEnd_trim (cs : List Char) : trimEnd (trim cs) = trim cs :=
  List.rdropWhile_idempotent isBlank (trimStart cs)

/-- Replacing characters by others of their kind changes no end. -/
theorem trimEnd_map {f : Char → Char} (hf : ∀ c, isBlank (f c) = isBlank c) (cs : List Char) :
    trimEnd (cs.map f) = (trimEnd cs).map f := by
  have hcomp : isBlank ∘ f = isBlank := funext hf
  rw [trimEnd, trimEnd, ← List.map_reverse, List.dropWhile_map, hcomp, List.map_reverse]

/-- An end piece ends as the whole does. -/
theorem trimEnd_eq_self_of_suffix {piece cs : List Char} (hpiece : piece <:+ cs)
    (h : trimEnd cs = cs) : trimEnd piece = piece := by
  rcases hpiece with ⟨front, rfl⟩
  refine trimEnd_eq_self_iff.2 fun hne => ?_
  have hlast := trimEnd_eq_self_iff.1 h (List.append_ne_nil_of_right_ne_nil front hne)
  rwa [List.getLast_append_of_ne_nil _ hne] at hlast

/-- Where the end has no blank, what trimming drops is in front. -/
theorem eq_blanks_append_trim {cs : List Char} (h : trimEnd cs = cs) :
    cs = cs.takeWhile isBlank ++ trim cs := by
  have htrim : trim cs = trimStart cs := trimEnd_eq_self_of_suffix (List.dropWhile_suffix _) h
  rw [htrim, trimStart, List.takeWhile_append_dropWhile]

/-- Blanks behind do not count. -/
theorem trimEnd_append {blanks : List Char} (h : ∀ c ∈ blanks, isBlank c = true)
    (cs : List Char) : trimEnd (cs ++ blanks) = trimEnd cs := by
  have hreverse : ∀ c ∈ blanks.reverse, isBlank c = true := fun c hc => h c (List.mem_reverse.1 hc)
  rw [trimEnd, trimEnd, List.reverse_append, List.dropWhile_append_of_pos hreverse]

/-- Blanks behind do not count, whatever stands in front of them. -/
theorem trim_append_right {blanks : List Char} (h : ∀ c ∈ blanks, isBlank c = true)
    (cs : List Char) : trim (cs ++ blanks) = trim cs := by
  rw [trim, trim, trimStart, trimStart, List.dropWhile_append]
  split
  case isTrue hempty =>
    rw [List.isEmpty_iff.1 hempty, List.dropWhile_eq_nil_iff.2 h]
  case isFalse => exact trimEnd_append h _

theorem trimEnd_isPrefix (cs : List Char) : trimEnd cs <+: cs := List.rdropWhile_prefix isBlank cs

/-- A front piece begins as the whole does. -/
theorem trimStart_eq_self_of_prefix {piece cs : List Char} (hpiece : piece <+: cs)
    (h : trimStart cs = cs) : trimStart piece = piece := by
  rcases hpiece with ⟨back, rfl⟩
  cases piece with
  | nil => rfl
  | cons c piece =>
      refine List.dropWhile_cons_of_neg fun hblank => ?_
      -- A blank in front of the piece is one in front of the whole.
      exact List.dropWhile_eq_self_iff.1 h (Nat.succ_pos _) hblank

/-- What is trimmed begins without a blank. -/
theorem trimStart_trim (cs : List Char) : trimStart (trim cs) = trim cs :=
  trimStart_eq_self_of_prefix (trimEnd_isPrefix _) (List.dropWhile_idempotent isBlank cs)

/-- Where the beginning has no blank, what trimming drops is behind. -/
theorem eq_trim_append_blanks {cs : List Char} (h : trimStart cs = cs) :
    ∃ blanks, (∀ c ∈ blanks, isBlank c = true) ∧ cs = trim cs ++ blanks := by
  refine ⟨(cs.reverse.takeWhile isBlank).reverse, ?_, ?_⟩
  · intro c hc
    exact List.mem_takeWhile_imp (List.mem_reverse.1 hc)
  · rw [trim, h, trimEnd, ← List.reverse_append, List.takeWhile_append_dropWhile,
      List.reverse_reverse]

theorem toNat_of_isDigit {c : Char} (h : isDigit c = true) : 48 ≤ c.toNat ∧ c.toNat ≤ 57 := by
  simp only [isDigit, Bool.and_eq_true, decide_eq_true_eq, Char.le_def,
    UInt32.le_iff_toNat_le] at h
  exact h

theorem isBlank_eq_false_of_isDigit {c : Char} (h : isDigit c = true) : isBlank c = false := by
  have hrange := toNat_of_isDigit h
  rw [← Bool.not_eq_true]
  simp only [isBlank, Bool.or_eq_true, Bool.and_eq_true, decide_eq_true_eq, beq_iff_eq]
  omega

end Text

end Rescale
