import Rescale.Json.Printer
import Rescale.Json.Reader
import Rescale.Proofs.Decimal.Spelling
import Rescale.Proofs.Text.Reader

/-!
# Written Numbers and Strings

Numbers and strings of a JSON document are read as they were written.

A number has no mark of its own at the end. It is read as far as it can be, so it is
read right only if what is behind it cannot go on with it, and behind a value of a
document stands a comma or a closing bracket. A string has such a mark, and every
character in it that could be taken for the mark, or for an escape, is escaped. It is
read as units of sixteen bits first, because an escape can spell half a character.
Writing never does that: a character is no half.

## Main definitions

* `Follows`: What can stand behind a value.

## Theorems

* `numeral_text`: A numeral that follows the rules is read as it is spelled.
* `codeUnits_escaped`: A character is read as its unit, escaped or not.
* `decodeUnits?_map`: Units that are characters are decoded one by one.
* `stringBody_escaped`: A written string is read as the string.
-/

namespace Rescale

namespace Json

open Decimal (Numeral)
open Text

/-! ### Numbers -/

/-- Nothing stands behind a value, or a mark that ends it. -/
def Follows (rest : List Char) : Prop := ∀ c ∈ rest.head?, c ∈ [',', ']', '\x7d']

theorem Follows.stops {rest : List Char} (h : Follows rest) {p : Char → Bool}
    (hp : [',', ']', '\x7d'].any p = false) : Stops p rest :=
  fun c hc => Bool.eq_false_iff.2 (List.any_eq_false.1 hp c (h c hc))

/-- No space is passed over where there is none. -/
theorem space_of_stops {cs : List Char} (h : Stops isSpace cs) : space cs = some ((), cs) :=
  Reader.skipWhile_of_stops h

theorem digitRun_append {run rest : List Char} (hne : run ≠ [])
    (hrun : ∀ c ∈ run, isDigit c = true) (hrest : Stops isDigit rest) :
    digitRun (run ++ rest) = some (run, rest) :=
  Reader.takeWhile1_append hne hrun hrest

theorem stops_of_digits {run rest : List Char} {c : Char} (hne : run ≠ [])
    (hrun : ∀ c ∈ run, isDigit c = true) (hc : isDigit c = false) :
    Stops (· == c) (run ++ rest) := by
  obtain ⟨d, ds, rfl⟩ := List.exists_cons_of_ne_nil hne
  refine stops_cons ?_ _
  rw [beq_eq_false_iff_ne]
  rintro rfl
  rw [hrun d List.mem_cons_self] at hc
  cases hc

/-- A sign is read, and none where there is none. -/
theorem accept_sign {run : List Char} (hne : run ≠ []) (hrun : ∀ c ∈ run, isDigit c = true)
    (negative : Bool) (rest : List Char) :
    Reader.accept (Reader.char '-') ((if negative then ['-'] else []) ++ (run ++ rest)) =
      some (negative, run ++ rest) := by
  cases negative with
  | true => exact Reader.accept_of_eq (Reader.char_cons '-' _)
  | false =>
      change Reader.accept (Reader.char '-') (run ++ rest) = some (false, run ++ rest)
      exact Reader.accept_of_none (Reader.char_of_stops (stops_of_digits hne hrun rfl))

theorem exponent_intText (p : Int) {rest : List Char} (h : Follows rest) :
    exponent (Numeral.intText p ++ rest) = some (p, rest) := by
  have hne : digits p.natAbs ≠ [] := digits_ne_nil _
  have hdigits : ∀ c ∈ digits p.natAbs, isDigit c = true := fun _ => isDigit_of_mem_digits
  have hsign := accept_sign hne hdigits (decide (p < 0)) rest
  have hrun := digitRun_append hne hdigits (h.stops rfl)
  have hplus : Reader.optional (Reader.char '+') (digits p.natAbs ++ rest) =
      some (none, digits p.natAbs ++ rest) :=
    Reader.optional_of_none (Reader.char_of_stops (stops_of_digits hne hdigits rfl))
  have hvalue : Nat.ofDigitChars 10 (digits p.natAbs) 0 = p.natAbs := Nat.ofDigitChars_ten_toDigits
  simp only [decide_eq_true_eq] at hsign
  unfold exponent
  simp only [Numeral.intText, List.append_assoc]
  simp only [Reader.bind_of_eq hsign]
  by_cases hneg : p < 0
  · simp only [hneg, decide_true, Bool.not_true, Bool.false_eq_true, if_false,
      Reader.bind_of_eq hrun, hvalue, if_true, Reader.pure_apply]
    rw [Int.ofNat_natAbs_of_nonpos hneg.le, Int.neg_neg]
  · simp only [hneg, decide_false, Bool.not_false, Bool.false_eq_true, if_false, if_true,
      Reader.bind_of_eq hplus, Reader.bind_of_eq hrun, hvalue, Reader.pure_apply]
    rw [Int.natAbs_of_nonneg (Int.not_lt.1 hneg)]

theorem fractionPart_text {fraction rest : List Char} (hdigits : ∀ c ∈ fraction, isDigit c = true)
    (hdigit : Stops isDigit rest) (hpoint : Stops (· == '.') rest) :
    fractionPart (Numeral.fractionText fraction ++ rest) =
      some (fraction, rest) := by
  cases fraction with
  | nil => exact Reader.bind_of_eq (Reader.accept_of_none (Reader.char_of_stops hpoint)) _
  | cons d ds =>
      have hrun := digitRun_append (List.cons_ne_nil d ds) hdigits hdigit
      exact (Reader.bind_of_eq (Reader.accept_of_eq (Reader.char_cons '.' _)) _).trans hrun

theorem powerPart_text (power : Option Int) {rest : List Char} (h : Follows rest) :
    powerPart (Numeral.powerText power ++ rest) =
      some (power, rest) := by
  cases power with
  | none =>
      have hmark : Stops (fun c => c == 'e' || c == 'E') rest := h.stops rfl
      exact Reader.bind_of_eq (Reader.accept_of_none (Reader.one_of_stops hmark)) _
  | some p =>
      have hmark : Reader.one (fun c => c == 'e' || c == 'E') ('e' :: (Numeral.intText p ++ rest)) =
          some ('e', Numeral.intText p ++ rest) := Reader.one_cons rfl _
      exact (Reader.bind_of_eq (Reader.accept_of_eq hmark) _).trans
        (Reader.map_of_eq (exponent_intText p h) some)

/-- A numeral that follows the rules is read as it is spelled. -/
theorem numeral_text {n : Numeral} (hn : n.Spelled) {rest : List Char} (h : Follows rest) :
    numeral (n.text ++ rest) = some (n, rest) := by
  obtain ⟨power, hpower⟩ : ∃ power, power = Numeral.powerText n.power ++ rest := ⟨_, rfl⟩
  have hmark : ∀ {p : Char → Bool}, p 'e' = false → [',', ']', '\x7d'].any p = false →
      Stops p power := by
    intro p he hp
    rw [hpower]
    cases n.power with
    | none => exact h.stops hp
    | some k => exact stops_cons he _
  have hpoint : Stops isDigit (Numeral.fractionText n.fraction ++ power) := by
    rw [Numeral.fractionText]
    split
    · exact hmark rfl rfl
    · exact stops_cons rfl _
  have hzeros : ¬(n.whole.head? == some '0' && decide (1 < n.whole.length)) = true := by
    rw [Bool.and_eq_true, beq_iff_eq, decide_eq_true_eq]
    rintro ⟨hhead, hlong⟩
    rw [hn.noZeros hhead] at hlong
    exact absurd hlong (by decide)
  have hfraction := fractionPart_text hn.fraction (hmark rfl rfl) (hmark rfl rfl)
  rw [numeral, Numeral.text, List.append_assoc, List.append_assoc, List.append_assoc, ← hpower,
    Reader.bind_of_eq (accept_sign hn.ne_nil hn.whole n.negative _),
    Reader.bind_of_eq (digitRun_append hn.ne_nil hn.whole hpoint)]
  simp only [if_neg hzeros]
  rw [Reader.bind_of_eq hfraction, hpower, Reader.bind_of_eq (powerPart_text n.power h)]
  rfl

/-! ### Strings -/

theorem codeUnit?_hexPair :
    ∀ n < 32, ∃ a b, hexPair n = [a, b] ∧ codeUnit? '0' '0' a b = some n := by
  intro n hn
  refine ⟨_, _, rfl, ?_⟩
  revert n
  decide

theorem codeUnits_plain {c : Char} (hquote : c ≠ '"') (hslash : c ≠ '\\')
    (hprint : ¬c.toNat < 0x20) (rest : List Char) :
    codeUnits (c :: rest) = (codeUnits rest).map fun p => (c.toNat :: p.1, p.2) := by
  rw [codeUnits]
  · rw [beq_false_of_ne hslash, decide_eq_false hprint]
    cases codeUnits rest <;> rfl
  · exact hquote
  · exact fun _ _ _ _ _ h => absurd h hslash
  · exact fun _ _ h => absurd h hslash

theorem codeUnits_escape {c : Char} {unit : Nat} (hc : c ≠ 'u') (hunit : escape? c = some unit)
    (rest : List Char) :
    codeUnits ('\\' :: c :: rest) = (codeUnits rest).map fun p => (unit :: p.1, p.2) := by
  rw [codeUnits]
  · rw [hunit]
    cases codeUnits rest <;> rfl
  · exact fun _ _ _ _ _ h => absurd h hc

theorem codeUnits_unicode {a b c d : Char} {unit : Nat} (hunit : codeUnit? a b c d = some unit)
    (rest : List Char) :
    codeUnits ('\\' :: 'u' :: a :: b :: c :: d :: rest) =
      (codeUnits rest).map fun p => (unit :: p.1, p.2) := by
  rw [codeUnits, hunit]
  cases codeUnits rest <;> rfl

/-- A character is read as its unit, escaped or not. -/
theorem codeUnits_escaped (c : Char) (rest : List Char) :
    codeUnits (escaped c ++ rest) = (codeUnits rest).map fun p => (c.toNat :: p.1, p.2) := by
  unfold escaped
  split
  · next h =>
    rw [Bool.or_eq_true, beq_iff_eq, beq_iff_eq] at h
    rcases h with rfl | rfl
    · exact codeUnits_escape (by decide) rfl rest
    · exact codeUnits_escape (by decide) rfl rest
  next hmark =>
  -- Five control characters have a letter of their own.
  iterate 5
    split
    · next h =>
      rw [beq_iff_eq] at h
      rw [h]
      exact codeUnits_escape (by decide) rfl rest
  split
  · next h =>
    obtain ⟨a, b, hpair, hunit⟩ := codeUnit?_hexPair c.toNat h
    rw [hpair]
    exact codeUnits_unicode hunit rest
  · next h =>
    rw [Bool.or_eq_true, beq_iff_eq, beq_iff_eq, not_or] at hmark
    exact codeUnits_plain hmark.1 hmark.2 h rest

/-- The units of a written string are those of its characters. By induction on them. -/
theorem codeUnits_flatMap (cs rest : List Char) :
    codeUnits (cs.flatMap escaped ++ '"' :: rest) = some (cs.map Char.toNat, rest) := by
  induction cs with
  | nil => rw [List.flatMap_nil, List.nil_append, codeUnits]; rfl
  | cons c cs ih => rw [List.flatMap_cons, List.append_assoc, codeUnits_escaped, ih]; rfl

/-- No character is half of a pair. -/
theorem not_half (c : Char) : isHighHalf c.toNat = false ∧ isLowHalf c.toNat = false := by
  have hvalid : c.toNat < 0xD800 ∨ 0xDFFF < c.toNat := by
    rcases c.valid with h | h
    · exact Or.inl h
    · exact Or.inr h.1
  simp only [isHighHalf, isLowHalf, Bool.and_eq_false_iff, decide_eq_false_iff_not]
  omega

/-- Units that are characters are decoded one by one. By induction on them, with a
    look at the next one. -/
theorem decodeUnits?_map (cs : List Char) : decodeUnits? (cs.map Char.toNat) = some cs := by
  induction cs with
  | nil => rfl
  | cons c cs ih =>
      obtain ⟨hhigh, hlow⟩ := not_half c
      cases cs with
      | nil =>
          rw [List.map_cons, List.map_nil, decodeUnits?, hhigh, hlow, Char.ofNat_toNat]
          rfl
      | cons d ds =>
          rw [List.map_cons] at ih
          rw [List.map_cons, List.map_cons, decodeUnits?, hhigh, hlow, ih, Char.ofNat_toNat]
          rfl

/-- A written string is read as the string. -/
theorem stringBody_escaped (s : String) (rest : List Char) :
    stringBody (s.toList.flatMap escaped ++ '"' :: rest) = some (some s, rest) := by
  rw [stringBody, Reader.bind_of_eq (codeUnits_flatMap s.toList rest), decodeUnits?_map,
    Option.map_some, String.ofList_toList]
  rfl

end Json

end Rescale
