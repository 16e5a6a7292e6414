import Rescale.Proofs.Text.Trim
import Rescale.Time.Span

/-!
# Spellings of Spans

Which texts are spans, and that a text has one reading.

The reader looks at a text from behind: it takes off the first unit of a fixed
list that the text ends in, never comes back to another one, and asks the rest to
be a count, blanks aside. `Spelling` says without an order what is meant: a
count, blanks, a unit. Units overlap, since `ms` ends like `s` and begins like
`m`, so what has to be shown is that the reader never takes off the wrong one. It
does not because a count ends in a digit: the letters behind the last digit or
blank of a spelling are its whole unit. The only unit that ends in another one is
`ms`, and it is tried before `s`.

For the same reason a text has one spelling at most. A length whose seconds leave 64
bits is read as what it wraps around to, so the grammar gives the length of a text
only where its seconds fit.

## Main definitions

* `Text.IsCount`: A text is a count, with or without a sign.
* `Span.units`: The units and their milliseconds.
* `Span.Spelling`: A text is a count and a unit by the grammar.

## Theorems

* `Text.count?_eq_some_iff`: The reader of counts accepts counts below its bound.
* `ofReversed?_unit`: The reader takes off the unit that is there.
* `exists_of_ofReversed?`: What is read ends in a unit behind a count.
* `spelling_of_ofText?`, `Spelling.ofText?_eq`: What is read has a spelling, and
  what has a spelling is read.
* `ofText?_eq_some_iff`: What the reader accepts is the grammar, up to wrapping.
* `Spelling.cut`: Where a spelling cuts its text.
* `Spelling.unique`: A text has one spelling.
* `span_text_grammar`: Spans are read by the grammar, in one way.
-/

namespace Rescale

namespace Text

/-- The text is a count of the given value: a run of digits that is not empty, with
    or without a plus sign. -/
inductive IsCount : List Char → Nat → Prop
  | plain {number : List Char} (ne_nil : number ≠ [])
      (digits : ∀ c ∈ number, isDigit c = true) :
      IsCount number (Nat.ofDigitChars 10 number 0)
  | signed {number : List Char} (ne_nil : number ≠ [])
      (digits : ∀ c ∈ number, isDigit c = true) :
      IsCount ('+' :: number) (Nat.ofDigitChars 10 number 0)

theorem IsCount.ne_nil {cs : List Char} {n : Nat} (h : IsCount cs n) : cs ≠ [] := by
  cases h with
  | plain hne _ => exact hne
  | signed => exact List.cons_ne_nil _ _

/-- A count consists of digits, its sign apart. -/
theorem IsCount.mem {cs : List Char} {n : Nat} (h : IsCount cs n) :
    ∀ c ∈ cs, (isDigit c || c == '+') = true := by
  intro c hc
  cases h with
  | plain _ hdigits => rw [hdigits c hc, Bool.true_or]
  | signed _ hdigits =>
      rcases List.mem_cons.1 hc with rfl | hmem
      · rfl
      · rw [hdigits c hmem, Bool.true_or]

/-- A count ends in a digit. -/
theorem IsCount.getLast {cs : List Char} {n : Nat} (h : IsCount cs n) :
    isDigit (cs.getLast h.ne_nil) = true := by
  cases h with
  | plain hne hdigits => exact hdigits _ (List.getLast_mem hne)
  | signed hne hdigits =>
      rw [List.getLast_cons hne]
      exact hdigits _ (List.getLast_mem hne)

/-- With blanks behind it or not, a count ends in a digit or a blank. -/
theorem IsCount.last_of_blanks {cs blanks front : List Char} {n : Nat} {c : Char}
    (h : IsCount cs n) (hblanks : ∀ b ∈ blanks, isBlank b = true)
    (hend : cs ++ blanks = front ++ [c]) : isDigit c = true ∨ isBlank c = true := by
  rcases List.eq_nil_or_concat' blanks with rfl | ⟨back, b, rfl⟩
  · have hdigit := h.getLast
    rw [List.append_nil] at hend
    simp only [hend, List.getLast_concat] at hdigit
    exact Or.inl hdigit
  · rw [← List.append_assoc] at hend
    rw [← List.singleton_inj.1 (List.append_inj_right' hend rfl)]
    exact Or.inr (hblanks b (List.mem_append_right _ List.mem_cons_self))

/-- What a count consists of is no blank. -/
theorem isBlank_of_isNumeral {c : Char} (h : (isDigit c || c == '+') = true) :
    isBlank c = false := by
  rcases Bool.or_eq_true_iff.1 h with hdigit | hplus
  · exact isBlank_eq_false_of_isDigit hdigit
  · rw [beq_iff_eq.1 hplus]
    decide

/-- The reader of counts accepts what is a count below its bound. -/
theorem count?_eq_some_iff {limit : Nat} {cs : List Char} {n : Nat} :
    count? limit cs = some n ↔ IsCount cs n ∧ n < limit := by
  constructor
  · intro h
    unfold count? at h
    split at h
    all_goals
      obtain ⟨hne, hdigits, rfl, hlt⟩ := natural?_eq_some_iff.1 h
    · exact ⟨.signed hne hdigits, hlt⟩
    · exact ⟨.plain hne hdigits, hlt⟩
  · rintro ⟨hcount, hlt⟩
    cases hcount with
    | signed hne hdigits => exact natural?_eq_some_iff.2 ⟨hne, hdigits, rfl, hlt⟩
    | plain hne hdigits =>
        unfold count?
        split
        · exact absurd (hdigits '+' List.mem_cons_self) (by decide)
        · exact natural?_eq_some_iff.2 ⟨hne, hdigits, rfl, hlt⟩

/-- A text is a count of one value. -/
theorem IsCount.unique {cs : List Char} {m n : Nat} (hm : IsCount cs m) (hn : IsCount cs n) :
    m = n := by
  have hlimit : m < m + n + 1 ∧ n < m + n + 1 := by omega
  have hm' := count?_eq_some_iff.2 ⟨hm, hlimit.1⟩
  rw [count?_eq_some_iff.2 ⟨hn, hlimit.2⟩] at hm'
  exact (Option.some.inj hm').symm

/-- The digits of a number are a count of it. -/
theorem isCount_digits (n : Nat) : IsCount (digits n) n := by
  have hcount := IsCount.plain (digits_ne_nil n) fun _ => isDigit_of_mem_digits
  rwa [digits, Nat.ofDigitChars_ten_toDigits] at hcount

end Text

namespace Span

/-- The units, each with its milliseconds. A count without a unit is one of
    seconds. -/
def units : List (String × Nat) :=
  [("ms", 1), ("s", 1000), ("m", 60 * 1000), ("h", 3600 * 1000), ("", 1000)]

/-- The text `s`, trimmed, is a count of value `n`, optional blanks and the name of
    a unit. -/
inductive Spelling (s : String) (n : Nat) (u : String × Nat) : Prop
  | intro {number blanks : List Char}
      (shape : Text.trim s.toList = number ++ (blanks ++ u.1.toList))
      (count : Text.IsCount number n)
      (spaces : ∀ c ∈ blanks, Text.isBlank c = true)
      (unit : u ∈ units)

/-- The characters of units are no blanks and do not occur in counts. -/
theorem units_letters : ∀ u ∈ units, ∀ c ∈ u.1.toList,
    Text.isBlank c = false ∧ (Text.isDigit c || c == '+') = false := by
  have hall : (units.all fun u => u.1.toList.all fun c =>
      !Text.isBlank c && !(Text.isDigit c || c == '+')) = true := by decide
  intro u hu c hc
  have hletter := List.all_eq_true.1 (List.all_eq_true.1 hall u hu) c hc
  simpa only [Bool.and_eq_true, Bool.not_eq_true'] using hletter

theorem ofCount?_eq_some_iff {unit : Nat} {cs : List Char} {d : Span} :
    ofCount? unit cs = some d ↔
      ∃ n, Text.IsCount (Text.trim cs) n ∧ n < Text.wordLimit ∧ d = ⟨n * unit % limit⟩ := by
  rw [ofCount?, Option.map_eq_some_iff]
  refine exists_congr fun n => ?_
  rw [Text.count?_eq_some_iff, and_assoc, eq_comm (b := d)]

/-- The reader takes off the unit that is there, if what is in front of it does not
    end in a letter of a unit. -/
theorem ofReversed?_unit {u : String × Nat} (hu : u ∈ units) {back : List Char}
    (hback : ∀ c rest, back = c :: rest → c ≠ 'm' ∧ c ≠ 's' ∧ c ≠ 'h') :
    ofReversed? (u.1.toList.reverse ++ back) = ofCount? u.2 back.reverse := by
  simp only [units, List.mem_cons, List.not_mem_nil, or_false] at hu
  rcases hu with rfl | rfl | rfl | rfl | rfl
  · rfl
  · -- What is in front of the letter is not the other letter of `ms`.
    change ofReversed? ('s' :: back) = _
    unfold ofReversed?
    split
    case h_1 rest heq => exact absurd rfl (hback 'm' rest (List.cons_eq_cons.1 heq).2).1
    case h_2 rest _ heq => rw [(List.cons_eq_cons.1 heq).2]
    case h_3 rest heq => exact absurd (List.cons_eq_cons.1 heq).1 (by decide)
    case h_4 rest heq => exact absurd (List.cons_eq_cons.1 heq).1 (by decide)
    case h_5 hnone _ _ => exact absurd rfl (hnone back)
  · rfl
  · rfl
  · change ofReversed? back = _
    unfold ofReversed?
    split
    case h_1 rest => exact absurd rfl (hback _ _ rfl).2.1
    case h_2 rest _ => exact absurd rfl (hback _ _ rfl).2.1
    case h_3 rest => exact absurd rfl (hback _ _ rfl).1
    case h_4 rest => exact absurd rfl (hback _ _ rfl).2.2
    case h_5 => rfl

/-- What is read ends in a unit, behind what is read as a count. -/
theorem exists_of_ofReversed? {cs : List Char} {d : Span} (h : ofReversed? cs.reverse = some d) :
    ∃ u ∈ units, ∃ front, cs = front ++ u.1.toList ∧ ofCount? u.2 front = some d := by
  unfold ofReversed? at h
  split at h
  case h_1 rest heq =>
    exact ⟨("ms", 1), by decide, rest.reverse, by simpa using congrArg List.reverse heq, h⟩
  case h_2 rest _ heq =>
    exact ⟨("s", 1000), by decide, rest.reverse, by simpa using congrArg List.reverse heq, h⟩
  case h_3 rest heq =>
    exact ⟨("m", 60000), by decide, rest.reverse, by simpa using congrArg List.reverse heq, h⟩
  case h_4 rest heq =>
    exact ⟨("h", 3600000), by decide, rest.reverse, by simpa using congrArg List.reverse heq, h⟩
  case h_5 =>
    rw [List.reverse_reverse] at h
    exact ⟨("", 1000), by decide, cs, (List.append_nil cs).symm, h⟩

/-- What is read has a spelling. Neither the beginning of the text nor the end of
    its unit is a blank, so the blanks around the count all stand behind it. -/
theorem spelling_of_ofText? {s : String} {d : Span} (h : ofText? s = some d) :
    ∃ n u, Spelling s n u ∧ n < Text.wordLimit ∧ d = ⟨n * u.2 % limit⟩ := by
  rcases exists_of_ofReversed? h with ⟨u, hu, front, hfront, hcount⟩
  rcases ofCount?_eq_some_iff.1 hcount with ⟨n, hn, hlt, hd⟩
  have hstart : Text.trimStart front = front :=
    Text.trimStart_eq_self_of_prefix ⟨u.1.toList, hfront.symm⟩ (Text.trimStart_trim _)
  rcases Text.eq_trim_append_blanks hstart with ⟨blanks, hblanks, hsplit⟩
  refine ⟨n, u, .intro ?_ hn hblanks hu, hlt, hd⟩
  rw [hfront, ← List.append_assoc, ← hsplit]

/-- What is spelled is read unless its count is too large. A count ends in a digit,
    and so what stands in front of the unit ends in a digit or a blank. -/
theorem Spelling.ofText?_eq {s : String} {n : Nat} {u : String × Nat} (h : Spelling s n u)
    (hn : n < Text.wordLimit) : ofText? s = some ⟨n * u.2 % limit⟩ := by
  cases h with
  | @intro number blanks shape hcount hspaces hunit =>
      have hback : ∀ c rest, (number ++ blanks).reverse = c :: rest →
          c ≠ 'm' ∧ c ≠ 's' ∧ c ≠ 'h' := by
        intro c rest hrest
        have hend : number ++ blanks = rest.reverse ++ [c] := by
          rw [← List.reverse_reverse (number ++ blanks), hrest, List.reverse_cons]
        have hclass := hcount.last_of_blanks hspaces hend
        refine ⟨?_, ?_, ?_⟩ <;> rintro rfl <;> revert hclass <;> decide
      have htrim : Text.trim (number ++ blanks) = number := by
        rw [Text.trim_append_right hspaces]
        exact Text.trim_eq_self fun c hc => Text.isBlank_of_isNumeral (hcount.mem c hc)
      have hreverse : (Text.trim s.toList).reverse =
          u.1.toList.reverse ++ (number ++ blanks).reverse := by
        rw [shape, ← List.append_assoc, List.reverse_append]
      rw [ofText?, hreverse, ofReversed?_unit hunit hback, List.reverse_reverse]
      exact ofCount?_eq_some_iff.2 ⟨n, by rwa [htrim], hn, rfl⟩

/-- Where a spelling cuts its text. The count ends at the first character that
    cannot be in a count, and the blanks end at the first one that is no blank. -/
theorem Spelling.cut {s : String} {n : Nat} {u : String × Nat} (h : Spelling s n u) :
    Text.IsCount ((Text.trim s.toList).takeWhile fun c => Text.isDigit c || c == '+') n ∧
      (((Text.trim s.toList).dropWhile fun c => Text.isDigit c || c == '+').dropWhile
        Text.isBlank) = u.1.toList := by
  cases h with
  | @intro number blanks shape hcount hspaces hunit =>
      have hletters := units_letters u hunit
      have hrest : ∀ c ∈ blanks ++ u.1.toList, ¬(Text.isDigit c || c == '+') = true := by
        intro c hc hnumeral
        rcases List.mem_append.1 hc with hblank | hletter
        · have hnot := Text.isBlank_of_isNumeral hnumeral
          exact Bool.false_ne_true (hnot.symm.trans (hspaces c hblank))
        · exact Bool.false_ne_true ((hletters c hletter).2.symm.trans hnumeral)
      rw [shape, List.takeWhile_append_of_pos hcount.mem, List.dropWhile_append_of_pos hcount.mem,
        List.takeWhile_eq_nil_iff.2 fun hl => hrest _ (List.get_mem _ _), List.append_nil,
        List.dropWhile_eq_self_iff.2 fun hl => hrest _ (List.getElem_mem hl),
        List.dropWhile_append_of_pos hspaces]
      refine ⟨hcount, List.dropWhile_eq_self_iff.2 fun hl => ?_⟩
      exact Bool.eq_false_iff.1 (hletters _ (List.getElem_mem hl)).1

/-- A text has one spelling. -/
theorem Spelling.unique {s : String} {n n' : Nat} {u u' : String × Nat} (h : Spelling s n u)
    (h' : Spelling s n' u') : n = n' ∧ u = u' := by
  have htable : ∀ u ∈ units, ∀ u' ∈ units, u.1 = u'.1 → u = u' := by decide
  have hname : u.1 = u'.1 := String.toList_inj.1 (h.cut.2.symm.trans h'.cut.2)
  refine ⟨h.cut.1.unique h'.cut.1, ?_⟩
  cases h with
  | intro _ _ _ hunit =>
      cases h' with
      | intro _ _ _ hunit' => exact htable u hunit u' hunit' hname

/-- What the reader accepts is the grammar. -/
theorem ofText?_eq_some_iff {s : String} {d : Span} :
    ofText? s = some d ↔ ∃ n u, Spelling s n u ∧ n < Text.wordLimit ∧ d = ⟨n * u.2 % limit⟩ := by
  refine ⟨spelling_of_ofText?, ?_⟩
  rintro ⟨n, u, hspelling, hn, rfl⟩
  exact hspelling.ofText?_eq hn

/-- A count that is written with a unit is spelled by the grammar. -/
theorem spelling_digits (n : Nat) {u : String × Nat} (hu : u ∈ units) :
    Spelling (String.ofList (Text.digits n ++ u.1.toList)) n u := by
  have hblank : ∀ c ∈ Text.digits n ++ u.1.toList, Text.isBlank c = false := by
    intro c hc
    rcases List.mem_append.1 hc with hdigit | hletter
    · exact Text.isBlank_eq_false_of_isDigit (Text.isDigit_of_mem_digits hdigit)
    · exact (units_letters u hu c hletter).1
  have hshape : Text.trim (String.ofList (Text.digits n ++ u.1.toList)).toList =
      Text.digits n ++ ([] ++ u.1.toList) := by
    rw [String.toList_ofList, Text.trim_eq_self hblank, List.nil_append]
  exact .intro hshape (Text.isCount_digits n) (List.forall_mem_nil _) hu

/-- Spans are read by the grammar, and in one way. A text whose seconds fit 64 bits is
    read exactly if it has a spelling with a count of 64 bits, as so many of its unit;
    no text has another spelling; and every such count reads back with every unit it
    is written with. -/
theorem span_text_grammar :
    (∀ s d, (∀ n u, Spelling s n u → n * u.2 < limit) →
      (ofText? s = some d ↔ ∃ n u, Spelling s n u ∧ n < Text.wordLimit ∧ d = ⟨n * u.2⟩)) ∧
    (∀ s n n' u u', Spelling s n u → Spelling s n' u' → n = n' ∧ u = u') ∧
    ∀ n < Text.wordLimit, ∀ u ∈ units, n * u.2 < limit →
      ofText? (String.ofList (Text.digits n ++ u.1.toList)) = some ⟨n * u.2⟩ := by
  refine ⟨fun s d hfits => ?_, fun _ _ _ _ _ => Spelling.unique, fun n hn u hu hfits => ?_⟩
  · rw [ofText?_eq_some_iff]
    refine exists_congr fun n => exists_congr fun u => and_congr_right fun hspelling => ?_
    rw [Nat.mod_eq_of_lt (hfits n u hspelling)]
  · rw [(spelling_digits n hu).ofText?_eq hn, Nat.mod_eq_of_lt hfits]

/-- The unit of five milliseconds is not the `s` that it ends in, and a count of
    minutes is read as it is written. -/
theorem span_text_grammar_milliseconds :
    ofText? "+5 ms" = some ⟨5⟩ ∧ ¬Spelling "+5 ms" 5 ("s", 1000) ∧
      ofText? (String.ofList (Text.digits 90 ++ "m".toList)) = some ⟨5400000⟩ := by
  have hcount : Text.IsCount ['+', '5'] 5 :=
    .signed (List.cons_ne_nil _ _) (List.all_eq_true.1 (by decide))
  have hshape : Text.trim "+5 ms".toList = ['+', '5'] ++ ([' '] ++ "ms".toList) := by
    decide +kernel
  have hspelling : Spelling "+5 ms" 5 ("ms", 1) :=
    .intro hshape hcount (List.all_eq_true.1 (by decide)) (by decide)
  have hfits : ∀ n u, Spelling "+5 ms" n u → n * u.2 < limit := by
    intro n u h
    rcases h.unique hspelling with ⟨rfl, rfl⟩
    decide
  refine ⟨(span_text_grammar.1 _ _ hfits).2 ⟨5, _, hspelling, by decide, rfl⟩,
    fun hother => ?_, ?_⟩
  · exact absurd (span_text_grammar.2.1 _ _ _ _ _ hspelling hother).2 (by decide)
  · exact span_text_grammar.2.2 90 (by decide) ("m", 60000) (by decide) (by decide)

end Span

end Rescale
