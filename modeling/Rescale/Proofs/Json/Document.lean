import Rescale.Proofs.Json.Leaf

/-!
# Written Documents

A document that was written is read as the value it was written from.

The text of a value is followed by the rest of the text around it, so reading is
looked at with a rest behind it. The induction is on the value: an element of a list
is read wherever it stands, since a comma or the closing bracket is behind it. What
has to go down with the values is the depth to which they may nest. A document may
nest as deep as it is long, and inside a pair of brackets the text is shorter by
these two characters. So the depth is always enough for the text that is left, and
nothing has to be said about how deep a value nests.

Two kinds of values are not written to be read again: the text without a value, which
is written as null, and numerals that break the rules.

## Main definitions

* `Plain`: A value that is written to be read again.
* `memberText`: A member of an object as it is written.

## Theorems

* `listed_nil`, `listed_cons`: Lists are read element by element.
* `member_memberText`: A member is read as its name and its value.
* `valueUpTo_compactText`: The text of a value is read as the value.
* `ofText?_compact`: So is a document.
-/

namespace Rescale

namespace Json

open Decimal (Numeral)
open Text

/-- A value that is written to be read again: all of its parts are values, and the
    numbers follow the rules. -/
inductive Plain : Json → Prop
  | null : Plain null
  | bool (b : Bool) : Plain (bool b)
  | number {n : Numeral} (h : n.Spelled) : Plain (number n)
  | string (s : String) : Plain (string s)
  | array {items : List Json} (h : ∀ j ∈ items, Plain j) : Plain (array items)
  | object {members : List (String × Json)} (h : ∀ m ∈ members, Plain m.2) :
      Plain (object members)

/-! ### Texts of lists -/

/-- A member of an object as it is written. -/
def memberText (m : String × Json) : List Char := quoted m.1 ++ [':'] ++ compactText m.2

/-- The elements of a list stand with commas between them. -/
theorem compactItems_cons (j : Json) (rest : List Json) :
    compactItems (j :: rest) = compactText j ++ rest.flatMap fun i => ',' :: compactText i := by
  induction rest generalizing j with
  | nil => rw [compactItems, List.flatMap_nil, List.append_nil]
  | cons i rest ih =>
      rw [compactItems, ih, List.flatMap_cons]
      · simp only [List.append_assoc, List.cons_append, List.nil_append]
      · exact List.cons_ne_nil _ _

theorem compactMembers_cons (m : String × Json) (rest : List (String × Json)) :
    compactMembers (m :: rest) = memberText m ++ rest.flatMap fun n => ',' :: memberText n := by
  induction rest generalizing m with
  | nil => rw [compactMembers, List.flatMap_nil, List.append_nil]; rfl
  | cons n rest ih =>
      rw [compactMembers, ih, List.flatMap_cons]
      · simp only [memberText, List.append_assoc, List.cons_append, List.nil_append]
      · exact List.cons_ne_nil _ _

/-! ### Beginnings -/

/-- A numeral begins with a digit or a minus. -/
theorem exists_numeral_head {n : Numeral} (hn : n.Spelled) :
    ∃ c cs, n.text = c :: cs ∧ (c = '-' ∨ isDigit c = true) := by
  obtain ⟨d, ds, hwhole⟩ := List.exists_cons_of_ne_nil hn.ne_nil
  have hdigit : isDigit d = true := hn.whole d (hwhole ▸ List.mem_cons_self)
  rw [Numeral.text, hwhole]
  cases n.negative with
  | true => exact ⟨'-', _, rfl, Or.inl rfl⟩
  | false => exact ⟨d, _, rfl, Or.inr hdigit⟩

theorem isSpace_eq_false_of_isDigit {c : Char} (h : isDigit c = true) : isSpace c = false := by
  rw [← Bool.not_eq_true]
  intro hspace
  simp only [isSpace, Bool.or_eq_true, beq_iff_eq] at hspace
  rcases hspace with ((rfl | rfl) | rfl) | rfl
  · cases h
  · cases h
  · cases h
  · cases h

/-- The text of a value does not begin with a space, and not with a closing
    bracket. -/
theorem exists_text_head {j : Json} (hj : Plain j) :
    ∃ c cs, j.compactText = c :: cs ∧ isSpace c = false ∧ c ≠ ']' := by
  cases hj with
  | null => exact ⟨'n', _, rfl, rfl, by decide⟩
  | bool b =>
      cases b with
      | true => exact ⟨'t', _, rfl, rfl, by decide⟩
      | false => exact ⟨'f', _, rfl, rfl, by decide⟩
  | number h =>
      obtain ⟨c, cs, htext, hhead⟩ := exists_numeral_head h
      refine ⟨c, cs, htext, ?_, ?_⟩
      · rcases hhead with rfl | hdigit
        · rfl
        · exact isSpace_eq_false_of_isDigit hdigit
      · rintro rfl
        rcases hhead with h | h
        · cases h
        · cases h
  | string s => exact ⟨'"', _, rfl, rfl, by decide⟩
  | array h => exact ⟨'[', _, rfl, rfl, by decide⟩
  | object h => exact ⟨'\x7b', _, rfl, rfl, by decide⟩

theorem stops_compactText {j : Json} (hj : Plain j) (rest : List Char) :
    Stops isSpace (j.compactText ++ rest) ∧ Stops (· == ']') (j.compactText ++ rest) := by
  obtain ⟨c, cs, htext, hspace, hclose⟩ := exists_text_head hj
  rw [htext, List.cons_append]
  exact ⟨stops_cons hspace _, stops_beq_cons hclose _⟩

/-! ### Lists -/

section Listed

variable {α β : Type} {r : Reader α} {close : Char} {rest : List Char}

theorem listed_nil (hclose : isSpace close = false) :
    listed close r (close :: rest) = some ([], rest) := by
  rw [listed, Reader.bind_of_eq (space_of_stops (stops_cons hclose rest)),
    Reader.bind_of_eq (Reader.accept_of_eq (Reader.char_cons close rest))]
  rfl

/-- A list is read element by element, if each of them is read in front of a comma or
    the closing mark. -/
theorem listed_cons {piece : β → List Char} {g : β → α} {x : β} {xs : List β}
    (hclose : close ∈ [',', ']', '\x7d']) (hcomma : close ≠ ',')
    (hspace : ∀ behind, Stops isSpace (piece x ++ behind))
    (hfirst : ∀ behind, Stops (· == close) (piece x ++ behind))
    (hread : ∀ y ∈ x :: xs, ∀ behind, Follows behind →
      r (piece y ++ behind) = some (g y, behind)) :
    listed close r (piece x ++ xs.flatMap (fun z => ',' :: piece z) ++ close :: rest) =
      some ((x :: xs).map g, rest) := by
  have hseparated : Reader.separated (Reader.char ',') r
      (piece x ++ (xs.flatMap (fun z => ',' :: piece z) ++ close :: rest)) =
        some ((x :: xs).map g, close :: rest) := by
    refine Reader.separated_flatMap (stops_beq_cons hcomma rest)
      fun y hy behind => hread y hy _ ?_
    cases behind with
    | nil =>
        intro c hc
        obtain rfl : close = c := Option.some.inj hc
        exact hclose
    | cons z behind =>
        intro c hc
        obtain rfl : ',' = c := Option.some.inj hc
        exact List.mem_cons_self
  rw [List.append_assoc, listed, Reader.bind_of_eq (space_of_stops (hspace _)),
    Reader.bind_of_eq (Reader.accept_of_none (Reader.char_of_stops (hfirst _)))]
  simp only [Bool.false_eq_true, if_false]
  rw [Reader.bind_of_eq hseparated, Reader.bind_of_eq (Reader.char_cons close rest)]
  rfl

/-- A member is read as its name and its value. -/
theorem member_memberText {value : Reader Json} {m : String × Json}
    (hvalue : value (m.2.compactText ++ rest) = some (m.2, rest)) :
    member value (memberText m ++ rest) = some ((some m.1, m.2), rest) := by
  have hname := stringBody_escaped m.1 (':' :: (m.2.compactText ++ rest))
  have hquote : Stops isSpace ('"' :: (m.1.toList.flatMap escaped ++
      '"' :: ':' :: (m.2.compactText ++ rest))) := stops_cons rfl _
  have hcolon : Stops isSpace (':' :: (m.2.compactText ++ rest)) := stops_cons rfl _
  simp only [memberText, quoted, List.append_assoc, List.cons_append, List.nil_append]
  rw [member, Reader.bind_of_eq (space_of_stops hquote),
    Reader.bind_of_eq (Reader.char_cons '"' _), Reader.bind_of_eq hname,
    Reader.bind_of_eq (space_of_stops hcolon),
    Reader.bind_of_eq (Reader.char_cons ':' _), Reader.bind_of_eq hvalue]
  rfl

theorem ofMembers_map (members : List (String × Json)) :
    ofMembers (members.map fun m => (some m.1, m.2)) = object members := by
  have hall : (members.map fun m => (some m.1, m.2)).mapM
      (fun m : Option String × Json => m.1.map (·, m.2)) = some members := by
    induction members with
    | nil => rfl
    | cons m members ih => rw [List.map_cons, List.mapM_cons, ih]; rfl
  rw [ofMembers, hall]

end Listed

/-! ### One level -/

/-- A value is read from its first character on, with the space around it. -/
theorem value_of_valueOf {inner : Reader Json} {j : Json} {text rest : List Char}
    (htext : Stops isSpace (text ++ rest)) (hrest : Follows rest)
    (hread : valueOf inner (text ++ rest).head? (text ++ rest) = some (j, rest)) :
    value inner (text ++ rest) = some (j, rest) := by
  have hpeek : Reader.peek? (text ++ rest) = some ((text ++ rest).head?, text ++ rest) := rfl
  have hspace : space rest = some ((), rest) := space_of_stops (hrest.stops rfl)
  rw [value, Reader.bind_of_eq (space_of_stops htext), Reader.bind_of_eq hpeek,
    Reader.bind_of_eq hread, Reader.bind_of_eq hspace]
  rfl

/-- What begins with none of the other characters is a number. -/
theorem valueOf_of_number {inner : Reader Json} {c : Char} (h : c = '-' ∨ isDigit c = true) :
    valueOf inner (some c) = number <$> numeral := by
  have hne : ∀ d : Char, d ≠ '-' → isDigit d = false → some c ≠ some d := by
    rintro d hminus hdigit heq
    rcases h with rfl | h
    · exact hminus (Option.some.inj heq).symm
    · rw [Option.some.inj heq, hdigit] at h
      cases h
  rw [valueOf]
  · exact hne 'n' (by decide) rfl
  · exact hne 't' (by decide) rfl
  · exact hne 'f' (by decide) rfl
  · exact hne '"' (by decide) rfl
  · exact hne '[' (by decide) rfl
  · exact hne '\x7b' (by decide) rfl

theorem valueOf_array {inner : Reader Json} {items : List Json} {rest : List Char}
    (hplain : ∀ j ∈ items, Plain j)
    (hread : ∀ j ∈ items, ∀ behind, Follows behind →
      inner (j.compactText ++ behind) = some (j, behind)) :
    valueOf inner ((array items).compactText ++ rest).head? ((array items).compactText ++ rest) =
      some (array items, rest) := by
  have hlist : listed ']' inner (compactItems items ++ ']' :: rest) = some (items, rest) := by
    cases items with
    | nil => exact listed_nil rfl
    | cons x xs =>
        have hx := stops_compactText (hplain x List.mem_cons_self)
        rw [compactItems_cons]
        exact (listed_cons (g := id) (by decide) (by decide) (fun behind => (hx behind).1)
          (fun behind => (hx behind).2) hread).trans (by rw [List.map_id])
  have htext : (array items).compactText ++ rest = '[' :: (compactItems items ++ ']' :: rest) := by
    simp only [compactText, List.append_assoc, List.cons_append, List.nil_append]
  rw [htext, List.head?_cons, valueOf, Reader.bind_of_eq (Reader.char_cons '[' _),
    Reader.bind_of_eq hlist]
  rfl

theorem valueOf_object {inner : Reader Json} {members : List (String × Json)} {rest : List Char}
    (hread : ∀ m ∈ members, ∀ behind, Follows behind →
      inner (m.2.compactText ++ behind) = some (m.2, behind)) :
    valueOf inner ((object members).compactText ++ rest).head?
      ((object members).compactText ++ rest) = some (object members, rest) := by
  have hlist : listed '\x7d' (member inner) (compactMembers members ++ '\x7d' :: rest) =
      some (members.map fun m => (some m.1, m.2), rest) := by
    cases members with
    | nil => exact listed_nil rfl
    | cons m ms =>
        rw [compactMembers_cons]
        exact listed_cons (by decide) (by decide) (fun behind => stops_cons rfl _)
          (fun behind => stops_beq_cons (by decide) _)
          fun n hn behind hbehind => member_memberText (hread n hn behind hbehind)
  have htext : (object members).compactText ++ rest =
      '\x7b' :: (compactMembers members ++ '\x7d' :: rest) := by
    simp only [compactText, List.append_assoc, List.cons_append, List.nil_append]
  rw [htext, List.head?_cons, valueOf, Reader.bind_of_eq (Reader.char_cons '\x7b' _),
    Reader.bind_of_eq hlist, ofMembers_map]
  rfl

/-! ### Depths -/

/-- An element of a list takes no more room than the list. -/
theorem length_le_of_mem {β : Type} (piece : β → List Char) {x y : β} {xs : List β}
    (hy : y ∈ x :: xs) :
    (piece y).length ≤ (piece x ++ xs.flatMap fun z => ',' :: piece z).length := by
  rw [List.length_append]
  rcases List.mem_cons.1 hy with rfl | hy
  · exact Nat.le_add_right _ _
  · have hsub := List.sublist_flatten_of_mem (List.mem_map_of_mem (f := fun z => ',' :: piece z) hy)
    have hlength := hsub.length_le
    rw [← List.flatMap_def, List.length_cons] at hlength
    omega

theorem length_lt_of_mem_array {items : List Json} {j : Json} (hj : j ∈ items) :
    j.compactText.length < (array items).compactText.length := by
  cases items with
  | nil => cases hj
  | cons i is =>
      have hlength := length_le_of_mem compactText hj
      rw [compactText, compactItems_cons, List.length_append, List.length_append,
        List.length_singleton, List.length_singleton]
      omega

theorem length_lt_of_mem_object {members : List (String × Json)} {m : String × Json}
    (hm : m ∈ members) : m.2.compactText.length < (object members).compactText.length := by
  cases members with
  | nil => cases hm
  | cons n ns =>
      have hlength := length_le_of_mem memberText hm
      rw [memberText, List.length_append, List.length_append, List.length_singleton] at hlength
      rw [compactText, compactMembers_cons, List.length_append, List.length_append,
        List.length_singleton, List.length_singleton]
      omega

/-! ### Values -/

/-- What is read from its first character on, whatever reads the values inside it, is
    read at every depth. -/
theorem valueUpTo_of_valueOf {j : Json} (hj : Plain j) (depth : Nat) {rest : List Char}
    (hrest : Follows rest)
    (hread : ∀ inner, valueOf inner (j.compactText ++ rest).head? (j.compactText ++ rest) =
      some (j, rest)) : valueUpTo depth (j.compactText ++ rest) = some (j, rest) := by
  cases depth with
  | zero => exact value_of_valueOf (stops_compactText hj rest).1 hrest (hread _)
  | succ depth => exact value_of_valueOf (stops_compactText hj rest).1 hrest (hread _)

/-- The text of a value is read as the value, if values may nest as deep as the text
    is long. By induction on the value. -/
theorem valueUpTo_compactText {j : Json} (hj : Plain j) :
    ∀ {depth : Nat} {rest : List Char}, j.compactText.length ≤ depth → Follows rest →
      valueUpTo depth (j.compactText ++ rest) = some (j, rest) := by
  induction hj with
  | null =>
      intro depth rest _ hrest
      refine valueUpTo_of_valueOf .null depth hrest fun inner => ?_
      exact Reader.bind_of_eq (Reader.literal_append ['n', 'u', 'l', 'l'] rest) _
  | bool b =>
      intro depth rest _ hrest
      refine valueUpTo_of_valueOf (.bool b) depth hrest fun inner => ?_
      cases b with
      | true => exact Reader.bind_of_eq (Reader.literal_append ['t', 'r', 'u', 'e'] rest) _
      | false => exact Reader.bind_of_eq (Reader.literal_append ['f', 'a', 'l', 's', 'e'] rest) _
  | @number n h =>
      intro depth rest _ hrest
      refine valueUpTo_of_valueOf (.number h) depth hrest fun inner => ?_
      obtain ⟨c, cs, htext, hhead⟩ := exists_numeral_head h
      have hbegin : ((number n).compactText ++ rest).head? = some c := by
        change (n.text ++ rest).head? = some c
        rw [htext]
        rfl
      rw [hbegin, valueOf_of_number hhead]
      exact Reader.map_of_eq (numeral_text h hrest) number
  | string s =>
      intro depth rest _ hrest
      refine valueUpTo_of_valueOf (.string s) depth hrest fun inner => ?_
      have htext : (string s).compactText ++ rest =
          '"' :: (s.toList.flatMap escaped ++ '"' :: rest) := by
        change quoted s ++ rest = _
        simp only [quoted, List.append_assoc, List.cons_append, List.nil_append]
      rw [htext, List.head?_cons, valueOf, Reader.bind_of_eq (Reader.char_cons '"' _),
        Reader.bind_of_eq (stringBody_escaped s rest)]
      rfl
  | @array items h ih =>
      intro depth rest hdepth hrest
      cases depth with
      | zero => exact absurd hdepth (Nat.not_succ_le_zero _)
      | succ depth =>
          refine value_of_valueOf (stops_compactText (.array h) rest).1 hrest
            (valueOf_array h fun j hj behind hbehind => ih j hj ?_ hbehind)
          exact Nat.le_of_lt_succ ((length_lt_of_mem_array hj).trans_le hdepth)
  | @object members h ih =>
      intro depth rest hdepth hrest
      cases depth with
      | zero => exact absurd hdepth (Nat.not_succ_le_zero _)
      | succ depth =>
          refine value_of_valueOf (stops_compactText (.object h) rest).1 hrest
            (valueOf_object fun m hm behind hbehind => ih m hm ?_ hbehind)
          exact Nat.le_of_lt_succ ((length_lt_of_mem_object hm).trans_le hdepth)

/-- A document that was written is read as the value it was written from. -/
theorem ofText?_compact {j : Json} (hj : Plain j) : ofText? j.compact = some j := by
  have hread : valueUpTo j.compactText.length (j.compactText ++ []) = some (j, []) :=
    valueUpTo_compactText hj (Nat.le_refl _) nofun
  rw [List.append_nil] at hread
  rw [ofText?, Reader.all?, compact, String.toList_ofList, String.length_ofList, hread]

end Json

end Rescale
