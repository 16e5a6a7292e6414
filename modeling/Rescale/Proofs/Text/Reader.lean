import Rescale.Text.Reader

/-!
# Laws of Readers

What readers make of a text that was put together for them.

A text that was written part by part is read part by part, so each law here is about
a part with some rest behind it. A run is read up to its end only if the rest does
not go on with it, and a repetition ends only if the rest does not begin like one
more of its elements. Both are conditions on how the rest begins.

## Main definitions

* `Text.Stops`: A text does not begin with a character of a class.

## Theorems

* `bind_of_eq`: A reader goes on where the one before it has stopped.
* `accept_of_eq`, `accept_of_none`: Whether a reader succeeds.
* `takeWhile1_append`: A run is read up to its end.
* `separated_flatMap`: Elements with marks between them are read one by one.
-/

namespace Rescale

namespace Text

/-- A text does not begin with a character of a class. -/
def Stops (p : Char → Bool) (cs : List Char) : Prop := ∀ c ∈ cs.head?, p c = false

theorem stops_cons {p : Char → Bool} {c : Char} (h : p c = false) (cs : List Char) :
    Stops p (c :: cs) := by
  intro c' hc'
  rw [List.head?_cons, Option.mem_def, Option.some.injEq] at hc'
  rw [← hc']
  exact h

theorem stops_beq_cons {c mark : Char} (h : c ≠ mark) (cs : List Char) :
    Stops (· == mark) (c :: cs) :=
  stops_cons (p := (· == mark)) (beq_false_of_ne h) cs

theorem Stops.dropWhile {p : Char → Bool} {cs : List Char} (h : Stops p cs) :
    cs.dropWhile p = cs := by
  cases cs with
  | nil => rfl
  | cons c cs => rw [List.dropWhile_cons_of_neg (by rw [h c rfl]; exact Bool.false_ne_true)]

theorem Stops.takeWhile {p : Char → Bool} {cs : List Char} (h : Stops p cs) :
    cs.takeWhile p = [] := by
  cases cs with
  | nil => rfl
  | cons c cs => rw [List.takeWhile_cons_of_neg (by rw [h c rfl]; exact Bool.false_ne_true)]

namespace Reader

variable {α β : Type} {cs rest : List Char}

/-- A reader goes on where the one before it has stopped. -/
theorem bind_of_eq {r : Reader α} {x : α} (h : r cs = some (x, rest)) (f : α → Reader β) :
    (r >>= f) cs = f x rest := by
  change (r cs).bind (fun p => f p.1 p.2) = f x rest
  rw [h]
  rfl

theorem map_of_eq {r : Reader α} {x : α} (h : r cs = some (x, rest)) (f : α → β) :
    (f <$> r) cs = some (f x, rest) := by
  change (r cs).bind (fun p => some (f p.1, p.2)) = some (f x, rest)
  rw [h]
  rfl

theorem pure_apply (x : α) (cs : List Char) : (pure x : Reader α) cs = some (x, cs) := rfl

/-! ### Single characters -/

theorem one_cons {p : Char → Bool} {c : Char} (h : p c = true) (rest : List Char) :
    one p (c :: rest) = some (c, rest) :=
  if_pos h

theorem one_of_stops {p : Char → Bool} (h : Stops p cs) : one p cs = none := by
  cases cs with
  | nil => rfl
  | cons c cs => rw [one, h c rfl, if_neg Bool.false_ne_true]

theorem char_cons (c : Char) (rest : List Char) : char c (c :: rest) = some ((), rest) :=
  bind_of_eq (one_cons (p := (· == c)) (beq_self_eq_true c) rest) _

theorem char_of_stops {c : Char} (h : Stops (· == c) cs) : char c cs = none := by
  change (one (· == c) cs).bind _ = none
  rw [one_of_stops h]
  rfl

/-- Given characters are read where they stand. By induction on them. -/
theorem literal_append (word rest : List Char) : literal word (word ++ rest) = some ((), rest) := by
  induction word with
  | nil => rfl
  | cons c word ih =>
      rw [literal, List.cons_append, bind_of_eq (char_cons c _)]
      exact ih

theorem accept_of_eq {r : Reader α} {x : α} (h : r cs = some (x, rest)) :
    accept r cs = some (true, rest) := by
  refine bind_of_eq (x := some x) ?_ _
  rw [optional, h]

theorem accept_of_none {r : Reader α} (h : r cs = none) : accept r cs = some (false, cs) := by
  refine bind_of_eq (x := none) ?_ _
  rw [optional, h]

theorem optional_of_none {r : Reader α} (h : r cs = none) : optional r cs = some (none, cs) := by
  rw [optional, h]

/-! ### Runs -/

/-- A run is read up to its end. -/
theorem takeWhile1_append {p : Char → Bool} {run : List Char} (hne : run ≠ [])
    (hrun : ∀ c ∈ run, p c = true) (hrest : Stops p rest) :
    takeWhile1 p (run ++ rest) = some (run, rest) := by
  have hread : takeWhile p (run ++ rest) = some (run, rest) := by
    rw [takeWhile, List.takeWhile_append_of_pos hrun, List.dropWhile_append_of_pos hrun,
      hrest.takeWhile, hrest.dropWhile, List.append_nil]
  rw [takeWhile1, bind_of_eq hread, if_neg (by rwa [List.isEmpty_iff])]
  rfl

theorem skipWhile_of_stops {p : Char → Bool} (h : Stops p cs) :
    skipWhile p cs = some ((), cs) := by
  rw [skipWhile, h.dropWhile]

/-! ### Repetitions -/

section Repetitions

variable {r : Reader α} {piece : β → List Char} {g : β → α} {xs : List β}

/-- Elements are read as long as there are any, if none of them goes on into what is
    behind it. By induction on the elements. -/
theorem upTo_flatMap {n : Nat} (hn : xs.length ≤ n) (hstop : r rest = none)
    (hread : ∀ x ∈ xs, ∀ behind : List β,
      r (piece x ++ (behind.flatMap piece ++ rest)) = some (g x, behind.flatMap piece ++ rest)) :
    upTo n r (xs.flatMap piece ++ rest) = some (xs.map g, rest) := by
  induction xs generalizing n with
  | nil =>
      rw [List.flatMap_nil, List.nil_append]
      cases n with
      | zero => rfl
      | succ n => rw [upTo, hstop]; rfl
  | cons x xs ih =>
      cases n with
      | zero => exact absurd hn (Nat.not_succ_le_zero _)
      | succ n =>
          have hrest := ih (Nat.le_of_succ_le_succ hn) fun y hy =>
            hread y (List.mem_cons_of_mem _ hy)
          rw [List.flatMap_cons, List.append_assoc, upTo, hread x List.mem_cons_self xs]
          simp only [hrest]
          rfl

/-- There are as many repetitions as elements, since each of them takes something. -/
theorem length_le_flatMap (hne : ∀ x ∈ xs, piece x ≠ []) :
    xs.length ≤ (xs.flatMap piece).length := by
  induction xs with
  | nil => exact Nat.le_refl _
  | cons x xs ih =>
      have hpos : 0 < (piece x).length := List.length_pos_iff.2 (hne x List.mem_cons_self)
      have hrest := ih fun y hy => hne y (List.mem_cons_of_mem _ hy)
      rw [List.flatMap_cons, List.length_append, List.length_cons]
      omega

/-- Elements with marks between them are read one by one. -/
theorem separated_flatMap {mark : Char} {x : β} (hstop : Stops (· == mark) rest)
    (hread : ∀ y ∈ x :: xs, ∀ behind : List β,
      r (piece y ++ (behind.flatMap (fun z => mark :: piece z) ++ rest)) =
        some (g y, behind.flatMap (fun z => mark :: piece z) ++ rest)) :
    separated (char mark) r (piece x ++ (xs.flatMap (fun z => mark :: piece z) ++ rest)) =
      some ((x :: xs).map g, rest) := by
  have hmany : many (do let _ ← char mark; r) (xs.flatMap (fun z => mark :: piece z) ++ rest) =
      some (xs.map g, rest) := by
    refine upTo_flatMap ?_ ?_ fun y hy behind => ?_
    · have hlength : xs.length ≤ (xs.flatMap fun z => mark :: piece z).length :=
        length_le_flatMap fun _ _ => List.cons_ne_nil _ _
      rw [List.length_append]
      omega
    · change (char mark rest).bind _ = none
      rw [char_of_stops hstop]
      rfl
    · rw [List.cons_append, bind_of_eq (char_cons mark _)]
      exact hread y (List.mem_cons_of_mem _ hy) behind
  rw [separated, bind_of_eq (hread x List.mem_cons_self xs), bind_of_eq hmany]
  rfl

end Repetitions

end Reader

end Text

end Rescale
