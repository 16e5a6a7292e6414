/-!
# Look-Ups in Entry Lists

What is found in a list of entries after one of them is replaced.

A list in which the latest entry of a key stands first needs no order on the
keys. An entry is replaced by clearing away those of its key and putting the new
one in front, and for the look-ups it does not matter where that is.

## Theorems

* `lookup_filter_of_ne`: Clearing a key away leaves the others.
* `lookup_replace`: What is put in front is found under its key, and all else
  stays.
-/

namespace Rescale

namespace Lookup

universe u v

variable {κ : Type u} {α : Type v} [DecidableEq κ] [BEq κ] [LawfulBEq κ]

/-- A key that is cleared away leaves the others as they are. -/
theorem lookup_filter_of_ne {k k' : κ} (l : List (κ × α)) (h : k' ≠ k) :
    (l.filter fun e => e.1 != k).lookup k' = l.lookup k' := by
  induction l with
  | nil => rfl
  | cons e rest ih =>
    rw [List.filter_cons]
    by_cases he : e.1 = k
    · -- The entry that is cleared away is not the one sought.
      rw [he, bne_self_eq_false, if_neg Bool.false_ne_true, ih, List.lookup_cons, he,
        beq_false_of_ne h]
    · rw [if_pos (bne_iff_ne.2 he), List.lookup_cons, List.lookup_cons, ih]

/-- What is put in front of the entries of other keys is found under its key, and
    all else stays. -/
theorem lookup_replace (k k' : κ) (x : α) (l : List (κ × α)) :
    ((k, x) :: l.filter fun e => e.1 != k).lookup k' =
      if k' = k then some x else l.lookup k' := by
  by_cases h : k' = k
  · rw [h, if_pos rfl, List.lookup_cons_self]
  · rw [if_neg h, List.lookup_cons, beq_false_of_ne h]
    exact lookup_filter_of_ne l h

end Lookup

end Rescale
