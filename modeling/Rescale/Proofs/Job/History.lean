import Mathlib.Logic.Function.Iterate
import Rescale.Decimal.Numeral
import Rescale.Job.Change
import Rescale.SortedMap.Lemmas

/-!
# Entries of a History

What a history holds for a vertex and an instant, after each operation on it.

A history is a map of maps, and recording a decision walks over the changes of
its proposal. What counts is a single look-up: the change of a vertex at an
instant. Recording sets it for the vertices of the proposal at the instant of
the decision and leaves every other one alone.

A history is read before a decision is recorded in it, and reading goes over all
doubles. So a history grows by one decision after the other, and what was in it
before has been reread once for each of them.

## Main definitions

* `History.change?`: The change of a vertex at an instant.
* `Change.reread`: A change as it is read back.
* `Change.Moves`: A change leads to another parallelism above zero.
* `History.Older`: All changes of a history come before an instant.
* `History.Grows`: What becomes of a history with some decisions.

## Theorems

* `get?_record`, `change?_record`: Recording a decision.
* `change?_mapFloats`: Changing every double.
* `grows_record`, `Grows.trans`: One decision, and one after the other.
-/

namespace Rescale

namespace History

/-- The change of a vertex that was decided at an instant. -/
def change? (h : History) (v : VertexId) (i : Instant) : Option Change := (h.ofVertex v).get? i

/-- By induction on the changes of a proposal. Their vertices ascend, so no
    later change is recorded over an earlier one. -/
theorem get?_foldl (now : Instant) (v : VertexId) (changes : List (VertexId × Change)) :
    changes.Pairwise (fun a b => compare a.1 b.1 = .lt) → ∀ h : History,
      (changes.foldl (fun h e => h.update e.1 fun past => (past.getD ∅).insert now e.2) h).get? v =
        ((SortedMap.lookupEntry v changes).map fun c => (h.ofVertex v).insert now c).or
          (h.get? v) := by
  induction changes with
  | nil => exact fun _ _ => rfl
  | cons e rest ih =>
      intro hsorted h
      rcases List.pairwise_cons.1 hsorted with ⟨hfirst, hrest⟩
      rw [List.foldl_cons, ih hrest, SortedMap.lookupEntry_cons]
      by_cases hv : compare v e.1 = .eq
      · -- The vertices that follow are larger than this one.
        obtain rfl := Std.LawfulEqOrd.eq_of_compare hv
        have hnone : SortedMap.lookupEntry e.1 rest = none := by
          refine Option.eq_none_iff_forall_ne_some.2 fun c hc => ?_
          have hlt := hfirst _ (SortedMap.mem_of_lookupEntry hc)
          rw [hv] at hlt
          cases hlt
        rw [hnone, Option.map_none, Option.none_or, SortedMap.get?_update, if_pos hv, if_pos hv]
        rfl
      · have hother : ∀ f, (h.update e.1 f).get? v = h.get? v := by
          intro f
          rw [SortedMap.get?_update, if_neg hv]
        rw [if_neg hv, ofVertex, ofVertex, SortedMap.getD, SortedMap.getD, hother]

/-- The vertices of a proposal get their change at the instant of the decision
    on top of what is known of them, and the others keep what they have. -/
theorem get?_record (h : History) (now : Instant) (p : Proposal) (v : VertexId) :
    (h.record now p).get? v =
      ((p.get? v).map fun c => (h.ofVertex v).insert now c).or (h.get? v) :=
  get?_foldl now v p.toList p.sorted h

theorem change?_record (h : History) (now : Instant) (p : Proposal) (v : VertexId) (i : Instant) :
    (h.record now p).change? v i =
      if compare i now = .eq then (p.get? v).or (h.change? v i) else h.change? v i := by
  rw [change?, ofVertex, SortedMap.getD, get?_record]
  cases p.get? v with
  | none => exact (ite_self _).symm
  | some c => exact SortedMap.get?_insert _ _ _ _

theorem change?_mapFloats (f : Float → Float) (h : History) (v : VertexId) (i : Instant) :
    (h.mapFloats f).change? v i = (h.change? v i).map (·.mapFloats f) := by
  unfold change? ofVertex SortedMap.getD mapFloats
  rw [SortedMap.get?_mapValues]
  cases h.get? v with
  | none => rfl
  | some past => rw [Option.map_some, Option.getD_some, Option.getD_some, SortedMap.get?_mapValues]

end History

/-! ### Growing histories -/

/-- A change as it is read back once it was stored. -/
def Change.reread (c : Change) : Change := c.mapFloats Decimal.reread

/-- A change leads to another parallelism, and to one above zero. -/
structure Change.Moves (c : Change) : Prop where
  moves : c.current ≠ c.target
  positive : c.target ≠ 0

namespace History

/-- All changes of a history were decided before an instant. -/
def Older (h : History) (now : Instant) : Prop :=
  ∀ v i c, h.change? v i = some c → i.millis < now.millis

/-- What becomes of a history when some decisions are recorded in it, one after
    the other, and it is reread before each. -/
structure Grows (decisions : List Instant) (h h' : History) : Prop where
  /-- What was recorded before was reread once for each decision. -/
  kept : ∀ v i c, h.change? v i = some c →
    h'.change? v i = some (Change.reread^[decisions.length] c)
  added : ∀ i ∈ decisions, ∃ v c, h'.change? v i = some c
  only : ∀ v i c, h'.change? v i = some c → (∃ c, h.change? v i = some c) ∨ i ∈ decisions
  moves : (∀ v i c, h.change? v i = some c → c.Moves) →
    ∀ v i c, h'.change? v i = some c → c.Moves

theorem Grows.refl (h : History) : Grows [] h h where
  kept := fun _ _ _ hc => hc
  added := fun _ hi => absurd hi List.not_mem_nil
  only := fun _ _ c hc => Or.inl ⟨c, hc⟩
  moves := id

theorem Grows.trans {d d' : List Instant} {h m h' : History} (first : Grows d h m)
    (second : Grows d' m h') : Grows (d ++ d') h h' where
  kept := by
    intro v i c hc
    rw [List.length_append, Nat.add_comm, Function.iterate_add_apply]
    exact second.kept v i _ (first.kept v i c hc)
  added := by
    intro i hi
    rcases List.mem_append.1 hi with hi | hi
    · rcases first.added i hi with ⟨v, c, hc⟩
      exact ⟨v, _, second.kept v i c hc⟩
    · exact second.added i hi
  only := by
    intro v i c hc
    rcases second.only v i c hc with ⟨c', hc'⟩ | hi
    · exact (first.only v i c' hc').imp_right (List.mem_append_left d')
    · exact Or.inr (List.mem_append_right d hi)
  moves := fun hmoves => second.moves (first.moves hmoves)

/-- A decision that is later than all of a history stands alone at its instant,
    and what was there before was reread. -/
theorem change?_record_reread {h : History} {now : Instant} (hold : h.Older now) (p : Proposal)
    (v : VertexId) (i : Instant) : ((h.mapFloats Decimal.reread).record now p).change? v i =
      if compare i now = .eq then p.get? v else (h.change? v i).map Change.reread := by
  rw [change?_record, change?_mapFloats]
  by_cases hi : compare i now = .eq
  · have hnone : h.change? v i = none := by
      refine Option.eq_none_iff_forall_ne_some.2 fun c hc => ?_
      have hlt := hold v i c hc
      rw [Std.LawfulEqOrd.eq_of_compare hi] at hlt
      exact absurd hlt (Int.lt_irrefl _)
    rw [if_pos hi, if_pos hi, hnone, Option.map_none, Option.or_none]
  · rw [if_neg hi, if_neg hi]
    rfl

/-- One decision on top of a history that is older, and was reread. -/
theorem grows_record {h : History} {now : Instant} {p : Proposal} (hold : h.Older now)
    (hp : p.isEmpty = false) (hmoves : ∀ v c, p.get? v = some c → c.Moves) :
    Grows [now] h ((h.mapFloats Decimal.reread).record now p) where
  kept := by
    intro v i c hc
    have hi : compare i now ≠ .eq := fun heq => by
      have hlt := hold v i c hc
      rw [Std.LawfulEqOrd.eq_of_compare heq] at hlt
      exact Int.lt_irrefl _ hlt
    rw [change?_record_reread hold, if_neg hi, hc]
    rfl
  added := by
    intro i hi
    obtain rfl := List.mem_singleton.1 hi
    rcases SortedMap.exists_of_isEmpty_eq_false hp with ⟨v, c, hc⟩
    refine ⟨v, c, ?_⟩
    rw [change?_record_reread hold, if_pos Std.ReflOrd.compare_self, hc]
  only := by
    intro v i c hc
    rw [change?_record_reread hold] at hc
    by_cases hi : compare i now = .eq
    · exact Or.inr (List.mem_singleton.2 (Std.LawfulEqOrd.eq_of_compare hi))
    · rw [if_neg hi, Option.map_eq_some_iff] at hc
      rcases hc with ⟨c', hc', _⟩
      exact Or.inl ⟨c', hc'⟩
  moves := by
    intro hbefore v i c hc
    rw [change?_record_reread hold] at hc
    by_cases hi : compare i now = .eq
    · rw [if_pos hi] at hc
      exact hmoves v c hc
    · rw [if_neg hi, Option.map_eq_some_iff] at hc
      -- Rereading leaves both parallelisms as they are.
      rcases hc with ⟨c', hc', rfl⟩
      exact ⟨(hbefore v i c' hc').moves, (hbefore v i c' hc').positive⟩

end History

end Rescale
