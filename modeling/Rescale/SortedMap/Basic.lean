/-!
# Sorted Maps

Finite maps whose entries are kept in ascending key order.

Everything the autoscaler keeps per vertex, per job or per instant is listed,
reported and stored in key order, so the order belongs to the map itself: it
is the list of its entries, with the proof that their keys ascend strictly.
Two consequences carry most of the reasoning elsewhere. A map is determined by
its look-ups, since a strictly ascending list is determined by its members,
and a walk over a map is a recursion over a list.

Operations are linear in the size of the map. The maps here have one entry per
vertex or per decision, and a plain list is what proofs want to see.

## Main definitions

* `SortedMap`: Entries in strictly ascending key order.
* `SortedMap.get?`: The value stored under a key.
* `SortedMap.insert`: Store a value, replacing the one under an equal key.
* `SortedMap.erase`: Drop the entry of a key.
* `SortedMap.insertAll`: Lay one map over another.

## Theorems

* `pairwise_insertEntry`: Insertion keeps the entries ascending.
-/

namespace Rescale

universe u v w

/-- A finite map from `κ` to `α`, as the list of its entries in strictly
    ascending key order. -/
structure SortedMap (κ : Type u) (α : Type v) [Ord κ] where
  /-- The entries, by ascending key. -/
  toList : List (κ × α)
  /-- No key occurs twice, and the smaller key comes first. -/
  sorted : toList.Pairwise fun a b => compare a.1 b.1 = .lt

namespace SortedMap

variable {κ : Type u} {α : Type v} {β : Type w} [Ord κ]

/-- The value under a key in a list of entries: that of the first entry whose
    key compares equal. -/
def lookupEntry (k : κ) : List (κ × α) → Option α
  | [] => none
  | (k', x) :: rest =>
    match compare k k' with
    | .eq => some x
    | _ => lookupEntry k rest

/-- Insert into an ascending list of entries, in place of the entry of an
    equal key if there is one. -/
def insertEntry (k : κ) (x : α) : List (κ × α) → List (κ × α)
  | [] => [(k, x)]
  | (k', x') :: rest =>
    match compare k k' with
    | .lt => (k, x) :: (k', x') :: rest
    | .eq => (k, x) :: rest
    | .gt => (k', x') :: insertEntry k x rest

/-- Every entry after an insertion is the new one or was there before. -/
theorem mem_of_mem_insertEntry {k : κ} {x : α} {e : κ × α} {l : List (κ × α)}
    (h : e ∈ insertEntry k x l) : e = (k, x) ∨ e ∈ l := by
  induction l with
  | nil => simpa only [insertEntry, List.mem_singleton, List.not_mem_nil, or_false] using h
  | cons a rest ih =>
    rw [insertEntry] at h
    split at h
    · simpa only [List.mem_cons] using h
    · simp only [List.mem_cons] at h ⊢
      exact h.elim Or.inl fun h => Or.inr (Or.inr h)
    · simp only [List.mem_cons] at h ⊢
      rcases h with h | h
      · exact Or.inr (Or.inl h)
      · exact (ih h).elim Or.inl fun h => Or.inr (Or.inr h)

/-- Insertion keeps the entries ascending: the new key goes in front of the
    first larger one, so it is above everything it passed. -/
theorem pairwise_insertEntry [Std.TransOrd κ] [Std.LawfulEqOrd κ] (k : κ) (x : α)
    {l : List (κ × α)} (h : l.Pairwise fun a b => compare a.1 b.1 = .lt) :
    (insertEntry k x l).Pairwise fun a b => compare a.1 b.1 = .lt := by
  induction l with
  | nil => exact List.pairwise_singleton _ _
  | cons a rest ih =>
    obtain ⟨hfirst, hrest⟩ := List.pairwise_cons.1 h
    rw [insertEntry]
    split
    · next hlt =>
      refine List.pairwise_cons.2 ⟨fun b hb => ?_, h⟩
      rcases List.mem_cons.1 hb with rfl | hb
      · exact hlt
      · exact Std.TransCmp.lt_trans hlt (hfirst b hb)
    · next heq =>
      obtain rfl := Std.LawfulEqOrd.eq_of_compare heq
      exact List.pairwise_cons.2 ⟨hfirst, hrest⟩
    · next hgt =>
      refine List.pairwise_cons.2 ⟨fun b hb => ?_, ih hrest⟩
      rcases mem_of_mem_insertEntry hb with rfl | hb
      · exact Std.OrientedCmp.lt_of_gt hgt
      · exact hfirst b hb

/-- The map without entries. -/
def empty : SortedMap κ α := ⟨[], List.Pairwise.nil⟩

instance : EmptyCollection (SortedMap κ α) := ⟨empty⟩

instance : Inhabited (SortedMap κ α) := ⟨empty⟩

instance [DecidableEq κ] [DecidableEq α] : DecidableEq (SortedMap κ α) := fun m n =>
  if h : m.toList = n.toList then
    isTrue (by cases m; cases n; cases h; rfl)
  else
    isFalse fun e => h (e ▸ rfl)

/-- The value stored under `k`. -/
def get? (m : SortedMap κ α) (k : κ) : Option α := lookupEntry k m.toList

/-- The value stored under `k`, or `x` where there is none. -/
def getD (m : SortedMap κ α) (k : κ) (x : α) : α := (m.get? k).getD x

/-- Whether something is stored under `k`. -/
def contains (m : SortedMap κ α) (k : κ) : Bool := (m.get? k).isSome

/-- Whether the map has no entry. -/
def isEmpty (m : SortedMap κ α) : Bool := m.toList.isEmpty

/-- The number of entries. -/
def size (m : SortedMap κ α) : Nat := m.toList.length

/-- The keys, ascending. -/
def keys (m : SortedMap κ α) : List κ := m.toList.map (·.1)

/-- The values, in the order of their keys. -/
def values (m : SortedMap κ α) : List α := m.toList.map (·.2)

/-- The entry with the largest key. -/
def last? (m : SortedMap κ α) : Option (κ × α) := m.toList.getLast?

/-- Keep the entries that satisfy `p`. -/
def filter (p : κ → α → Bool) (m : SortedMap κ α) : SortedMap κ α :=
  ⟨m.toList.filter fun e => p e.1 e.2, m.sorted.filter _⟩

/-- Drop the entry of `k`. -/
def erase (m : SortedMap κ α) (k : κ) : SortedMap κ α :=
  m.filter fun k' _ => compare k k' != .eq

/-- Change every value, with its key at hand. -/
def mapValues (f : κ → α → β) (m : SortedMap κ α) : SortedMap κ β :=
  ⟨m.toList.map fun e => (e.1, f e.1 e.2), List.pairwise_map.2 m.sorted⟩

section Insert

variable [Std.TransOrd κ] [Std.LawfulEqOrd κ]

/-- Store `x` under `k`, replacing what was there. -/
def insert (m : SortedMap κ α) (k : κ) (x : α) : SortedMap κ α :=
  ⟨insertEntry k x m.toList, pairwise_insertEntry k x m.sorted⟩

/-- Store `f` of the value under `k`, or of `none` where there is none. -/
def update (m : SortedMap κ α) (k : κ) (f : Option α → α) : SortedMap κ α :=
  m.insert k (f (m.get? k))

/-- The map of a list of entries; the last entry of a key wins. -/
def ofList (l : List (κ × α)) : SortedMap κ α :=
  l.foldl (fun m e => m.insert e.1 e.2) ∅

/-- Lay `n` over `m`: where both have a key, `n` wins. -/
def insertAll (m n : SortedMap κ α) : SortedMap κ α :=
  n.toList.foldl (fun m e => m.insert e.1 e.2) m

end Insert

end SortedMap

/-- A finite set of keys, listed in ascending order. -/
abbrev SortedSet (κ : Type u) [Ord κ] := SortedMap κ Unit

end Rescale
