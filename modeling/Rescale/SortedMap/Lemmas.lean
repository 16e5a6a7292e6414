import Rescale.SortedMap.Basic

/-!
# Look-Ups in Sorted Maps

What each operation on a map does to the values found under its keys.

A map carries the proof that its keys ascend, so a look-up settles membership:
a key has an entry exactly where something is found under it, and it has only
that one. Each operation then has one equation, the value found under a key
after it, and nobody who reasons about a map has to open the operation.

## Theorems

* `lookupEntry_of_mem`: Among entries of different keys, what is listed is found.
* `mem_toList_iff`: The entries are the keys with what is found under them.
* `mem_keys_iff`: The keys are those under which something is found.
* `ext`: A map is determined by its look-ups.
* `get?_insert`: A stored value is found under its key and nowhere else.
* `get?_filter`: A filter drops what it rejects.
* `get?_erase`: An erased key is gone, and no other.
* `size_filter_add`, `size_erase_add`: What is dropped and what is kept are all entries.
* `get?_mapValues`: A change of every value.
* `mapValues_insert`, `mapValues_filter`: It can be made before or after another one.
* `keys_eq_of_contains`: The keys are settled by which of them have an entry.
* `get?_update`: A change that may also begin an entry.
* `get?_foldl_insert`: Entries stored one after the other.
* `get?_insertAll`: The upper layer wins.
* `ofList_toList`, `mem_toList_ofList`, `mem_keys_ofList`: What a map of listed
  entries holds.
* `found_insert`, `found_filter`, `found_insertAll`: What is true of all entries
  stays true.
* `find?_toList_eq_some_iff`: The first entry that passes a test has the smallest
  key of those that pass.
* `toList_insert_of_above`, `toList_insert_last`: What happens at the end of a
  map.
* `last?_eq_some_iff`: The last entry is the one that no key is above.
-/

namespace Rescale

namespace SortedMap

universe u v w

variable {κ : Type u} {α : Type v} {β : Type w} [Ord κ]

section Entries

/-- A look-up stops at an entry whose key compares equal and passes any
    other. -/
theorem lookupEntry_cons (k : κ) (e : κ × α) (l : List (κ × α)) :
    lookupEntry k (e :: l) = if compare k e.1 = .eq then some e.2 else lookupEntry k l := by
  rw [lookupEntry]
  cases compare k e.1 <;> rfl

/-- Ascending keys are different keys, since none is below and above itself. -/
theorem nodup_keys_of_ascending [Std.TransOrd κ] {l : List (κ × α)}
    (h : l.Pairwise fun a b => compare a.1 b.1 = .lt) : (l.map Prod.fst).Nodup := by
  refine List.pairwise_map.2 (h.imp fun hab heq => ?_)
  have hba := Std.OrientedCmp.gt_of_lt hab
  rw [heq] at hab hba
  rw [hab] at hba
  exact Ordering.noConfusion hba

theorem nodup_of_ascending [Std.TransOrd κ] {l : List (κ × α)}
    (h : l.Pairwise fun a b => compare a.1 b.1 = .lt) : l.Nodup :=
  (List.pairwise_map.1 (nodup_keys_of_ascending h)).imp fun hne heq => hne (congrArg Prod.fst heq)

variable [Std.LawfulEqOrd κ]

/-- What is found was listed. -/
theorem mem_of_lookupEntry {k : κ} {x : α} {l : List (κ × α)}
    (h : lookupEntry k l = some x) : (k, x) ∈ l := by
  induction l with
  | nil => exact absurd h (Option.some_ne_none x).symm
  | cons a rest ih =>
    rw [lookupEntry_cons] at h
    split at h
    · next heq =>
      obtain rfl := Std.LawfulEqOrd.eq_of_compare heq
      rw [← Option.some.inj h]
      exact List.mem_cons_self
    · exact List.mem_cons_of_mem _ (ih h)

/-- Among entries of different keys, what is listed is found. The entries in
    front of it have other keys, so the look-up passes them. -/
theorem lookupEntry_of_mem {k : κ} {x : α} {l : List (κ × α)}
    (hl : (l.map Prod.fst).Nodup) (h : (k, x) ∈ l) : lookupEntry k l = some x := by
  induction l with
  | nil => exact absurd h List.not_mem_nil
  | cons a rest ih =>
    obtain ⟨hfirst, hrest⟩ := List.nodup_cons.1 hl
    rw [lookupEntry_cons]
    rcases List.mem_cons.1 h with rfl | hmem
    · rw [if_pos Std.ReflOrd.compare_self]
    · rw [if_neg, ih hrest hmem]
      intro heq
      obtain rfl := Std.LawfulEqOrd.eq_of_compare heq
      exact hfirst (List.mem_map.2 ⟨_, hmem, rfl⟩)

variable [Std.TransOrd κ]

/-- A look-up after an insertion. No order is asked of the list: the new entry
    goes in front of every later entry of its key. -/
theorem lookupEntry_insertEntry (k k' : κ) (x : α) (l : List (κ × α)) :
    lookupEntry k' (insertEntry k x l) =
      if compare k' k = .eq then some x else lookupEntry k' l := by
  induction l with
  | nil =>
    rw [insertEntry, lookupEntry_cons]
  | cons a rest ih =>
    rw [insertEntry]
    split
    · rw [lookupEntry_cons]
    · next heq =>
      obtain rfl := Std.LawfulEqOrd.eq_of_compare heq
      rw [lookupEntry_cons, lookupEntry_cons]
      by_cases h : compare k' a.1 = .eq
      · rw [if_pos h, if_pos h]
      · rw [if_neg h, if_neg h, if_neg h]
    · next hgt =>
      rw [lookupEntry_cons, lookupEntry_cons, ih]
      by_cases h : compare k' a.1 = .eq
      · -- The new key is above the first one, so it is not the one sought.
        obtain rfl := Std.LawfulEqOrd.eq_of_compare h
        rw [Std.OrientedCmp.lt_of_gt hgt, if_pos h, if_pos h, if_neg Ordering.noConfusion]
      · rw [if_neg h, if_neg h]

end Entries

/-- By induction on the entries in front: an insertion passes those with smaller
    keys. -/
theorem insertEntry_append [Std.TransOrd κ] {k : κ} {x : α} {l : List (κ × α)}
    (r : List (κ × α)) (h : ∀ e ∈ l, compare e.1 k = .lt) :
    insertEntry k x (l ++ r) = l ++ insertEntry k x r := by
  induction l with
  | nil => rfl
  | cons e rest ih =>
    rcases List.forall_mem_cons.1 h with ⟨hfirst, hrest⟩
    rw [List.cons_append, insertEntry, Std.OrientedCmp.gt_of_lt hfirst]
    exact congrArg (e :: ·) (ih hrest)

theorem eq_empty_of_isEmpty {m : SortedMap κ α} (h : m.isEmpty = true) : m = ∅ := by
  rcases m with ⟨entries, ascending⟩
  obtain rfl := List.isEmpty_iff.1 h
  rfl

/-- What a filter keeps and what its opposite keeps are all entries. -/
theorem size_filter_add (p : κ → α → Bool) (m : SortedMap κ α) :
    (m.filter p).size + (m.filter fun k x => !p k x).size = m.size := by
  have hsplit := List.length_eq_countP_add_countP (fun e : κ × α => p e.1 e.2) (l := m.toList)
  simp only [List.countP_eq_length_filter, Bool.not_eq_true, Bool.decide_eq_false] at hsplit
  exact hsplit.symm

@[simp] theorem get?_empty (k : κ) : (∅ : SortedMap κ α).get? k = none := rfl

/-- A key has an entry exactly if something is found under it. -/
theorem contains_iff {m : SortedMap κ α} {k : κ} :
    m.contains k = true ↔ ∃ x, m.get? k = some x :=
  Option.isSome_iff_exists

/-- The keys ascend. -/
theorem pairwise_keys (m : SortedMap κ α) : m.keys.Pairwise fun a b => compare a b = .lt :=
  List.pairwise_map.2 m.sorted

theorem keys_mapValues (f : κ → α → β) (m : SortedMap κ α) : (m.mapValues f).keys = m.keys := by
  rw [keys, mapValues, List.map_map]
  rfl

theorem values_mapValues (f : α → β) (m : SortedMap κ α) :
    (m.mapValues fun _ x => f x).values = m.values.map f := by
  rw [values, mapValues, values, List.map_map, List.map_map]
  rfl

theorem all_values_mapValues (f : α → β) (p : β → Bool) (m : SortedMap κ α) :
    (m.mapValues fun _ x => f x).values.all p = m.values.all fun x => p (f x) := by
  rw [values_mapValues, List.all_map]
  rfl

theorem size_mapValues (f : κ → α → β) (m : SortedMap κ α) : (m.mapValues f).size = m.size :=
  List.length_map _

/-- No entry that passes a test comes before the first one that does. -/
theorem compare_of_find?_toList [Std.ReflOrd κ] {m : SortedMap κ α} {p : κ × α → Bool}
    {e e' : κ × α} (h : m.toList.find? p = some e) (he : e' ∈ m.toList) (hp : p e' = true) :
    compare e.1 e'.1 ≠ .gt := by
  intro hgt
  rcases List.find?_eq_some_iff_append.1 h with ⟨-, front, back, hlist, hfront⟩
  have hsorted := m.sorted
  rw [hlist, List.pairwise_append] at hsorted
  rw [hlist, List.mem_append, List.mem_cons] at he
  rcases he with hbefore | rfl | hafter
  · have hrejected := hfront e' hbefore
    rw [hp] at hrejected
    cases hrejected
  · rw [Std.ReflOrd.compare_self] at hgt
    cases hgt
  · rw [(List.pairwise_cons.1 hsorted.2.1).1 e' hafter] at hgt
    cases hgt

section Lawful

variable [Std.TransOrd κ] [Std.LawfulEqOrd κ]

/-- The entries of a map are its keys with what is found under them. -/
theorem mem_toList_iff {m : SortedMap κ α} {k : κ} {x : α} :
    (k, x) ∈ m.toList ↔ m.get? k = some x :=
  ⟨lookupEntry_of_mem (nodup_keys_of_ascending m.sorted), mem_of_lookupEntry⟩

/-- Keys of which neither is above the other are equal. -/
theorem eq_of_compare_ne_gt {k k' : κ} (h : compare k k' ≠ .gt) (h' : compare k' k ≠ .gt) :
    k = k' := by
  cases hcompare : compare k k' with
  | lt => exact absurd (Std.OrientedCmp.gt_of_lt hcompare) h'
  | eq => exact Std.LawfulEqOrd.eq_of_compare hcompare
  | gt => exact absurd hcompare h

theorem mem_keys_iff {m : SortedMap κ α} {k : κ} : k ∈ m.keys ↔ ∃ x, m.get? k = some x := by
  rw [keys, List.mem_map]
  constructor
  · rintro ⟨⟨k', x⟩, hmem, rfl⟩
    exact ⟨x, mem_toList_iff.1 hmem⟩
  · rintro ⟨x, hx⟩
    exact ⟨(k, x), mem_toList_iff.2 hx, rfl⟩

theorem exists_of_isEmpty_eq_false {m : SortedMap κ α} (h : m.isEmpty = false) :
    ∃ k x, m.get? k = some x := by
  rcases List.exists_mem_of_ne_nil m.toList (List.isEmpty_eq_false_iff.1 h) with ⟨⟨k, x⟩, hmem⟩
  exact ⟨k, x, mem_toList_iff.1 hmem⟩

/-- Maps in which the same is found under every key are equal. They have the
    same entries, and ascending entries can stand in one order only. -/
theorem ext {m n : SortedMap κ α} (h : ∀ k, m.get? k = n.get? k) : m = n := by
  have hlist : m.toList = n.toList := by
    refine List.Perm.eq_of_pairwise (fun a b _ _ hab hba => ?_) m.sorted n.sorted ?_
    · rw [Std.OrientedCmp.gt_of_lt hab] at hba
      exact Ordering.noConfusion hba
    · refine (List.perm_ext_iff_of_nodup (nodup_of_ascending m.sorted)
        (nodup_of_ascending n.sorted)).2 fun e => ?_
      rw [← Prod.eta e, mem_toList_iff, mem_toList_iff, h]
  cases m
  cases n
  cases hlist
  rfl

/-- A stored value is found under its key, and the look-ups of all other keys
    stay as they were. -/
theorem get?_insert (m : SortedMap κ α) (k k' : κ) (x : α) :
    (m.insert k x).get? k' = if compare k' k = .eq then some x else m.get? k' :=
  lookupEntry_insertEntry k k' x m.toList

@[simp] theorem get?_insert_self (m : SortedMap κ α) (k : κ) (x : α) :
    (m.insert k x).get? k = some x := by
  rw [get?_insert, Std.ReflOrd.compare_self, if_pos rfl]

theorem get?_insert_of_ne (m : SortedMap κ α) {k k' : κ} (x : α) (h : k' ≠ k) :
    (m.insert k x).get? k' = m.get? k' := by
  rw [get?_insert, if_neg fun heq => h (Std.LawfulEqOrd.eq_of_compare heq)]

/-- A filter drops what it rejects and keeps the rest. -/
theorem get?_filter (p : κ → α → Bool) (m : SortedMap κ α) (k : κ) :
    (m.filter p).get? k = (m.get? k).filter (p k) := by
  refine Option.ext fun x => ?_
  rw [← mem_toList_iff, Option.filter_eq_some_iff, ← mem_toList_iff]
  exact List.mem_filter

/-- An erased key is gone, and no other. -/
theorem get?_erase (m : SortedMap κ α) (k k' : κ) :
    (m.erase k).get? k' = if compare k' k = .eq then none else m.get? k' := by
  rw [erase, get?_filter]
  split
  · next heq =>
    obtain rfl := Std.LawfulEqOrd.eq_of_compare heq
    rw [Std.ReflOrd.compare_self]
    exact Option.filter_eq_none_iff.2 fun _ _ => Bool.false_ne_true
  · next hne =>
    have hkept : (compare k k' != .eq) = true :=
      bne_iff_ne.2 fun heq => hne (Std.OrientedCmp.eq_comm.1 heq)
    cases m.get? k' with
    | none => rfl
    | some x => rw [Option.filter_some, if_pos hkept]

@[simp] theorem get?_erase_self (m : SortedMap κ α) (k : κ) : (m.erase k).get? k = none := by
  rw [get?_erase, if_pos Std.ReflOrd.compare_self]

theorem get?_erase_of_ne (m : SortedMap κ α) {k k' : κ} (h : k' ≠ k) :
    (m.erase k).get? k' = m.get? k' := by
  rw [get?_erase, if_neg fun heq => h (Std.LawfulEqOrd.eq_of_compare heq)]

/-- Without an entry there is nothing to erase. -/
theorem erase_of_not_contains {m : SortedMap κ α} {k : κ} (h : m.contains k = false) :
    m.erase k = m := by
  refine ext fun k' => ?_
  rw [get?_erase]
  by_cases hk : compare k' k = .eq
  · obtain rfl := Std.LawfulEqOrd.eq_of_compare hk
    rw [if_pos hk]
    exact (Option.isNone_iff_eq_none.1 (Option.isSome_eq_false_iff.1 h)).symm
  · rw [if_neg hk]

/-- The entry of a key alone. -/
theorem filter_eq_singleton {m : SortedMap κ α} {k : κ} {x : α} (h : m.get? k = some x) :
    m.filter (fun k' _ => compare k k' == .eq) = (∅ : SortedMap κ α).insert k x := by
  refine ext fun k' => ?_
  rw [get?_filter]
  by_cases hk : k' = k
  · rw [hk, h, get?_insert_self, Std.ReflOrd.compare_self]
    rfl
  · have hne : ¬(compare k k' == .eq) = true := fun heq =>
      hk (Std.LawfulEqOrd.eq_of_compare (beq_iff_eq.1 heq)).symm
    rw [get?_insert_of_ne _ _ hk, get?_empty]
    exact Option.filter_eq_none_iff.2 fun _ _ => hne

/-- Erasing a key costs one entry if there is one to erase. -/
theorem size_erase_add (m : SortedMap κ α) (k : κ) :
    (m.erase k).size + (if m.contains k then 1 else 0) = m.size := by
  cases hm : m.get? k with
  | none =>
      have hnot : m.contains k = false := by rw [contains, hm]; rfl
      rw [erase_of_not_contains hnot, hnot, if_neg Bool.false_ne_true, Nat.add_zero]
  | some x =>
      have hsplit := size_filter_add (fun k' _ => compare k k' == .eq) m
      rw [filter_eq_singleton hm] at hsplit
      rw [contains_iff.2 ⟨x, hm⟩, if_pos rfl, Nat.add_comm]
      exact hsplit

/-- A change of every value changes what is found. -/
theorem get?_mapValues (f : κ → α → β) (m : SortedMap κ α) (k : κ) :
    (m.mapValues f).get? k = (m.get? k).map (f k) := by
  refine Option.ext fun y => ?_
  rw [← mem_toList_iff, Option.map_eq_some_iff]
  refine List.mem_map.trans ⟨?_, ?_⟩
  · rintro ⟨⟨k', x⟩, hmem, heq⟩
    obtain ⟨rfl, rfl⟩ := Prod.mk.inj heq
    exact ⟨x, mem_toList_iff.1 hmem, rfl⟩
  · rintro ⟨x, hx, rfl⟩
    exact ⟨(k, x), mem_toList_iff.2 hx, rfl⟩

/-- Changing a value that is stored and storing a changed value are the same. -/
theorem mapValues_insert (f : α → β) (m : SortedMap κ α) (k : κ) (x : α) :
    (m.insert k x).mapValues (fun _ => f) = (m.mapValues fun _ => f).insert k (f x) := by
  refine ext fun k' => ?_
  rw [get?_mapValues, get?_insert, get?_insert, get?_mapValues]
  split
  · rfl
  · rfl

/-- What is kept does not depend on the values, so they can be changed before or
    after. -/
theorem mapValues_filter (f : α → β) (p : κ → Bool) (m : SortedMap κ α) :
    (m.filter fun k _ => p k).mapValues (fun _ => f) =
      (m.mapValues fun _ => f).filter fun k _ => p k := by
  refine ext fun k => ?_
  rw [get?_mapValues, get?_filter, get?_filter, get?_mapValues]
  cases m.get? k with
  | none => rfl
  | some x =>
      rw [Option.filter_some, Option.map_some, Option.filter_some]
      split
      · rfl
      · rfl

theorem mapValues_erase (f : α → β) (m : SortedMap κ α) (k : κ) :
    (m.erase k).mapValues (fun _ => f) = (m.mapValues fun _ => f).erase k :=
  mapValues_filter f (fun k' => compare k k' != .eq) m

theorem contains_mapValues (f : κ → α → β) (m : SortedMap κ α) (k : κ) :
    (m.mapValues f).contains k = m.contains k := by
  rw [contains, get?_mapValues, Option.isSome_map, contains]

/-- Maps that have entries under the same keys list the same keys. -/
theorem keys_eq_of_contains {m : SortedMap κ α} {n : SortedMap κ β}
    (h : ∀ k, m.contains k = n.contains k) : m.keys = n.keys := by
  -- Without their values the two are one map.
  have hunit : (m.mapValues fun _ _ => ()) = n.mapValues fun _ _ => () := by
    refine ext fun k => ?_
    have hk := h k
    rw [contains, contains] at hk
    rw [get?_mapValues, get?_mapValues]
    cases hm : m.get? k with
    | none =>
        cases hn : n.get? k with
        | none => rfl
        | some y => rw [hm, hn] at hk; cases hk
    | some x =>
        cases hn : n.get? k with
        | none => rw [hm, hn] at hk; cases hk
        | some y => rfl
  rw [← keys_mapValues (fun _ _ => ()) m, hunit, keys_mapValues]

/-- After an update the key holds the new value, whether or not it held one
    before. -/
theorem get?_update (m : SortedMap κ α) (k k' : κ) (f : Option α → α) :
    (m.update k f).get? k' =
      if compare k' k = .eq then some (f (m.get? k)) else m.get? k' :=
  get?_insert m k k' _

/-! ### Entries stored one after the other -/

/-- Of the entries of different keys that are stored in a map, each is found, and
    under other keys what was found before. -/
theorem get?_foldl_insert {l : List (κ × α)} (hl : (l.map Prod.fst).Nodup) (m : SortedMap κ α)
    (k : κ) :
    (l.foldl (fun m e => m.insert e.1 e.2) m).get? k = (lookupEntry k l).or (m.get? k) := by
  induction l generalizing m with
  | nil => rfl
  | cons e rest ih =>
    obtain ⟨hfirst, hrest⟩ := List.nodup_cons.1 hl
    rw [List.foldl_cons, ih hrest, get?_insert, lookupEntry_cons]
    by_cases hk : compare k e.1 = .eq
    · -- The keys that follow are others, so none of them is laid over this one.
      obtain rfl := Std.LawfulEqOrd.eq_of_compare hk
      have hnone : lookupEntry e.1 rest = none := by
        refine Option.eq_none_iff_forall_ne_some.2 fun x hx => hfirst ?_
        exact List.mem_map.2 ⟨_, mem_of_lookupEntry hx, rfl⟩
      rw [hnone, Option.none_or, if_pos hk, if_pos hk, Option.some_or]
    · rw [if_neg hk, if_neg hk]

/-- Of two layers the upper one is found where it has the key. -/
theorem get?_insertAll (m n : SortedMap κ α) (k : κ) :
    (m.insertAll n).get? k = (n.get? k).or (m.get? k) :=
  get?_foldl_insert (nodup_keys_of_ascending n.sorted) m k

/-- Entries of different keys are the entries of the map made of them, in whatever
    order they are listed. -/
theorem mem_toList_ofList {l : List (κ × α)} (hl : (l.map Prod.fst).Nodup) {e : κ × α} :
    e ∈ (ofList l).toList ↔ e ∈ l := by
  have hfound : (ofList l).get? e.1 = lookupEntry e.1 l := by
    rw [ofList, get?_foldl_insert hl, get?_empty, Option.or_none]
  rw [← Prod.eta e, mem_toList_iff, hfound]
  exact ⟨mem_of_lookupEntry, lookupEntry_of_mem hl⟩

/-- The entries of a map make the map. -/
theorem ofList_toList (m : SortedMap κ α) : ofList m.toList = m := by
  refine ext fun k => ?_
  rw [ofList, get?_foldl_insert (nodup_keys_of_ascending m.sorted), get?_empty, Option.or_none]
  rfl

/-- Storing an entry adds its key, if it is not there yet. -/
theorem mem_keys_insert {m : SortedMap κ α} {k k' : κ} {x : α} :
    k' ∈ (m.insert k x).keys ↔ k' = k ∨ k' ∈ m.keys := by
  rw [mem_keys_iff, mem_keys_iff]
  by_cases hk : k' = k
  · rw [hk, get?_insert_self]
    exact iff_of_true ⟨x, rfl⟩ (Or.inl rfl)
  · rw [get?_insert_of_ne _ _ hk, or_iff_right hk]

theorem mem_keys_foldl_insert {l : List (κ × α)} {m : SortedMap κ α} {k : κ} :
    k ∈ (l.foldl (fun m e => m.insert e.1 e.2) m).keys ↔ k ∈ l.map Prod.fst ∨ k ∈ m.keys := by
  induction l generalizing m with
  | nil => rw [List.foldl_nil, List.map_nil, or_iff_right List.not_mem_nil]
  | cons e rest ih =>
    rw [List.foldl_cons, ih, mem_keys_insert, List.map_cons, List.mem_cons, or_assoc,
      or_left_comm]

/-- A key is in a map of listed entries if it was listed, once or more. -/
theorem mem_keys_ofList {l : List (κ × α)} {k : κ} :
    k ∈ (ofList l).keys ↔ k ∈ l.map Prod.fst := by
  rw [ofList, mem_keys_foldl_insert]
  exact or_iff_left List.not_mem_nil

/-! ### What is true of all entries -/

/-- A test of all values is a test of everything that is found. -/
theorem all_values_iff {p : α → Bool} {m : SortedMap κ α} :
    m.values.all p = true ↔ ∀ k x, m.get? k = some x → p x = true := by
  rw [values, List.all_map, List.all_eq_true]
  constructor
  · intro h k x hx
    exact h (k, x) (mem_toList_iff.2 hx)
  · intro h e he
    exact h e.1 e.2 (mem_toList_iff.1 he)

section Found

variable {m n : SortedMap κ α} {p : κ → α → Prop}

/-- What is found after an insertion is new or was there before. -/
theorem found_insert {k : κ} {x : α} (hm : ∀ k y, m.get? k = some y → p k y) (hx : p k x) :
    ∀ k' y, (m.insert k x).get? k' = some y → p k' y := by
  intro k' y hy
  by_cases hk : k' = k
  · rw [hk, get?_insert_self, Option.some.injEq] at hy
    rw [hk, ← hy]
    exact hx
  · rw [get?_insert_of_ne _ _ hk] at hy
    exact hm k' y hy

theorem found_filter {q : κ → α → Bool} (hm : ∀ k y, m.get? k = some y → p k y) :
    ∀ k y, (m.filter q).get? k = some y → p k y := by
  intro k y hy
  rw [get?_filter, Option.filter_eq_some_iff] at hy
  exact hm k y hy.1

/-- What is found in two layers is found in one of them. -/
theorem found_insertAll (hm : ∀ k y, m.get? k = some y → p k y)
    (hn : ∀ k y, n.get? k = some y → p k y) : ∀ k y, (m.insertAll n).get? k = some y → p k y := by
  intro k y hy
  rw [get?_insertAll, Option.or_eq_some_iff] at hy
  rcases hy with hupper | ⟨_, hlower⟩
  · exact hn k y hupper
  · exact hm k y hlower

end Found

/-! ### The first entry that passes a test -/

/-- The first entry that passes a test is the one with the smallest key among
    those that pass. -/
theorem find?_toList_eq_some_iff {m : SortedMap κ α} {p : κ × α → Bool} {e : κ × α} :
    m.toList.find? p = some e ↔
      e ∈ m.toList ∧ p e = true ∧
        ∀ e' ∈ m.toList, p e' = true → compare e.1 e'.1 ≠ .gt := by
  constructor
  · intro h
    exact ⟨List.mem_of_find?_eq_some h, List.find?_some h,
      fun _ he hp => compare_of_find?_toList h he hp⟩
  · rintro ⟨he, hp, hleast⟩
    cases hfind : m.toList.find? p with
    | none => exact absurd hp (List.find?_eq_none.1 hfind e he)
    | some e' =>
        -- Neither key is above the other one, so they are one key with one value.
        have hmem := List.mem_of_find?_eq_some hfind
        have hle := hleast e' hmem (List.find?_some hfind)
        have hge := compare_of_find?_toList hfind he hp
        rcases e with ⟨k, x⟩
        rcases e' with ⟨k', x'⟩
        obtain rfl := eq_of_compare_ne_gt hle hge
        have hfound := mem_toList_iff.1 he
        rw [mem_toList_iff.1 hmem] at hfound
        rw [Option.some.inj hfound]

/-! ### The end of a map -/

/-- A key above all others goes to the end. -/
theorem toList_insert_of_above {m : SortedMap κ α} {k : κ} (x : α)
    (h : ∀ e ∈ m.toList, compare e.1 k = .lt) :
    (m.insert k x).toList = m.toList ++ [(k, x)] := by
  have happend := insertEntry_append (x := x) [] h
  rwa [List.append_nil] at happend

/-- The value of the last key is replaced where it stands. -/
theorem toList_insert_last {m : SortedMap κ α} {k : κ} {x y : α} {l : List (κ × α)}
    (h : m.toList = l ++ [(k, y)]) : (m.insert k x).toList = l ++ [(k, x)] := by
  have hsorted := m.sorted
  rw [h, List.pairwise_append] at hsorted
  have hbelow : ∀ e ∈ l, compare e.1 k = .lt := fun e he =>
    hsorted.2.2 e he (k, y) (List.mem_singleton_self _)
  change insertEntry k x m.toList = _
  rw [h, insertEntry_append _ hbelow, insertEntry, Std.ReflOrd.compare_self]

/-- The keys in front of the last one are below it. -/
theorem compare_of_last? {m : SortedMap κ α} {k k' : κ} {x y : α} (h : m.last? = some (k, x))
    (hy : m.get? k' = some y) : compare k' k ≠ .gt := by
  rcases List.getLast?_eq_some_iff.1 h with ⟨l, hlist⟩
  have hsorted := m.sorted
  rw [hlist, List.pairwise_append] at hsorted
  have hmem := mem_toList_iff.2 hy
  rw [hlist] at hmem
  rcases List.mem_append.1 hmem with hfront | hlast
  · rw [hsorted.2.2 _ hfront (k, x) (List.mem_singleton_self _)]
    exact Ordering.noConfusion
  · rw [(Prod.mk.inj (List.mem_singleton.1 hlast)).1, Std.ReflOrd.compare_self]
    exact Ordering.noConfusion

/-- The last entry is found under a key that no other one is above. -/
theorem last?_eq_some_iff {m : SortedMap κ α} {k : κ} {x : α} :
    m.last? = some (k, x) ↔
      m.get? k = some x ∧ ∀ k' y, m.get? k' = some y → compare k' k ≠ .gt := by
  constructor
  · intro h
    exact ⟨mem_toList_iff.1 (List.mem_of_getLast? h), fun _ _ hy => compare_of_last? h hy⟩
  · rintro ⟨hx, habove⟩
    cases hlast : m.last? with
    | none =>
        have hmem := mem_toList_iff.2 hx
        rw [List.getLast?_eq_none_iff.1 hlast] at hmem
        cases hmem
    | some e =>
        -- The two keys are not above each other, so they are one key.
        have hfound : m.get? e.1 = some e.2 := mem_toList_iff.1 (List.mem_of_getLast? hlast)
        have hle := compare_of_last? hlast hx
        have hge := habove e.1 e.2 hfound
        obtain rfl := eq_of_compare_ne_gt hle hge
        rw [hx] at hfound
        rw [Option.some.inj hfound]

end Lawful

end SortedMap

end Rescale
