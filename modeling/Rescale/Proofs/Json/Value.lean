import Rescale.Proofs.Decimal.Reread
import Rescale.Proofs.Decimal.Spelling
import Rescale.Proofs.Json.Document
import Rescale.SortedMap.Lemmas

/-!
# Written Values

The values that records consist of are read from JSON as they were written.

Each kind of value has a law of its own, and records are put together from them. Most
of them come back unchanged, and some only within bounds: a natural number has to stay
below the one that the reader states. A double comes back reread, and one that is not
finite does not come back at all. That carries over to a map as a whole. One value in
it that is lost is enough to lose them all, so the law of maps is about what is true of
all values of a map, and not about one of them.

## Theorems

* `plain_nat`, `plain_float`, `plain_object`, `plain_ofMap`: What is written is
  written to be read again.
* `nat?_nat`, `int?_int`: Whole numbers come back.
* `float?_float`: A double comes back reread if it is finite.
* `nullable?_ofOption`: What is missing is missing again.
* `bind_fields?`, `required_cons`: The fields of an object are its members.
* `map?_ofMap`, `map?_ofMap_self`: A map comes back if all of its values do.
-/

namespace Rescale

namespace Json

/-! ### Plain values -/

theorem plain_int (n : Int) : Plain (int n) := .number (Decimal.Numeral.spelled_ofInt n)

theorem plain_nat (n : Nat) : Plain (nat n) := plain_int n

theorem plain_float (x : Float) : Plain (float x) := by
  rw [float]
  split
  · exact .number (Decimal.Numeral.spelled_ofFloat x)
  · exact .null

/-- A record is plain if its members are, one after the other. -/
theorem plain_object {members : List (String × Json)}
    (h : members.Forall fun member => Plain member.2) : Plain (object members) :=
  .object (List.forall_iff_forall_mem.1 h)

section Plain

variable {α : Type} {f : α → Json}

theorem plain_ofOption (h : ∀ x, Plain (f x)) (o : Option α) : Plain (ofOption f o) := by
  cases o with
  | none => exact .null
  | some x => exact h x

theorem plain_ofMap {κ : Type} [Ord κ] (name : κ → String) (h : ∀ x, Plain (f x))
    (m : SortedMap κ α) : Plain (ofMap name f m) := by
  refine .object fun member hmember => ?_
  obtain ⟨e, _, rfl⟩ := List.mem_map.1 hmember
  exact h e.2

end Plain

/-! ### Numbers -/

theorem int?_int (n : Int) : (int n).int? = some n := Decimal.Numeral.int?_ofInt n

theorem nat?_nat {limit n : Nat} (h : n < limit) : (nat n).nat? limit = some n := by
  rw [nat?, nat, int?_int]
  exact if_pos ⟨Int.natCast_nonneg n, Int.ofNat_lt.2 h⟩

/-- A double comes back reread if it is finite, and is lost if it is not. -/
theorem float?_float (x : Float) :
    (float x).float? = if x.isFinite then some (Decimal.reread x) else none := by
  rw [float]
  by_cases hfinite : x.isFinite = true
  · rw [if_pos hfinite, if_pos hfinite, float?, Decimal.reread, if_pos hfinite]
    cases hread : (Decimal.Numeral.ofFloat x).coarse? with
    | some y => rfl
    | none =>
        -- A numeral that was too large would have come back infinite.
        have hreread := Decimal.isFinite_reread hfinite
        rw [Decimal.reread, if_pos hfinite, hread, Option.getD_none] at hreread
        exact absurd hreread (by decide +kernel)
  · rw [if_neg hfinite, if_neg hfinite]
    rfl

/-! ### Records -/

/-- The fields of an object are its members, if no two of them have the same name. -/
theorem bind_fields? {β : Type} {members : List (String × Json)} {names : List String}
    {f : List (String × Json) → Option β} {found : Option β}
    (hnames : members.map (·.1) = names) (hne : names.Nodup) (hf : f members = found) :
    ((object members).fields? names >>= f) = found := by
  have hfields : (object members).fields? names = some members := by
    refine if_pos (List.all_eq_true.2 fun name _ => decide_eq_true ?_)
    have hcount := List.nodup_iff_count_le_one.1 (hnames ▸ hne) name
    rw [List.count, List.countP_map, List.countP_eq_length_filter] at hcount
    exact hcount
  rw [hfields]
  exact hf

/-- What is read under a condition is there for the rest under the condition. -/
theorem bind_ite {α β : Type} (b : Bool) (x : α) (f : α → Option β) :
    ((if b then some x else none) >>= f) = if b then f x else none := by
  cases b with
  | true => rfl
  | false => rfl

/-- A field is the first member that has its name. -/
theorem required_cons {α : Type} (member name : String) (j : Json)
    (rest : List (String × Json)) (read : Json → Option α) :
    required ((member, j) :: rest) name read =
      if name = member then read j else required rest name read := by
  rw [required, required, List.lookup_cons]
  by_cases h : name = member
  · rw [if_pos h, beq_iff_eq.2 h]
    rfl
  · rw [if_neg h, beq_false_of_ne h]

theorem fieldOr_cons {α : Type} (member name : String) (j : Json) (rest : List (String × Json))
    (default : α) (read : Json → Option α) :
    fieldOr ((member, j) :: rest) name default read =
      if name = member then read j else fieldOr rest name default read := by
  rw [fieldOr, fieldOr, List.lookup_cons]
  by_cases h : name = member
  · rw [if_pos h, beq_iff_eq.2 h]
  · rw [if_neg h, beq_false_of_ne h]

/-- What is missing is missing again, if nothing that is there is written as null. -/
theorem nullable?_ofOption {α β : Type} {f : α → Json} {read : Json → Option β}
    (hne : ∀ x, f x ≠ null) (o : Option α) :
    nullable? read (ofOption f o) =
      match o with
      | none => some none
      | some x => (read (f x)).map some := by
  cases o with
  | none => rfl
  | some x => exact nullable?.eq_2 read (f x) (hne x)

/-! ### Maps -/

/-- A list is read if all of its elements are. By induction on the list: the first one
    that is lost ends the reading. -/
theorem mapM_eq_ite {α β : Type} {l : List α} {step : α → Option β} {ok : α → Bool} {g : α → β}
    (h : ∀ x ∈ l, step x = if ok x then some (g x) else none) :
    l.mapM step = if l.all ok then some (l.map g) else none := by
  induction l with
  | nil => rfl
  | cons x rest ih =>
      rw [List.mapM_cons, h x List.mem_cons_self, ih fun y hy => h y (List.mem_cons_of_mem _ hy),
        List.all_cons]
      cases ok x with
      | true =>
          cases rest.all ok with
          | true => rfl
          | false => rfl
      | false => rfl

section Maps

variable {κ : Type} [Ord κ] [Std.TransOrd κ] [Std.LawfulEqOrd κ] {α β : Type}
  {name : κ → String} {key? : String → Option κ} {f : α → Json}

/-- A map comes back if all of its values do, and is lost otherwise. -/
theorem map?_ofMap {read : Json → Option β} {p : α → Bool} {g : α → β} {m : SortedMap κ α}
    (hkey : ∀ e ∈ m.toList, key? (name e.1) = some e.1)
    (hread : ∀ e ∈ m.toList, read (f e.2) = if p e.2 then some (g e.2) else none) :
    map? key? read (ofMap name f m) =
      if m.values.all p then some (m.mapValues fun _ x => g x) else none := by
  have hentries : (m.toList.map fun e => (name e.1, f e.2)).mapM
      (fun e => do return (← key? e.1, ← read e.2) : String × Json → Option (κ × β)) =
        if m.toList.all (fun e => p e.2) then some (m.toList.map fun e => (e.1, g e.2))
        else none := by
    rw [List.mapM_map]
    refine mapM_eq_ite fun e he => ?_
    simp only [Function.comp_apply, hkey e he, hread e he, Option.bind_eq_bind, Option.bind_some]
    split
    · rfl
    · rfl
  have hvalues : m.values.all p = m.toList.all fun e => p e.2 := List.all_map
  simp only [hvalues, map?, ofMap, object?, Option.bind_eq_bind, Option.bind_some] at hentries ⊢
  rw [hentries]
  split
  · exact congrArg some (SortedMap.ofList_toList (m.mapValues fun _ x => g x))
  · rfl

/-- A map comes back as it was if its values do. -/
theorem map?_ofMap_self {read : Json → Option α} {m : SortedMap κ α}
    (hkey : ∀ e ∈ m.toList, key? (name e.1) = some e.1)
    (hread : ∀ e ∈ m.toList, read (f e.2) = some e.2) :
    map? key? read (ofMap name f m) = some m := by
  have hall : m.values.all (fun _ => true) = true := List.all_eq_true.2 fun _ _ => rfl
  have hsame : (m.mapValues fun _ x => x) = m := SortedMap.ext fun k => by
    rw [SortedMap.get?_mapValues, Option.map_id']
  rw [map?_ofMap (p := fun _ => true) (g := fun x => x) hkey fun e he => by
    rw [hread e he, if_pos rfl], if_pos hall, hsame]

end Maps

end Json

end Rescale
