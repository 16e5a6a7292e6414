import Mathlib.Data.List.Infix
import Rescale.Proofs.Text.Bytes
import Rescale.Proofs.Text.Padded
import Rescale.Store.Basic

/-!
# Generation Keys

Which generations a key stands for, and which a job is listed with.

The key of a generation is its job, a colon and the digits of its period. Digits
are no colons, so the last colon of a key is the one behind the job, and the key
tells both parts apart whatever the job is called. Periods are padded to twenty
digits, which is as long as a period of 64 bits can get, so the keys of one job are
in the order of its periods. A listing however goes by what a key starts with, and
there the colon may also be one of a longer job: the keys that start with a job and
a colon are those of the job itself and of all jobs that start with it and a colon.

## Main definitions

* `JobId.Nests`: A job starts with another one and a colon.

## Theorems

* `append_colon_prefix_iff`: Which texts start with another one and a colon.
* `generationKey_inj`: A key has one job and one period.
* `bytes_generationKey_lt_iff`: The keys of a job are in the order of its periods.
* `isGenerationOf_generationKey_iff`: Whose generations are listed with a job.
* `not_isGenerationOf_both`: No key is listed with two jobs that are not nested.
-/

namespace Rescale

/-- A job is nested in another one if it starts with that job and a colon. -/
def JobId.Nests (outer inner : JobId) : Prop := Store.generationPrefix outer <+: inner.toList

instance (outer inner : JobId) : Decidable (JobId.Nests outer inner) :=
  inferInstanceAs (Decidable (_ <+: _))

namespace Store

/-- A text with a colon behind it starts a text that ends in a colon and no
    colons exactly if both are the same up to that colon, or the first one
    starts the second one before it. -/
theorem append_colon_prefix_iff {outer inner rest : List Char} (hrest : ':' ∉ rest) :
    outer ++ [':'] <+: inner ++ [':'] ++ rest ↔ outer = inner ∨ outer ++ [':'] <+: inner := by
  constructor
  · rintro ⟨tail, htail⟩
    rcases List.append_eq_append_iff.1 htail with ⟨mid, hmid, _⟩ | ⟨mid, hmid, hrest'⟩
    · -- The colon of the first stands in front of the last colon, or is that one.
      rcases List.eq_nil_or_concat' mid with rfl | ⟨front, c, rfl⟩
      · rw [List.append_nil] at hmid
        exact Or.inl (List.append_cancel_right hmid).symm
      · rw [← List.append_assoc] at hmid
        exact Or.inr ⟨front, (List.append_inj_left' hmid rfl).symm⟩
    · -- Behind the last colon there is none.
      rcases List.eq_nil_or_concat' mid with rfl | ⟨front, c, rfl⟩
      · rw [List.append_nil] at hmid
        exact Or.inl (List.append_cancel_right hmid)
      · rw [← List.append_assoc] at hmid
        have hc : ':' = c := List.singleton_inj.1 (List.append_inj_right' hmid rfl)
        refine absurd ?_ hrest
        rw [hrest', hc]
        exact List.mem_append_left _ (List.mem_append_right _ List.mem_cons_self)
  · rintro (rfl | hinner)
    · exact List.prefix_append _ _
    · rw [List.append_assoc]
      exact hinner.trans (List.prefix_append _ _)

theorem isGenerationOf_iff {job : JobId} {key : String} :
    isGenerationOf job key = true ↔ generationPrefix job <+: key.toList :=
  List.isPrefixOf_iff_prefix

/-- The generations that are listed with a job are its own and those of the jobs
    that are nested in it. -/
theorem isGenerationOf_generationKey_iff {outer inner : JobId} {period : Nat} :
    isGenerationOf outer (generationKey inner period) = true ↔
      outer = inner ∨ JobId.Nests outer inner := by
  rw [isGenerationOf_iff, generationKey, String.toList_ofList, generationPrefix, generationPrefix,
    append_colon_prefix_iff (Text.colon_notMem_padded 20 period), String.toList_inj]
  rfl

/-- Of two jobs only one can be nested in the other, the longer one. -/
theorem not_nests_of_nests {outer inner : JobId} (h : JobId.Nests outer inner) :
    ¬JobId.Nests inner outer := by
  intro h'
  have hlength := h.length_le
  have hlength' := h'.length_le
  rw [generationPrefix, List.length_append, List.length_singleton] at hlength hlength'
  omega

/-- A key has one job and one period. -/
theorem generationKey_inj {job job' : JobId} {period period' : Nat} :
    generationKey job period = generationKey job' period' ↔ job = job' ∧ period = period' := by
  constructor
  · intro h
    -- Each of the two is listed with the job of the other.
    have hjob : job = job' := by
      have hleft : isGenerationOf job (generationKey job' period') = true := by
        rw [← h]
        exact isGenerationOf_generationKey_iff.2 (Or.inl rfl)
      have hright : isGenerationOf job' (generationKey job period) = true := by
        rw [h]
        exact isGenerationOf_generationKey_iff.2 (Or.inl rfl)
      rcases isGenerationOf_generationKey_iff.1 hleft with heq | hnests
      · exact heq
      · rcases isGenerationOf_generationKey_iff.1 hright with heq | hnests'
        · exact heq.symm
        · exact absurd hnests' (not_nests_of_nests hnests)
    subst hjob
    have hpadded := List.append_cancel_left (String.ofList_inj.1 h)
    exact ⟨rfl, Text.padded_inj.1 hpadded⟩
  · rintro ⟨rfl, rfl⟩
    rfl

/-- The keys of a job, by their bytes, are in the order of its periods. -/
theorem bytes_generationKey_lt_iff {job : JobId} {p q : Nat} (hp : p < Text.wordLimit)
    (hq : q < Text.wordLimit) :
    Text.bytes (generationKey job p) < Text.bytes (generationKey job q) ↔ p < q := by
  have hroom : Text.wordLimit ≤ 10 ^ 20 := by decide
  have hmono : ∀ {p q : Nat}, p < Text.wordLimit → q < Text.wordLimit → p < q →
      Text.bytes (generationKey job p) < Text.bytes (generationKey job q) := by
    intro p q hp hq h
    rw [← Text.lt_iff_bytes_lt, String.lt_iff_toList_lt, generationKey, generationKey,
      String.toList_ofList, String.toList_ofList]
    exact List.append_left_lt
      ((Text.padded_lt_padded_iff (by decide) (hp.trans_le hroom) (hq.trans_le hroom)).2 h)
  refine ⟨fun h => ?_, hmono hp hq⟩
  rcases lt_trichotomy p q with hlt | rfl | hgt
  · exact hlt
  · exact absurd h (List.lt_irrefl _)
  · exact absurd h (List.lt_asymm (hmono hq hp hgt))

/-- No key is listed with two jobs unless one of them is nested in the other. -/
theorem not_isGenerationOf_both {job job' : JobId} {key : String} (hne : job ≠ job')
    (hnests : ¬JobId.Nests job job') (hnests' : ¬JobId.Nests job' job)
    (h : isGenerationOf job key = true) : isGenerationOf job' key = false := by
  rw [Bool.eq_false_iff]
  intro h'
  rw [isGenerationOf_iff] at h h'
  -- Of two starts of one text, one starts the other.
  have hcomparable := List.prefix_or_prefix_of_prefix h h'
  have hcolon : ':' ∉ ([] : List Char) := List.not_mem_nil
  rcases hcomparable with hstart | hstart
  · rw [generationPrefix, generationPrefix, ← List.append_nil (job'.toList ++ [':']),
      append_colon_prefix_iff hcolon, String.toList_inj] at hstart
    exact hstart.elim hne hnests
  · rw [generationPrefix, generationPrefix, ← List.append_nil (job.toList ++ [':']),
      append_colon_prefix_iff hcolon, String.toList_inj] at hstart
    exact hstart.elim (fun heq => hne heq.symm) hnests'

end Store

end Rescale
