import Rescale.Proofs.Decimal.Reread
import Rescale.Proofs.Job.History
import Rescale.Proofs.Store.Writes

/-!
# Stores with Finite Numbers

When records can be read back.

Two kinds of records hold doubles: histories and generations. Text has no
spelling for a double that is not finite, so a record with such a double is lost,
although it could be written. What is written of a finite double is read back as a
finite one. It may be another one, but a record stays readable however often it is
read and stored again. So a store in which all doubles are finite answers every
question, and it takes a record with a double that is not finite to change that.

## Main definitions

* `Readings.IsFinite`: All doubles of some readings are finite.
* `JobWrite.IsFinite`: What is written has finite doubles only.
* `Store.ReadsBack`: How a record that was put comes back.
* `Store.IsFinite`: All doubles of a store are finite.
* `Store.Readable`: A store answers every question about every job.

## Theorems

* `isFinite_reread_eq`: Rereading changes neither what is finite nor what is not.
* `rereadHistory_eq`, `rereadGeneration_eq`: Which records are read back.
* `readsBack_readBack?`, `readBackAll_eq`: Which answers and which lists are.
* `isFinite_perform`: Finite writes keep a store finite.
* `readable_of_isFinite`: A finite store answers every question.
-/

namespace Rescale

/-! ### Records -/

/-- What is not finite is written as nothing, so it is not changed either. -/
theorem Decimal.isFinite_reread_eq (x : Float) : (reread x).isFinite = x.isFinite := by
  cases hx : x.isFinite with
  | true => exact isFinite_reread hx
  | false => rw [reread, hx, if_neg Bool.false_ne_true, hx]

section MapFloats

variable {f : Float → Float} (hf : ∀ x, (f x).isFinite = x.isFinite)

include hf

theorem Reading.isFinite_mapFloats (r : Reading) : (r.mapFloats f).isFinite = r.isFinite := by
  rw [isFinite, isFinite, mapFloats, hf, hf]

theorem Change.isFinite_mapFloats (c : Change) : (c.mapFloats f).isFinite = c.isFinite := by
  have hprofile : ∀ o : Option SlotProfile,
      ((o.map (·.mapFloats f)).all (·.cpuCores.isFinite)) = o.all (·.cpuCores.isFinite) := by
    intro o
    cases o with
    | none => rfl
    | some profile => exact hf profile.cpuCores
  unfold isFinite mapFloats
  rw [hprofile, hprofile, SortedMap.all_values_mapValues]
  simp only [Reading.isFinite_mapFloats hf]

theorem History.isFinite_mapFloats (h : History) : (h.mapFloats f).isFinite = h.isFinite := by
  unfold isFinite mapFloats
  rw [SortedMap.all_values_mapValues]
  simp only [SortedMap.all_values_mapValues, Change.isFinite_mapFloats hf]

theorem Stance.isFinite_mapFloats (s : Stance) : (s.mapFloats f).isFinite = s.isFinite := by
  rw [isFinite, isFinite, mapFloats, hf, hf, hf]

theorem Generation.isFinite_mapFloats (g : Generation) :
    (g.mapFloats f).isFinite = g.isFinite := by
  unfold isFinite mapFloats
  rw [SortedMap.all_values_mapValues]
  simp only [Stance.isFinite_mapFloats hf]

end MapFloats

/-- All doubles of some readings are finite. -/
def Readings.IsFinite (r : Readings) : Prop :=
  ∀ m reading, r.get? m = some reading → reading.isFinite = true

/-- A change is finite if its readings are, as long as it sets no profiles. -/
theorem Change.isFinite_of_readings {c : Change} (hr : c.readings.IsFinite)
    (hcurrent : c.currentProfile = none) (htarget : c.targetProfile = none) :
    c.isFinite = true := by
  unfold isFinite
  rw [hcurrent, htarget, SortedMap.all_values_iff.2 hr]
  rfl

theorem Change.readings_of_isFinite {c : Change} (h : c.isFinite = true) : c.readings.IsFinite :=
  SortedMap.all_values_iff.1 (Bool.and_eq_true_iff.1 (Bool.and_eq_true_iff.1 h).1).1

/-- A history is finite if the change of every vertex at every instant is. -/
theorem History.isFinite_iff {h : History} :
    h.isFinite = true ↔ ∀ v i c, h.change? v i = some c → c.isFinite = true := by
  unfold isFinite change? ofVertex SortedMap.getD
  simp only [SortedMap.all_values_iff]
  constructor
  · intro hall v i c hc
    cases hv : h.get? v with
    | none => rw [hv] at hc; cases hc
    | some past => rw [hv] at hc; exact hall v past hv i c hc
  · intro hall v past hv i c hc
    have hv' := hall v i c
    rw [hv] at hv'
    exact hv' hc

theorem Generation.isFinite_iff {g : Generation} :
    g.isFinite = true ↔ ∀ v s, g.stances.get? v = some s → s.isFinite = true :=
  SortedMap.all_values_iff

namespace Store

/-! ### Reading back -/

/-- A history is read back, with every double reread, exactly if it is finite. -/
theorem rereadHistory_eq (h : History) :
    rereadHistory h =
      if h.isFinite then .ok (h.mapFloats Decimal.reread) else .error .unreadable := by
  rw [rereadHistory, History.isFinite_mapFloats Decimal.isFinite_reread_eq]

theorem rereadGeneration_eq (g : Generation) :
    rereadGeneration g =
      if g.isFinite then .ok (g.mapFloats Decimal.reread) else .error .unreadable := by
  rw [rereadGeneration, Generation.isFinite_mapFloats Decimal.isFinite_reread_eq]

/-- How the last record that was put comes back: `kept` says whether it does, and
    `back` as what. -/
structure ReadsBack {α : Type} (kept : α → Bool) (back : α → α) (last : Option α)
    (answer : Except StoreError (Option α)) : Prop where
  /-- There is none as long as none was put. -/
  missing : last = none → answer = .ok none
  found : ∀ x, last = some x → kept x = true → answer = .ok (some (back x))
  /-- It comes back as it was if reading back does not change it. -/
  same : ∀ x, last = some x → kept x = true → back x = x → answer = .ok (some x)
  /-- Another one was put and is lost. -/
  lost : ∀ x, last = some x → kept x = false → answer = .error .unreadable

section ReadBack

variable {α : Type} {reread : α → Except StoreError α} {kept : α → Bool} {back : α → α}
  (h : ∀ x, reread x = if kept x then .ok (back x) else .error .unreadable)

include h

theorem readsBack_readBack? (last : Option α) :
    ReadsBack kept back last (readBack? reread last) := by
  have hfound : ∀ x, last = some x → kept x = true →
      readBack? reread last = .ok (some (back x)) := by
    rintro x rfl hx
    rw [readBack?, h, if_pos hx]
    rfl
  refine ⟨?_, hfound, fun x hlast hx hsame => ?_, ?_⟩
  · rintro rfl
    rfl
  · rw [hfound x hlast hx, hsame]
  · rintro x rfl hx
    rw [readBack?, h, hx, if_neg Bool.false_ne_true]
    rfl

/-- A list is read back record by record, and not at all if one of them is lost. By
    induction on the records. -/
theorem readBackAll_eq (l : List α) :
    readBackAll reread l = if l.all kept then .ok (l.map back) else .error .unreadable := by
  induction l with
  | nil => rfl
  | cons x rest ih =>
      rw [readBackAll, h, ih, List.all_cons]
      cases kept x with
      | false => rfl
      | true => cases rest.all kept <;> rfl

end ReadBack

/-! ### Finite stores -/

/-- All doubles of a store are finite. The other tables hold none. -/
structure IsFinite (s : Store) : Prop where
  histories : ∀ job h, s.histories.get? job = some h → h.isFinite = true
  generations : ∀ key g, s.generations.get? key = some g → g.isFinite = true

end Store

/-- What is written has finite doubles only. -/
def JobWrite.IsFinite : JobWrite → Prop
  | .history h => h.isFinite = true
  | .generation g => g.isFinite = true
  | _ => True

namespace Store

variable {s : Store} {job : JobId}

theorem isFinite_empty : ({} : Store).IsFinite := by
  refine ⟨fun job h hh => ?_, fun key g hg => ?_⟩
  · cases hh
  · cases hg

/-- Finite writes keep a store finite. -/
theorem isFinite_perform (hs : s.IsFinite) (job : JobId) {w : JobWrite} (hw : w.IsFinite) :
    (s.perform job w).IsFinite := by
  cases w with
  | history h => exact { hs with histories := SortedMap.found_insert hs.histories hw }
  | generation g => exact { hs with generations := SortedMap.found_insert hs.generations hw }
  | delete =>
      exact ⟨SortedMap.found_filter hs.histories, SortedMap.found_filter hs.generations⟩
  | _ => exact ⟨hs.histories, hs.generations⟩

/-! ### Questions -/

/-- The history of a job is found, and finite again. -/
theorem IsFinite.history? (hs : s.IsFinite) (job : JobId) :
    ∃ found, s.history? job = .ok found ∧ ∀ h, found = some h → h.isFinite = true := by
  unfold Store.history?
  cases hh : s.histories.get? job with
  | none => exact ⟨none, rfl, fun _ heq => absurd heq (Option.some_ne_none _).symm⟩
  | some h =>
      have hfinite := hs.histories job h hh
      refine ⟨some (h.mapFloats Decimal.reread), ?_, fun h' heq => ?_⟩
      · rw [readBack?, rereadHistory_eq, if_pos hfinite]
        rfl
      · obtain rfl := Option.some.inj heq
        rwa [History.isFinite_mapFloats Decimal.isFinite_reread_eq]

theorem IsFinite.generation? (hs : s.IsFinite) (job : JobId) (period : Nat) :
    ∃ found, s.generation? job period = .ok found ∧ ∀ g, found = some g → g.isFinite = true := by
  unfold Store.generation?
  cases hg : s.generations.get? (generationKey job period) with
  | none => exact ⟨none, rfl, fun _ heq => absurd heq (Option.some_ne_none _).symm⟩
  | some g =>
      have hfinite := hs.generations _ g hg
      refine ⟨some (g.mapFloats Decimal.reread), ?_, fun g' heq => ?_⟩
      · rw [readBack?, rereadGeneration_eq, if_pos hfinite]
        rfl
      · obtain rfl := Option.some.inj heq
        rwa [Generation.isFinite_mapFloats Decimal.isFinite_reread_eq]

/-- A store answers every question about every job. Those that are not listed
    have an answer in any store. -/
structure Readable (s : Store) : Prop where
  history : ∀ job, ∃ found, s.history? job = .ok found
  generation : ∀ job period, ∃ found, s.generation? job period = .ok found
  generations : ∀ job, ∃ found, s.generationsOf job = .ok found

/-- A finite store answers every question. -/
theorem readable_of_isFinite (hs : s.IsFinite) : s.Readable where
  history := fun job => (hs.history? job).imp fun _ h => h.1
  generation := fun job period => (hs.generation? job period).imp fun _ h => h.1
  generations := by
    intro job
    have hall : (s.generations.filter fun key _ => isGenerationOf job key).values.all
        Generation.isFinite = true :=
      SortedMap.all_values_iff.2 (SortedMap.found_filter hs.generations)
    rw [generationsOf, readBackAll_eq rereadGeneration_eq, if_pos hall]
    exact ⟨_, rfl⟩

end Store

end Rescale
