import Rescale.Proofs.Config.Ranges
import Rescale.Proofs.Decision.Failure
import Rescale.Proofs.Decision.Gates
import Rescale.Proofs.Memory.Size

/-!
# Advice of Memory Tuning

What tuning asks for can be done, and it is what was computed.

A tuned size leaves the tuner as a text, like every override, and comes back into
the options through the reader of sizes and the check of all options. On this way
it could be lost twice: it could be read as another size, or the options with it
could be refused. Neither happens. A tuned size has 64 bits, so its text reads
back, and the check does not ask for the size of a process at all. Where tuning
asks for nothing, the options that passed their check pass it again.

So the options with the overrides on top are the old ones but for the size of a
process, the overrides change nothing the second time, and task managers have the
tuned size afterwards. If that is the size they had, no override is needed. And a
decision never fails because of what tuning asks for.

## Main definitions

* `Config.Fit`: Options that passed their check, with a least size of 64 bits.
* `Config.sized`: Options with a size of a process.

## Theorems

* `fit_of_accepts`: Accepted configurations are fit.
* `tunedSize_lt`: A tuned size has 64 bits.
* `withOverrides_sized`: Overriding the size of a process with a written size.
* `Tuner.overrides_cases`, `overrides_of_known`: What tuning asks for.
* `processSize?_tuned`: Task managers have the tuned size afterwards.
* `tune_applicable`: What it asks for can be done and is what was computed.
-/

namespace Rescale

namespace Config

/-- The options passed their check, and the least size of a process is a number of
    64 bits, as all sizes that were read are. -/
structure Fit (c : Config) : Prop where
  check : c.check = .ok ()
  minProcessSize : c.memory.minProcessSize < Text.wordLimit

/-- Options with a size of a process, or without one. -/
def sized (c : Config) (size : Option Nat) : Config :=
  { c with memory := { c.memory with processSize := size } }

/-! ### Fit options -/

theorem lt_of_readSize {field value : String} {n : Nat} (h : readSize field value = .ok n) :
    n < Text.wordLimit := by
  unfold readSize at h
  split at h
  · next size hread =>
    obtain rfl := Except.ok.inj h
    obtain ⟨_, _, _, _, rfl, hlt⟩ := MemorySize.ofText?_eq_some_iff.1 hread
    exact hlt
  · cases h

end Config

/-- The least size of a process is read, or it is the default. -/
theorem Draft.fit_of_resolve {d : Draft} {c : Config} (h : d.resolve = .ok c) : c.Fit := by
  refine ⟨(check_of_resolve h).1, ?_⟩
  simp only [resolve, Config.bind_eq_ok_iff, Memory.resolve] at h
  rcases h with ⟨_, _, memory, ⟨_, _, least, hleast, hmemory⟩, _, _, _, _, _, _, hchecked⟩
  rcases Config.checked_eq_ok_iff.1 hchecked with ⟨_, rfl⟩
  obtain rfl := Except.ok.inj hmemory
  cases hwritten : d.memory.minProcessSize with
  | none =>
      rw [hwritten] at hleast
      obtain rfl := Except.ok.inj hleast
      change MemorySize.gibibyte < Text.wordLimit
      decide
  | some written =>
      rw [hwritten] at hleast
      exact Config.lt_of_readSize hleast

/-- By induction on the overrides: none of them is the least size of a process. -/
theorem Draft.fit_of_accepts {d : Draft} {c : Config} (h : d.Accepts c) : c.Fit := by
  induction h with
  | resolved h => exact fit_of_resolve h
  | overridden _ _ h ih =>
      refine ⟨Config.check_of_withOverrides h, ?_⟩
      obtain ⟨_, _, rfl⟩ := Config.exists_of_withOverrides h
      exact ih.minProcessSize

/-! ### Tuned sizes -/

theorem tunedSize_lt {options : Config.Memory} (h : options.minProcessSize < Text.wordLimit)
    (total : Nat) (usage : Float) : tunedSize options total usage < Text.wordLimit :=
  max_lt (Nat.mod_lt _ (by decide)) h

/-- With the present size known and a usable heap usage, the new size is the tuned
    one, unless task managers have it already. -/
theorem newSize?_of_known {ctx : JobContext} {readings : JobReadings} {total : Nat} {usage : Float}
    (htotal : ctx.processSize? ctx.config.memory = some total)
    (husage : usableHeapUsage? readings = some usage) :
    newSize? ctx readings =
      if tunedSize ctx.config.memory total usage = total then none
      else some (tunedSize ctx.config.memory total usage) := by
  simp only [newSize?, htotal, husage, beq_iff_eq]

theorem newSize?_lt {ctx : JobContext} {readings : JobReadings}
    (h : ctx.config.memory.minProcessSize < Text.wordLimit) {size : Nat}
    (hsize : newSize? ctx readings = some size) : size < Text.wordLimit := by
  simp only [newSize?] at hsize
  split at hsize
  · split at hsize
    · cases hsize
    · obtain rfl := Option.some.inj hsize
      exact tunedSize_lt h _ _
  · cases hsize

theorem usableHeapUsage?_of_finite {readings : JobReadings} {r : Reading}
    (hr : readings.overall? .heapMaxUsageRatio = some r) (hfinite : r.average.isFinite = true)
    (hpos : 0.0 < r.average) : usableHeapUsage? readings = some r.average := by
  rw [usableHeapUsage?, hr, Option.map_some, Option.filter_some, if_pos]
  simp only [hfinite, hpos, decide_true, Bool.and_self]

namespace Config

/-- The text of a size is read and passes every check. -/
theorem withOverrides_sized {c : Config} (hc : c.check = .ok ()) {size : Nat}
    (hsize : size < Text.wordLimit) :
    c.withOverrides (SortedMap.empty.insert processSizeKey (MemorySize.text size)) =
      .ok (c.sized (some size)) := by
  refine withOverrides_eq_ok_iff.2 ⟨?_, hc⟩
  have hread : readSize "memory.process_size" (MemorySize.text size) = .ok size := by
    rw [readSize, MemorySize.ofText?_text hsize]
  change (c.setOption processSizeKey (MemorySize.text size) >>= fun c => c.setOptions []) = _
  rw [setOption, if_pos (beq_self_eq_true _), hread]
  rfl

theorem withOverrides_empty {c : Config} (hc : c.check = .ok ()) : c.withOverrides ∅ = .ok c :=
  withOverrides_eq_ok_iff.2 ⟨rfl, hc⟩

end Config

/-! ### What tuning asks for -/

namespace Tuner

variable {ctx : JobContext} {readings : JobReadings}

/-- The only thing that tuning asks for is the new size of a process. -/
theorem overrides_heap (hon : ctx.config.memory.tuningEnabled = true) :
    (heap.tune ctx readings).overrides =
      match newSize? ctx readings with
      | some size => SortedMap.empty.insert Config.processSizeKey (MemorySize.text size)
      | none => ∅ := by
  simp only [tune, hon, if_true]
  cases newSize? ctx readings with
  | none => rfl
  | some size => rfl

/-- Where tuning is disabled it asks for nothing. -/
theorem overrides_of_disabled (t : Tuner) (hoff : ctx.config.memory.tuningEnabled = false) :
    (t.tune ctx readings).overrides = ∅ := by
  cases t with
  | off => rfl
  | heap =>
      simp only [tune, hoff, Bool.false_eq_true, if_false]
      cases newSize? ctx readings with
      | none => rfl
      | some size => rfl

/-- Tuning asks for nothing, or for a size that its text stands for. -/
theorem overrides_cases (t : Tuner) (readings : JobReadings) (hfit : ctx.config.Fit) :
    (t.tune ctx readings).overrides = ∅ ∨
      ∃ size, size < Text.wordLimit ∧ newSize? ctx readings = some size ∧
        (t.tune ctx readings).overrides =
          SortedMap.empty.insert Config.processSizeKey (MemorySize.text size) := by
  cases hon : ctx.config.memory.tuningEnabled with
  | false => exact Or.inl (overrides_of_disabled t hon)
  | true =>
      cases t with
      | off => exact Or.inl rfl
      | heap =>
          rw [overrides_heap hon]
          cases hsize : newSize? ctx readings with
          | none => exact Or.inl rfl
          | some size => exact Or.inr ⟨size, newSize?_lt hfit.minProcessSize hsize, rfl, rfl⟩

end Tuner

/-- Options with a size are sized again by the same size. -/
theorem exists_withOverrides_tune (t : Tuner) {ctx : JobContext} (readings : JobReadings)
    (hfit : ctx.config.Fit) :
    ∃ size, ctx.config.withOverrides (t.tune ctx readings).overrides =
        .ok (ctx.config.sized size) ∧
      (ctx.config.sized size).withOverrides (t.tune ctx readings).overrides =
        .ok (ctx.config.sized size) := by
  rcases t.overrides_cases readings hfit with hnone | ⟨size, hlt, _, hsome⟩
  · rw [hnone]
    exact ⟨ctx.config.memory.processSize, Config.withOverrides_empty hfit.check,
      Config.withOverrides_empty hfit.check⟩
  · rw [hsome]
    exact ⟨some size, Config.withOverrides_sized hfit.check hlt,
      Config.withOverrides_sized hfit.check hlt⟩

section Known

variable {ctx : JobContext} {readings : JobReadings} {total : Nat} {usage : Float}

/-- Where the present size and the heap usage are known, tuning asks for the tuned
    size or, if task managers have it, for nothing. -/
theorem overrides_of_known (hon : ctx.config.memory.tuningEnabled = true)
    (htotal : ctx.processSize? ctx.config.memory = some total)
    (husage : usableHeapUsage? readings = some usage) :
    (Tuner.heap.tune ctx readings).overrides =
      if tunedSize ctx.config.memory total usage = total then ∅
      else SortedMap.empty.insert Config.processSizeKey
        (MemorySize.text (tunedSize ctx.config.memory total usage)) := by
  rw [Tuner.overrides_heap hon, newSize?_of_known htotal husage]
  by_cases hsame : tunedSize ctx.config.memory total usage = total
  · rw [if_pos hsame, if_pos hsame]
  · rw [if_neg hsame, if_neg hsame]

/-- No override is needed exactly if task managers have the tuned size. -/
theorem overrides_eq_empty_iff (hon : ctx.config.memory.tuningEnabled = true)
    (htotal : ctx.processSize? ctx.config.memory = some total)
    (husage : usableHeapUsage? readings = some usage) :
    (Tuner.heap.tune ctx readings).overrides = ∅ ↔
      tunedSize ctx.config.memory total usage = total := by
  rw [overrides_of_known hon htotal husage]
  by_cases hsame : tunedSize ctx.config.memory total usage = total
  · rw [if_pos hsame]
    exact iff_of_true rfl hsame
  · rw [if_neg hsame]
    refine iff_of_false (fun hempty => ?_) hsame
    have hkey := congrArg (·.get? Config.processSizeKey) hempty
    simp only [SortedMap.get?_insert_self, SortedMap.get?_empty, reduceCtorEq] at hkey

/-- Once tuned, task managers have the tuned size. -/
theorem processSize?_tuned (hfit : ctx.config.Fit)
    (hon : ctx.config.memory.tuningEnabled = true)
    (htotal : ctx.processSize? ctx.config.memory = some total)
    (husage : usableHeapUsage? readings = some usage) {tuned : Config}
    (htuned : ctx.config.withOverrides (Tuner.heap.tune ctx readings).overrides = .ok tuned) :
    ctx.processSize? tuned.memory = some (tunedSize ctx.config.memory total usage) := by
  rw [overrides_of_known hon htotal husage] at htuned
  by_cases hsame : tunedSize ctx.config.memory total usage = total
  · -- Nothing is asked for, and the size is the present one already.
    rw [if_pos hsame, Config.withOverrides_empty hfit.check] at htuned
    rw [← Except.ok.inj htuned, htotal, hsame]
  · rw [if_neg hsame,
      Config.withOverrides_sized hfit.check (tunedSize_lt hfit.minProcessSize _ _)] at htuned
    rw [← Except.ok.inj htuned]
    rfl

end Known

/-! ### Decisions -/

/-- Whatever the tuner asks for, the options accept it. -/
theorem exists_tunedConfig (t : Tuner) {ctx : JobContext} (hfit : ctx.config.Fit)
    (readings : JobReadings) :
    ∃ tuned, tunedConfig ctx.config (t.tune ctx readings).overrides = .ok tuned := by
  cases hon : ctx.config.memory.tuningEnabled with
  | false =>
      have hnot : ¬ctx.config.memory.tuningEnabled = true := Bool.eq_false_iff.1 hon
      exact ⟨ctx.config, tunedConfig_eq_ok_iff.2 ⟨fun h => absurd h hnot, fun _ => rfl⟩⟩
  | true =>
      have hnot : ¬ctx.config.memory.tuningEnabled = false := by rw [hon]; exact Bool.noConfusion
      obtain ⟨size, hsized, _⟩ := exists_withOverrides_tune t readings hfit
      exact ⟨_, tunedConfig_eq_ok_iff.2 ⟨fun _ => hsized, fun h => absurd h hnot⟩⟩

/-- What tuning asks for is accepted by options that passed their check. It
    changes the size of a process only, and asking for it twice changes nothing
    more. With tuning enabled, the size of task managers known and a heap usage
    that is finite and above zero, task managers have the tuned size afterwards;
    if they had it before, nothing is asked for. With tuning disabled nothing is
    asked for in any case. And no decision fails because of its options. -/
theorem tune_applicable (ctx : JobContext) (readings : JobReadings) (hfit : ctx.config.Fit) :
    (∃ tuned,
      ctx.config.withOverrides (Tuner.heap.tune ctx readings).overrides = .ok tuned ∧
      (∃ size, tuned = ctx.config.sized size) ∧
      tuned.withOverrides (Tuner.heap.tune ctx readings).overrides = .ok tuned ∧
      (ctx.config.memory.tuningEnabled = true →
        ∀ total r, ctx.processSize? ctx.config.memory = some total →
          readings.overall? .heapMaxUsageRatio = some r → r.average.isFinite = true →
          0.0 < r.average →
          ctx.processSize? tuned.memory =
              some (tunedSize ctx.config.memory total r.average) ∧
            ((Tuner.heap.tune ctx readings).overrides = ∅ ↔
              tunedSize ctx.config.memory total r.average = total))) ∧
    (ctx.config.memory.tuningEnabled = false → (Tuner.heap.tune ctx readings).overrides = ∅) ∧
    ∀ (e : Engine) (topology : Topology) (now : Instant) (s t : Session) (err : DecisionError),
      Step.Fails (e.decide ctx topology now) s err t → ∀ cause, err ≠ .config cause := by
  refine ⟨?_, Tuner.overrides_of_disabled .heap, fun e topology now s t err hfails cause => ?_⟩
  · obtain ⟨size, hsized, hagain⟩ := exists_withOverrides_tune .heap readings hfit
    refine ⟨_, hsized, ⟨size, rfl⟩, hagain, fun hon total r htotal hr hfinite hpos => ?_⟩
    have husage := usableHeapUsage?_of_finite hr hfinite hpos
    exact ⟨processSize?_tuned hfit hon htotal husage hsized,
      overrides_eq_empty_iff hon htotal husage⟩
  · have hdata := (e.overData_decide ctx topology now (exists_tunedConfig e.tuner hfit)).fails
      s err t trivial hfails
    rintro rfl
    exact hdata

namespace IdleHeap

/-- Task managers report four gibibytes, and tuning is enabled. -/
def context : JobContext where
  id := "job"
  config := { memory := { tuningEnabled := true } }
  memory := some (4 * MemorySize.gibibyte)

/-- Half of the heap is used that should be. -/
def readings : JobReadings where
  overall := SortedMap.ofList [(.heapMaxUsageRatio, .point 0.35)]

/-- Tuning asks for two gibibytes, and the options give task managers as much. -/
theorem tune_applicable_two_gibibytes :
    context.config.Fit ∧
      ∃ tuned, context.config.withOverrides (Tuner.heap.tune context readings).overrides =
          .ok tuned ∧
        context.processSize? tuned.memory = some (2 * MemorySize.gibibyte) ∧
        (Tuner.heap.tune context readings).overrides ≠ ∅ := by
  have hfit : context.config.Fit := ⟨by decide +kernel, by decide⟩
  have htuned : tunedSize context.config.memory (4 * MemorySize.gibibyte) 0.35 =
      2 * MemorySize.gibibyte := by
    decide +kernel
  rcases (tune_applicable context readings hfit).1 with ⟨tuned, hoptions, _, _, hsize⟩
  rcases hsize rfl _ (.point 0.35) rfl rfl (by decide +kernel) (by decide +kernel) with
    ⟨hprocess, hnone⟩
  change _ = some (tunedSize _ _ 0.35) at hprocess
  change _ ↔ tunedSize _ _ 0.35 = _ at hnone
  rw [htuned] at hprocess hnone
  exact ⟨hfit, tuned, hoptions, hprocess, fun hempty => absurd (hnone.1 hempty) (by decide)⟩

end IdleHeap

end Rescale
