import Rescale.Proofs.Cycle.Generations

/-!
# Slot Profiles of Tuned Task Managers

Which size of task managers the stored slot profiles are made for.

With memory tuning on, a decision that is applied stores two things about the
memory of a task manager: the size that tuning chose, as a change of an option,
and the slot profiles of the vertices. Cluster and quotas are asked about the
tuned size, and a restart will bring task managers of that size. The profiles,
though, are made for the size that holds before the change.

A profile is not a matter of the exact size. There are two classes of task
managers, below four gibibytes and from there on, and within a class a level of
the ladder always has the same profile. So the stored profiles are the ones of
the tuned size exactly if tuning does not lead from one class to the other, and
otherwise none of them is, whatever the level of the vertex.

## Main definitions

* `SlotProfile.SameClass`: Two sizes of task managers are in one class.
* `JobContext.sizeUnder`: The size of task managers under some options.

## Theorems

* `text_inj`: Profiles for the same cores are told apart by their texts.
* `ofLevel_eq_iff`: When a level has the same profile on two sizes.
* `runCycle_profiles`: What the stored slot profiles are made for.
-/

namespace Rescale

open Step

/-! ### Profiles and classes of task managers -/

namespace SlotProfile

/-- Two sizes of task managers, in bytes, are both below four gibibytes, or
    neither of them is. -/
def SameClass (n m : Nat) : Prop := 4 * MemorySize.gibibyte ≤ n ↔ 4 * MemorySize.gibibyte ≤ m

instance (n m : Nat) : Decidable (SameClass n m) := inferInstanceAs (Decidable (_ ↔ _))

theorem sizeClass_eq (n : Nat) :
    sizeClass n = if 4 * MemorySize.gibibyte ≤ n then large else small := by
  have hpositive : 0 < MemorySize.gibibyte := by decide
  have hle : 3 < n / MemorySize.gibibyte ↔ 4 * MemorySize.gibibyte ≤ n :=
    Nat.le_div_iff_mul_le hpositive
  exact if_congr hle rfl rfl

/-- An amount ends where its unit begins. -/
theorem amount_append_inj {m n : Nat} {rest rest' : List Char}
    (h : (toString m).toList ++ 'm' :: rest = (toString n).toList ++ 'm' :: rest') :
    m = n ∧ rest = rest' := by
  have hdigits : ∀ n : Nat, ∀ c ∈ (toString n).toList, c.isDigit = true := by
    intro n c hc
    change c ∈ (String.ofList (Nat.toDigits 10 n)).toList at hc
    rw [String.toList_ofList] at hc
    exact Nat.isDigit_of_mem_toDigits (by decide) (by decide) hc
  have hunit : ∀ rest : List Char, ('m' :: rest).takeWhile Char.isDigit = [] := fun _ => rfl
  have htake := congrArg (List.takeWhile Char.isDigit) h
  rw [List.takeWhile_append_of_pos (hdigits m), List.takeWhile_append_of_pos (hdigits n), hunit,
    hunit, List.append_nil, List.append_nil] at htake
  obtain rfl : m = n := numberText_inj.1 (String.toList_inj.1 htake)
  exact ⟨rfl, (List.cons.inj (List.append_cancel_left h)).2⟩

/-- Profiles for the same cores are told apart by their texts. -/
theorem text_inj {p q : SlotProfile} (hcores : p.cpuCores = q.cpuCores) :
    p.text = q.text ↔ p = q := by
  refine ⟨fun h => ?_, fun h => congrArg text h⟩
  have hlist := congrArg String.toList h
  simp only [text, String.toList_append, List.append_assoc, hcores,
    List.append_cancel_left_eq] at hlist
  -- One amount after the other is read off, and each time both texts go on alike.
  rcases amount_append_inj hlist with ⟨hheap, hlist⟩
  rcases amount_append_inj (List.append_cancel_left hlist) with ⟨hoffHeap, hlist⟩
  rcases amount_append_inj (List.append_cancel_left hlist) with ⟨hmanaged, hlist⟩
  rcases amount_append_inj (List.append_cancel_left hlist) with ⟨hnetwork, _⟩
  cases p
  cases q
  simp only [mk.injEq]
  exact ⟨hcores, hheap, hoffHeap, hmanaged, hnetwork⟩

/-- A level of the ladder has the same profile on two sizes exactly if they are
    in one class, as the classes differ in the heap of a slot. -/
theorem ofLevel_eq_iff {n m : Nat} (level : Int) :
    ofLevel n level = ofLevel m level ↔ SameClass n m := by
  have hheap : large.taskHeap ≠ small.taskHeap := by decide
  simp only [SameClass, ofLevel, sizeClass_eq]
  by_cases hn : 4 * MemorySize.gibibyte ≤ n
  · by_cases hm : 4 * MemorySize.gibibyte ≤ m
    · rw [if_pos hn, if_pos hm]
      exact iff_of_true rfl (iff_of_true hn hm)
    · rw [if_pos hn, if_neg hm]
      refine iff_of_false (fun h => hheap ?_) fun hsame => hm (hsame.1 hn)
      exact congrArg taskHeap h
  · by_cases hm : 4 * MemorySize.gibibyte ≤ m
    · rw [if_neg hn, if_pos hm]
      refine iff_of_false (fun h => hheap ?_) fun hsame => hn (hsame.2 hm)
      exact (congrArg taskHeap h).symm
    · rw [if_neg hn, if_neg hm]
      exact iff_of_true rfl (iff_of_false hn hm)

theorem text_ofLevel_eq_iff {n m : Nat} (level : Int) :
    (ofLevel n level).text = (ofLevel m level).text ↔ SameClass n m := by
  have hcores : (ofLevel n level).cpuCores = (ofLevel m level).cpuCores := by
    simp only [ofLevel]
  rw [text_inj hcores, ofLevel_eq_iff]

end SlotProfile

/-! ### Cycles -/

/-- The size of the task managers of a job under some options, and zero if it is
    not known. -/
def JobContext.sizeUnder (ctx : JobContext) (options : Config) : Nat :=
  (ctx.processSize? options.memory).getD 0

/-- Holds are stored in a table of their own. -/
theorem overrides_holdsStored (t : Session) (job job' : JobId) :
    (t.holdsStored job').ledger.store.configChanges? job = t.ledger.store.configChanges? job ∧
      (t.holdsStored job').ledger.store.profiles? job = t.ledger.store.profiles? job := by
  rcases exists_store_holdsStored t job' with ⟨holds, hstore⟩
  rw [hstore]
  exact ⟨rfl, rfl⟩

/-- With the elastic policy and tuning on, take a cycle that ends as scaled. The
    changes of options that it stores lead to the options that cluster and quotas
    were asked under, and it stores slot profiles for the vertices of its
    generation. Each of them is the profile of its level on task managers of the
    size before these changes, and it is the profile on the size after them
    exactly if both sizes are in one class. -/
theorem runCycle_profiles (a : Autoscaler) (source : Source) (job : JobId) (now : Instant)
    (j j' : Journal) (hon : a.config.elastic.enabled = true)
    (htuning : a.config.memory.tuningEnabled = true)
    (h : a.runCycle source job now j = (.ok (some .scaled), j')) :
    ∃ snapshot s p m tuning tuned g o, source.snapshot? job = .ok (some snapshot) ∧
      Begins job snapshot now j s ∧
      Returns (a.engine.proposal (a.context job snapshot) snapshot.topology now s) s p m ∧
      j'.ledger.store.configChanges? job = some tuning ∧
      a.config.withOverrides tuning = .ok tuned ∧
      a.engine.HasRoom (a.context job snapshot) tuned snapshot.topology
        (recommend snapshot.readings p) p ∧
      j'.ledger.store.stored? job (j.ledger.store.period job) = some g ∧
      j'.ledger.store.profiles? job = some o ∧ o.keys = g.stances.keys ∧
      ∀ v stance, g.stances.get? v = some stance → ∃ text, o.get? v = some text ∧
        text = (SlotProfile.ofLevel ((a.context job snapshot).sizeUnder a.config)
          stance.memoryLevel).text ∧
        (text = (SlotProfile.ofLevel ((a.context job snapshot).sizeUnder tuned)
            stance.memoryLevel).text ↔
          SlotProfile.SameClass ((a.context job snapshot).sizeUnder a.config)
            ((a.context job snapshot).sizeUnder tuned)) := by
  rcases Autoscaler.runCycle_ok h with ⟨snapshot, hsource, hrun⟩
  rcases Autoscaler.runSnapshot_ok hrun with ⟨s, t, hbegins, hdecision, hledger⟩
  rcases Engine.stores_of_decide hdecision with ⟨p, m, hp, hadmits, hpersist⟩
  have happlied := Engine.applied_of_stored hp hpersist
  -- The options that the gates were asked under are the ones that the stored changes lead to.
  rcases hadmits.room with ⟨tuned, htuned, hroom⟩
  have hchanges : a.config.withOverrides (a.engine.tuning (a.context job snapshot) s.readings p) =
      .ok tuned := htuned.1 htuning
  rcases happlied.policyOn hon with ⟨previous, _, hfollows⟩
  rcases hfollows.profiles with ⟨o, ho, hkeys, hprofiles⟩
  have hperiod : s.ledger.store.period job = j.ledger.store.period job :=
    (keepsDecisions_of_begins hbegins).sameGenerations.period
  rcases overrides_holdsStored t job job with ⟨hconfig, hslots⟩
  rw [hbegins.readings] at hroom
  refine ⟨snapshot, s, p, m, _, tuned, _, o, hsource, hbegins, hp, ?_, hchanges, hroom, ?_, ?_,
    hkeys, ?_⟩
  · rw [hledger, hconfig]
    exact happlied.configChanges
  · rw [hledger, (sameGenerations_holdsStored t job job).stored?, ← hperiod]
    exact hfollows.stored
  · rw [hledger, hslots]
    exact ho
  · intro v stance hstance
    exact ⟨_, hprofiles v stance hstance, rfl, SlotProfile.text_ofLevel_eq_iff _⟩

namespace HalvedTaskManagers

def autoscaler : Autoscaler where
  engine := .toward [("map", 4)]
  config := { memory := { tuningEnabled := true }, elastic := { enabled := true } }

/-- Task managers of some gibibytes use half of the heap that they should. -/
def snapshot (size : Nat) : Snapshot where
  job := "job"
  readings := .behind [("map", 2)] (SortedMap.ofList [(.heapMaxUsageRatio, .point 0.35)])
  topology := ({} : Topology).setGroup "map" "default"
  memory := some (size * MemorySize.gibibyte)

/-- The map goes from two to four. -/
def cycle (size : Nat) : Except DecisionError (Option Outcome) × Journal :=
  autoscaler.runCycle (.ofSnapshots (SortedMap.ofList [("job", snapshot size)])) "job" ⟨0⟩ {}

/-- The options once tuning has set the size of a process. -/
def tuned (size : Nat) : Config :=
  { autoscaler.config with
    memory := { autoscaler.config.memory with processSize := some (size * MemorySize.gibibyte) } }

/-- Two gibibytes are tuned to one, and the stored profile is the one for that. -/
theorem runCycle_profiles_small :
    cycle 2 = (.ok (some .scaled), (cycle 2).2) ∧
      ∃ g o, (cycle 2).2.ledger.store.stored? "job" 0 = some g ∧
        (cycle 2).2.ledger.store.profiles? "job" = some o ∧
        ∀ v stance, g.stances.get? v = some stance →
          o.get? v = some (SlotProfile.ofLevel
            ((autoscaler.context "job" (snapshot 2)).sizeUnder (tuned 1))
            stance.memoryLevel).text := by
  have hscaled : cycle 2 = (.ok (some .scaled), (cycle 2).2) :=
    eq_ok_of_toOption (by decide +kernel)
  have hchanges : (cycle 2).2.ledger.store.configChanges? "job" =
      some (SortedMap.ofList [("memory.process_size", "1g")]) := by
    decide +kernel
  have htuned : autoscaler.config.withOverrides
      (SortedMap.ofList [("memory.process_size", "1g")]) = .ok (tuned 1) := by
    decide +kernel
  rcases runCycle_profiles _ _ _ _ _ _ rfl rfl hscaled with
    ⟨snapshot', _, _, _, _, tuned', g, o, hsource, _, _, hstored, hoptions, _, hg, ho, _, htext⟩
  obtain rfl := Autoscaler.eq_of_snapshot?_ofSnapshots hsource
  obtain rfl := Option.some.inj (hchanges.symm.trans hstored)
  obtain rfl := Except.ok.inj (htuned.symm.trans hoptions)
  refine ⟨hscaled, g, o, hg, ho, fun v stance hstance => ?_⟩
  rcases htext v stance hstance with ⟨text, hfound, _, hfits⟩
  rw [hfound, hfits.2 (by decide)]

/-- Four gibibytes are tuned to two, which is the other class, and the stored
    profile is still the one for four. -/
theorem profiles_before_tuning :
    (cycle 4).1.toOption = some (some .scaled) ∧
      (cycle 4).2.ledger.store.configChanges? "job" =
        some (SortedMap.ofList [("memory.process_size", "2g")]) ∧
      autoscaler.config.withOverrides (SortedMap.ofList [("memory.process_size", "2g")]) =
        .ok (tuned 2) ∧
      ((cycle 4).2.ledger.store.stored? "job" 0).bind (fun g =>
        (g.stances.get? "map").map (·.memoryLevel)) = some (-1) ∧
      ((cycle 4).2.ledger.store.profiles? "job").bind (·.get? "map") ≠
        some (SlotProfile.ofLevel
          ((autoscaler.context "job" (snapshot 4)).sizeUnder (tuned 2)) (-1)).text := by
  refine ⟨by decide +kernel, by decide +kernel, by decide +kernel, by decide +kernel, ?_⟩
  decide +kernel

end HalvedTaskManagers

end Rescale
