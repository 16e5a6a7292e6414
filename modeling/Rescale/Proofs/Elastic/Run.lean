import Mathlib.Data.List.Basic
import Rescale.Proofs.Elastic.Move

/-!
# Runs of the Elastic Policy

What the policy makes of one vertex, period after period.

In each period the vertex is offered a parallelism and measured, and its stance
follows from that and from the stance of the period before. A few facts hold of
every stance that a run can reach, whatever is offered and measured: climbing and
spreading exclude each other, the mark of a rollback stands on a vertex that
spreads, and a vertex that climbed has left the level of vertices without state.
The last of these is what keeps a rollback on the ladder: it takes one level from
a vertex that climbed, and there is one to take. A parallelism is one that was
offered, now or before, or it is one, so none is zero unless zero was offered.

A rollback marks a vertex so that it stops climbing. No situation looks at the
mark, so the vertex does climb again as soon as a later offer changes its
parallelism while its memory is short, if there is room on the ladder. Until
then it stays down, on the level that the rollback left it.

## Main definitions

* `Stance.Fresh`: A stance that the policy has not moved yet.
* `Stance.Sound`: What holds of every stance of a run.
* `Offer`: What the policy is shown of a vertex in one period.
* `Stance.run`: The stances of a vertex, period after period.
* `Stance.StaysDown`: The vertex does not climb any more and does not rise.
* `Stance.ClimbsAt`: A vertex that did not climb last climbs at an offer.
* `Offer.ShortAtMove`: An offer changes the parallelism while memory is short.

## Theorems

* `sound_of_move`, `sound_of_run`: Every stance of a run is sound.
* `sound_and_positive_of_run`: The stances of a run of positive offers.
* `run_append`: A run goes on from its last stance.
* `next_of_not_climbed`: What becomes of a vertex that did not climb last.
* `staysDown_run_iff`: When such a vertex stays down.
* `staysDown_after_stop_iff`: When a vertex stays down after a rollback.
-/

namespace Rescale

namespace Stance

/-! ### Sound stances -/

/-- A stance that the policy has not moved yet. -/
structure Fresh (s : Stance) : Prop where
  level : s.memoryLevel = baseLevel
  vertical : s.vertical = false
  horizontal : s.horizontal = false
  stopVertical : s.stopVertical = false

theorem fresh_ofReadings (parallelism : Nat) (readings : Readings) :
    (ofReadings parallelism readings).Fresh :=
  ⟨rfl, rfl, rfl, rfl⟩

/-- What holds of every stance that the policy makes. -/
structure Sound (s : Stance) : Prop where
  oneWay : s.vertical = true → s.horizontal = false
  stopped : s.stopVertical = true → s.horizontal = true
  climbed : s.vertical = true → 0 ≤ s.memoryLevel
  level : -1 ≤ s.memoryLevel

/-- A vertex with the mark of a rollback did not climb last. -/
theorem Sound.not_vertical_of_stopped {s : Stance} (h : s.Sound) (hstop : s.stopVertical = true) :
    s.vertical = false := by
  cases hvertical : s.vertical with
  | false => rfl
  | true =>
      have hspread := h.stopped hstop
      rw [h.oneWay hvertical] at hspread
      cases hspread

/-- Every way to move on leads to a sound stance. The flags are those of the
    move, or all of them are carried over. -/
theorem sound_of_move {options : Config.Elastic} {fresh s : Stance} {before : Option Stance}
    (hfresh : fresh.Fresh) (hbefore : ∀ p, before = some p → p.Sound)
    (h : fresh.Move options before s) : s.Sound := by
  have hlevel : fresh.memoryLevel = 0 := hfresh.level
  have hnotVertical : fresh.vertical ≠ true := Bool.eq_false_iff.1 hfresh.vertical
  have hnotStopped : fresh.stopVertical ≠ true := Bool.eq_false_iff.1 hfresh.stopVertical
  cases h with
  | noState _ _ =>
      refine ⟨fun h => absurd h hnotVertical, fun h => absurd h hnotStopped,
        fun h => absurd h hnotVertical, ?_⟩
      simp only [SlotProfile.statelessLevel]
      omega
  | single _ _ =>
      refine ⟨fun h => absurd h hnotVertical, fun h => absurd h hnotStopped,
        fun h => absurd h hnotVertical, ?_⟩
      omega
  | firstClimb _ _ _ =>
      refine ⟨fun _ => hfresh.horizontal, fun h => absurd h hnotStopped, ?_, ?_⟩
      · simp only
        omega
      · simp only
        omega
  | firstSpread _ _ _ =>
      refine ⟨fun h => absurd h hnotVertical, fun _ => rfl, fun h => absurd h hnotVertical, ?_⟩
      simp only
      omega
  | rollBack p _ _ climbed _ =>
      -- A climb left the level of vertices without state, so one level down is still on the ladder.
      have habove := (hbefore p rfl).climbed climbed
      refine ⟨fun h => absurd h hnotVertical, fun _ => rfl, fun h => absurd h hnotVertical, ?_⟩
      simp only [spread]
      omega
  | climb p _ _ _ _ =>
      have hp := (hbefore p rfl).level
      refine ⟨fun _ => hfresh.horizontal, fun h => absurd h hnotStopped, ?_, ?_⟩
      · simp only [climb]
        omega
      · simp only [climb]
        omega
  | spread p _ _ _ _ =>
      refine ⟨fun h => absurd h hnotVertical, fun _ => rfl, fun h => absurd h hnotVertical, ?_⟩
      exact (hbefore p rfl).level
  | carry p _ _ =>
      have hp := hbefore p rfl
      exact ⟨hp.oneWay, hp.stopped, hp.climbed, hp.level⟩

end Stance

/-! ### Runs -/

/-- What the policy is shown of a vertex in one period: the parallelism that is
    proposed for it, and its readings. -/
structure Offer where
  parallelism : Nat
  readings : Readings

/-- The stance that an offer begins with. -/
def Offer.fresh (o : Offer) : Stance := .ofReadings o.parallelism o.readings

namespace Stance

/-- The stances of a vertex over some periods, from the stance before them. -/
def run (options : Config.Elastic) : Option Stance → List Offer → List Stance
  | _, [] => []
  | before, o :: rest =>
    o.fresh.next before options :: run options (some (o.fresh.next before options)) rest

variable {options : Config.Elastic} {before : Option Stance} {offers past rest : List Offer}
  {s t : Stance}

/-- By induction on the past: what follows goes on from its last stance. -/
theorem run_append : run options before (past ++ rest) =
    run options before past ++ run options ((run options before past).getLast?.or before) rest := by
  induction past generalizing before with
  | nil => rfl
  | cons o past ih =>
      simp only [List.cons_append, run]
      rw [ih]
      -- A run that is not empty has a last stance, so the one before it does not matter.
      cases hrun : run options (some (o.fresh.next before options)) past with
      | nil => rfl
      | cons t ts =>
          rw [List.getLast?_cons_cons, List.getLast?_cons, Option.some_or, Option.some_or]

/-- By induction on the offers: what every move at one of them keeps holds of all
    stances of a run. -/
theorem forall_mem_run {P : Stance → Prop}
    (hstep : ∀ o ∈ offers, ∀ before : Option Stance, (∀ p, before = some p → P p) →
      P (o.fresh.next before options)) :
    ∀ before : Option Stance, (∀ p, before = some p → P p) →
      ∀ s ∈ run options before offers, P s := by
  induction offers with
  | nil =>
      intro before _ s hs
      cases hs
  | cons o rest ih =>
      intro before hbefore s hs
      rcases List.forall_mem_cons.1 hstep with ⟨hfirst, hothers⟩
      have hnext := hfirst before hbefore
      rcases List.mem_cons.1 hs with rfl | hs
      · exact hnext
      · refine ih hothers _ ?_ s hs
        rintro p ⟨⟩
        exact hnext

theorem sound_of_run (hs : s ∈ run options none offers) : s.Sound := by
  refine forall_mem_run ?_ none nofun s hs
  intro o _ before hbefore
  exact sound_of_move (fresh_ofReadings _ _) hbefore (move_next o.fresh before options)

/-- By induction on the offers: each of them makes one stance. -/
theorem length_run (before : Option Stance) :
    (run options before offers).length = offers.length := by
  induction offers generalizing before with
  | nil => rfl
  | cons o rest ih => rw [run, List.length_cons, List.length_cons, ih]

/-- A positive offer to a vertex that did not run at zero does not set it to
    zero. -/
theorem positive_next {fresh : Stance} (options : Config.Elastic) (hfresh : 1 ≤ fresh.parallelism)
    (hbefore : ∀ p, before = some p → 1 ≤ p.parallelism) :
    1 ≤ (fresh.next before options).parallelism := by
  rcases parallelism_of_move (move_next fresh before options) with hnext | hnext | ⟨p, hp, hnext⟩
  · rw [hnext]
    exact hfresh
  · exact Nat.le_of_eq hnext.symm
  · rw [hnext]
    exact hbefore p hp

/-- Whatever positive parallelisms are offered to a vertex, and whatever is
    measured, each offer makes a stance, and every one of them is sound and
    positive. -/
theorem sound_and_positive_of_run (options : Config.Elastic) (offers : List Offer)
    (hoffers : ∀ o ∈ offers, 1 ≤ o.parallelism) :
    (run options none offers).length = offers.length ∧
      ∀ s ∈ run options none offers, s.Sound ∧ 1 ≤ s.parallelism := by
  refine ⟨length_run none, fun s hs => ⟨sound_of_run hs, ?_⟩⟩
  refine forall_mem_run (P := fun s => 1 ≤ s.parallelism) ?_ none nofun s hs
  intro o ho before hbefore
  exact positive_next options (hoffers o ho) hbefore

end Stance

namespace OffTheLadder

/-- At first the vertex has no state. Then it hits its cache in half of all
    accesses, and parallelism four and three are offered. -/
def offers : List Offer :=
  [⟨2, ∅⟩, ⟨4, SortedMap.ofList [(.cacheHitRate, Reading.point 0.5)]⟩,
    ⟨3, SortedMap.ofList [(.cacheHitRate, Reading.point 0.5)]⟩]

/-- The vertex climbs onto the ladder at its first parallelism, and from there it
    is rolled back to the level of vertices without state. -/
theorem sound_and_positive_of_run_rolled_back :
    (∀ o ∈ offers, 1 ≤ o.parallelism) ∧
      ∃ s, (Stance.run {} none offers).getLast? = some s ∧ s.memoryLevel = -1 ∧
        s.stopVertical = true ∧ s.Sound ∧ 1 ≤ s.parallelism := by
  have hoffers : ∀ o ∈ offers, 1 ≤ o.parallelism := by decide
  have hlast : (Stance.run {} none offers).getLast? =
      some { parallelism := 3, memoryLevel := -1, hitRate := 0.5, latency := 0.0, throughput := 0.0,
             vertical := false, horizontal := true, stopVertical := true } := by
    decide +kernel
  exact ⟨hoffers, _, hlast, rfl, rfl,
    (Stance.sound_and_positive_of_run {} offers hoffers).2 _ (List.mem_of_getLast? hlast)⟩

end OffTheLadder

namespace Stance

variable {options : Config.Elastic} {s t : Stance}

/-! ### After a rollback -/

/-- A vertex does not climb any more in later stances, and its level does not
    rise from any of them to a later one. -/
def StaysDown (s : Stance) (later : List Stance) : Prop :=
  (∀ t ∈ later, t.vertical = false) ∧
    (s :: later).Pairwise fun a b => b.memoryLevel ≤ a.memoryLevel

instance (s : Stance) (later : List Stance) : Decidable (StaysDown s later) :=
  inferInstanceAs (Decidable (_ ∧ _))

/-- Where the first later stance is on the same level, the others are measured
    by that one. -/
theorem staysDown_cons_iff {later : List Stance} (hlevel : t.memoryLevel = s.memoryLevel) :
    StaysDown s (t :: later) ↔ t.vertical = false ∧ StaysDown t later := by
  simp only [StaysDown, List.forall_mem_cons, List.pairwise_cons, hlevel, Int.le_refl, true_and]
  constructor
  · rintro ⟨⟨hvertical, hothers⟩, _, hpairwise⟩
    exact ⟨hvertical, hothers, hpairwise⟩
  · rintro ⟨hvertical, hothers, hlevels, hpairwise⟩
    exact ⟨⟨hvertical, hothers⟩, hlevels, hlevels, hpairwise⟩

/-- An offer makes a vertex climb that did not climb last: its parallelism
    changes, memory is short, and there is room. -/
def ClimbsAt (options : Config.Elastic) (s : Stance) (o : Offer) : Prop :=
  s.hasRoom options = true ∧ s.parallelism ≠ o.parallelism ∧ o.fresh.needsMemory options = true

/-- A vertex that did not climb last climbs at an offer, or it keeps its level
    and takes the parallelism of the offer. -/
theorem next_of_not_climbed (options : Config.Elastic) {o : Offer}
    (hstateful : o.fresh.isStateless = false) (hs : s.vertical = false) :
    (ClimbsAt options s o ∧ (o.fresh.next (some s) options).vertical = true) ∨
      (¬ClimbsAt options s o ∧ (o.fresh.next (some s) options).vertical = false ∧
        (o.fresh.next (some s) options).memoryLevel = s.memoryLevel ∧
        (o.fresh.next (some s) options).parallelism = o.parallelism) := by
  have hwants : o.fresh.wantsMemory s options = o.fresh.needsMemory options := by
    simp only [wantsMemory, hs, Bool.false_eq_true, if_false]
  have hmove := move_next o.fresh (some s) options
  generalize o.fresh.next (some s) options = t at hmove ⊢
  cases hmove with
  | noState _ stateless =>
      rw [hstateful] at stateless
      cases stateless
  | rollBack _ _ _ climbed _ =>
      rw [hs] at climbed
      cases climbed
  | climb _ _ moved wanted room => exact Or.inl ⟨⟨room, moved, hwants.symm.trans wanted⟩, rfl⟩
  | spread _ _ _ _ held =>
      refine Or.inr ⟨?_, rfl, rfl, rfl⟩
      rintro ⟨room, _, short⟩
      rw [hwants, room, short] at held
      cases held
  | carry _ _ same => exact Or.inr ⟨fun h => h.2.1 same, hs, rfl, rfl⟩

end Stance

/-- Some offer of a list changes the parallelism, from `n` in front of the list,
    while memory is short. -/
def Offer.ShortAtMove (options : Config.Elastic) : Nat → List Offer → Prop
  | _, [] => False
  | n, o :: rest =>
    (n ≠ o.parallelism ∧ o.fresh.needsMemory options = true) ∨
      ShortAtMove options o.parallelism rest

namespace Stance

/-- A vertex that did not climb last stays down exactly if it has no room to
    climb or no offer changes its parallelism while memory is short. By
    induction on the offers: each that is passed leaves level and parallelism
    for the next one to look at. -/
theorem staysDown_run_iff {options : Config.Elastic} {offers : List Offer}
    (hstateful : ∀ o ∈ offers, o.fresh.isStateless = false) :
    ∀ s : Stance, s.vertical = false → (StaysDown s (run options (some s) offers) ↔
      ¬(s.hasRoom options = true ∧ Offer.ShortAtMove options s.parallelism offers)) := by
  induction offers with
  | nil =>
      intro s _
      refine iff_of_true ⟨nofun, List.pairwise_singleton _ _⟩ ?_
      exact fun h => h.2
  | cons o rest ih =>
      intro s hs
      rcases List.forall_mem_cons.1 hstateful with ⟨ho, hrest⟩
      rw [run, Offer.ShortAtMove]
      rcases next_of_not_climbed options ho hs with
        ⟨⟨hroom, hshort⟩, hclimbs⟩ | ⟨hnot, hvertical, hlevel, hparallelism⟩
      · -- The vertex climbs at this offer.
        refine iff_of_false (fun h => ?_) (fun h => h ⟨hroom, Or.inl hshort⟩)
        have hdown := h.1 _ List.mem_cons_self
        rw [hclimbs] at hdown
        cases hdown
      · -- It passes this offer, and the room on the ladder is the same as before.
        have hroom : (o.fresh.next (some s) options).hasRoom options = s.hasRoom options := by
          rw [hasRoom, hasRoom, hlevel]
        rw [staysDown_cons_iff hlevel, and_iff_right hvertical, ih hrest _ hvertical, hroom,
          hparallelism]
        refine not_congr (and_congr_right fun room => (or_iff_right ?_).symm)
        exact fun hshort => hnot ⟨room, hshort⟩

/-- Take a run of a vertex that begins without a stance, up to one that has the
    mark of a rollback, and let the vertex keep its state from there on. The run
    goes on from that stance, and the vertex stays down exactly if it has no room
    to climb or no later offer changes its parallelism while memory is short. -/
theorem staysDown_after_stop_iff (options : Config.Elastic) (past later : List Offer) (s : Stance)
    (hlast : (run options none past).getLast? = some s) (hstop : s.stopVertical = true)
    (hstateful : ∀ o ∈ later, o.fresh.isStateless = false) :
    run options none (past ++ later) = run options none past ++ run options (some s) later ∧
      (StaysDown s (run options (some s) later) ↔
        ¬(s.hasRoom options = true ∧ Offer.ShortAtMove options s.parallelism later)) := by
  refine ⟨?_, ?_⟩
  · rw [run_append, hlast, Option.some_or]
  · -- The mark is only on vertices that spread, so the vertex did not climb last.
    have hsound : s.Sound := sound_of_run (List.mem_of_getLast? hlast)
    exact staysDown_run_iff hstateful s (hsound.not_vertical_of_stopped hstop)

end Stance

/-! ### Back and forth -/

namespace BackAndForth

/-- The vertex hits its cache in a part of all accesses. -/
def offer (parallelism : Nat) (hitRate : Float) : Offer where
  parallelism
  readings := SortedMap.ofList [(.cacheHitRate, Reading.point hitRate)]

/-- The vertex climbs at the first offer, and at the second one it turns out that
    this did not help. -/
def past : List Offer := [offer 4 0.5, offer 3 0.5]

/-- The stance with the mark of the rollback. -/
def stopped : Stance where
  parallelism := 3
  memoryLevel := 0
  hitRate := 0.5
  latency := 0.0
  throughput := 0.0
  vertical := false
  horizontal := true
  stopVertical := true

theorem getLast?_run_past : (Stance.run {} none past).getLast? = some stopped := by
  decide +kernel

/-- As long as the cache is hit often enough the vertex stays down. -/
theorem staysDown_after_stop_iff_hit :
    (Stance.run {} none past).getLast? = some stopped ∧ stopped.stopVertical = true ∧
      (∀ o ∈ [offer 5 0.9, offer 7 0.9], o.fresh.isStateless = false) ∧
      stopped.StaysDown (Stance.run {} (some stopped) [offer 5 0.9, offer 7 0.9]) := by
  have hstateful : ∀ o ∈ [offer 5 0.9, offer 7 0.9], o.fresh.isStateless = false := by
    decide +kernel
  refine ⟨getLast?_run_past, rfl, hstateful, ?_⟩
  refine (Stance.staysDown_after_stop_iff {} past [offer 5 0.9, offer 7 0.9] stopped
    getLast?_run_past rfl hstateful).2.2 ?_
  rintro ⟨_, (⟨_, hshort⟩ | ⟨_, hshort⟩ | hshort)⟩
  · revert hshort
    decide +kernel
  · revert hshort
    decide +kernel
  · exact hshort

/-- With the hit rate of before it climbs again at the next offer, back to the
    level that it was rolled back from. -/
theorem climbs_after_stop :
    (Stance.run {} none past).getLast? = some stopped ∧ stopped.stopVertical = true ∧
      (∀ o ∈ [offer 5 0.5], o.fresh.isStateless = false) ∧
      ¬stopped.StaysDown (Stance.run {} (some stopped) [offer 5 0.5]) := by
  refine ⟨getLast?_run_past, rfl, ?_, ?_⟩
  · decide +kernel
  · decide +kernel

end BackAndForth

end Rescale
