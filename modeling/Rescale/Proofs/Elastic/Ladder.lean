import Rescale.Proofs.Config.Check
import Rescale.Proofs.Decision.Overrides
import Rescale.Proofs.Elastic.Run

/-!
# The Bound of the Ladder

How far the vertices of a job climb over a run of generations.

The bound of the memory ladder is exclusive, and every climb that goes on from a
stance before asks whether the next level lies below it. The first decision about
a vertex does not ask. It gives memory to a single instance on level one at once,
and level one lies below every accepted bound but the least. So all levels lie
below the bound over any run, unless the bound is one and some first decision of
the run finds memory short. Nothing goes past level one in that case either, and
no level is ever below that of vertices without state.

## Main definitions

* `Turn`: What one decision shows the policy.
* `Generation.run`: The generations of some decisions, one after the other.
* `Generation.All`: A property of all stances of a generation.
* `Generation.Below`: All vertices of a generation are below the bound.
* `Stance.ClimbsFirst`, `Turn.ClimbsFirst`, `Turn.SomeClimbsFirst`: A first
  decision finds memory short.

## Theorems

* `stance_of_generation`: Where the stances of a generation come from.
* `all_generation`, `forall_mem_generationRun`: What every move keeps holds of
  all stances of a run.
* `level_next_lt_iff`: When a move leads below the bound.
* `below_generation_iff`, `below_run_iff`: The same for a decision and for
  a run of them.
* `generationRun_levels`: The levels of a run under an accepted configuration.
-/

namespace Rescale

/-! ### Runs of generations -/

/-- What one decision shows the policy: its number, the readings, of which it
    only matters who reports, and the changes. -/
structure Turn where
  period : Nat
  readings : JobReadings := {}
  proposal : Proposal

/-- The generation that a decision makes. -/
def Turn.generation (t : Turn) (options : Config.Elastic) (previous : Option Generation) :
    Generation :=
  nextGeneration options t.period t.readings t.proposal previous

namespace Generation

/-- The generations of some decisions, from the one before them. -/
def run (options : Config.Elastic) : Option Generation → List Turn → List Generation
  | _, [] => []
  | previous, t :: rest =>
    t.generation options previous :: run options (some (t.generation options previous)) rest

/-- A property of all stances of a generation. -/
def All (P : Stance → Prop) (g : Generation) : Prop := ∀ v s, g.stances.get? v = some s → P s

section Run

variable {P : Stance → Prop} {options : Config.Elastic} {previous : Option Generation}

theorem stance?_of_all (hprevious : ∀ g, previous = some g → g.All P) (v : VertexId) (p : Stance)
    (hp : stance? previous v = some p) : P p := by
  rcases Option.bind_eq_some_iff.1 hp with ⟨g, hg, hstance⟩
  exact hprevious g hg v p hstance

/-- A generation has stances that the policy moved on, for what changes, and
    stances that were carried over. -/
theorem stance_of_generation {t : Turn} {v : VertexId} {s : Stance}
    (hs : (t.generation options previous).stances.get? v = some s) :
    (∃ c, t.proposal.get? v = some c ∧
        s = (Stance.ofReadings c.target c.readings).next (stance? previous v) options) ∨
      stance? previous v = some s := by
  rw [Turn.generation, get?_nextGeneration] at hs
  cases hc : t.proposal.get? v with
  | some c =>
      simp only [hc, Option.some.injEq] at hs
      exact Or.inl ⟨c, rfl, hs.symm⟩
  | none =>
      simp only [hc] at hs
      by_cases hreports : t.readings.vertices.contains v = true
      · rw [if_pos hreports] at hs
        exact Or.inr hs
      · rw [if_neg hreports] at hs
        cases hs

theorem all_generation (t : Turn)
    (hstep : ∀ (o : Offer) (before : Option Stance), (∀ p, before = some p → P p) →
      P (o.fresh.next before options))
    (hprevious : ∀ g, previous = some g → g.All P) : (t.generation options previous).All P := by
  intro v s hs
  rcases stance_of_generation hs with ⟨c, _, rfl⟩ | hcarried
  · exact hstep ⟨c.target, c.readings⟩ _ (stance?_of_all hprevious v)
  · exact stance?_of_all hprevious v s hcarried

/-- By induction on the decisions: what every move keeps holds of all stances of
    a run. -/
theorem forall_mem_generationRun {turns : List Turn}
    (hstep : ∀ (o : Offer) (before : Option Stance), (∀ p, before = some p → P p) →
      P (o.fresh.next before options)) :
    ∀ previous : Option Generation, (∀ g, previous = some g → g.All P) →
      ∀ g ∈ run options previous turns, g.All P := by
  induction turns with
  | nil =>
      intro previous _ g hg
      cases hg
  | cons t rest ih =>
      intro previous hprevious g hg
      have hall := all_generation t hstep hprevious
      rcases List.mem_cons.1 hg with rfl | hg
      · exact hall
      · refine ih _ ?_ g hg
        rintro g' ⟨⟩
        exact hall

end Run

end Generation

/-! ### Below the bound -/

namespace Stance

variable {options : Config.Elastic} {fresh s : Stance} {before : Option Stance}

/-- The first decision about a vertex finds its memory short. -/
def ClimbsFirst (fresh : Stance) (options : Config.Elastic) (before : Option Stance) : Prop :=
  before = none ∧ fresh.isStateless = false ∧ fresh.parallelism ≠ 1 ∧
    fresh.needsMemory options = true

instance (fresh : Stance) (options : Config.Elastic) (before : Option Stance) :
    Decidable (fresh.ClimbsFirst options before) :=
  inferInstanceAs (Decidable (_ ∧ _))

/-- No move goes past level one or the last level below the bound, whichever is
    higher. -/
theorem level_le_of_move (hfresh : fresh.Fresh)
    (hbefore : ∀ p, before = some p → p.memoryLevel ≤ max 1 (options.maxLevel - 1))
    (h : fresh.Move options before s) : s.memoryLevel ≤ max 1 (options.maxLevel - 1) := by
  have hlevel : fresh.memoryLevel = 0 := hfresh.level
  cases h with
  | noState _ _ =>
      simp only [SlotProfile.statelessLevel]
      omega
  | single _ _ => omega
  | firstClimb _ _ _ =>
      simp only
      omega
  | firstSpread _ _ _ =>
      simp only
      omega
  | rollBack p _ _ _ _ =>
      have hp := hbefore p rfl
      simp only [spread]
      omega
  | climb p _ _ _ room =>
      simp only [hasRoom, decide_eq_true_eq] at room
      simp only [Stance.climb]
      omega
  | spread p _ _ _ _ => exact hbefore p rfl
  | carry p _ _ => exact hbefore p rfl

/-- From below the bound a move leads below the bound again, but for a first
    decision that finds memory short where the bound is one. -/
theorem level_next_lt_iff (hfresh : fresh.Fresh) (hmax : 1 ≤ options.maxLevel)
    (hbefore : ∀ p, before = some p → p.memoryLevel < options.maxLevel) :
    (fresh.next before options).memoryLevel < options.maxLevel ↔
      ¬(options.maxLevel = 1 ∧ fresh.ClimbsFirst options before) := by
  have hlevel : fresh.memoryLevel = 0 := hfresh.level
  have hmove := move_next fresh before options
  generalize fresh.next before options = s at hmove ⊢
  cases hmove with
  | noState _ stateless =>
      refine iff_of_true ?_ fun h => ?_
      · simp only [SlotProfile.statelessLevel]
        omega
      · rw [h.2.2.1] at stateless
        cases stateless
  | single _ one =>
      refine iff_of_true ?_ fun h => h.2.2.2.1 one
      omega
  | firstClimb stateful several short =>
      have hfirst : fresh.ClimbsFirst options none := ⟨rfl, stateful, several, short⟩
      simp only [hfirst, and_true]
      omega
  | firstSpread _ _ ample =>
      refine iff_of_true ?_ fun h => ?_
      · simp only
        omega
      · rw [h.2.2.2.2] at ample
        cases ample
  | rollBack p _ _ _ _ =>
      have hp := hbefore p rfl
      refine iff_of_true ?_ fun h => Option.some_ne_none p h.2.1
      simp only [spread]
      omega
  | climb p _ _ _ room =>
      refine iff_of_true ?_ fun h => Option.some_ne_none p h.2.1
      simp only [hasRoom, decide_eq_true_eq] at room
      exact room
  | spread p _ _ _ _ => exact iff_of_true (hbefore p rfl) fun h => Option.some_ne_none p h.2.1
  | carry p _ _ => exact iff_of_true (hbefore p rfl) fun h => Option.some_ne_none p h.2.1

end Stance

namespace Turn

/-- One of the changes is the first decision about its vertex and finds memory
    short. -/
def ClimbsFirst (t : Turn) (options : Config.Elastic) (previous : Option Generation) : Prop :=
  ∃ v c, t.proposal.get? v = some c ∧
    (Stance.ofReadings c.target c.readings).ClimbsFirst options (Generation.stance? previous v)

/-- Some decision of a run has a first decision about a vertex that finds memory
    short. -/
def SomeClimbsFirst (options : Config.Elastic) : Option Generation → List Turn → Prop
  | _, [] => False
  | previous, t :: rest =>
    t.ClimbsFirst options previous ∨
      SomeClimbsFirst options (some (t.generation options previous)) rest

end Turn

namespace Generation

/-- Every vertex of a generation is below the bound of the ladder. -/
def Below (options : Config.Elastic) (g : Generation) : Prop :=
  g.All fun s => s.memoryLevel < options.maxLevel

variable {options : Config.Elastic}

/-- From below the bound a decision leads below the bound again, unless the bound
    is one and a first decision finds memory short. -/
theorem below_generation_iff (t : Turn) {previous : Option Generation}
    (hmax : 1 ≤ options.maxLevel) (hprevious : ∀ g, previous = some g → g.Below options) :
    (t.generation options previous).Below options ↔
      ¬(options.maxLevel = 1 ∧ t.ClimbsFirst options previous) := by
  constructor
  · rintro hbelow ⟨hone, v, c, hc, hfirst⟩
    have hstance : (t.generation options previous).stances.get? v = some
        ((Stance.ofReadings c.target c.readings).next (stance? previous v) options) := by
      rw [Turn.generation, get?_nextGeneration, hc]
    refine (Stance.level_next_lt_iff (Stance.fresh_ofReadings _ _) hmax ?_).1
      (hbelow v _ hstance) ⟨hone, hfirst⟩
    exact stance?_of_all hprevious v
  · intro hnot v s hs
    rcases stance_of_generation hs with ⟨c, hc, rfl⟩ | hcarried
    · refine (Stance.level_next_lt_iff (Stance.fresh_ofReadings _ _) hmax ?_).2
        fun h => hnot ⟨h.1, v, c, hc, h.2⟩
      exact stance?_of_all hprevious v
    · exact stance?_of_all hprevious v s hcarried

/-- By induction on the decisions: each either leads past the bound, and then
    that is seen in its generation, or it leaves the next one below the bound. -/
theorem below_run_iff {turns : List Turn} (hmax : 1 ≤ options.maxLevel) :
    ∀ previous : Option Generation, (∀ g, previous = some g → g.Below options) →
      ((∀ g ∈ run options previous turns, g.Below options) ↔
        ¬(options.maxLevel = 1 ∧ Turn.SomeClimbsFirst options previous turns)) := by
  induction turns with
  | nil =>
      intro previous _
      exact iff_of_true nofun fun h => h.2
  | cons t rest ih =>
      intro previous hprevious
      have hfirst := below_generation_iff t hmax hprevious
      rw [run, List.forall_mem_cons, Turn.SomeClimbsFirst, hfirst]
      by_cases hclimbs : options.maxLevel = 1 ∧ t.ClimbsFirst options previous
      · refine iff_of_false (fun h => h.1 hclimbs) fun h => h ⟨hclimbs.1, Or.inl hclimbs.2⟩
      · rw [and_iff_right hclimbs, ih _ ?_]
        · refine not_congr (and_congr_right fun hone => ?_)
          exact (or_iff_right fun h => hclimbs ⟨hone, h⟩).symm
        · rintro g ⟨⟩
          exact hfirst.2 hclimbs

/-- Under an accepted configuration, and over any decisions from the first one
    on, no vertex gets below the level of vertices without state, or past level
    one and the last level below the bound. All of them are always below the
    bound exactly if the bound is not one or no first decision about a vertex
    finds memory short. -/
theorem generationRun_levels (config : Config) (hcheck : config.check = .ok ())
    (turns : List Turn) :
    (∀ g ∈ run config.elastic none turns, ∀ v s, g.stances.get? v = some s →
      -1 ≤ s.memoryLevel ∧ s.memoryLevel ≤ max 1 (config.elastic.maxLevel - 1)) ∧
    ((∀ g ∈ run config.elastic none turns, ∀ v s, g.stances.get? v = some s →
        s.memoryLevel < config.elastic.maxLevel) ↔
      ¬(config.elastic.maxLevel = 1 ∧ Turn.SomeClimbsFirst config.elastic none turns)) := by
  have hmax : 1 ≤ config.elastic.maxLevel := (Config.check_eq_ok_iff.1 hcheck).2.2.2.2.2.2.1
  refine ⟨fun g hg v s hs => ⟨?_, ?_⟩, below_run_iff hmax none nofun⟩
  · have hsound : g.All Stance.Sound := by
      refine forall_mem_generationRun ?_ none nofun g hg
      intro o before hbefore
      exact Stance.sound_of_move (Stance.fresh_ofReadings _ _) hbefore (Stance.move_next _ _ _)
    exact (hsound v s hs).level
  · have hlevels : g.All fun s => s.memoryLevel ≤ max 1 (config.elastic.maxLevel - 1) := by
      refine forall_mem_generationRun ?_ none nofun g hg
      intro o before hbefore
      exact Stance.level_le_of_move (Stance.fresh_ofReadings _ _) hbefore (Stance.move_next _ _ _)
    exact hlevels v s hs

end Generation

/-! ### The least bound -/

namespace LeastBound

/-- Options with a bound. -/
def config (bound : Int) : Config := { elastic := { enabled := true, maxLevel := bound } }

/-- The map goes from two to four while every second access misses its cache. -/
def change : Change where
  current := 2
  target := 4
  readings := SortedMap.ofList [(.cacheHitRate, Reading.point 0.5)]

def turn : Turn where
  period := 0
  proposal := SortedMap.ofList [("map", change)]

/-- With any other bound the map stays below it. -/
theorem generationRun_levels_two :
    (config 2).check = .ok () ∧
      ∀ g ∈ Generation.run (config 2).elastic none [turn], ∀ v s, g.stances.get? v = some s →
        s.memoryLevel < (config 2).elastic.maxLevel := by
  have hcheck : (config 2).check = .ok () := by decide +kernel
  refine ⟨hcheck, (Generation.generationRun_levels (config 2) hcheck [turn]).2.2 ?_⟩
  rintro ⟨hone, _⟩
  exact absurd hone (by decide)

/-- The bound one is accepted, and the first decision puts the map on level
    one. -/
theorem level_of_first_decision :
    (config 1).check = .ok () ∧
      ∃ g ∈ Generation.run (config 1).elastic none [turn], ∃ s, g.stances.get? "map" = some s ∧
        ¬s.memoryLevel < (config 1).elastic.maxLevel := by
  have hmap : (turn.generation (config 1).elastic none).stances.get? "map" =
      some { parallelism := 1, memoryLevel := 1, hitRate := 0.5, latency := 0.0, throughput := 0.0,
             vertical := true, horizontal := false, stopVertical := false } := by
    decide +kernel
  refine ⟨by decide +kernel, _, List.mem_singleton_self _, _, hmap, ?_⟩
  decide

end LeastBound

end Rescale
