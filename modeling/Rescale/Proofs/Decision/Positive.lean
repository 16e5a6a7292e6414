import Rescale.Proofs.Contract
import Rescale.Proofs.Decision.Holds
import Rescale.Proofs.Decision.Overrides
import Rescale.Proofs.Elastic.Run
import Rescale.Proofs.Store.Writes

/-!
# Positive Stances

No decision makes a stance that runs at zero.

A stance outlives the decision that made it: a vertex that does not change takes
it over from one generation to the next, and the policy may go back to it much
later. So whether a stance is positive is not a matter of one decision. What
carries over is that all stances in the store are positive. The targets of a
proposal are, because a change to zero is refused when it is made; the policy
answers with the target, with one, or with the stance before; and reading a
generation back changes its doubles only. The write of a generation is the one
place in a decision where this has to be looked at. It holds however the decision
ends, since a decision that fails may have made that write before.

## Main definitions

* `Proposal.Positive`: Every change goes to a positive parallelism.
* `Generation.Positive`, `Store.Positive`: Every stance is positive.

## Theorems

* `positive_nextGeneration`: The policy makes positive stances of positive ones.
* `positive_of_generationBefore?`: What is read back is positive.
* `positive_perform`: What a write has to keep.
* `preserves_persist`, `preserves_decide`: A decision keeps all stances positive.
-/

namespace Rescale

open Step

/-- Every change goes to a positive parallelism. -/
def Proposal.Positive (p : Proposal) : Prop := ∀ v c, p.get? v = some c → 1 ≤ c.target

/-- Every stance of a generation is positive. -/
def Generation.Positive (g : Generation) : Prop :=
  ∀ v stance, g.stances.get? v = some stance → 1 ≤ stance.parallelism

/-- A write puts positive stances only. -/
def JobWrite.Positive : JobWrite → Prop
  | .generation g => g.Positive
  | _ => True

/-- Every stance in a store is positive. -/
def Store.Positive (s : Store) : Prop :=
  ∀ key g, s.generations.get? key = some g → g.Positive

/-- Every stance in the store of a session is positive. -/
abbrev Session.Positive (s : Session) : Prop := s.ledger.store.Positive

/-! ### Generations -/

section Generations

variable {previous : Option Generation}

/-- The stance before, if there is one, is one of the generation before. -/
theorem positive_of_stance? (hprevious : ∀ g, previous = some g → g.Positive) {v : VertexId} :
    ∀ stance, Generation.stance? previous v = some stance → 1 ≤ stance.parallelism := by
  intro stance h
  rcases Option.bind_eq_some_iff.1 h with ⟨g, hg, hstance⟩
  exact hprevious g hg v stance hstance

/-- A vertex that changes is moved on from a positive target, and one that does
    not change keeps its stance. -/
theorem positive_nextGeneration (options : Config.Elastic) (period : Nat) (readings : JobReadings)
    {p : Proposal} (hp : p.Positive) (hprevious : ∀ g, previous = some g → g.Positive) :
    (nextGeneration options period readings p previous).Positive := by
  intro v stance h
  rw [get?_nextGeneration] at h
  cases hc : p.get? v with
  | some c =>
      -- Whatever the policy looks at here is positive.
      rw [hc] at h
      obtain rfl := Option.some.inj h
      exact Stance.positive_next options (hp v c hc) (positive_of_stance? hprevious)
  | none =>
      simp only [hc] at h
      split at h
      · exact positive_of_stance? hprevious stance h
      · cases h

/-- Only doubles are read back differently. -/
theorem positive_of_rereadGeneration {g g' : Generation} (hg : g.Positive)
    (h : Store.rereadGeneration g = .ok g') : g'.Positive := by
  intro v stance hstance
  rw [Store.eq_of_rereadGeneration h, Generation.mapFloats, SortedMap.get?_mapValues,
    Option.map_eq_some_iff] at hstance
  rcases hstance with ⟨stored, hstored, rfl⟩
  exact hg v stored hstored

/-- The generation that a decision starts from is positive if those in the store
    are. -/
theorem positive_of_generationBefore? {l : Ledger} {job : JobId} {period : Nat}
    (hl : l.store.Positive) (h : l.generationBefore? job period = .ok previous) :
    ∀ g, previous = some g → g.Positive := by
  rintro g rfl
  cases period with
  | zero => cases h
  | succ period =>
      rw [Ledger.generationBefore?] at h
      have hread : Store.readBack? Store.rereadGeneration
          (l.store.generations.get? (Store.generationKey job period)) = .ok (some g) :=
        read_eq_ok h
      cases hstored : l.store.generations.get? (Store.generationKey job period) with
      | none => rw [hstored] at hread; cases hread
      | some stored =>
          rw [hstored] at hread
          rcases Store.readBack?_some_eq_ok_iff.1 hread with ⟨_, hreread, ⟨rfl⟩⟩
          exact positive_of_rereadGeneration (hl _ stored hstored) hreread

/-- A decision goes by positive stances. -/
theorem positive_of_goesBy {options : Config.Elastic} {l : Ledger} {job : JobId}
    (hl : l.store.Positive) (h : GoesBy options l job previous) :
    ∀ g, previous = some g → g.Positive := by
  cases hon : options.enabled with
  | true =>
      rcases h.1 hon with ⟨period, hprevious⟩
      exact positive_of_generationBefore? hl (Ledger.parts_of_previous? hprevious).2
  | false =>
      rw [h.2 hon]
      exact nofun

/-- A vertex that changes is set to a positive parallelism, with or without the
    policy. -/
theorem positive_settled (options : Config.Elastic) {c : Change} (hc : 1 ≤ c.target)
    {before : Option Stance} (hbefore : ∀ stance, before = some stance → 1 ≤ stance.parallelism) :
    1 ≤ c.settled options before := by
  unfold Change.settled
  split
  · exact Stance.positive_next options hc hbefore
  · exact hc

end Generations

/-! ### Writes -/

/-- All that a write has to keep is that stances are positive. -/
theorem positive_perform {s : Store} (hs : s.Positive) (job : JobId) {w : JobWrite}
    (hw : w.Positive) : (s.perform job w).Positive := by
  cases w with
  | generation g => exact SortedMap.found_insert hs hw
  | delete => exact SortedMap.found_filter hs
  | _ => exact hs

/-! ### Stages of a decision -/

namespace Step

theorem preserves_perform (kind : RecordKind) (job : JobId) {w : JobWrite} (hw : w.Positive) :
    Preserves Session.Positive (write kind fun st => st.perform job w) :=
  meets_write (fun _ hs => positive_perform hs job hw) fun _ _ hs => hs

theorem preserves_openEntry (ctx : JobContext) (now : Instant) (p : Proposal) :
    Preserves Session.Positive (openEntry ctx now p) := by
  unfold openEntry
  refine preserves_bind (preserves_modify fun _ hs => hs) fun _ => ?_
  refine preserves_bind (preserves_of_same keeps_get) fun s => ?_
  refine preserves_bind (preserves_perform .history ctx.id (w := .history s.history) trivial)
    fun _ => ?_
  refine preserves_bind (preserves_modify fun _ hs => hs) fun _ => ?_
  refine preserves_bind (preserves_of_same keeps_get) fun s => ?_
  exact preserves_perform .restartLog ctx.id (w := .restartLog s.restarts) trivial

theorem preserves_storeOverrides (job : JobId) (overrides tuning : Overrides) :
    Preserves Session.Positive (storeOverrides job overrides tuning) :=
  preserves_bind (preserves_perform .parallelism job (w := .parallelism overrides) trivial) fun _ =>
    preserves_perform .configChanges job (w := .configChanges tuning) trivial

theorem preserves_storeGeneration (ctx : JobContext) (overrides : Overrides) {g : Generation}
    (hg : g.Positive) : Preserves Session.Positive (storeGeneration ctx overrides g) := by
  unfold storeGeneration
  refine preserves_bind (preserves_perform .generation ctx.id (w := .generation g) hg) fun _ => ?_
  refine preserves_bind (preserves_perform .parallelism ctx.id
    (w := .parallelism (withGeneration overrides g)) trivial) fun _ => ?_
  exact preserves_perform .profiles ctx.id (w := .profiles (profileOverrides _ g)) trivial

/-- What is read before a generation is made is positive, and stays at hand. -/
theorem meets_previousGeneration (job : JobId) (period : Nat) :
    Meets Session.Positive (previousGeneration job period)
      (fun previous s => s.Positive ∧ ∀ g, previous = some g → g.Positive)
      fun _ => Session.Positive where
  returns := fun s previous t hs h => by
    rcases returns_previousGeneration_iff.1 h with ⟨hprevious, rfl⟩
    exact ⟨hs, positive_of_generationBefore? hs hprevious⟩
  fails := fun s e t hs h => by
    rcases fails_previousGeneration_iff.1 h with ⟨_, _, _, rfl⟩
    exact hs

theorem preserves_persistGeneration (ctx : JobContext) {p : Proposal} (hp : p.Positive)
    (overrides : Overrides) : Preserves Session.Positive (persistGeneration ctx p overrides) := by
  unfold persistGeneration
  refine preserves_bind (preserves_of_same keeps_read) fun period => ?_
  -- The read says nothing of the session, so what it found is kept as a fact.
  refine meets_bind (meets_previousGeneration ctx.id period) fun previous => ?_
  refine meets_of_fact fun hprevious => ?_
  refine preserves_bind (preserves_of_same keeps_get) fun s => ?_
  exact preserves_storeGeneration ctx overrides (positive_nextGeneration _ period _ hp hprevious)

theorem preserves_countDecision (job : JobId) : Preserves Session.Positive (countDecision job) :=
  preserves_bind (preserves_perform .period job (w := .advancePeriod) trivial) fun _ =>
    preserves_modify fun _ hs => hs

/-- Storing a proposal with positive targets keeps all stances positive. -/
theorem preserves_persist (ctx : JobContext) (now : Instant) {p : Proposal} (hp : p.Positive)
    (tuning : Overrides) : Preserves Session.Positive (persist ctx now p tuning) := by
  unfold persist
  refine preserves_bind (preserves_openEntry ctx now p) fun _ => ?_
  refine preserves_bind (preserves_of_same keeps_get) fun s => ?_
  refine preserves_bind (preserves_of_same (keeps_ofExcept _)) fun overrides => ?_
  refine preserves_bind (preserves_storeOverrides ctx.id overrides tuning) fun _ => ?_
  cases ctx.config.elastic.enabled with
  | false => exact preserves_countDecision ctx.id
  | true =>
      exact preserves_bind (preserves_persistGeneration ctx hp overrides) fun _ =>
        preserves_countDecision ctx.id

end Step

/-! ### Decisions -/

namespace Engine

variable (e : Engine) (ctx : JobContext) (topology : Topology) (now : Instant)

/-- A change to zero is refused, so every proposal is positive. -/
theorem positive_of_propose {restart : Span} {s t : Session} {p : Proposal}
    (h : Returns (e.propose ctx topology restart now) s p t) : p.Positive := by
  intro v c hc
  rcases startsFrom_of_propose h v c hc with ⟨_, _, _, hstarts⟩
  exact Nat.one_le_iff_ne_zero.2 hstarts.positive

theorem meets_propose (restart : Span) :
    Meets Session.Positive (e.propose ctx topology restart now)
      (fun p s => s.Positive ∧ p.Positive) fun _ => Session.Positive where
  returns := fun s p t hs h => by
    refine ⟨?_, e.positive_of_propose ctx topology now h⟩
    rw [Session.Positive, (sameRecords_of_propose h.leaves).ledger]
    exact hs
  fails := fun s err t hs h => by
    rw [Session.Positive, (sameRecords_of_propose h.leaves).ledger]
    exact hs

theorem preserves_applyProposal {p : Proposal} (hp : p.Positive) :
    Preserves Session.Positive (e.applyProposal ctx topology now p) := by
  unfold applyProposal
  refine preserves_bind (preserves_of_same keeps_get) fun s => ?_
  refine preserves_bind (preserves_modify fun _ hs => hs) fun _ => ?_
  refine preserves_bind (preserves_of_same (keeps_ofExcept _)) fun tuned => ?_
  -- The search for a ceiling tells an event at most.
  have hkeeps : Keeps (fun s => s.ledger) (e.ceiling? ctx tuned topology s.readings p) :=
    keeps_ceiling? fun _ _ => rfl
  refine preserves_bind (meets_of_keeps hkeeps fun s t hsame hs => ?_) fun c => ?_
  · have hledger : t.ledger = s.ledger := hsame
    rw [Session.Positive, hledger]
    exact hs
  · cases c with
    | some c => exact preserves_of_same (keeps_pure _)
    | none =>
        exact preserves_bind (preserves_persist ctx now hp _) fun _ =>
          preserves_of_same (keeps_pure _)

/-- However a decision ends, it keeps all stances positive. -/
theorem preserves_decide : Preserves Session.Positive (e.decide ctx topology now) := by
  unfold decide
  refine preserves_bind (preserves_of_same keeps_get) fun s => ?_
  refine meets_bind (e.meets_propose ctx topology now _) fun p => ?_
  refine meets_of_fact fun hp => ?_
  split
  · exact preserves_of_same (keeps_pure _)
  · -- Recommending and reporting write nothing.
    refine preserves_bind (preserves_modify fun _ hs => hs) fun _ => ?_
    refine preserves_bind (preserves_modify fun _ hs => hs) fun _ => ?_
    cases blockReason? ctx.config now with
    | some reason => exact preserves_of_same (keeps_pure _)
    | none => exact e.preserves_applyProposal ctx topology now hp

end Engine

end Rescale
