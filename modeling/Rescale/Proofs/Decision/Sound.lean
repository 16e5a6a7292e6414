import Rescale.Decision.Decide
import Rescale.Proofs.Decision.Failure
import Rescale.Proofs.Elastic.Move
import Rescale.Proofs.Store.Finite

/-!
# Decisions on Finite Readings

A decision that reads finite numbers stores finite numbers.

Doubles come into a decision with its readings and with the records that were
loaded. They leave it in two records: the history keeps the readings that a change
was based on, and a generation keeps averages out of them. On both ways they are
copied and not computed with. What is missing counts as zero, what is carried over
was in the store before, and the policy decides over levels and flags but hands the
numbers on as they are. So nothing that is not finite can come out of a decision
that nothing of the kind went into.

A ledger is sound if its store is finite and no access to it fails. From a sound
ledger everything can be read, so a decision fails for reasons of its own or not at
all, and wherever it stops, the ledger that it leaves is sound again. `Safe` says
this of a step. It is a contract, so each way to build a step has one rule, and each
stage of a decision is then taken apart by these rules.

## Main definitions

* `StoreFree`: A computation does not fail like a store.
* `Ledger.Sound`, `Session.Sound`: A finite store without faults, with a finite
  history loaded.
* `Session.Ready`: The readings of the vertices are finite, too.
* `Step.Safe`: A step that stays sound and does not fail like a store.

## Theorems

* `Stance.isFinite_next`: The policy hands numbers on.
* `isFinite_record`, `isFinite_nextGeneration`: What a decision stores is finite.
* `safe_bind` and its siblings: Rules for each way to build a step.
* `Engine.safe_propose`, `Step.safe_persist`, `Engine.safe_decide`: The stages of a
  decision, and all of it.
-/

namespace Rescale

/-! ### Failures -/

/-- A computation may fail, but not for a reason that only a store has. -/
def StoreFree {α : Type} (x : Except DecisionError α) : Prop :=
  ∀ cause, x ≠ .error (.store cause)

/-- A missing reading is not a reason that a store has. -/
theorem storeFree_of_asksReadings {α : Type} {x : Except DecisionError α} (h : AsksReadings x) :
    StoreFree x := by
  intro cause herror
  obtain ⟨v, m, heq⟩ := h _ herror
  cases heq

theorem storeFree_tunedConfig (config : Config) (tuning : Overrides) :
    StoreFree (tunedConfig config tuning) := by
  intro cause h
  unfold tunedConfig at h
  split at h
  · split at h
    · cases h
    · cases h
  · cases h

/-! ### What is stored -/

/-- All doubles of a proposal are finite. -/
def Proposal.IsFinite (p : Proposal) : Prop := ∀ v c, p.get? v = some c → c.isFinite = true

/-- A history with a decision entered is finite if both are. -/
theorem isFinite_record {h : History} {p : Proposal} (hh : h.isFinite = true) (hp : p.IsFinite)
    (now : Instant) : (h.record now p).isFinite = true := by
  rw [History.isFinite_iff] at hh ⊢
  intro v i c hc
  rw [History.change?_record] at hc
  split at hc
  · rcases Option.or_eq_some_iff.1 hc with hnew | ⟨_, hold⟩
    · exact hp v c hnew
    · exact hh v i c hold
  · exact hh v i c hc

namespace Stance

/-- A fresh stance has averages of its readings, and zeros where they are
    missing. -/
theorem isFinite_ofReadings (parallelism : Nat) {readings : Readings} (hr : readings.IsFinite) :
    (ofReadings parallelism readings).isFinite = true := by
  have haverage : ∀ m, (((readings.get? m).map Reading.average).getD 0.0).isFinite = true := by
    intro m
    cases hm : readings.get? m with
    | none => decide +kernel
    | some reading => exact (Bool.and_eq_true_iff.1 (hr m reading hm)).2
  rw [isFinite, ofReadings, haverage, haverage, haverage]
  rfl

/-- Whichever way a stance moves on, it keeps what was measured. -/
theorem isFinite_of_move {fresh after : Stance} {before : Option Stance}
    {options : Config.Elastic} (h : fresh.Move options before after) :
    after.isFinite = fresh.isFinite := by
  cases h with
  | _ => rfl

/-- The policy hands numbers on. -/
theorem isFinite_next (fresh : Stance) (before : Option Stance) (options : Config.Elastic) :
    (fresh.next before options).isFinite = fresh.isFinite :=
  isFinite_of_move (move_next fresh before options)

end Stance

theorem isFinite_carriedOver (readings : JobReadings) (p : Proposal) {previous : Option Generation}
    (hprevious : ∀ g, previous = some g → g.isFinite = true) :
    ∀ v s, (carriedOver readings p previous).get? v = some s → s.isFinite = true := by
  cases previous with
  | none => intro v s hs; cases hs
  | some g => exact SortedMap.found_filter (Generation.isFinite_iff.1 (hprevious g rfl))

/-- A generation is made of stances that are carried over and of fresh ones that
    move on, so it is finite. -/
theorem isFinite_nextGeneration (options : Config.Elastic) (period : Nat) (readings : JobReadings)
    {p : Proposal} (hp : p.IsFinite)
    {previous : Option Generation} (hprevious : ∀ g, previous = some g → g.isFinite = true) :
    (nextGeneration options period readings p previous).isFinite = true := by
  refine Generation.isFinite_iff.2 (SortedMap.found_insertAll
    (isFinite_carriedOver readings p hprevious) fun v s hs => ?_)
  rw [Generation.advance, freshGeneration, SortedMap.get?_mapValues, SortedMap.get?_mapValues,
    Option.map_map, Option.map_eq_some_iff] at hs
  rcases hs with ⟨c, hc, rfl⟩
  exact (Stance.isFinite_next _ _ _).trans
    (Stance.isFinite_ofReadings c.target (Change.readings_of_isFinite (hp v c hc)))

/-! ### Soundness -/

/-- The readings of all vertices are finite. Those of the job as a whole may be
    anything, since no record has them. -/
def JobReadings.VerticesFinite (r : JobReadings) : Prop :=
  ∀ v readings, r.vertices.get? v = some readings → readings.IsFinite

theorem JobReadings.verticesFinite_iff {r : JobReadings} :
    (r.vertices.values.all fun readings => readings.values.all Reading.isFinite) = true ↔
      r.VerticesFinite := by
  simp only [SortedMap.all_values_iff]
  rfl

instance (r : JobReadings) : Decidable r.VerticesFinite :=
  decidable_of_iff _ JobReadings.verticesFinite_iff

/-- A ledger with a finite store and without faults. -/
structure Ledger.Sound (l : Ledger) : Prop where
  store : l.store.IsFinite
  fault : ∀ access, l.fault access = none

namespace Session

/-- A session on a sound ledger, with a finite history. -/
structure Sound (s : Session) : Prop where
  ledger : s.ledger.Sound
  history : s.history.isFinite = true

/-- A session in which the readings of the vertices are finite, too. -/
structure Ready (s : Session) : Prop extends Sound s where
  readings : s.readings.VerticesFinite

end Session

namespace Step

open Session

/-- From a session of one kind a step leads to one of another kind, with a value
    of which `P` is true. If it fails, it is not like a store, and it leaves a
    sound ledger. -/
structure Safe {α : Type} (pre post : Session → Prop) (x : Step α) (P : α → Prop) : Prop where
  returns : ∀ s a t, pre s → Returns x s a t → post t ∧ P a
  fails : ∀ s e t, pre s → Fails x s e t → t.ledger.Sound ∧ ∀ cause, e ≠ .store cause

section Rules

variable {α β : Type} {pre mid post : Session → Prop} {P : α → Prop} {Q : β → Prop}

/-- A safe step meets a contract, and the rules for contracts apply to it. -/
theorem safe_iff_meets {x : Step α} :
    Safe pre post x P ↔ Meets pre x (fun a t => post t ∧ P a)
      fun e t => t.ledger.Sound ∧ ∀ cause, e ≠ .store cause :=
  ⟨fun h => ⟨h.returns, h.fails⟩, fun h => ⟨h.returns, h.fails⟩⟩

theorem safe_pure {a : α} (ha : P a) : Safe pre pre (pure a) P :=
  safe_iff_meets.2 (meets_pure fun _ hs => ⟨hs, ha⟩)

theorem safe_throw {e : DecisionError} (he : ∀ cause, e ≠ .store cause) :
    Safe Sound Sound (throw e : Step α) P :=
  safe_iff_meets.2 (meets_throw fun _ hs => ⟨hs.ledger, he⟩)

theorem safe_bind {x : Step α} {f : α → Step β} (hx : Safe pre mid x P)
    (hf : ∀ a, P a → Safe mid post (f a) Q) : Safe pre post (x >>= f) Q := by
  refine safe_iff_meets.2 (meets_bind (safe_iff_meets.1 hx) fun a => ?_)
  exact meets_of_fact fun ha => safe_iff_meets.1 (hf a ha)

/-- What a session is known to be is known of the one that is taken. -/
theorem safe_get (h : ∀ s, pre s → post s) : Safe pre post get pre :=
  safe_iff_meets.2 (meets_get fun s hs => ⟨h s hs, hs⟩)

theorem safe_set {s' : Session} (h : s'.Sound) : Safe Sound Sound (set s') fun _ => True :=
  safe_iff_meets.2 (meets_set fun _ _ => ⟨h, trivial⟩)

theorem safe_modify {f : Session → Session} (h : ∀ s : Session, s.Sound → (f s).Sound) :
    Safe Sound Sound (modify f) fun _ => True :=
  safe_iff_meets.2 (meets_modify fun s hs => ⟨h s hs, trivial⟩)

theorem safe_tell (events : List Event) : Safe Sound Sound (tell events) fun _ => True :=
  safe_modify fun _ hs => ⟨hs.ledger, hs.history⟩

theorem safe_ofExcept {x : Except DecisionError α} (hx : StoreFree x) :
    Safe Sound Sound (ofExcept x) fun a => x = .ok a := by
  refine safe_iff_meets.2 (meets_ofExcept (fun _ _ hs hok => ⟨hs, hok⟩) ?_)
  intro s e hs herror
  refine ⟨hs.ledger, fun cause heq => hx cause ?_⟩
  rw [herror, heq]

theorem safe_asking {x : Except DecisionError α} (hx : AsksReadings x) :
    Safe Sound Sound (ofExcept x) fun a => x = .ok a :=
  safe_ofExcept (storeFree_of_asksReadings hx)

/-- From a sound ledger everything is read that a finite store answers. -/
theorem safe_read {kind : RecordKind} {f : Store → Except StoreError α}
    (hf : ∀ st : Store, st.IsFinite → ∃ a, f st = .ok a ∧ P a) :
    Safe Sound Sound (read kind f) P where
  returns := fun s a t hs h => by
    rcases returns_read_iff.1 h with ⟨hread, rfl⟩
    rcases hf _ hs.ledger.store with ⟨a', ha', hP⟩
    obtain rfl : a' = a := Except.ok.inj (ha'.symm.trans (read_eq_ok hread))
    exact ⟨hs, hP⟩
  fails := fun s e t hs h => by
    rcases fails_read_iff.1 h with ⟨cause, hread, _⟩
    rcases hf _ hs.ledger.store with ⟨a, ha, _⟩
    rw [Ledger.read, hs.ledger.fault] at hread
    cases ha.symm.trans hread

/-- A write goes through, and what it puts has to be finite. -/
theorem safe_write {kind : RecordKind} {f : Store → Store}
    (hf : ∀ st : Store, st.IsFinite → (f st).IsFinite) :
    Safe Sound Sound (write kind f) fun _ => True where
  returns := fun s a t hs h => by
    rcases returns_write_iff.1 h with ⟨_, rfl⟩
    exact ⟨⟨⟨hf _ hs.ledger.store, hs.ledger.fault⟩, hs.history⟩, trivial⟩
  fails := fun s e t hs h => by
    rcases fails_write_iff.1 h with ⟨cause, hfault, _⟩
    rw [hs.ledger.fault] at hfault
    cases hfault

/-- A step that keeps the readings keeps them finite. -/
theorem safe_ready {x : Step α} (hx : Safe Sound Sound x P)
    (hkeeps : Keeps (fun s => s.readings) x) : Safe Ready Ready x P where
  returns := fun s a t hs h => by
    rcases hx.returns s a t hs.toSound h with ⟨ht, ha⟩
    have hreadings : t.readings = s.readings := hkeeps s t h.leaves
    exact ⟨⟨ht, by rw [hreadings]; exact hs.readings⟩, ha⟩
  fails := fun s e t hs h => hx.fails s e t hs.toSound h

end Rules

end Step

/-! ### Stages of a decision -/

namespace Engine

open Step Session

variable (e : Engine) (ctx : JobContext) (topology : Topology) (restart : Span) (now : Instant)

/-- A change keeps the readings it is based on, and sets no profiles. -/
theorem isFinite_of_of? {current target : Nat} {readings : Readings} {c : Change}
    (hr : readings.IsFinite) (h : (Change.of? current target readings).toOption = some c) :
    c.isFinite = true := by
  unfold Change.of? at h
  split at h
  · cases h
  · split at h
    · cases h
    · obtain rfl := Option.some.inj h
      exact Change.isFinite_of_readings hr rfl rfl

theorem safe_proposeVertex (v : VertexId) {readings : Readings} (hr : readings.IsFinite) :
    Safe Sound Sound (e.proposeVertex ctx topology restart now v readings)
      fun o => ∀ c, o = some c → c.isFinite = true := by
  unfold proposeVertex
  cases topology.get? v with
  | none => exact safe_throw fun cause heq => by cases heq
  | some stage =>
      refine safe_bind (safe_asking (asksReadings_currentParallelism v readings))
        fun current _ => ?_
      refine safe_bind (safe_get fun _ hs => hs) fun s hs => ?_
      refine safe_bind (safe_asking (asksReadings_decide _ ctx _ _)) fun decision _ => ?_
      refine safe_bind (safe_set ⟨hs.ledger, hs.history⟩) fun _ _ => safe_pure fun c hc => ?_
      rcases Option.bind_eq_some_iff.1 hc with ⟨target, _, hchange⟩
      exact isFinite_of_of? hr hchange

/-- By induction on the vertices: the change of the first one is finite, and so are
    those of the others. -/
theorem safe_proposeEach (vertices : List (VertexId × Readings)) :
    (∀ entry ∈ vertices, entry.2.IsFinite) →
      Safe Sound Sound (e.proposeEach ctx topology restart now vertices) Proposal.IsFinite := by
  induction vertices with
  | nil =>
      intro _
      exact safe_pure fun v c hc => by cases hc
  | cons entry rest ih =>
      intro hvertices
      rcases entry with ⟨v, readings⟩
      rcases List.forall_mem_cons.1 hvertices with ⟨hfirst, hrest⟩
      unfold proposeEach
      split
      · exact ih hrest
      · refine safe_bind (e.safe_proposeVertex ctx topology restart now v hfirst)
          fun change hchange => ?_
        refine safe_bind (ih hrest) fun others hothers => safe_pure ?_
        cases change with
        | none => exact hothers
        | some c => exact SortedMap.found_insert hothers (hchange c rfl)

/-- Changes are based on the readings of a session, so they are finite if these
    are. -/
theorem safe_propose :
    Safe Ready Sound (e.propose ctx topology restart now) Proposal.IsFinite := by
  have hempty : Proposal.IsFinite ∅ := fun v c hc => by cases hc
  unfold propose
  refine safe_bind (safe_get fun _ hs => hs.toSound) fun s hs => ?_
  cases pressure? ctx s.readings with
  | some event => exact safe_bind (safe_tell _) fun _ _ => safe_pure hempty
  | none =>
      refine safe_bind (e.safe_proposeEach ctx topology restart now _ fun entry hentry => ?_)
        fun proposal hproposal => ?_
      · exact hs.readings entry.1 entry.2 (SortedMap.mem_toList_iff.1 hentry)
      · refine safe_bind (safe_asking (asksReadings_withinBand _ _)) fun within _ => ?_
        cases within with
        | true => exact safe_pure hempty
        | false => exact safe_pure hproposal

theorem safe_ceiling? (tuned : Config) (readings : JobReadings) (p : Proposal) :
    Safe Sound Sound (e.ceiling? ctx tuned topology readings p) fun _ => True := by
  unfold ceiling?
  refine safe_bind (safe_asking (asksReadings_clusterCeiling _ _ _ _ _ _)) fun c _ => ?_
  cases c with
  | some c => exact safe_pure trivial
  | none =>
      cases quotaCeiling tuned ctx.cores (ctx.processSize? tuned.memory) topology p with
      | none => exact safe_pure trivial
      | some c => exact safe_bind (safe_tell _) fun _ _ => safe_pure trivial

end Engine

namespace Step

open Session

variable (ctx : JobContext) (now : Instant) {p : Proposal}

/-- A write for a job. -/
theorem safe_perform (kind : RecordKind) (job : JobId) {w : JobWrite} (hw : w.IsFinite) :
    Safe Sound Sound (write kind fun st => st.perform job w) fun _ => True :=
  safe_write fun _ hst => Store.isFinite_perform hst job hw

theorem safe_openEntry (hp : p.IsFinite) :
    Safe Sound Sound (openEntry ctx now p) fun _ => True := by
  unfold openEntry
  refine safe_bind (safe_modify fun s hs => ⟨hs.ledger, isFinite_record hs.history hp now⟩)
    fun _ _ => ?_
  refine safe_bind (safe_get fun _ hs => hs) fun s hs => ?_
  refine safe_bind (safe_perform .history ctx.id (w := .history s.history) hs.history)
    fun _ _ => ?_
  refine safe_bind (safe_modify fun s hs => ⟨hs.ledger, hs.history⟩) fun _ _ => ?_
  refine safe_bind (safe_get fun _ hs => hs) fun s hs => ?_
  exact safe_perform .restartLog ctx.id (w := .restartLog s.restarts) trivial

theorem safe_storeOverrides (job : JobId) (overrides tuning : Overrides) :
    Safe Sound Sound (storeOverrides job overrides tuning) fun _ => True :=
  safe_bind (safe_perform .parallelism job (w := .parallelism overrides) trivial) fun _ _ =>
    safe_perform .configChanges job (w := .configChanges tuning) trivial

theorem safe_previousGeneration (job : JobId) (period : Nat) :
    Safe Sound Sound (previousGeneration job period)
      fun previous => ∀ g, previous = some g → g.isFinite = true := by
  cases period with
  | zero => exact safe_pure fun g hg => by cases hg
  | succ period => exact safe_read fun st hst => hst.generation? job period

theorem safe_storeGeneration (overrides : Overrides) {g : Generation} (hg : g.isFinite = true) :
    Safe Sound Sound (storeGeneration ctx overrides g) fun _ => True := by
  unfold storeGeneration
  refine safe_bind (safe_perform .generation ctx.id (w := .generation g) hg) fun _ _ => ?_
  refine safe_bind (safe_perform .parallelism ctx.id
    (w := .parallelism (withGeneration overrides g)) trivial) fun _ _ => ?_
  exact safe_perform .profiles ctx.id (w := .profiles (profileOverrides _ g)) trivial

theorem safe_persistGeneration (hp : p.IsFinite) (overrides : Overrides) :
    Safe Sound Sound (persistGeneration ctx p overrides) fun _ => True := by
  unfold persistGeneration
  refine safe_bind (safe_read (P := fun _ => True) fun st _ => ⟨_, rfl, trivial⟩) fun period _ => ?_
  refine safe_bind (safe_previousGeneration ctx.id period) fun previous hprevious => ?_
  refine safe_bind (safe_get fun _ hs => hs) fun s _ => ?_
  exact safe_storeGeneration ctx overrides (isFinite_nextGeneration _ period _ hp hprevious)

theorem safe_countDecision (job : JobId) :
    Safe Sound Sound (countDecision job) fun _ => True :=
  safe_bind (safe_perform .period job (w := .advancePeriod) trivial) fun _ _ =>
    safe_modify fun _ hs => ⟨hs.ledger, hs.history⟩

theorem safe_persist (hp : p.IsFinite) (tuning : Overrides) :
    Safe Sound Sound (persist ctx now p tuning) fun _ => True := by
  unfold persist
  refine safe_bind (safe_openEntry ctx now hp) fun _ _ => ?_
  refine safe_bind (safe_get fun _ hs => hs) fun s _ => ?_
  refine safe_bind (safe_asking (asksReadings_overridesFor p _)) fun overrides _ => ?_
  refine safe_bind (safe_storeOverrides ctx.id overrides tuning) fun _ _ => ?_
  cases ctx.config.elastic.enabled with
  | false => exact safe_countDecision ctx.id
  | true =>
      exact safe_bind (safe_persistGeneration ctx hp overrides) fun _ _ =>
        safe_countDecision ctx.id

end Step

namespace Engine

open Step Session

variable (e : Engine) (ctx : JobContext) (topology : Topology) (now : Instant)

theorem safe_applyProposal {p : Proposal} (hp : p.IsFinite) :
    Safe Sound Sound (e.applyProposal ctx topology now p) fun _ => True := by
  unfold applyProposal
  refine safe_bind (safe_get fun _ hs => hs) fun s _ => ?_
  refine safe_bind (safe_tell _) fun _ _ => ?_
  refine safe_bind (safe_ofExcept (storeFree_tunedConfig _ _)) fun tuned _ => ?_
  refine safe_bind (e.safe_ceiling? ctx topology tuned _ p) fun c _ => ?_
  cases c with
  | some c => exact safe_pure trivial
  | none => exact safe_bind (safe_persist ctx now hp _) fun _ _ => safe_pure trivial

/-- A decision on finite readings is safe. What it recommends is entered into the
    readings after they were used, and from there it does not get into records. -/
theorem safe_decide : Safe Ready Sound (e.decide ctx topology now) fun _ => True := by
  unfold decide
  refine safe_bind (safe_get fun _ hs => hs) fun s _ => ?_
  refine safe_bind (e.safe_propose ctx topology _ now) fun p hp => ?_
  split
  · exact safe_pure trivial
  · refine safe_bind (safe_modify fun s hs => ⟨hs.ledger, hs.history⟩) fun _ _ => ?_
    refine safe_bind (safe_tell _) fun _ _ => ?_
    cases blockReason? ctx.config now with
    | some reason => exact safe_pure trivial
    | none => exact e.safe_applyProposal ctx topology now hp

end Engine

end Rescale
