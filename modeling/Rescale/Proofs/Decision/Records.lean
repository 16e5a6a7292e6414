import Rescale.Proofs.Decision.Overrides
import Rescale.Proofs.Job.History
import Rescale.Proofs.Store.Writes

/-!
# Records of an Applied Decision

All that an applied decision leaves behind, in the session and in the store.

A decision is stored in stages, and seen from the store the stages are a list of
writes for one job. What is elsewhere in the store follows from that list alone:
nothing in it deletes, and the one generation in it goes under the number of the
decision. What is there for the job itself is read off the last write to each
record. Only the overrides take an argument. With the elastic policy on they are
written a second time with the generation on top, and no vertex is added by
that, since a generation has stances for vertices that change or report, and
what changes was reported.

The records are those that the writes put. What is read back of them is a matter
of the store alone, which keeps doubles as text.

## Main definitions

* `Generation.Follows`: A generation is one move of the policy away from the one
  before.
* `Session.Entered`: What is left with and without the elastic policy.
* `Store.FollowsProposal`: What is stored with the policy off.
* `Store.FollowsGeneration`: What is stored with the policy on.
* `Session.Applied`: All that an applied decision leaves.

## Theorems

* `follows_nextGeneration`: What a decision makes is a move of the policy.
* `contains_parallelismOverrides`: The vertices that report have overrides.
* `contains_withGeneration`: A generation on top adds no vertex.
* `entered_of_persist`, `applied_of_persist`, `applied_of_stored`: What storing a
  decision leaves.
* `decide_applied`: What a decision leaves that ends as scaled.
-/

namespace Rescale

open Step

/-! ### Moves of the policy -/

/-- A generation is one move of the policy away from the one before, if there is
    one, for what a decision changes and what reports. -/
structure Generation.Follows (options : Config.Elastic) (readings : JobReadings) (p : Proposal)
    (previous : Option Generation) (g : Generation) : Prop where
  vertices : ∀ v, g.stances.contains v = true ↔ p.contains v = true ∨
    (Generation.stance? previous v).isSome = true ∧ readings.vertices.contains v = true
  changed : ∀ v c, p.get? v = some c → g.stances.get? v =
    some ((Stance.ofReadings c.target c.readings).next (Generation.stance? previous v) options)
  carried : ∀ v, p.get? v = none → g.stances.contains v = true →
    g.stances.get? v = Generation.stance? previous v

theorem follows_nextGeneration (options : Config.Elastic) (period : Nat) (readings : JobReadings)
    (p : Proposal) (previous : Option Generation) :
    (nextGeneration options period readings p previous).Follows options readings p previous := by
  refine ⟨fun v => ?_, fun v c hc => ?_, fun v hnone hv => ?_⟩
  · rw [SortedMap.contains, SortedMap.contains, get?_nextGeneration]
    cases hc : p.get? v with
    | some c => exact iff_of_true rfl (Or.inl rfl)
    | none =>
        cases hreports : readings.vertices.contains v with
        | true => simp only [if_true, Option.isSome_none, Bool.false_eq_true, false_or, and_true]
        | false => simp only [Bool.false_eq_true, if_false, Option.isSome_none, and_false, or_self]
  · rw [get?_nextGeneration, hc]
  · rw [SortedMap.contains, get?_nextGeneration, hnone] at hv
    rw [get?_nextGeneration, hnone]
    -- It has a stance, so it reports.
    cases hreports : readings.vertices.contains v with
    | true => rfl
    | false => rw [hreports] at hv; cases hv

/-! ### Vertices with overrides -/

/-- Exactly the vertices that report have overrides. -/
theorem contains_parallelismOverrides {readings : JobReadings} {p : Proposal} {o : Overrides}
    (ho : parallelismOverrides readings p = .ok o) (v : VertexId) :
    o.contains v = readings.vertices.contains v := by
  unfold SortedMap.contains
  cases hr : readings.vertices.get? v with
  | some r =>
      rcases get?_parallelismOverrides_of_reported ho hr with ⟨n, _, hget⟩
      rw [hget]
      rfl
  | none =>
      cases hget : o.get? v with
      | none => rfl
      | some text =>
          rcases (get?_parallelismOverrides ho v text).1 hget with ⟨r, _, hr', _⟩
          rw [hr] at hr'
          cases hr'

/-- With a generation on top the same vertices have overrides, as long as the
    generation is about some of them. -/
theorem contains_withGeneration {overrides : Overrides} {g : Generation}
    (hg : ∀ v, g.stances.contains v = true → overrides.contains v = true) (v : VertexId) :
    (withGeneration overrides g).contains v = overrides.contains v := by
  rw [SortedMap.contains, get?_withGeneration]
  cases hstance : g.stances.get? v with
  | none => rfl
  | some stance =>
      rw [hg v (SortedMap.contains_iff.2 ⟨stance, hstance⟩)]
      rfl

theorem contains_recommend (readings : JobReadings) (p : Proposal) (v : VertexId) :
    (recommend readings p).vertices.contains v = readings.vertices.contains v :=
  SortedMap.contains_mapValues _ _ v

/-- Which vertices report is all that a generation takes from readings. -/
theorem nextGeneration_recommend (options : Config.Elastic) (period : Nat) (readings : JobReadings)
    (p : Proposal) (previous : Option Generation) :
    nextGeneration options period (recommend readings p) p previous =
      nextGeneration options period readings p previous := by
  have hcarried : carriedOver (recommend readings p) p previous =
      carriedOver readings p previous := by
    unfold carriedOver
    simp only [contains_recommend]
  rw [nextGeneration, hcarried, nextGeneration]

/-- A generation is about vertices that report, if what changes was reported. -/
theorem contains_of_nextGeneration {options : Config.Elastic} {period : Nat}
    {readings : JobReadings} {p : Proposal} {previous : Option Generation}
    (hp : ∀ v, p.contains v = true → readings.vertices.contains v = true) (v : VertexId)
    (h : (nextGeneration options period readings p previous).stances.contains v = true) :
    readings.vertices.contains v = true := by
  rcases ((follows_nextGeneration options period readings p previous).vertices v).1 h with
    hchanged | ⟨_, hreports⟩
  · exact hp v hchanged
  · exact hreports

/-! ### What is left -/

/-- What an applied decision leaves with and without the elastic policy: an
    entry of history and restart log, in the session and stored, the overrides
    of tuning, one more decision, and no holds. -/
structure Session.Entered (s : Session) (ctx : JobContext) (now : Instant) (p : Proposal)
    (tuning : Overrides) (t : Session) : Prop where
  /-- Each change is put at the instant of the decision, and nothing else is. -/
  history : ∀ v, t.history.get? v =
    ((p.get? v).map fun c => (s.history.ofVertex v).insert now c).or (s.history.get? v)
  storedHistory : t.ledger.store.histories.get? ctx.id = some t.history
  readHistory : t.ledger.store.history? ctx.id = (Store.rereadHistory t.history).map some
  /-- The entry of the decision is open, and no other one is touched. -/
  restarts : ∀ i, t.restarts.get? i = if compare i now = .eq then some none else s.restarts.get? i
  storedRestarts : t.ledger.store.restartLog? ctx.id = some t.restarts
  configChanges : t.ledger.store.configChanges? ctx.id = some tuning
  period : t.ledger.store.period ctx.id = s.ledger.store.period ctx.id + 1
  holds : t.pending.holds = ∅
  storedHolds : t.ledger.store.holds? ctx.id = s.ledger.store.holds? ctx.id

/-- What is stored about a proposal with the elastic policy off. -/
structure Store.FollowsProposal (job : JobId) (p : Proposal) (s t : Store) : Prop where
  override? : ∀ v c, p.get? v = some c → t.override? job v = some (numberText c.target)
  profiles : t.profiles? job = s.profiles? job
  generations : t.generations = s.generations

/-- What is stored about a proposal with the elastic policy on: a generation
    with a stance for each change, and overrides and slot profiles of its
    stances. -/
structure Store.FollowsGeneration (ctx : JobContext) (p : Proposal) (g : Generation) (t : Store) :
    Prop where
  stored : t.generations.get? (generationKey ctx.id g.period) = some g
  read : t.generation? ctx.id g.period = (rereadGeneration g).map some
  changed : ∀ v, p.contains v = true → g.stances.contains v = true
  override? : ∀ v stance, g.stances.get? v = some stance →
    t.override? ctx.id v = some (numberText stance.parallelism)
  profiles : ∃ o, t.profiles? ctx.id = some o ∧ o.keys = g.stances.keys ∧
    ∀ v stance, g.stances.get? v = some stance → o.get? v = some
      (SlotProfile.ofLevel ((ctx.processSize? ctx.config.memory).getD 0) stance.memoryLevel).text

/-- All that an applied decision leaves, from what was there before. Overrides
    of parallelism are stored for the vertices that report. They follow the
    proposal or, with the elastic policy on, the generation that the policy
    makes of it, under the number that the decision had. Nothing else is touched
    in the store. -/
structure Session.Applied (s : Session) (ctx : JobContext) (now : Instant) (p : Proposal)
    (tuning : Overrides) (t : Session) : Prop extends s.Entered ctx now p tuning t where
  parallelism : ∃ o, t.ledger.store.parallelism? ctx.id = some o ∧
    o.keys = s.readings.vertices.keys
  policyOff : ctx.config.elastic.enabled = false →
    Store.FollowsProposal ctx.id p s.ledger.store t.ledger.store
  policyOn : ctx.config.elastic.enabled = true →
    ∃ previous, s.ledger.previous? ctx.id = .ok (s.ledger.store.period ctx.id, previous) ∧
      Store.FollowsGeneration ctx p
        (nextGeneration ctx.config.elastic (s.ledger.store.period ctx.id) s.readings p previous)
        t.ledger.store
  elsewhere : Store.SameElsewhere ctx.id (s.ledger.store.period ctx.id) s.ledger.store
    t.ledger.store

/-! ### The stages of storing -/

section Stages

variable {ctx : JobContext} {now : Instant} {p : Proposal} {tuning : Overrides} {s t : Session}
  {u : Unit}

theorem entered_of_persist (h : Returns (persist ctx now p tuning) s u t) :
    s.Entered ctx now p tuning t := by
  rcases returns_persist h with ⟨overrides, _, ⟨_, rfl⟩ | ⟨_, _, _, _, rfl⟩⟩
  -- A generation is stored in between or not, and these records are not about it.
  all_goals exact
    { history := s.history.get?_record now p
      storedHistory := SortedMap.get?_insert_self _ _ _
      readHistory := congrArg (Store.readBack? Store.rereadHistory)
        (SortedMap.get?_insert_self _ _ _)
      restarts := fun i => SortedMap.get?_insert _ _ i _
      storedRestarts := SortedMap.get?_insert_self _ _ _
      configChanges := SortedMap.get?_insert_self _ _ _
      period := congrArg (·.getD 0) (SortedMap.get?_insert_self s.ledger.store.periods ctx.id _)
      holds := rfl
      storedHolds := rfl }

/-- A target is the override of its vertex where no generation lies on top. -/
theorem get?_parallelismOverrides_of_change {readings : JobReadings} {o : Overrides}
    (ho : parallelismOverrides readings p = .ok o)
    (hp : ∀ v, p.contains v = true → readings.vertices.contains v = true) {v : VertexId}
    {c : Change} (hc : p.get? v = some c) : o.get? v = some (numberText c.target) := by
  rcases SortedMap.contains_iff.1 (hp v (SortedMap.contains_iff.2 ⟨c, hc⟩)) with ⟨r, hr⟩
  refine (get?_parallelismOverrides ho v _).2 ⟨r, c.target, hr, ?_, rfl⟩
  exact settledParallelism_eq_ok_iff.2 (Or.inl ⟨c, hc, rfl⟩)

/-- What a generation leaves once it is stored with what follows from it. -/
theorem followsGeneration_counted (s : Session) (overrides : Overrides) (g : Generation)
    (hg : ∀ v, p.contains v = true → g.stances.contains v = true) :
    Store.FollowsGeneration ctx p g
      ((s.generated ctx overrides g).counted ctx.id).ledger.store where
  stored := SortedMap.get?_insert_self _ _ _
  read := congrArg (Store.readBack? Store.rereadGeneration) (SortedMap.get?_insert_self _ _ _)
  changed := hg
  override? := by
    intro v stance hstance
    have hstored : ((s.generated ctx overrides g).counted ctx.id).ledger.store.parallelism? ctx.id =
        some (withGeneration overrides g) := SortedMap.get?_insert_self _ _ _
    rw [Store.override?, hstored, Option.bind_some, get?_withGeneration, hstance]
    rfl
  profiles := by
    refine ⟨_, SortedMap.get?_insert_self _ _ _, SortedMap.keys_mapValues _ _, ?_⟩
    intro v stance hstance
    rw [profileOverrides, SortedMap.get?_mapValues, hstance]
    rfl

/-- Storing a decision leaves all of its records, if what it changes was
    reported. -/
theorem applied_of_persist
    (hp : ∀ v, p.contains v = true → s.readings.vertices.contains v = true)
    (h : Returns (persist ctx now p tuning) s u t) : s.Applied ctx now p tuning t := by
  have hentered := entered_of_persist h
  rcases returns_persist h with
    ⟨overrides, ho, ⟨hoff, rfl⟩ | ⟨hon, period, previous, hprevious, rfl⟩⟩
  · have hstored : (((s.opened ctx.id now p).overridden ctx.id overrides tuning).counted
        ctx.id).ledger.store.parallelism? ctx.id = some overrides :=
      SortedMap.get?_insert_self _ _ _
    refine { hentered with
      parallelism := ⟨overrides, hstored,
        SortedMap.keys_eq_of_contains (contains_parallelismOverrides ho)⟩
      policyOff := fun _ => ⟨fun v c hc => ?_, rfl, rfl⟩
      policyOn := fun hon => absurd (hoff.symm.trans hon) Bool.false_ne_true
      elsewhere := Store.sameElsewhere_performAll
        [.history _, .restartLog _, .parallelism _, .configChanges _, .advancePeriod] ?_ _ }
    · rw [Store.override?, hstored]
      exact get?_parallelismOverrides_of_change ho hp hc
    · simp only [List.forall_mem_cons, JobWrite.Within, List.not_mem_nil, false_implies,
        implies_true, and_self]
  · obtain rfl : s.ledger.store.period ctx.id = period := (Ledger.parts_of_previous? hprevious).1
    -- The generation is about changes and vertices that report, and all of them report.
    have hreported : ∀ v, (nextGeneration ctx.config.elastic (s.ledger.store.period ctx.id)
        s.readings p previous).stances.contains v = true → overrides.contains v = true := by
      intro v hv
      rw [contains_parallelismOverrides ho]
      exact contains_of_nextGeneration hp v hv
    have hchanged : ∀ v, p.contains v = true → (nextGeneration ctx.config.elastic
        (s.ledger.store.period ctx.id) s.readings p previous).stances.contains v = true :=
      fun v hv => ((follows_nextGeneration _ _ _ _ _).vertices v).2 (Or.inl hv)
    refine { hentered with
      parallelism := ⟨_, SortedMap.get?_insert_self _ _ _,
        SortedMap.keys_eq_of_contains fun v => ?_⟩
      policyOff := fun hoff => absurd (hoff.symm.trans hon) Bool.false_ne_true
      policyOn := fun _ => ⟨previous, hprevious, followsGeneration_counted _ overrides _ hchanged⟩
      elsewhere := Store.sameElsewhere_performAll
        [.history _, .restartLog _, .parallelism _, .configChanges _, .generation _,
          .parallelism _, .profiles _, .advancePeriod] ?_ _ }
    · rw [contains_withGeneration hreported, contains_parallelismOverrides ho]
    · simp only [List.forall_mem_cons, JobWrite.Within, nextGeneration, List.not_mem_nil,
        false_implies, implies_true, and_self]

end Stages

/-! ### Decisions -/

namespace Engine

variable {e : Engine} {ctx : JobContext} {topology : Topology} {now : Instant}

/-- What a decision changes was reported. -/
theorem contains_of_proposal {s m : Session} {p : Proposal}
    (h : Returns (e.proposal ctx topology now s) s p m) (v : VertexId)
    (hv : p.contains v = true) : s.readings.vertices.contains v = true := by
  rcases SortedMap.contains_iff.1 hv with ⟨c, hc⟩
  rcases startsFrom_of_propose h v c hc with ⟨_, r, hr, _⟩
  exact SortedMap.contains_iff.2 ⟨r, hr⟩

/-- A proposal that a decision stores leaves all of its records. They follow from
    the session that the decision started in, since neither proposing nor the
    gates touch a record. -/
theorem applied_of_stored {s m t : Session} {p : Proposal} {u : Unit}
    (hp : Returns (e.proposal ctx topology now s) s p m)
    (hpersist : Returns (Step.persist ctx now p (e.tuning ctx s.readings p))
      (e.storing ctx now p m) u t) :
    s.Applied ctx now p (e.tuning ctx s.readings p) t := by
  rcases (sameRecords_of_propose hp.leaves).exists_eq with ⟨pending, events, rfl⟩
  -- It is stored with recommendations among the readings of the session.
  have happlied := applied_of_persist (fun v hv => by
    change (recommend s.readings p).vertices.contains v = true
    rw [contains_recommend]
    exact contains_of_proposal hp v hv) hpersist
  refine { happlied with
    parallelism := ?_
    policyOn := fun hon => ?_ }
  · rcases happlied.parallelism with ⟨o, ho, hkeys⟩
    exact ⟨o, ho, hkeys.trans (differ_recommend p s.readings).keys⟩
  · rcases happlied.policyOn hon with ⟨previous, hprevious, hfollows⟩
    refine ⟨previous, hprevious, ?_⟩
    rw [← nextGeneration_recommend]
    exact hfollows

/-- A decision that ends as scaled leaves all records of what it proposed, and
    nothing else in session and store is touched. -/
theorem decide_applied (e : Engine) (ctx : JobContext) (topology : Topology) (now : Instant)
    (s t : Session) (h : Returns (e.decide ctx topology now) s .scaled t) :
    ∃ p m, Returns (e.proposal ctx topology now s) s p m ∧
      s.Applied ctx now p (e.tuning ctx s.readings p) t := by
  rcases stores_of_decide h with ⟨p, m, hp, _, hpersist⟩
  exact ⟨p, m, hp, applied_of_stored hp hpersist⟩

end Engine

namespace TwoVertices

/-- The map goes from parallelism two to four, and the sink stays at two. -/
def engine : Engine := .toward [("map", 4)]

def topology : Topology := .ofEdges [("map", "sink")]

def job (elastic : Bool) : JobContext := { id := "job", config := { elastic.enabled := elastic } }

/-- Both vertices have been waiting to be scaled down. -/
def start : Session where
  readings := .behind [("map", 2), ("sink", 2)]
  pending := .ofHolds (SortedMap.ofList [("map", ⟨⟨0⟩, 1⟩), ("sink", ⟨⟨0⟩, 1⟩)])

/-- The session that the decision leaves. -/
def stop (elastic : Bool) : Session :=
  (exec (engine.decide (job elastic) topology ⟨600000⟩) start).2

theorem decide_applied_map_to_four :
    (exec (engine.decide (job false) topology ⟨600000⟩) start).1 = .ok .scaled ∧
      (exec (engine.decide (job true) topology ⟨600000⟩) start).1 = .ok .scaled ∧
      (∃ p tuning, start.Applied (job false) ⟨600000⟩ p tuning (stop false)) ∧
      ∃ p tuning, start.Applied (job true) ⟨600000⟩ p tuning (stop true) := by
  have hoff : (exec (engine.decide (job false) topology ⟨600000⟩) start).1 = .ok .scaled := rfl
  have hon : (exec (engine.decide (job true) topology ⟨600000⟩) start).1 = .ok .scaled := rfl
  refine ⟨hoff, hon, ?_, ?_⟩
  · rcases Engine.decide_applied _ _ _ _ _ _ (returns_of_exec hoff) with ⟨p, _, _, happlied⟩
    exact ⟨p, _, happlied⟩
  · rcases Engine.decide_applied _ _ _ _ _ _ (returns_of_exec hon) with ⟨p, _, _, happlied⟩
    exact ⟨p, _, happlied⟩

/-- The sink has an override as well, the parallelism that it reports. -/
example : (stop false).ledger.store.parallelism? "job" =
    some (SortedMap.ofList [("map", "4"), ("sink", "2")]) := by
  decide +kernel

end TwoVertices

end Rescale
