import Rescale.Decision.Decide
import Rescale.Proofs.Decision.Propose
import Rescale.SortedMap.Lemmas

/-!
# The Gates of a Decision

Every gate of a decision stands in front of its first write.

A decision is taken apart along its gates: a proposal, the reasons to block it,
the tuned options, the ceiling of the cluster and those of the quotas. Each run
that returns stops at exactly one of them or gets past all of them. What comes
before a gate proposes, enters recommendations and tells events, so a decision
that stops leaves ledger, history and restart log as they were; and one that is
stored has been let through by each gate, under the options that tuning made.

## Main definitions

* `Session.reported`: A session once a proposal is recommended and reported.
* `TunedBy`: The options that hold after tuning.
* `Admits`: All gates let a proposal through.
* `DifferInRecommendations`: Readings that agree but for recommendations.

## Theorems

* `returns_decide_iff`, `fails_decide_iff`: The stages of a decision.
* `returns_applyProposal_iff`, `fails_applyProposal_cases`: The stages after the
  gate of the blackouts.
* `returns_ceiling?_none_iff`: When neither cluster nor quotas put a ceiling.
* `blockReason?_eq_none_iff`: When a decision is not blocked.
* `differ_recommend`: Recommending touches one reading per proposed vertex.
* `stores_of_decide`, `fails_decide_cases`: What is stored, and what fails while
  it is stored, was let through by all gates.
* `kept_of_decide`: What a decision that is not stored leaves.
* `decide_gated`: A decision is stored only past all gates, and one that is
  stopped stores nothing.
-/

namespace Rescale

open Step

/-! ### The stages of a decision -/

/-- A session once a proposal is entered into its readings and reported. -/
def Session.reported (s : Session) (ctx : JobContext) (now : Instant) (p : Proposal) : Session :=
  { s with
    readings := recommend s.readings p
    events := s.events ++ [Event.scalingReport ctx.id
      (reportHeading (blockReason? ctx.config now)) p ctx.config.scaling.eventInterval] }

namespace Engine

variable {e : Engine} {ctx : JobContext} {topology : Topology} {now : Instant}

/-- What a decision proposes, from the session that it starts in. -/
def proposal (e : Engine) (ctx : JobContext) (topology : Topology) (now : Instant)
    (s : Session) : Step Proposal :=
  e.propose ctx topology (s.restarts.estimate ctx.config.restart) now

/-- A decision that returns has a proposal. It ends there if the proposal is
    empty, and at the report if there is a reason to block it. -/
theorem returns_decide_iff {s t : Session} {o : Outcome} :
    Returns (e.decide ctx topology now) s o t ↔
      ∃ p m, Returns (e.proposal ctx topology now s) s p m ∧
        ((p.isEmpty = true ∧ o = .noChange ∧ t = m) ∨
          (p.isEmpty = false ∧
            ((∃ reason, blockReason? ctx.config now = some reason ∧ o = .blocked reason ∧
                t = m.reported ctx now p) ∨
              (blockReason? ctx.config now = none ∧
                Returns (e.applyProposal ctx topology now p) (m.reported ctx now p) o t)))) := by
  simp only [decide, proposal, returns_bind_iff, returns_get_iff]
  constructor
  · rintro ⟨_, _, ⟨rfl, rfl⟩, p, m, hp, h⟩
    refine ⟨p, m, hp, ?_⟩
    -- The first gate: there has to be something to change.
    cases hempty : p.isEmpty with
    | true =>
        simp only [hempty, if_true, returns_pure_iff] at h
        exact Or.inl ⟨rfl, h.1.symm, h.2.symm⟩
    | false =>
        simp only [hempty, Bool.false_eq_true, if_false, returns_bind_iff, returns_modify_iff,
          returns_tell_iff] at h
        rcases h with ⟨_, _, rfl, _, _, rfl, h⟩
        refine Or.inr ⟨rfl, ?_⟩
        -- The second gate comes after the report, which names the reason.
        cases hreason : blockReason? ctx.config now with
        | some reason =>
            simp only [hreason, returns_pure_iff] at h
            refine Or.inl ⟨reason, rfl, h.1.symm, ?_⟩
            rw [← h.2, Session.reported, hreason]
        | none =>
            simp only [hreason] at h
            refine Or.inr ⟨rfl, ?_⟩
            rw [Session.reported, hreason]
            exact h
  · rintro ⟨p, m, hp, h⟩
    refine ⟨s, s, ⟨rfl, rfl⟩, p, m, hp, ?_⟩
    rcases h with ⟨hempty, rfl, rfl⟩ | ⟨hempty, h⟩
    · rw [if_pos hempty]
      exact returns_pure_iff.2 ⟨rfl, rfl⟩
    · simp only [hempty, Bool.false_eq_true, if_false, returns_bind_iff, returns_modify_iff,
        returns_tell_iff]
      refine ⟨(), _, rfl, (), _, rfl, ?_⟩
      rcases h with ⟨reason, hreason, rfl, rfl⟩ | ⟨hreason, h⟩
      · simp only [hreason, returns_pure_iff, Session.reported, and_self]
      · simp only [Session.reported, hreason] at h
        simp only [hreason]
        exact h

/-- A decision fails while it proposes or when it applies what it may apply. -/
theorem fails_decide_iff {s t : Session} {err : DecisionError} :
    Fails (e.decide ctx topology now) s err t ↔
      Fails (e.proposal ctx topology now s) s err t ∨
        ∃ p m, Returns (e.proposal ctx topology now s) s p m ∧ p.isEmpty = false ∧
          blockReason? ctx.config now = none ∧
          Fails (e.applyProposal ctx topology now p) (m.reported ctx now p) err t := by
  simp only [decide, proposal, fails_bind_iff, returns_get_iff, not_fails_get, false_or]
  constructor
  · rintro ⟨_, _, ⟨rfl, rfl⟩, h | ⟨p, m, hp, h⟩⟩
    · exact Or.inl h
    · refine Or.inr ⟨p, m, hp, ?_⟩
      -- Neither an empty proposal nor a reason to block is an error.
      cases hempty : p.isEmpty with
      | true => simp only [hempty, if_true, not_fails_pure] at h
      | false =>
          simp only [hempty, Bool.false_eq_true, if_false, fails_bind_iff, not_fails_modify,
            returns_modify_iff, not_fails_tell, returns_tell_iff, false_or] at h
          rcases h with ⟨_, _, rfl, _, _, rfl, h⟩
          cases hreason : blockReason? ctx.config now with
          | some reason => simp only [hreason, not_fails_pure] at h
          | none =>
              simp only [hreason] at h
              refine ⟨rfl, rfl, ?_⟩
              rw [Session.reported, hreason]
              exact h
  · intro h
    refine ⟨s, s, ⟨rfl, rfl⟩, ?_⟩
    rcases h with h | ⟨p, m, hp, hempty, hreason, h⟩
    · exact Or.inl h
    · refine Or.inr ⟨p, m, hp, ?_⟩
      simp only [hempty, Bool.false_eq_true, if_false, fails_bind_iff, not_fails_modify,
        returns_modify_iff, not_fails_tell, returns_tell_iff, false_or]
      refine ⟨(), _, rfl, (), _, rfl, ?_⟩
      simp only [Session.reported, hreason] at h
      simp only [hreason]
      exact h

/-! ### Tuning and ceilings -/

end Engine

/-- The options that hold in a cycle: with the overrides of tuning on top where
    tuning is enabled, and as they were configured where it is not. -/
def TunedBy (config : Config) (tuning : Overrides) (tuned : Config) : Prop :=
  (config.memory.tuningEnabled = true → config.withOverrides tuning = .ok tuned) ∧
    (config.memory.tuningEnabled = false → tuned = config)

theorem tunedConfig_eq_ok_iff {config tuned : Config} {tuning : Overrides} :
    tunedConfig config tuning = .ok tuned ↔ TunedBy config tuning tuned := by
  unfold tunedConfig TunedBy
  cases config.memory.tuningEnabled with
  | true =>
      simp only [if_true, forall_const, Bool.true_eq_false, false_implies, and_true]
      cases config.withOverrides tuning with
      | ok c => simp only [Except.ok.injEq]
      | error err => simp only [reduceCtorEq]
  | false =>
      simp only [Bool.false_eq_true, if_false, false_implies, forall_const, true_and,
        Except.ok.injEq, eq_comm]

namespace Engine

variable {e : Engine} {ctx : JobContext} {topology : Topology} {now : Instant}

/-- Cluster and quotas both have room for a proposal, under some options. -/
def HasRoom (e : Engine) (ctx : JobContext) (options : Config) (topology : Topology)
    (readings : JobReadings) (p : Proposal) : Prop :=
  clusterCeiling options.scaling ctx.cores (ctx.processSize? options.memory) readings p
      e.capacity = .ok none ∧
    quotaCeiling options ctx.cores (ctx.processSize? options.memory) topology p = none

/-- The search for a ceiling comes back empty exactly when there is room. -/
theorem returns_ceiling?_none_iff {tuned : Config} {readings : JobReadings} {p : Proposal}
    {s t : Session} :
    Returns (e.ceiling? ctx tuned topology readings p) s none t ↔
      e.HasRoom ctx tuned topology readings p ∧ s = t := by
  simp only [ceiling?, HasRoom, returns_bind_iff, returns_ofExcept_iff]
  constructor
  · rintro ⟨c, _, ⟨hcluster, rfl⟩, h⟩
    -- The quotas are asked only where the cluster has room.
    cases c with
    | some c => simp only [returns_pure_iff, reduceCtorEq, false_and] at h
    | none =>
        cases hquota : quotaCeiling tuned ctx.cores (ctx.processSize? tuned.memory) topology p with
        | some c =>
            simp only [hquota, returns_bind_iff, returns_tell_iff, returns_pure_iff, reduceCtorEq,
              false_and, and_false, exists_false] at h
        | none =>
            simp only [hquota, returns_pure_iff, true_and] at h
            exact ⟨⟨hcluster, rfl⟩, h⟩
  · rintro ⟨⟨hcluster, hquota⟩, rfl⟩
    refine ⟨none, s, ⟨hcluster, rfl⟩, ?_⟩
    simp only [hquota, returns_pure_iff, and_self]

/-- Looking for a ceiling tells an event at most. -/
theorem sameRecords_of_ceiling? {tuned : Config} {readings : JobReadings} {p : Proposal}
    {s t : Session} (h : Leaves (e.ceiling? ctx tuned topology readings p) s t) :
    s.SameRecords t := by
  simp only [ceiling?, leaves_bind_iff, returns_ofExcept_iff, fails_ofExcept_iff] at h
  rcases h with ⟨_, _, rfl⟩ | ⟨c, _, ⟨_, rfl⟩, h⟩
  · exact .refl s
  · cases c with
    | some c =>
        rw [leaves_pure_iff] at h
        rw [h]
        exact .refl t
    | none =>
        cases hquota : quotaCeiling tuned ctx.cores (ctx.processSize? tuned.memory) topology p with
        | some c =>
            simp only [hquota, leaves_bind_iff, not_fails_tell, exists_false, false_or,
              returns_tell_iff, leaves_pure_iff] at h
            rcases h with ⟨_, _, rfl, rfl⟩
            exact ⟨rfl, rfl, rfl, rfl⟩
        | none =>
            simp only [hquota, leaves_pure_iff] at h
            rw [h]
            exact .refl t

/-- A session once tuning has told its events. -/
def tuned (e : Engine) (ctx : JobContext) (s : Session) : Session :=
  { s with events := s.events ++ (e.tuner.tune ctx s.readings).events }

/-- What may be applied is either limited by a ceiling or stored. -/
theorem returns_applyProposal_iff {p : Proposal} {s t : Session} {o : Outcome} :
    Returns (e.applyProposal ctx topology now p) s o t ↔
      ∃ options, TunedBy ctx.config (e.tuner.tune ctx s.readings).overrides options ∧
        ((∃ c, o = .limited c ∧
            Returns (e.ceiling? ctx options topology s.readings p) (e.tuned ctx s) (some c) t) ∨
          (o = .scaled ∧ e.HasRoom ctx options topology s.readings p ∧
            Returns (Step.persist ctx now p (e.tuner.tune ctx s.readings).overrides)
              (e.tuned ctx s) () t)) := by
  simp only [applyProposal, returns_bind_iff, returns_get_iff, returns_tell_iff,
    returns_ofExcept_iff, tunedConfig_eq_ok_iff]
  constructor
  · rintro ⟨_, _, ⟨rfl, rfl⟩, _, _, rfl, options, _, ⟨htuned, rfl⟩, c, m, hc, h⟩
    refine ⟨options, htuned, ?_⟩
    -- A ceiling ends the decision, and its absence is room.
    cases c with
    | some c =>
        rcases returns_pure_iff.1 h with ⟨rfl, rfl⟩
        exact Or.inl ⟨c, rfl, hc⟩
    | none =>
        rcases returns_ceiling?_none_iff.1 hc with ⟨hroom, rfl⟩
        simp only [returns_bind_iff, returns_pure_iff] at h
        rcases h with ⟨_, _, hpersist, rfl, rfl⟩
        exact Or.inr ⟨rfl, hroom, hpersist⟩
  · rintro ⟨options, htuned, h⟩
    refine ⟨s, s, ⟨rfl, rfl⟩, (), _, rfl, options, _, ⟨htuned, rfl⟩, ?_⟩
    rcases h with ⟨c, rfl, hc⟩ | ⟨rfl, hroom, hpersist⟩
    · exact ⟨some c, t, hc, returns_pure_iff.2 ⟨rfl, rfl⟩⟩
    · refine ⟨none, _, returns_ceiling?_none_iff.2 ⟨hroom, rfl⟩, ?_⟩
      simp only [returns_bind_iff, returns_pure_iff]
      exact ⟨(), t, hpersist, trivial, rfl⟩

/-- What may be applied fails over the tuned options or the readings that the
    cluster asks for, and then it is not let through and nothing is stored, or
    else it fails while it is stored. -/
theorem fails_applyProposal_cases {p : Proposal} {s t : Session} {err : DecisionError}
    (h : Fails (e.applyProposal ctx topology now p) s err t) :
    (s.SameRecords t ∧
        ∀ options, TunedBy ctx.config (e.tuner.tune ctx s.readings).overrides options →
          ¬e.HasRoom ctx options topology s.readings p) ∨
      ∃ options, TunedBy ctx.config (e.tuner.tune ctx s.readings).overrides options ∧
        e.HasRoom ctx options topology s.readings p ∧
        Fails (Step.persist ctx now p (e.tuner.tune ctx s.readings).overrides)
          (e.tuned ctx s) err t := by
  simp only [applyProposal, fails_bind_iff, returns_get_iff, not_fails_get, returns_tell_iff,
    not_fails_tell, returns_ofExcept_iff, fails_ofExcept_iff, false_or] at h
  rcases h with ⟨_, _, ⟨rfl, rfl⟩, _, _, rfl, ⟨herr, rfl⟩ | ⟨options, _, ⟨htuned, rfl⟩, h⟩⟩
  · -- The overrides of tuning are no options, so there are none to have room under.
    refine Or.inl ⟨⟨rfl, rfl, rfl, rfl⟩, fun options htuned => ?_⟩
    rw [tunedConfig_eq_ok_iff.2 htuned] at herr
    cases herr
  · rcases h with hfail | ⟨c, m, hc, h⟩
    · refine Or.inl ⟨Session.SameRecords.trans (m := e.tuned ctx s) ⟨rfl, rfl, rfl, rfl⟩
        (sameRecords_of_ceiling? hfail.leaves), fun options' htuned' hroom => ?_⟩
      -- With room there would be an answer, and it would be that there is no ceiling.
      have hsame : options = options' :=
        Except.ok.inj (htuned.symm.trans (tunedConfig_eq_ok_iff.2 htuned'))
      exact not_fails_of_returns (returns_ceiling?_none_iff.2 ⟨hsame ▸ hroom, rfl⟩) hfail
    · -- An answer was found, and a ceiling is no error, so storing is what failed.
      cases c with
      | some c => exact absurd h not_fails_pure
      | none =>
          rcases returns_ceiling?_none_iff.1 hc with ⟨hroom, rfl⟩
          simp only [fails_bind_iff, not_fails_pure, and_false, exists_false, or_false] at h
          exact Or.inr ⟨options, tunedConfig_eq_ok_iff.1 htuned, hroom, h⟩

end Engine

/-! ### What the gates ask -/

/-- A decision is not blocked when scaling is enabled and the instant lies in
    none of the blackout windows. -/
theorem blockReason?_eq_none_iff {config : Config} {now : Instant} :
    blockReason? config now = none ↔
      config.scaling.enabled = true ∧ ∀ w ∈ config.scaling.blackouts, w.covers now = false := by
  unfold blockReason? Config.inBlackout
  cases config.scaling.enabled with
  | false => simp only [Bool.not_false, if_true, reduceCtorEq, Bool.false_eq_true, false_and]
  | true =>
      simp only [Bool.not_true, Bool.false_eq_true, if_false, true_and]
      by_cases hany : (config.scaling.blackouts.any fun w => w.covers now) = true
      · -- One window that covers the instant is enough to block.
        rw [if_pos hany]
        rcases List.any_eq_true.1 hany with ⟨w, hw, hcovers⟩
        refine iff_of_false (Option.some_ne_none _) ?_
        intro hall
        rw [hall w hw] at hcovers
        cases hcovers
      · rw [if_neg hany]
        simp only [List.any_eq_true, not_exists, not_and, Bool.not_eq_true] at hany
        exact iff_of_true rfl hany

/-- All gates let a proposal through: there is something to change, scaling is
    enabled, the instant is outside of all blackouts, memory is not under
    pressure, and under the options that tuning made, cluster and quotas have
    room for what is proposed. -/
structure Admits (e : Engine) (ctx : JobContext) (topology : Topology) (now : Instant)
    (readings : JobReadings) (p : Proposal) : Prop where
  nonempty : p.isEmpty = false
  enabled : ctx.config.scaling.enabled = true
  noBlackout : ∀ w ∈ ctx.config.scaling.blackouts, w.covers now = false
  noPressure : ¬UnderPressure ctx.config readings
  room : ∃ options,
    TunedBy ctx.config (e.tuner.tune ctx (recommend readings p)).overrides options ∧
      e.HasRoom ctx options topology (recommend readings p) p

/-- Two readings of a job that have the same vertices and agree but for the
    recommendations of the vertices of a proposal. -/
structure DifferInRecommendations (p : Proposal) (readings readings' : JobReadings) : Prop where
  overall : readings'.overall = readings.overall
  keys : readings'.vertices.keys = readings.vertices.keys
  reading : ∀ v m, (p.contains v = true → m ≠ .recommendedParallelism) →
    (readings'.vertices.get? v).bind (·.get? m) = (readings.vertices.get? v).bind (·.get? m)

/-- Recommending passes vertices without a change by. -/
theorem get?_recommend_of_none (readings : JobReadings) {p : Proposal} {v : VertexId}
    (hp : p.get? v = none) :
    (recommend readings p).vertices.get? v = readings.vertices.get? v := by
  simp only [recommend, SortedMap.get?_mapValues, hp]
  cases readings.vertices.get? v with
  | none => rfl
  | some r => rfl

theorem differ_refl (p : Proposal) (readings : JobReadings) :
    DifferInRecommendations p readings readings :=
  ⟨rfl, rfl, fun _ _ _ => rfl⟩

theorem differ_recommend (p : Proposal) (readings : JobReadings) :
    DifferInRecommendations p readings (recommend readings p) where
  overall := rfl
  keys := SortedMap.keys_mapValues _ _
  reading := by
    intro v m hm
    simp only [recommend, SortedMap.get?_mapValues]
    cases readings.vertices.get? v with
    | none => rfl
    | some r =>
        simp only [Option.map_some, Option.bind_some]
        cases hchange : p.get? v with
        | none => rfl
        | some c =>
            -- A proposed vertex gets one new reading, and it is not the one asked for.
            have hne : m ≠ .recommendedParallelism := hm (by rw [SortedMap.contains, hchange]; rfl)
            exact SortedMap.get?_insert_of_ne r _ hne

namespace Engine

variable {e : Engine} {ctx : JobContext} {topology : Topology} {now : Instant}

/-- A decision that may be applied stops at a ceiling with nothing stored, or it
    is stored and every gate has let it through. -/
theorem applyProposal_gated {p : Proposal} {s m t : Session} {o : Outcome}
    (hpropose : Returns (e.proposal ctx topology now s) s p m) (hne : p.isEmpty = false)
    (hreason : blockReason? ctx.config now = none)
    (h : Returns (e.applyProposal ctx topology now p) (m.reported ctx now p) o t) :
    (o = .scaled ∧ Admits e ctx topology now s.readings p) ∨
      ((∃ c, o = .limited c) ∧ (m.reported ctx now p).SameRecords t) := by
  have hm : s.SameRecords m := sameRecords_of_propose hpropose.leaves
  rcases returns_applyProposal_iff.1 h with ⟨options, htuned, ⟨c, rfl, hc⟩ | ⟨rfl, hroom, _⟩⟩
  · refine Or.inr ⟨⟨c, rfl⟩, ?_⟩
    exact Session.SameRecords.trans (m := e.tuned ctx (m.reported ctx now p)) ⟨rfl, rfl, rfl, rfl⟩
      (sameRecords_of_ceiling? hc.leaves)
  · refine Or.inl ⟨rfl, ?_⟩
    rcases blockReason?_eq_none_iff.1 hreason with ⟨henabled, hblackout⟩
    simp only [Session.reported, hm.readings] at htuned hroom
    exact ⟨hne, henabled, hblackout, not_underPressure_of_propose hpropose hne, options, htuned,
      hroom⟩

/-- The session in which a proposal is stored: it is recommended and reported,
    and tuning has had its say. -/
def storing (e : Engine) (ctx : JobContext) (now : Instant) (p : Proposal) (m : Session) :
    Session :=
  e.tuned ctx (m.reported ctx now p)

/-- The overrides that tuning asks for once a proposal is recommended. -/
def tuning (e : Engine) (ctx : JobContext) (readings : JobReadings) (p : Proposal) : Overrides :=
  (e.tuner.tune ctx (recommend readings p)).overrides

/-- A decision that ends as scaled had a proposal that all gates let through,
    and stored it. -/
theorem stores_of_decide {s t : Session} (h : Returns (e.decide ctx topology now) s .scaled t) :
    ∃ p m, Returns (e.proposal ctx topology now s) s p m ∧
      Admits e ctx topology now s.readings p ∧
      Returns (Step.persist ctx now p (e.tuning ctx s.readings p))
        (e.storing ctx now p m) () t := by
  -- Of the ways a decision can end, only the one through all gates is scaled.
  rcases returns_decide_iff.1 h with
    ⟨p, m, hp, ⟨_, ho, _⟩ | ⟨hne, ⟨_, _, ho, _⟩ | ⟨hreason, happly⟩⟩⟩
  · cases ho
  · cases ho
  · rcases applyProposal_gated hp hne hreason happly with ⟨_, hadmits⟩ | ⟨⟨_, ho⟩, _⟩
    · rcases returns_applyProposal_iff.1 happly with ⟨_, _, ⟨_, ho, _⟩ | ⟨_, _, hpersist⟩⟩
      · cases ho
      · refine ⟨p, m, hp, hadmits, ?_⟩
        rw [tuning, ← (sameRecords_of_propose hp.leaves).readings]
        exact hpersist
    · cases ho

/-- A decision that fails leaves the records as they were and had no proposal
    that all gates let through, or else it had one and failed while storing
    it. -/
theorem fails_decide_cases {s t : Session} {err : DecisionError}
    (h : Fails (e.decide ctx topology now) s err t) :
    (t.ledger = s.ledger ∧ ∀ p m, Returns (e.proposal ctx topology now s) s p m →
        ¬Admits e ctx topology now s.readings p) ∨
      ∃ p m, Returns (e.proposal ctx topology now s) s p m ∧
        Admits e ctx topology now s.readings p ∧
        Fails (Step.persist ctx now p (e.tuning ctx s.readings p))
          (e.storing ctx now p m) err t := by
  rcases fails_decide_iff.1 h with hfail | ⟨p, m, hp, hne, hreason, happly⟩
  · -- Proposing failed, and then there is no proposal at all.
    refine Or.inl ⟨(sameRecords_of_propose hfail.leaves).ledger, fun p m hp => ?_⟩
    exact absurd hfail (not_fails_of_returns hp)
  · have hm : s.SameRecords m := sameRecords_of_propose hp.leaves
    rcases fails_applyProposal_cases happly with ⟨hsame, hroom⟩ | ⟨options, htuned, hroom, hpersist⟩
    · -- The proposal is the only one there is, and it has no room.
      refine Or.inl ⟨hsame.ledger.trans hm.ledger, fun p' m' hp' hadmits => ?_⟩
      obtain rfl := (returns_functional hp hp').1
      rcases hadmits.room with ⟨options, htuned, hr⟩
      rw [← hm.readings] at htuned hr
      exact hroom options htuned hr
    · simp only [Session.reported, hm.readings] at htuned hroom
      rcases blockReason?_eq_none_iff.1 hreason with ⟨henabled, hblackout⟩
      refine Or.inr ⟨p, m, hp, ⟨hne, henabled, hblackout, not_underPressure_of_propose hp hne,
        options, htuned, hroom⟩, ?_⟩
      rw [tuning, ← hm.readings]
      exact hpersist

/-- A decision that is not stored leaves ledger, history and restart log as they
    were, and of the readings at most the recommendations for what it
    proposed. -/
theorem kept_of_decide {s t : Session} {o : Outcome}
    (h : Returns (e.decide ctx topology now) s o t) (ho : o ≠ .scaled) :
    ∃ p m, Returns (e.proposal ctx topology now s) s p m ∧
      t.ledger = s.ledger ∧ t.history = s.history ∧ t.restarts = s.restarts ∧
      DifferInRecommendations p s.readings t.readings ∧
      (o = .noChange → t.readings = s.readings) := by
  rcases returns_decide_iff.1 h with ⟨p, m, hp, hgates⟩
  have hm : s.SameRecords m := sameRecords_of_propose hp.leaves
  have hdiffer : DifferInRecommendations p s.readings (m.reported ctx now p).readings := by
    rw [← hm.readings]
    exact differ_recommend p m.readings
  refine ⟨p, m, hp, ?_⟩
  -- No change, blocked, or applied as far as a ceiling.
  rcases hgates with ⟨_, rfl, rfl⟩ | ⟨hne, ⟨reason, _, rfl, rfl⟩ | ⟨hreason, happly⟩⟩
  · refine ⟨hm.ledger, hm.history, hm.restarts, ?_, fun _ => hm.readings⟩
    rw [hm.readings]
    exact differ_refl p s.readings
  · exact ⟨hm.ledger, hm.history, hm.restarts, hdiffer, nofun⟩
  · rcases applyProposal_gated hp hne hreason happly with ⟨rfl, _⟩ | ⟨⟨c, rfl⟩, hsame⟩
    · exact absurd rfl ho
    · refine ⟨hsame.ledger.trans hm.ledger, hsame.history.trans hm.history,
        hsame.restarts.trans hm.restarts, ?_, nofun⟩
      rw [hsame.readings]
      exact hdiffer

/-- Under memory pressure a decision ends with no change, and the holds stay as
    they are. Any decision that ends without storing leaves the ledger as it
    was, with every write ever made to it, and likewise history and restart log;
    readings differ in recommendations for what was proposed, and not at all if
    there is no change. A decision that is stored was let through by all
    gates. -/
theorem decide_gated (e : Engine) (ctx : JobContext) (topology : Topology) (now : Instant)
    (s : Session) :
    (UnderPressure ctx.config s.readings →
      ∃ t, Returns (e.decide ctx topology now) s .noChange t ∧ t.pending = s.pending) ∧
    ∀ o t, Returns (e.decide ctx topology now) s o t →
      ∃ p m, Returns (e.proposal ctx topology now s) s p m ∧
        (o = .scaled → Admits e ctx topology now s.readings p) ∧
        (o ≠ .scaled → t.ledger = s.ledger ∧ t.history = s.history ∧ t.restarts = s.restarts ∧
          DifferInRecommendations p s.readings t.readings) ∧
        (o = .noChange → t.readings = s.readings) := by
  refine ⟨?_, ?_⟩
  · intro hpressure
    -- The proposal is empty, and the session it leaves differs in one event.
    rcases propose_of_underPressure e topology (s.restarts.estimate ctx.config.restart) now
      hpressure with ⟨event, hp⟩
    exact ⟨_, returns_decide_iff.2 ⟨∅, _, hp, Or.inl ⟨rfl, rfl, rfl⟩⟩, rfl⟩
  · intro o t h
    by_cases ho : o = .scaled
    · subst ho
      rcases stores_of_decide h with ⟨p, m, hp, hadmits, _⟩
      exact ⟨p, m, hp, fun _ => hadmits, fun hne => absurd rfl hne, nofun⟩
    · rcases kept_of_decide h ho with ⟨p, m, hp, hledger, hhistory, hrestarts, hdiffer, hsame⟩
      exact ⟨p, m, hp, fun heq => absurd heq ho,
        fun _ => ⟨hledger, hhistory, hrestarts, hdiffer⟩, hsame⟩

end Engine

/-- Readings of a vertex that falls behind the band of its rates. -/
def Readings.behind (parallelism : Nat) : Readings :=
  SortedMap.ofList
    [(.parallelism, .point (Float.ofNat parallelism)), (.trueProcessingRate, .point 1.0),
      (.scaleUpRateThreshold, .point 2.0), (.scaleDownRateThreshold, .point 2.0)]

/-- An engine that moves vertices to given parallelisms. -/
def Engine.toward (targets : List (VertexId × Nat)) : Engine where
  scaler := .listed (SortedMap.ofList targets)

/-- Readings of a job whose vertices fall behind at given parallelisms. -/
def JobReadings.behind (parallelisms : List (VertexId × Nat)) (overall : Readings := ∅) :
    JobReadings where
  vertices := SortedMap.ofList (parallelisms.map fun e => (e.1, .behind e.2))
  overall

namespace OneVertex

/-- The only vertex goes from parallelism two to four. -/
def engine : Engine := .toward [("source", 4)]

def topology : Topology := ({} : Topology).setGroup "source" "default"

def free : JobContext := { id := "job", cores := some 1.0 }

/-- The same job with a quota of three cores. -/
def tight : JobContext := { free with config := { quota := { cpu := some 3.0 } } }

def calm : Session := { readings := .behind [("source", 2)] }

/-- Garbage collection takes nine tenths of the time. -/
def pressed : Session :=
  { readings := .behind [("source", 2)] (SortedMap.ofList [(.gcPressure, .point 0.9)]) }

/-- The decision is stored without a quota, limited by a quota that is too low,
    and not even proposed under pressure. -/
theorem decide_gated_from_two_to_four :
    (exec (engine.decide free topology ⟨0⟩) calm).1 = .ok .scaled ∧
      (∃ p, Admits engine free topology ⟨0⟩ calm.readings p) ∧
      (exec (engine.decide tight topology ⟨0⟩) calm).1 = .ok (.limited (.cpuQuota 4.0 3.0)) ∧
      (exec (engine.decide tight topology ⟨0⟩) calm).2.ledger = calm.ledger ∧
      UnderPressure free.config pressed.readings ∧
      ∃ t, Returns (engine.decide free topology ⟨0⟩) pressed .noChange t ∧
        t.pending = pressed.pending := by
  have hscaled : (exec (engine.decide free topology ⟨0⟩) calm).1 = .ok .scaled := rfl
  have hlimited : (exec (engine.decide tight topology ⟨0⟩) calm).1 =
      .ok (.limited (.cpuQuota 4.0 3.0)) := rfl
  have hpressure : UnderPressure free.config pressed.readings :=
    Or.inl ⟨.point 0.9, rfl, by decide +kernel⟩
  refine ⟨hscaled, ?_, hlimited, ?_, hpressure,
    (Engine.decide_gated engine free topology ⟨0⟩ pressed).1 hpressure⟩
  · rcases (Engine.decide_gated engine free topology ⟨0⟩ calm).2 _ _ (returns_of_exec hscaled) with
      ⟨p, _, _, hadmits, _⟩
    exact ⟨p, hadmits rfl⟩
  · rcases (Engine.decide_gated engine tight topology ⟨0⟩ calm).2 _ _
      (returns_of_exec hlimited) with ⟨_, _, _, _, hkept, _⟩
    exact (hkept nofun).1

end OneVertex

end Rescale
