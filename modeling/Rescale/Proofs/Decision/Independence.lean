import Rescale.Proofs.Decision.Persist
import Rescale.Proofs.Decision.Propose
import Rescale.Proofs.Vertex.OwnHold

/-!
# Proposals from Independent Decisions

Whether the vertices of a job are decided on independently.

A proposal is made in one walk over the vertices, and the walk hands the holds of
all of them from each vertex to the next. Nothing else passes between vertices,
and of the holds each decision uses and changes only one, that of its own vertex.
So when the walk comes to a vertex, its hold is still the one from the start, and
what is decided there is what the scaler decides about the vertex by itself, shown
its own readings, its own past changes and its own hold.

The proposal is then put together from these decisions, or it is dropped. It is
dropped as a whole, if all vertices that it changes process within their bands;
one that does not keeps the changes of all others in.

## Main definitions

* `UpForDecision`: A vertex reports and is not excluded.
* `DecidesAlone`: What the scaler decides about a vertex by itself.
* `SettledAlone`: A vertex got what the scaler decides by itself.
* `OutsideBand`: A vertex processes outside of its band.
* `ProposesAlone`: What is proposed for a vertex by itself.

## Theorems

* `settledAlone_of_proposeVertex`: A vertex is decided on by itself.
* `settledAlone_of_proposeEach`: So are all of them, one after the other.
* `withinBand_eq_false_iff`: When a proposal stands.
* `propose_independent`: Proposals are made of independent decisions.
-/

namespace Rescale

open Step

/-! ### Vertices by themselves -/

/-- A vertex is to be decided on: it reports readings, and it is not excluded from
    scaling. -/
def UpForDecision (ctx : JobContext) (s : Session) (v : VertexId) (r : Readings) : Prop :=
  s.readings.vertices.get? v = some r ∧ ctx.config.scaling.excluded.contains v = false

/-- What the rate scaler decides about a vertex by itself. It is shown the readings
    of the vertex, its past changes and its hold, and nothing of other vertices. -/
def DecidesAlone (ctx : JobContext) (topology : Topology) (restart : Span) (now : Instant)
    (s : Session) (v : VertexId) (r : Readings) (d : VertexDecision) : Prop :=
  ∃ stage, topology.get? v = some stage ∧
    Scaler.rate.decide ctx
      { vertex := v, inputs := stage.inputs, readings := r, history := s.history.ofVertex v,
        restart, now }
      (s.pending.only v) = .ok d

section Walk

variable {e : Engine} {ctx : JobContext} {topology : Topology} {restart : Span} {now : Instant}
  {s m t : Session} {v : VertexId} {r : Readings} {d : VertexDecision}

/-- Decisions about a vertex by itself are the same in sessions with the same past
    changes and the same hold of it. -/
theorem DecidesAlone.of_same (h : DecidesAlone ctx topology restart now m v r d)
    (hhistory : m.history = s.history) (hhold : m.pending.get? v = s.pending.get? v) :
    DecidesAlone ctx topology restart now s v r d := by
  rcases h with ⟨stage, hstage, hdecide⟩
  rw [hhistory, PendingScaleDowns.only_congr hhold] at hdecide
  exact ⟨stage, hstage, hdecide⟩

/-- The change that a decision stands for, if it names one. -/
def VertexDecision.change? (d : VertexDecision) (current : Nat) (r : Readings) : Option Change :=
  d.target.bind fun target => (Change.of? current target r).toOption

/-- From one session to another, a vertex got the change and the hold that the
    scaler decides on by itself. -/
def SettledAlone (ctx : JobContext) (topology : Topology) (restart : Span) (now : Instant)
    (s t : Session) (o : Option Change) (v : VertexId) (r : Readings) : Prop :=
  ∃ d current, DecidesAlone ctx topology restart now s v r d ∧
    currentParallelism v r = .ok current ∧ o = d.change? current r ∧
    t.pending.get? v = d.pending.get? v

/-- One vertex is decided on by itself, and the other holds are left alone. -/
theorem settledAlone_of_proposeVertex (hscaler : e.scaler = .rate) {o : Option Change}
    (h : Returns (e.proposeVertex ctx topology restart now v r) s o t) :
    SettledAlone ctx topology restart now s t o v r ∧ t.history = s.history ∧
      ∀ w, w ≠ v → t.pending.get? w = s.pending.get? w := by
  unfold Engine.proposeVertex at h
  cases hstage : topology.get? v with
  | none => simp only [hstage, not_returns_throw] at h
  | some stage =>
      simp only [hstage, hscaler, returns_bind_iff, returns_ofExcept_iff, returns_get_iff,
        returns_set_iff, returns_pure_iff] at h
      rcases h with ⟨current, _, ⟨hcurrent, rfl⟩, _, _, ⟨rfl, rfl⟩, decision, _, ⟨hdecide, rfl⟩,
        _, _, rfl, rfl, rfl⟩
      -- The call of the scaler, once with all holds and once with its own.
      let call : ScalerCall :=
        { ctx
          request :=
            { vertex := v, inputs := stage.inputs, readings := r,
              history := s.history.ofVertex v, restart, now } }
      have hcall : call.decide s.pending = .ok decision := hdecide
      rcases ScalerCall.decide_only hcall with ⟨d, hd, htarget, hpending⟩
      refine ⟨⟨d, current, ⟨stage, hstage, hd⟩, hcurrent, ?_, hpending.symm⟩, rfl, fun w hw => ?_⟩
      · rw [VertexDecision.change?, htarget]
      · exact ScalerCall.get?_of_decide_of_ne hcall hw

/-- A change that is entered for a vertex without one is found there alone. -/
theorem get?_entered {others : Proposal} (hnone : others.get? v = none) (o : Option Change)
    (w : VertexId) :
    SortedMap.get? (match o with | some c => others.insert v c | none => others) w =
      if w = v then o else others.get? w := by
  by_cases hw : w = v
  · rw [if_pos hw, hw]
    cases o with
    | none => exact hnone
    | some c => exact SortedMap.get?_insert_self others v c
  · rw [if_neg hw]
    cases o with
    | none => rfl
    | some c => exact SortedMap.get?_insert_of_ne others c hw

/-- By induction on the vertices: each of them is decided on by itself. The ones
    before it have not touched its hold, and the ones after it touch neither that
    nor its change. -/
theorem settledAlone_of_proposeEach (hscaler : e.scaler = .rate)
    (vertices : List (VertexId × Readings))
    (hsorted : vertices.Pairwise fun a b => compare a.1 b.1 = .lt) :
    ∀ s p t, Returns (e.proposeEach ctx topology restart now vertices) s p t →
      (∀ v r, (v, r) ∈ vertices → ctx.config.scaling.excluded.contains v = false →
        SettledAlone ctx topology restart now s t (p.get? v) v r) ∧
      ∀ v, (∀ r, (v, r) ∈ vertices → ctx.config.scaling.excluded.contains v = true) →
        p.get? v = none ∧ t.pending.get? v = s.pending.get? v := by
  induction vertices with
  | nil =>
      intro s p t h
      simp only [Engine.proposeEach, returns_pure_iff] at h
      rcases h with ⟨rfl, rfl⟩
      exact ⟨fun v r hmem => absurd hmem List.not_mem_nil, fun v _ => ⟨rfl, rfl⟩⟩
  | cons entry rest ih =>
      intro s p t h
      rcases entry with ⟨w, readings⟩
      rcases List.pairwise_cons.1 hsorted with ⟨hfirst, hrest⟩
      unfold Engine.proposeEach at h
      by_cases hex : ctx.config.scaling.excluded.contains w = true
      · -- An excluded vertex is passed.
        rw [if_pos hex] at h
        rcases ih hrest s p t h with ⟨hup, hother⟩
        refine ⟨fun v r hmem hv => ?_, fun v hv => ?_⟩
        · rcases List.mem_cons.1 hmem with heq | hmem
          · obtain ⟨rfl, rfl⟩ := Prod.mk.inj heq
            rw [hex] at hv
            cases hv
          · exact hup v r hmem hv
        · exact hother v fun r hmem => hv r (List.mem_cons_of_mem _ hmem)
      · simp only [if_neg hex, returns_bind_iff, returns_pure_iff] at h
        rcases h with ⟨change, m, hvertex, others, m', hothers, hp, rfl⟩
        rcases settledAlone_of_proposeVertex hscaler hvertex with ⟨hsettled, hhistory, hkeeps⟩
        rcases ih hrest m others m' hothers with ⟨hup, hother⟩
        have hne : ∀ v r, (v, r) ∈ rest → v ≠ w := by
          rintro v r hmem rfl
          have hlt := hfirst (v, r) hmem
          rw [Std.ReflOrd.compare_self] at hlt
          cases hlt
        -- The vertices after the first one leave it as it is.
        rcases hother w fun r hmem => absurd rfl (hne w r hmem) with ⟨hnone, hkept⟩
        have hentered : ∀ v, p.get? v = if v = w then change else others.get? v := by
          intro v
          rw [← hp]
          exact get?_entered hnone change v
        refine ⟨fun v r hmem hv => ?_, fun v hv => ?_⟩
        · rw [hentered]
          rcases List.mem_cons.1 hmem with heq | hmem
          · obtain ⟨rfl, rfl⟩ := Prod.mk.inj heq
            rcases hsettled with ⟨d, current, hd, hcurrent, hchange, hpending⟩
            rw [if_pos rfl]
            exact ⟨d, current, hd, hcurrent, hchange, hkept.trans hpending⟩
          · rcases hup v r hmem hv with ⟨d, current, hd, hcurrent, hchange, hpending⟩
            rw [if_neg (hne v r hmem)]
            exact ⟨d, current, hd.of_same hhistory (hkeeps v (hne v r hmem)), hcurrent, hchange,
              hpending⟩
        · have hw : v ≠ w := by
            rintro rfl
            exact hex (hv readings List.mem_cons_self)
          rcases hother v fun r hmem => hv r (List.mem_cons_of_mem _ hmem) with ⟨hnone', hkept'⟩
          rw [hentered, if_neg hw]
          exact ⟨hnone', hkept'.trans (hkeeps v hw)⟩

end Walk

/-! ### Bands -/

/-- A vertex processes outside of the band that is spanned by its two
    thresholds. -/
def OutsideBand (r : Readings) : Prop :=
  ∃ rate up down, r.get? .trueProcessingRate = some rate ∧
    r.get? .scaleUpRateThreshold = some up ∧ r.get? .scaleDownRateThreshold = some down ∧
    (rate.average < smaller up.current down.current ∨
      rate.average > larger up.current down.current)

theorem vertexWithinBand_eq_false_iff {v : VertexId} {r : Readings} {within : Bool}
    (h : vertexWithinBand v r = .ok within) : within = false ↔ OutsideBand r := by
  rw [vertexWithinBand, requireReading, requireReading, requireReading] at h
  cases hrate : r.get? .trueProcessingRate with
  | none =>
      rw [hrate] at h
      cases h
  | some rate =>
  cases hup : r.get? .scaleUpRateThreshold with
  | none =>
      rw [hrate, hup] at h
      cases h
  | some up =>
  cases hdown : r.get? .scaleDownRateThreshold with
  | none =>
      rw [hrate, hup, hdown] at h
      cases h
  | some down =>
      rw [hrate, hup, hdown] at h
      obtain rfl := Except.ok.inj h
      simp only [OutsideBand, hrate, hup, hdown, Option.some.injEq, exists_and_left,
        exists_eq_left', Bool.not_eq_false', Bool.or_eq_true, decide_eq_true_iff]

/-- By induction on the vertices: the walk over them stops at the first one that is
    outside of its band. -/
theorem withinBand_eq_false_iff {readings : JobReadings} (vertices : List VertexId) :
    ∀ within, withinBand readings vertices = .ok within →
      (within = false ↔
        ∃ v ∈ vertices, ∃ r, readings.vertices.get? v = some r ∧ OutsideBand r) := by
  induction vertices with
  | nil =>
      intro within h
      cases h
      exact iff_of_false nofun fun ⟨_, hmem, _⟩ => List.not_mem_nil hmem
  | cons v rest ih =>
      intro within h
      rw [withinBand] at h
      cases hr : readings.vertices.get? v with
      | none =>
          -- A vertex without readings does not count.
          simp only [hr] at h
          rw [ih within h, List.exists_mem_cons_iff, hr]
          simp only [reduceCtorEq, false_and, exists_false, false_or]
      | some r =>
          cases hfirst : vertexWithinBand v r with
          | error err =>
              simp only [hr, hfirst] at h
              cases h
          | ok first =>
              simp only [hr, hfirst] at h
              have hout := vertexWithinBand_eq_false_iff hfirst
              rw [List.exists_mem_cons_iff, hr]
              simp only [Option.some.injEq, exists_eq_left', ← hout]
              cases first with
              | true =>
                  -- Within its band, the vertices after it settle the question.
                  have hrest : withinBand readings rest = .ok within := h
                  rw [ih within hrest]
                  exact (or_iff_right nofun).symm
              | false =>
                  obtain rfl : false = within := Except.ok.inj h
                  exact iff_of_true rfl (Or.inl rfl)

/-! ### Proposals -/

/-- What is proposed for a vertex by itself: to go from the parallelism that it
    reports to the one that the scaler names. No vertex is sent to zero. -/
def ProposesAlone (ctx : JobContext) (topology : Topology) (restart : Span) (now : Instant)
    (s : Session) (v : VertexId) (c : Change) : Prop :=
  ∃ r d n instances, UpForDecision ctx s v r ∧ DecidesAlone ctx topology restart now s v r d ∧
    d.target = some n ∧ n ≠ 0 ∧ r.get? .parallelism = some instances ∧
    c = { current := parallelismOf instances.current, target := n, readings := r }

section Proposal

variable {e : Engine} {ctx : JobContext} {topology : Topology} {restart : Span} {now : Instant}
  {s t : Session} {v : VertexId} {r : Readings} {d : VertexDecision}

theorem DecidesAlone.unique {d' : VertexDecision}
    (h : DecidesAlone ctx topology restart now s v r d)
    (h' : DecidesAlone ctx topology restart now s v r d') : d = d' := by
  rcases h with ⟨stage, hstage, hd⟩
  rcases h' with ⟨stage', hstage', hd'⟩
  obtain rfl := Option.some.inj (hstage.symm.trans hstage')
  exact Except.ok.inj (hd.symm.trans hd')

/-- A decision about a vertex by itself that names a parallelism names a change,
    and with options that passed their check one to a positive parallelism. -/
theorem DecidesAlone.target_of_some {n : Nat} (h : DecidesAlone ctx topology restart now s v r d)
    (hn : d.target = some n) :
    (∀ {instances}, r.get? .parallelism = some instances →
      n ≠ parallelismOf instances.current) ∧
      (ctx.config.check = .ok () → n ≠ 0) := by
  rcases h with ⟨stage, _, hdecide⟩
  let call : ScalerCall :=
    { ctx
      request :=
        { vertex := v, inputs := stage.inputs, readings := r, history := s.history.ofVertex v,
          restart, now } }
  have hcall : call.decide (s.pending.only v) = .ok d := hdecide
  rcases ScalerCall.target_of_decide hcall hn with ⟨instances, hinstances, hne, hlower⟩
  refine ⟨fun hinstances' => ?_, fun hcheck => ?_⟩
  · rwa [← Option.some.inj (hinstances.symm.trans hinstances')]
  · have hpos : 0 < call.bounds.lower := ScalerCall.lower_pos hcheck
    omega

/-- A vertex that got what the scaler decides by itself got the change that is
    proposed for it by itself. -/
theorem SettledAlone.eq_some_iff {o : Option Change} {c : Change}
    (h : SettledAlone ctx topology restart now s t o v r) (hup : UpForDecision ctx s v r) :
    o = some c ↔ ProposesAlone ctx topology restart now s v c := by
  rcases h with ⟨d, current, hd, hcurrent, rfl, _⟩
  rcases currentParallelism_eq_ok_iff.1 hcurrent with ⟨instances, hinstances, rfl⟩
  constructor
  · intro hc
    rcases Option.bind_eq_some_iff.1 hc with ⟨n, hn, hchange⟩
    rcases Change.of?_eq_some_iff.1 hchange with ⟨_, hzero, rfl⟩
    exact ⟨r, d, n, instances, hup, hd, hn, hzero, hinstances, rfl⟩
  · rintro ⟨r', d', n, instances', hup', hd', hn, hzero, hinstances', rfl⟩
    -- The vertex has one decision only, and what that names is a change.
    obtain rfl := Option.some.inj (hup.1.symm.trans hup'.1)
    obtain rfl := hd.unique hd'
    obtain rfl := Option.some.inj (hinstances.symm.trans hinstances')
    rw [VertexDecision.change?, hn]
    exact Change.of?_eq_some_iff.2 ⟨(hd.target_of_some hn).1 hinstances, hzero, rfl⟩

/-- Without memory pressure the vertices are walked over, and the bands of those
    that change are asked afterwards. -/
theorem returns_propose_cases {p : Proposal} (hpressure : ¬UnderPressure ctx.config s.readings)
    (h : Returns (e.propose ctx topology restart now) s p t) :
    ∃ all within,
      Returns (e.proposeEach ctx topology restart now s.readings.vertices.toList) s all t ∧
      withinBand s.readings all.keys = .ok within ∧ p = if within = true then ∅ else all := by
  simp only [Engine.propose, returns_bind_iff, returns_get_iff] at h
  rcases h with ⟨_, _, ⟨rfl, rfl⟩, h⟩
  have hcalm : pressure? ctx s.readings = none := by
    rw [← Option.not_isSome_iff_eq_none, pressure?_isSome_iff]
    exact hpressure
  simp only [hcalm, returns_bind_iff, returns_ofExcept_iff] at h
  rcases h with ⟨all, m, hall, within, _, ⟨hwithin, rfl⟩, h⟩
  refine ⟨all, within, ?_⟩
  cases within with
  | true =>
      simp only [if_true, returns_pure_iff] at h
      rcases h with ⟨rfl, rfl⟩
      exact ⟨hall, hwithin, rfl⟩
  | false =>
      simp only [Bool.false_eq_true, if_false, returns_pure_iff] at h
      rcases h with ⟨rfl, rfl⟩
      exact ⟨hall, hwithin, rfl⟩

/-- Without memory pressure, a proposal of the rate scaler is made of independent
    decisions. The hold of each vertex that is decided on becomes the one that its
    decision leaves, and all other holds stay. The changes that are proposed for
    the vertices by themselves are proposed all together if one of the vertices is
    outside of its band, and not at all otherwise. With options that passed their
    check, no decision names zero, so each decision that names a parallelism is
    such a change. -/
theorem propose_independent {p : Proposal} (hscaler : e.scaler = .rate)
    (hpressure : ¬UnderPressure ctx.config s.readings)
    (h : Returns (e.propose ctx topology restart now) s p t) :
    (∀ v r, UpForDecision ctx s v r →
      ∃ d, DecidesAlone ctx topology restart now s v r d ∧
        t.pending.get? v = d.pending.get? v) ∧
    (∀ v, (∀ r, ¬UpForDecision ctx s v r) → t.pending.get? v = s.pending.get? v) ∧
    (∃ all : Proposal,
      (∀ v c, all.get? v = some c ↔ ProposesAlone ctx topology restart now s v c) ∧
      ((∃ v c, all.get? v = some c ∧ OutsideBand c.readings) → p = all) ∧
      ((¬∃ v c, all.get? v = some c ∧ OutsideBand c.readings) → p = ∅)) ∧
    (ctx.config.check = .ok () →
      ∀ v r d, DecidesAlone ctx topology restart now s v r d → d.target ≠ some 0) := by
  rcases returns_propose_cases hpressure h with ⟨all, within, hall, hwithin, rfl⟩
  rcases settledAlone_of_proposeEach hscaler _ s.readings.vertices.sorted s all t hall with
    ⟨hup, hother⟩
  have hsettled : ∀ v r, UpForDecision ctx s v r →
      SettledAlone ctx topology restart now s t (all.get? v) v r := by
    intro v r hv
    exact hup v r (SortedMap.mem_toList_iff.2 hv.1) hv.2
  -- A vertex that is not up for a decision is silent or excluded, and passed either way.
  have hnone : ∀ v, (∀ r, ¬UpForDecision ctx s v r) →
      all.get? v = none ∧ t.pending.get? v = s.pending.get? v := by
    intro v hv
    refine hother v fun r hr => ?_
    by_contra hex
    exact hv r ⟨SortedMap.mem_toList_iff.1 hr, Bool.eq_false_iff.2 hex⟩
  have hproposes : ∀ v c, all.get? v = some c ↔ ProposesAlone ctx topology restart now s v c := by
    intro v c
    by_cases hv : ∃ r, UpForDecision ctx s v r
    · rcases hv with ⟨r, hv⟩
      exact (hsettled v r hv).eq_some_iff hv
    · rw [(hnone v (not_exists.1 hv)).1]
      exact iff_of_false nofun fun ⟨r, _, _, _, hr, _⟩ => hv ⟨r, hr⟩
  -- A change keeps the readings of its vertex, so they can be asked for the band.
  have hband : within = false ↔ ∃ v c, all.get? v = some c ∧ OutsideBand c.readings := by
    rw [withinBand_eq_false_iff _ within hwithin]
    constructor
    · rintro ⟨v, hv, r, hr, hout⟩
      rcases SortedMap.mem_keys_iff.1 hv with ⟨c, hc⟩
      rcases (hproposes v c).1 hc with ⟨r', _, _, _, hup', _, _, _, _, rfl⟩
      obtain rfl := Option.some.inj (hr.symm.trans hup'.1)
      exact ⟨v, _, hc, hout⟩
    · rintro ⟨v, c, hc, hout⟩
      rcases (hproposes v c).1 hc with ⟨r, _, _, _, hup', _, _, _, _, rfl⟩
      exact ⟨v, SortedMap.mem_keys_iff.2 ⟨_, hc⟩, r, hup'.1, hout⟩
  refine ⟨fun v r hv => ?_, fun v hv => (hnone v hv).2, ⟨all, hproposes, fun hout => ?_,
    fun hin => ?_⟩, fun hcheck v r d hd hzero => (hd.target_of_some hzero).2 hcheck rfl⟩
  · rcases hsettled v r hv with ⟨d, _, hd, _, _, hhold⟩
    exact ⟨d, hd, hhold⟩
  · rw [hband.2 hout]
    rfl
  · rw [Bool.eq_true_of_not_eq_false (mt hband.1 hin), if_pos rfl]

end Proposal

namespace TwoWays

/-- Readings of a vertex that could process a hundred records per second, and is
    to process some more or fewer of them. -/
def readings (parallelism load threshold : Float) : Readings :=
  SortedMap.ofList
    [(.parallelism, .point parallelism), (.trueProcessingRate, .point 100.0),
      (.targetDataRate, .point load), (.scaleUpRateThreshold, .point threshold),
      (.scaleDownRateThreshold, .point threshold)]

/-- A source that is not to be scaled. -/
def job : JobContext where
  id := "job"
  config :=
    { scaling := { excluded := ["source"] }
      vertex := { targetUtilization := 1.0 } }

def topology : Topology :=
  ((({} : Topology).setGroup "map" "default").setGroup "sink" "default").setGroup "source" "default"

/-- The map has too much to do, the sink too little, and a scale-down of the sink
    to six has been held back. A hold of the source has been left over. -/
def start : Session where
  readings :=
    { vertices := SortedMap.ofList
        [("map", readings 2.0 200.0 150.0), ("sink", readings 8.0 50.0 100.0),
          ("source", readings 4.0 50.0 100.0)] }
  pending := .ofHolds (SortedMap.ofList [("sink", ⟨⟨0⟩, 6⟩), ("source", ⟨⟨0⟩, 3⟩)])

/-- Two hours later the map is to go up and the sink to go down. -/
def both : Proposal :=
  SortedMap.ofList
    [("map", { current := 2, target := 4, readings := readings 2.0 200.0 150.0 }),
      ("sink", { current := 8, target := 6, readings := readings 8.0 50.0 100.0 })]

/-- The sink stays within its band, but the map does not. So both changes are
    proposed, each of them as it is for the vertex by itself, and the hold of the
    source is left alone. -/
theorem propose_independent_both :
    (exec ((default : Engine).propose job topology ⟨0⟩ ⟨7200000⟩) start).1 = .ok both ∧
      (∀ v c, both.get? v = some c ↔ ProposesAlone job topology ⟨0⟩ ⟨7200000⟩ start v c) ∧
      (exec ((default : Engine).propose job topology ⟨0⟩ ⟨7200000⟩) start).2.pending.get? "source" =
        some ⟨⟨0⟩, 3⟩ := by
  have hboth : (exec ((default : Engine).propose job topology ⟨0⟩ ⟨7200000⟩) start).1 =
      .ok both := by
    decide +kernel
  have hcalm : ¬UnderPressure job.config start.readings := by
    rw [← pressure?_isSome_iff]
    decide
  rcases propose_independent rfl hcalm (returns_of_exec hboth) with
    ⟨_, hkept, ⟨all, halone, hall, hnone⟩, _⟩
  refine ⟨hboth, ?_, ?_⟩
  · -- A proposal that is not empty is the whole one.
    have hwhole : both = all := by
      by_cases hout : ∃ v c, all.get? v = some c ∧ OutsideBand c.readings
      · exact hall hout
      · exact absurd (hnone hout) (by decide +kernel)
    rwa [hwhole]
  · rw [hkept "source" fun r hr => absurd hr.2 (by decide)]
    rfl

end TwoWays

end Rescale
