import Rescale.Decision.Propose
import Rescale.Proofs.Step
import Rescale.SortedMap.Lemmas

/-!
# What Proposing Leaves

Proposing changes has two effects on a session: it moves holds, and it tells
events. Ledger, readings, history and restart log come out of it as they went
in, whether it ends with a proposal or with an error. Every vertex of the loop
takes part in that, so the argument is an induction over the list of vertices.

Memory pressure comes before all of it. The event that reports it is there
exactly when one of the two measurements is above its threshold, and then the
loop over the vertices is not entered, so not even a hold moves.

## Main definitions

* `UnderPressure`: One of the memory measurements is above its threshold.
* `Session.SameRecords`: Two sessions differ at most in holds and events.
* `Change.StartsFrom`: A change of a vertex starts from what the vertex reports.

## Theorems

* `pressure?_isSome_iff`: An event reports pressure exactly when there is some.
* `Change.of?_eq_some_iff`: Which parallelisms make a change.
* `sameRecords_of_propose`: Proposing keeps the records.
* `propose_of_underPressure`: Under pressure nothing is proposed.
* `startsFrom_of_propose`: What is known of every proposed change.
-/

namespace Rescale

/-- Garbage collection or the heap is above its threshold. Garbage collection
    counts by its present value and the heap by its average. -/
def UnderPressure (config : Config) (readings : JobReadings) : Prop :=
  (∃ gc, readings.overall? .gcPressure = some gc ∧
    gc.current > config.scaling.gcPressureThreshold) ∨
  ∃ heap, readings.overall? .heapMaxUsageRatio = some heap ∧
    heap.average > config.scaling.heapUsageThreshold

/-- A measurement passes a filter exactly when it is there and passes the
    test. -/
theorem isSome_filter_map_iff {α β : Type} (o : Option α) (f : α → β) (p : β → Bool) :
    (((o.map f).filter p).isSome = true) ↔ ∃ x, o = some x ∧ p (f x) = true := by
  cases o with
  | none => simp only [Option.map_none, Option.filter_none, Option.isSome_none,
      Bool.false_eq_true, reduceCtorEq, false_and, exists_false]
  | some x => simp only [Option.map_some, Option.isSome_filter, Option.any_some,
      Option.some.injEq, exists_eq_left']

theorem pressure?_isSome_iff (ctx : JobContext) (readings : JobReadings) :
    (pressure? ctx readings).isSome = true ↔ UnderPressure ctx.config readings := by
  simp only [pressure?, Option.isSome_or, Option.isSome_map, Bool.or_eq_true,
    isSome_filter_map_iff, decide_eq_true_eq, UnderPressure]

/-- Two sessions with the same ledger, readings, history and restart log. -/
structure Session.SameRecords (s t : Session) : Prop where
  ledger : t.ledger = s.ledger
  readings : t.readings = s.readings
  history : t.history = s.history
  restarts : t.restarts = s.restarts

namespace Session

namespace SameRecords

theorem refl (s : Session) : SameRecords s s := ⟨rfl, rfl, rfl, rfl⟩

theorem trans {s m t : Session} (h : SameRecords s m) (h' : SameRecords m t) :
    SameRecords s t where
  ledger := h'.ledger.trans h.ledger
  readings := h'.readings.trans h.readings
  history := h'.history.trans h.history
  restarts := h'.restarts.trans h.restarts

theorem exists_eq {s t : Session} (h : SameRecords s t) :
    ∃ pending events, t = { s with pending, events } := by
  rcases t with ⟨ledger, readings, history, restarts, pending, events⟩
  rcases h with ⟨rfl, rfl, rfl, rfl⟩
  exact ⟨pending, events, rfl⟩

end SameRecords

end Session

/-- A change of a vertex with some readings: it leads from the parallelism that
    the vertex reports to another one above zero, and it keeps the readings. -/
structure Change.StartsFrom (v : VertexId) (readings : Readings) (c : Change) : Prop where
  current : currentParallelism v readings = .ok c.current
  readings : c.readings = readings
  moves : c.current ≠ c.target
  positive : c.target ≠ 0

/-- Two parallelisms make a change unless they are the same, or the new one is
    zero. -/
theorem Change.of?_eq_some_iff {current target : Nat} {readings : Readings} {c : Change} :
    (Change.of? current target readings).toOption = some c ↔
      target ≠ current ∧ target ≠ 0 ∧ c = { current, target, readings } := by
  unfold Change.of?
  by_cases hsame : current = target
  · rw [if_pos (beq_iff_eq.2 hsame)]
    exact iff_of_false nofun fun h => h.1 hsame.symm
  · rw [if_neg (mt beq_iff_eq.1 hsame)]
    by_cases hzero : target = 0
    · rw [if_pos (beq_iff_eq.2 hzero)]
      exact iff_of_false nofun fun h => h.2.1 hzero
    · rw [if_neg (mt beq_iff_eq.1 hzero)]
      constructor
      · intro h
        exact ⟨Ne.symm hsame, hzero, (Option.some.inj h).symm⟩
      · rintro ⟨_, _, rfl⟩
        rfl

namespace Engine

open Step Session

variable {e : Engine} {ctx : JobContext} {topology : Topology} {restart : Span} {now : Instant}

/-- The decision about one vertex sets the holds and tells at most one event.
    What can fail comes before that. -/
theorem sameRecords_of_proposeVertex {v : VertexId} {readings : Readings} {s t : Session}
    (h : Leaves (e.proposeVertex ctx topology restart now v readings) s t) :
    SameRecords s t := by
  unfold proposeVertex at h
  cases hstage : topology.get? v with
  | none =>
      -- A vertex that the graph does not know fails at once.
      simp only [hstage, leaves_throw_iff] at h
      rw [h]
      exact .refl t
  | some stage =>
      simp only [hstage, leaves_bind_iff, returns_ofExcept_iff, fails_ofExcept_iff,
        returns_get_iff, not_fails_get, returns_set_iff, not_fails_set, leaves_pure_iff,
        exists_false, false_or] at h
      -- Past the current parallelism and the scaler, only holds and events move.
      rcases h with ⟨_, _, rfl⟩ | ⟨_, _, ⟨_, rfl⟩, _, _, ⟨rfl, rfl⟩, h⟩
      · exact .refl s
      · rcases h with ⟨_, _, rfl⟩ | ⟨_, _, ⟨_, rfl⟩, _, _, rfl, rfl⟩
        · exact .refl s
        · exact ⟨rfl, rfl, rfl, rfl⟩

/-- By induction on the vertices: each that is not excluded keeps the records,
    and so do the others after it. -/
theorem sameRecords_of_proposeEach (vertices : List (VertexId × Readings)) :
    ∀ s t, Leaves (e.proposeEach ctx topology restart now vertices) s t → SameRecords s t := by
  induction vertices with
  | nil =>
      intro s t h
      simp only [proposeEach, leaves_pure_iff] at h
      rw [h]
      exact .refl t
  | cons entry rest ih =>
      intro s t h
      rcases entry with ⟨v, readings⟩
      unfold proposeEach at h
      by_cases hex : ctx.config.scaling.excluded.contains v = true
      · rw [if_pos hex] at h
        exact ih s t h
      · rw [if_neg hex, leaves_bind_iff] at h
        -- The loop stops where a vertex fails, and what it leaves there is kept.
        rcases h with ⟨_, hfail⟩ | ⟨_, m, hret, h⟩
        · exact sameRecords_of_proposeVertex hfail.leaves
        · have hm : SameRecords s m := sameRecords_of_proposeVertex hret.leaves
          rw [leaves_bind_iff] at h
          rcases h with ⟨_, hfail⟩ | ⟨_, m', hret', h⟩
          · exact hm.trans (ih m t hfail.leaves)
          · rw [leaves_pure_iff] at h
            rw [← h]
            exact hm.trans (ih m m' hret'.leaves)

/-- Under pressure nothing is proposed, and all that happens is that an event
    tells so. -/
theorem propose_of_underPressure (e : Engine) (topology : Topology) (restart : Span)
    (now : Instant) {s : Session} (hp : UnderPressure ctx.config s.readings) :
    ∃ event, Returns (e.propose ctx topology restart now) s ∅
      { s with events := s.events ++ [event] } := by
  rcases Option.isSome_iff_exists.1 ((pressure?_isSome_iff ctx s.readings).2 hp) with
    ⟨event, hevent⟩
  refine ⟨event, ?_⟩
  simp only [propose, returns_bind_iff, returns_get_iff]
  refine ⟨s, s, ⟨rfl, rfl⟩, ?_⟩
  simp only [hevent, returns_bind_iff, returns_tell_iff, returns_pure_iff]
  exact ⟨(), _, rfl, trivial, rfl⟩

theorem sameRecords_of_propose {s t : Session}
    (h : Leaves (e.propose ctx topology restart now) s t) : SameRecords s t := by
  simp only [propose, leaves_bind_iff, not_fails_get, exists_false, false_or,
    returns_get_iff] at h
  rcases h with ⟨_, _, ⟨rfl, rfl⟩, h⟩
  cases hevent : pressure? ctx s.readings with
  | some event =>
      simp only [hevent, leaves_bind_iff, not_fails_tell, exists_false, false_or,
        returns_tell_iff, leaves_pure_iff] at h
      rcases h with ⟨_, _, rfl, rfl⟩
      exact ⟨rfl, rfl, rfl, rfl⟩
  | none =>
      -- The loop comes first, and the band is then a matter of the readings.
      simp only [hevent, leaves_bind_iff, fails_ofExcept_iff, returns_ofExcept_iff] at h
      rcases h with ⟨_, hfail⟩ | ⟨p, m, hret, h⟩
      · exact sameRecords_of_proposeEach _ s t hfail.leaves
      · have hm : SameRecords s m := sameRecords_of_proposeEach _ s m hret.leaves
        rcases h with ⟨_, _, rfl⟩ | ⟨within, _, ⟨_, rfl⟩, h⟩
        · exact hm
        · -- Both branches only choose what to return.
          cases within <;> simp only [Bool.false_eq_true, if_true, if_false, leaves_pure_iff] at h
          all_goals
            rw [← h]
            exact hm

/-- Without pressure the proposal comes from the loop over the vertices. -/
theorem not_underPressure_of_propose {s t : Session} {p : Proposal}
    (h : Returns (e.propose ctx topology restart now) s p t) (hne : p.isEmpty = false) :
    ¬UnderPressure ctx.config s.readings := by
  intro hp
  rcases propose_of_underPressure e topology restart now hp with ⟨_, h'⟩
  rcases returns_functional h h' with ⟨rfl, _⟩
  cases hne

/-! ### The changes themselves -/

theorem startsFrom_of_of? {v : VertexId} {current target : Nat} {readings : Readings} {c : Change}
    (hcurrent : currentParallelism v readings = .ok current)
    (hc : (Change.of? current target readings).toOption = some c) : c.StartsFrom v readings := by
  rcases Change.of?_eq_some_iff.1 hc with ⟨hsame, hzero, rfl⟩
  exact ⟨hcurrent, rfl, hsame.symm, hzero⟩

theorem startsFrom_of_proposeVertex {v : VertexId} {readings : Readings} {s t : Session}
    {c : Change}
    (h : Returns (e.proposeVertex ctx topology restart now v readings) s (some c) t) :
    c.StartsFrom v readings := by
  unfold proposeVertex at h
  cases hstage : topology.get? v with
  | none => simp only [hstage, not_returns_throw] at h
  | some stage =>
      simp only [hstage, returns_bind_iff, returns_ofExcept_iff, returns_get_iff, returns_set_iff,
        returns_pure_iff] at h
      rcases h with ⟨current, _, ⟨hcurrent, rfl⟩, _, _, ⟨rfl, rfl⟩, decision, _, ⟨_, rfl⟩, _, _,
        rfl, hchange, _⟩
      rcases Option.bind_eq_some_iff.1 hchange with ⟨target, _, hc⟩
      exact startsFrom_of_of? hcurrent hc

/-- By induction on the vertices: a change is the one of the vertex in front, or
    it comes from the others. -/
theorem startsFrom_of_proposeEach (vertices : List (VertexId × Readings)) :
    ∀ s p t, Returns (e.proposeEach ctx topology restart now vertices) s p t →
      ∀ v c, p.get? v = some c → ctx.config.scaling.excluded.contains v = false ∧
        ∃ readings, (v, readings) ∈ vertices ∧ c.StartsFrom v readings := by
  induction vertices with
  | nil =>
      intro s p t h v c hc
      simp only [proposeEach, returns_pure_iff] at h
      rw [← h.1] at hc
      cases hc
  | cons entry rest ih =>
      intro s p t h v c hc
      rcases entry with ⟨w, readings⟩
      unfold proposeEach at h
      by_cases hex : ctx.config.scaling.excluded.contains w = true
      · rw [if_pos hex] at h
        rcases ih s p t h v c hc with ⟨hv, r, hr, hstarts⟩
        exact ⟨hv, r, List.mem_cons_of_mem _ hr, hstarts⟩
      · simp only [hex, Bool.false_eq_true, if_false, returns_bind_iff, returns_pure_iff] at h
        rcases h with ⟨change, m, hchange, others, m', hothers, hp, _⟩
        -- A change among the others is one by induction, whatever the first vertex does.
        have hrest : ∀ c, others.get? v = some c →
            ctx.config.scaling.excluded.contains v = false ∧
              ∃ r, (v, r) ∈ (w, readings) :: rest ∧ c.StartsFrom v r := by
          intro c hc
          rcases ih m others m' hothers v c hc with ⟨hv, r, hr, hstarts⟩
          exact ⟨hv, r, List.mem_cons_of_mem _ hr, hstarts⟩
        cases change with
        | none =>
            rw [← hp] at hc
            exact hrest c hc
        | some c' =>
            rw [← hp, SortedMap.get?_insert] at hc
            by_cases hv : compare v w = .eq
            · -- It is the change of the first vertex itself.
              have hsame : v = w := Std.LawfulEqOrd.eq_of_compare hv
              subst hsame
              rw [if_pos hv, Option.some.injEq] at hc
              refine ⟨Bool.eq_false_iff.2 hex, readings, List.mem_cons_self, ?_⟩
              rw [← hc]
              exact startsFrom_of_proposeVertex hchange
            · rw [if_neg hv] at hc
              exact hrest c hc

/-- Every proposed change is one of a vertex that reports and is not excluded,
    and it starts from what the vertex reports. -/
theorem startsFrom_of_propose {s t : Session} {p : Proposal}
    (h : Returns (e.propose ctx topology restart now) s p t) :
    ∀ v c, p.get? v = some c → ctx.config.scaling.excluded.contains v = false ∧
      ∃ readings, s.readings.vertices.get? v = some readings ∧ c.StartsFrom v readings := by
  intro v c hc
  simp only [propose, returns_bind_iff, returns_get_iff] at h
  rcases h with ⟨_, _, ⟨rfl, rfl⟩, h⟩
  cases hevent : pressure? ctx s.readings with
  | some event =>
      simp only [hevent, returns_bind_iff, returns_pure_iff] at h
      rcases h with ⟨_, _, _, rfl, _⟩
      cases hc
  | none =>
      simp only [hevent, returns_bind_iff, returns_ofExcept_iff] at h
      rcases h with ⟨p', m, hp', within, _, ⟨_, rfl⟩, h⟩
      cases within with
      | true =>
          -- Within the band the proposal is dropped as a whole.
          simp only [if_true, returns_pure_iff] at h
          rw [← h.1] at hc
          cases hc
      | false =>
          simp only [Bool.false_eq_true, if_false, returns_pure_iff] at h
          rw [← h.1] at hc
          rcases startsFrom_of_proposeEach _ s p' m hp' v c hc with ⟨hv, r, hr, hstarts⟩
          exact ⟨hv, r, SortedMap.mem_toList_iff.1 hr, hstarts⟩

end Engine

end Rescale
