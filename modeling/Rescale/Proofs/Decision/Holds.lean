import Rescale.Proofs.Decision.Gates
import Rescale.Proofs.Decision.Persist
import Rescale.Proofs.Job.PendingScaleDowns

/-!
# Holds in a Decision

What a decision does to the holds of its job.

The holds of a session move in two places. While a decision proposes, the scaler
is asked about one vertex after the other and leaves each time the holds that it
was given, with at most one operation on them. And where the decision is stored,
all of them are released at the end. The gates in between leave them alone, and
none of the records that a decision writes is that of the holds.

## Main definitions

* `requestsFor`, `requests`: What the scaler is asked in a decision.
* `Session.holdsTable`: The stored holds of all jobs.

## Theorems

* `pending_of_proposal`: The holds once a decision has proposed.
* `pending_of_decide`: The holds that a decision leaves.
* `keeps_holds_decide`: A decision does not write the holds.
-/

namespace Rescale

open Step

/-- What the scaler is asked about the vertices of a list: those that are not
    excluded, as the graph knows them. -/
def requestsFor (ctx : JobContext) (topology : Topology) (history : History) (restart : Span)
    (now : Instant) (vertices : List (VertexId × Readings)) : List VertexRequest :=
  (vertices.filter fun e => !ctx.config.scaling.excluded.contains e.1).filterMap fun e =>
    (topology.get? e.1).map fun stage =>
      { vertex := e.1, inputs := stage.inputs, readings := e.2, history := history.ofVertex e.1,
        restart, now }

/-- What the scaler is asked in a decision: nothing while memory is under
    pressure. -/
def requests (ctx : JobContext) (topology : Topology) (now : Instant) (s : Session) :
    List VertexRequest :=
  if (pressure? ctx s.readings).isSome then []
  else
    requestsFor ctx topology s.history (s.restarts.estimate ctx.config.restart) now
      s.readings.vertices.toList

namespace Engine

variable {e : Engine} {ctx : JobContext} {topology : Topology} {restart : Span} {now : Instant}
  {s t : Session} {p : Proposal}

/-- The scaler is asked about one vertex, and leaves the holds. -/
theorem pending_of_proposeVertex {v : VertexId} {readings : Readings} {o : Option Change}
    (h : Returns (e.proposeVertex ctx topology restart now v readings) s o t) :
    ∃ stage, topology.get? v = some stage ∧ t.pending = e.scaler.leaves ctx s.pending
      { vertex := v, inputs := stage.inputs, readings, history := s.history.ofVertex v, restart,
        now } := by
  unfold proposeVertex at h
  cases hstage : topology.get? v with
  | none => simp only [hstage, not_returns_throw] at h
  | some stage =>
      simp only [hstage, returns_bind_iff, returns_ofExcept_iff, returns_get_iff, returns_set_iff,
        returns_pure_iff] at h
      rcases h with
        ⟨_, _, ⟨_, rfl⟩, _, _, ⟨rfl, rfl⟩, decision, _, ⟨hdecide, rfl⟩, _, _, rfl, _, rfl⟩
      refine ⟨stage, rfl, ?_⟩
      rw [Scaler.leaves, hdecide]

/-- By induction on the vertices: the scaler is asked about one after the other.
    The history that it is shown stays the same. -/
theorem pending_of_proposeEach (vertices : List (VertexId × Readings)) : ∀ s t p,
    Returns (e.proposeEach ctx topology restart now vertices) s p t →
      t.pending = (requestsFor ctx topology s.history restart now vertices).foldl
        (e.scaler.leaves ctx) s.pending := by
  induction vertices with
  | nil =>
      intro s t p h
      simp only [proposeEach, returns_pure_iff] at h
      rw [h.2]
      rfl
  | cons entry rest ih =>
      intro s t p h
      rcases entry with ⟨v, readings⟩
      unfold proposeEach at h
      by_cases hex : ctx.config.scaling.excluded.contains v = true
      · rw [if_pos hex] at h
        rw [ih s t p h, requestsFor, requestsFor, List.filter_cons_of_neg]
        rw [hex]
        exact Bool.false_ne_true
      · simp only [if_neg hex, returns_bind_iff, returns_pure_iff] at h
        rcases h with ⟨_, m, hvertex, _, _, hothers, _, rfl⟩
        rcases pending_of_proposeVertex hvertex with ⟨stage, hstage, hpending⟩
        have hhistory : m.history = s.history :=
          (sameRecords_of_proposeVertex hvertex.leaves).history
        rw [ih m _ _ hothers, hpending, hhistory, requestsFor, requestsFor,
          List.filter_cons_of_pos (by rw [Bool.eq_false_iff.2 hex]; rfl),
          List.filterMap_cons_some (by rw [hstage]; rfl), List.foldl_cons]

/-- A proposal leaves the holds as the scaler made them, vertex by vertex. -/
theorem pending_of_proposal {m : Session}
    (h : Returns (e.proposal ctx topology now s) s p m) :
    m.pending = (requests ctx topology now s).foldl (e.scaler.leaves ctx) s.pending := by
  unfold proposal propose at h
  simp only [returns_bind_iff, returns_get_iff] at h
  rcases h with ⟨_, _, ⟨rfl, rfl⟩, h⟩
  unfold requests
  cases hpressure : pressure? ctx s.readings with
  | some event =>
      simp only [hpressure, returns_bind_iff, returns_tell_iff, returns_pure_iff] at h
      rcases h with ⟨_, _, rfl, _, rfl⟩
      rfl
  | none =>
      simp only [hpressure, returns_bind_iff, returns_ofExcept_iff] at h
      rcases h with ⟨proposal, _, heach, dropped, _, ⟨_, rfl⟩, h⟩
      have hpending := pending_of_proposeEach _ _ _ _ heach
      -- Whether the band drops the proposal or not, the holds stay.
      cases dropped with
      | true =>
          simp only [if_true, returns_pure_iff] at h
          rw [← h.2, hpending]
          rfl
      | false =>
          simp only [Bool.false_eq_true, if_false, returns_pure_iff] at h
          rw [← h.2, hpending]
          rfl

/-- Looking for a ceiling keeps all but the events. -/
theorem keeps_ceiling? {γ : Type} {part : Session → γ}
    (hpart : ∀ (s : Session) events, part { s with events } = part s) {tuned : Config}
    {readings : JobReadings} : Keeps part (e.ceiling? ctx tuned topology readings p) := by
  unfold ceiling?
  refine keeps_bind (keeps_ofExcept _) fun c => ?_
  cases c with
  | some c => exact keeps_pure _
  | none =>
      cases quotaCeiling tuned ctx.cores (ctx.processSize? tuned.memory) topology p with
      | none => exact keeps_pure _
      | some c => exact keeps_bind (keeps_modify fun s => hpart s _) fun _ => keeps_pure _

/-- A decision leaves the holds as the scaler made them, and no hold at all if it
    is stored. -/
theorem pending_of_decide {o : Outcome} (h : Returns (e.decide ctx topology now) s o t) :
    t.pending =
      if o = .scaled then
        ((requests ctx topology now s).foldl (e.scaler.leaves ctx) s.pending).releaseAll
      else (requests ctx topology now s).foldl (e.scaler.leaves ctx) s.pending := by
  rcases returns_decide_iff.1 h with ⟨p, m, hp, hgates⟩
  rw [← pending_of_proposal hp]
  rcases hgates with ⟨_, rfl, rfl⟩ | ⟨_, ⟨_, _, rfl, rfl⟩ | ⟨_, happly⟩⟩
  · rfl
  · rfl
  · rcases returns_applyProposal_iff.1 happly with
      ⟨_, _, ⟨_, rfl, hceiling⟩ | ⟨rfl, _, hpersist⟩⟩
    · have hkeeps : t.pending = (e.tuned ctx (m.reported ctx now p)).pending :=
        keeps_ceiling? (fun _ _ => rfl) _ _ hceiling.leaves
      exact hkeeps
    · rcases returns_persist hpersist with ⟨_, _, ⟨_, rfl⟩ | ⟨_, _, _, _, rfl⟩⟩
      · rfl
      · rfl

end Engine

/-! ### The stored holds -/

/-- The table of the holds, in the store of a session. -/
def Session.holdsTable (s : Session) : SortedMap JobId Holds := s.ledger.store.holds

namespace Step

variable {ctx : JobContext} {now : Instant} {p : Proposal} {overrides tuning : Overrides}
  {job : JobId}

theorem keeps_holds_openEntry : Keeps Session.holdsTable (openEntry ctx now p) := by
  unfold openEntry
  refine keeps_bind (keeps_modify fun _ => rfl) fun _ => keeps_bind keeps_get fun _ => ?_
  refine keeps_bind (keeps_write fun _ => rfl) fun _ => ?_
  refine keeps_bind (keeps_modify fun _ => rfl) fun _ => keeps_bind keeps_get fun _ => ?_
  exact keeps_write fun _ => rfl

theorem keeps_holds_storeOverrides :
    Keeps Session.holdsTable (storeOverrides job overrides tuning) :=
  keeps_bind (keeps_write fun _ => rfl) fun _ => keeps_write fun _ => rfl

theorem keeps_holds_persistGeneration :
    Keeps Session.holdsTable (persistGeneration ctx p overrides) := by
  unfold persistGeneration storeGeneration
  refine keeps_bind keeps_read fun period => keeps_bind ?_ fun _ => ?_
  · cases period with
    | zero => exact keeps_pure _
    | succ period => exact keeps_read
  · refine keeps_bind keeps_get fun _ => keeps_bind (keeps_write fun _ => rfl) fun _ => ?_
    exact keeps_bind (keeps_write fun _ => rfl) fun _ => keeps_write fun _ => rfl

theorem keeps_holds_countDecision : Keeps Session.holdsTable (countDecision job) :=
  keeps_bind (keeps_write fun _ => rfl) fun _ => keeps_modify fun _ => rfl

/-- No stage of storing a decision writes the holds. -/
theorem keeps_holds_persist : Keeps Session.holdsTable (persist ctx now p tuning) := by
  unfold persist
  refine keeps_bind keeps_holds_openEntry fun _ => keeps_bind keeps_get fun _ => ?_
  refine keeps_bind (keeps_ofExcept _) fun _ => keeps_bind keeps_holds_storeOverrides fun _ => ?_
  cases helastic : ctx.config.elastic.enabled with
  | false => exact keeps_holds_countDecision
  | true =>
      exact keeps_bind keeps_holds_persistGeneration fun _ => keeps_holds_countDecision

end Step

namespace Engine

variable {e : Engine} {ctx : JobContext} {topology : Topology} {now : Instant} {p : Proposal}

theorem keeps_holds_applyProposal :
    Keeps Session.holdsTable (e.applyProposal ctx topology now p) := by
  unfold applyProposal
  refine keeps_bind keeps_get fun _ => keeps_bind (keeps_modify fun _ => rfl) fun _ => ?_
  refine keeps_bind (keeps_ofExcept _) fun _ => ?_
  refine keeps_bind (keeps_ceiling? fun _ _ => rfl) fun c => ?_
  cases c with
  | some c => exact keeps_pure _
  | none => exact keeps_bind keeps_holds_persist fun _ => keeps_pure _

/-- However a decision ends, it does not write the holds. -/
theorem keeps_holds_decide : Keeps Session.holdsTable (e.decide ctx topology now) := by
  unfold decide
  refine keeps_bind keeps_get fun s => keeps_bind ?_ fun p => ?_
  · exact fun _ _ h => congrArg (·.store.holds) (sameRecords_of_propose h).ledger
  · by_cases hempty : p.isEmpty = true
    · rw [if_pos hempty]
      exact keeps_pure _
    · rw [if_neg hempty]
      refine keeps_bind (keeps_modify fun _ => rfl) fun _ => ?_
      refine keeps_bind (keeps_modify fun _ => rfl) fun _ => ?_
      cases blockReason? ctx.config now with
      | some reason => exact keeps_pure _
      | none => exact keeps_holds_applyProposal

end Engine

end Rescale
