import Rescale.Decision.Decide
import Rescale.Proofs.Step
import Rescale.Proofs.Store.Agreement

/-!
# Steps that are Local to a Job

What a decision about a job can depend on, and what it can touch.

Two sessions look alike for a job if they work on the same copies of its records
and on the same readings, and if their stores agree on the job. The rest of the
stores and the events told so far may differ. A step is local to the job if it
cannot tell such sessions apart: it ends the same way in both and leaves
sessions that look alike again, and whatever it writes is confined to the job.

Steps are built from few parts, so being local is a matter of these parts. Reads
have to answer alike, writes have to be writes for the job, and what is taken
from a session has to be something that is alike. Every stage of a decision is
then local, one after the other, and so is the decision.

## Main definitions

* `Ledger.Alike`, `Session.Alike`: What looks alike for a job.
* `Ledger.Confined`: Two ledgers differ only in records of a job.
* `Step.Local`: A step that depends on a job and touches nothing else.
* `Step.update`: Compute something from the session and enter it there.

## Theorems

* `local_bind`, `local_get_bind`: One step after the other.
* `local_update`: What is computed from the session and entered there.
* `local_read`, `local_write`: Reads and writes for the job.
* `Engine.local_propose`: Proposals are local.
* `Step.local_persist`: Storing a decision is local.
* `Engine.local_decide`: Decisions are local.
-/

namespace Rescale

/-! ### Looking alike -/

namespace Ledger

/-- Two ledgers look alike for a job: they have the same faults, and their stores
    agree on the job. -/
structure Alike (job : JobId) (l l' : Ledger) : Prop where
  store : l.store.AgreeOn job l'.store
  fault : l'.fault = l.fault

/-- Two ledgers have the same faults, and their stores differ at most in records
    of a job. -/
structure Confined (job : JobId) (l l' : Ledger) : Prop where
  store : l.store.Confined job l'.store
  fault : l'.fault = l.fault

variable {job other : JobId} {l l' l'' : Ledger}

namespace Alike

theorem refl (job : JobId) (l : Ledger) : l.Alike job l := ⟨.refl job _, rfl⟩

theorem symm (h : l.Alike job l') : l'.Alike job l := ⟨h.store.symm, h.fault.symm⟩

theorem trans (h : l.Alike job l') (h' : l'.Alike job l'') : l.Alike job l'' :=
  ⟨h.store.trans h'.store, h'.fault.trans h.fault⟩

end Alike

namespace Confined

theorem refl (job : JobId) (l : Ledger) : l.Confined job l := ⟨.refl job _, rfl⟩

theorem trans (h : l.Confined job l') (h' : l'.Confined job l'') : l.Confined job l'' :=
  ⟨h.store.trans h'.store, h'.fault.trans h.fault⟩

/-- What is confined to one job is not seen by any other one. -/
theorem alike (h : l.Confined job l') (hne : other ≠ job) : l.Alike other l' :=
  ⟨h.store.agreeOn hne, h.fault⟩

end Confined

end Ledger

/-- Two sessions look alike for a job: they have the same readings and the same
    copies of the job's records, on ledgers that look alike. -/
structure Session.Alike (job : JobId) (s t : Session) : Prop where
  ledger : s.ledger.Alike job t.ledger
  readings : t.readings = s.readings
  history : t.history = s.history
  restarts : t.restarts = s.restarts
  pending : t.pending = s.pending

namespace Step

/-- A step that cannot tell sessions apart that look alike for a job, and that
    writes nothing but records of the job. -/
structure Local (job : JobId) {α : Type} (x : Step α) : Prop where
  alike : ∀ s t : Session, s.Alike job t →
    (exec x t).1 = (exec x s).1 ∧ (exec x s).2.Alike job (exec x t).2
  confined : ∀ s : Session, s.ledger.Confined job (exec x s).2.ledger

variable {job : JobId} {α β : Type}

/-! ### Ways to build a step -/

/-- A step that leaves the session alone ends the same way in all of them. -/
theorem local_of_keeps {x : Step α} {r : Session → Except DecisionError α}
    (hx : ∀ s, exec x s = (r s, s)) (hr : ∀ s t : Session, s.Alike job t → r t = r s) :
    Local job x where
  alike := fun s t h => by
    rw [hx s, hx t]
    exact ⟨hr s t h, h⟩
  confined := fun s => by
    rw [hx s]
    exact .refl job _

theorem local_pure (a : α) : Local job (pure a) :=
  local_of_keeps (fun _ => rfl) fun _ _ _ => rfl

theorem local_throw (e : DecisionError) : Local job (throw e : Step α) :=
  local_of_keeps (fun _ => rfl) fun _ _ _ => rfl

theorem local_ofExcept (x : Except DecisionError α) : Local job (ofExcept x) := by
  cases x with
  | ok a => exact local_pure a
  | error e => exact local_throw e

/-- A change of the copies that is the same for sessions that look alike. -/
theorem local_modify {f : Session → Session}
    (hf : ∀ s t : Session, s.Alike job t → (f s).Alike job (f t))
    (hledger : ∀ s, (f s).ledger = s.ledger) :
    Local job (modify f) where
  alike := fun s t h => ⟨rfl, hf s t h⟩
  confined := fun s => by
    change s.ledger.Confined job (f s).ledger
    rw [hledger s]
    exact .refl job _

theorem local_tell (events : List Event) : Local job (tell events) :=
  local_modify (fun _ _ h => ⟨h.ledger, h.readings, h.history, h.restarts, h.pending⟩)
    fun _ => rfl

/-- After a local step a local one follows, whatever the first one returned. -/
theorem local_bind {x : Step α} {f : α → Step β} (hx : Local job x)
    (hf : ∀ a, Local job (f a)) : Local job (x >>= f) where
  alike := fun s t h => by
    have hfirst := hx.alike s t h
    revert hfirst
    rw [exec_bind, exec_bind]
    rcases exec x s with ⟨e | a, m⟩
    · -- A first step that fails in one session fails in the other with the same error.
      rcases exec x t with ⟨r, m'⟩
      rintro ⟨rfl, halike⟩
      exact ⟨rfl, halike⟩
    · rcases exec x t with ⟨r, m'⟩
      rintro ⟨rfl, halike⟩
      exact (hf a).alike m m' halike
  confined := fun s => by
    have hfirst := hx.confined s
    revert hfirst
    rw [exec_bind]
    rcases exec x s with ⟨e | a, m⟩
    · exact fun hfirst => hfirst
    · exact fun hfirst => hfirst.trans ((hf a).confined m)

/-- What follows may take from the session what is the same in sessions that look
    alike. -/
theorem local_get_bind {f : Session → Step β} (hsame : ∀ s t : Session, s.Alike job t → f t = f s)
    (hf : ∀ s, Local job (f s)) : Local job (get >>= f) where
  alike := fun s t h => by
    change (exec (f t) t).1 = (exec (f s) s).1 ∧ (exec (f s) s).2.Alike job (exec (f t) t).2
    rw [hsame s t h]
    exact (hf s).alike s t h
  confined := fun s => (hf s).confined s

/-- Compute something from the session, enter it there, and return a part of
    it. -/
def update (g : Session → Except DecisionError β) (f : Session → β → Session) (k : β → α) :
    Step α := do
  let s ← get
  let b ← ofExcept (g s)
  set (f s b)
  return k b

theorem exec_update_of_ok {g : Session → Except DecisionError β} {f : Session → β → Session}
    {k : β → α} {s : Session} {b : β} (h : g s = .ok b) :
    exec (update g f k) s = (.ok (k b), f s b) := by
  change exec (ofExcept (g s) >>= fun b => set (f s b) >>= fun _ => pure (k b)) s = _
  rw [h]
  rfl

theorem exec_update_of_error {g : Session → Except DecisionError β} {f : Session → β → Session}
    {k : β → α} {s : Session} {e : DecisionError} (h : g s = .error e) :
    exec (update g f k) s = (.error e, s) := by
  change exec (ofExcept (g s) >>= fun b => set (f s b) >>= fun _ => pure (k b)) s = _
  rw [h]
  rfl

/-- What is computed alike and entered alike leaves sessions alike. -/
theorem local_update {g : Session → Except DecisionError β} {f : Session → β → Session}
    {k : β → α} (hg : ∀ s t : Session, s.Alike job t → g t = g s)
    (hf : ∀ s t : Session, s.Alike job t → ∀ b, (f s b).Alike job (f t b))
    (hledger : ∀ s b, (f s b).ledger = s.ledger) : Local job (update g f k) := by
  constructor
  · intro s t h
    have hsame := hg s t h
    cases hs : g s with
    | ok b =>
        rw [exec_update_of_ok hs, exec_update_of_ok (hsame.trans hs)]
        exact ⟨rfl, hf s t h b⟩
    | error e =>
        rw [exec_update_of_error hs, exec_update_of_error (hsame.trans hs)]
        exact ⟨rfl, h⟩
  · intro s
    cases hs : g s with
    | ok b =>
        rw [exec_update_of_ok hs, hledger s b]
        exact .refl job _
    | error e =>
        rw [exec_update_of_error hs]
        exact .refl job _

/-- A read that stores answer alike if they agree on the job. -/
theorem local_read {kind : RecordKind} {f : Store → Except StoreError α}
    (hf : ∀ s t : Store, s.AgreeOn job t → f t = f s) : Local job (read kind f) := by
  refine local_get_bind (fun s t h => ?_) fun s => ?_
  · rw [Ledger.read, Ledger.read, h.ledger.fault, hf _ _ h.ledger.store]
  · cases s.ledger.read kind f with
    | ok a => exact local_pure a
    | error e => exact local_throw _

/-- A write for the job that deletes nothing. -/
theorem local_write (kind : RecordKind) (w : JobWrite) (hw : w.Keeps) :
    Local job (write kind fun s => s.perform job w) := by
  have hput : ∀ s : Session, s.ledger.fault (.write kind) = none →
      exec (write kind fun s => s.perform job w) s =
        (.ok (), { s with ledger := s.ledger.put kind fun s => s.perform job w }) :=
    fun s h => returns_write_iff.2 ⟨h, rfl⟩
  have hfail : ∀ (s : Session) (e : StoreError), s.ledger.fault (.write kind) = some e →
      exec (write kind fun s => s.perform job w) s = (.error (.store e), s) :=
    fun s e h => fails_write_iff.2 ⟨e, h, rfl, rfl⟩
  constructor
  · intro s t h
    have hsame : t.ledger.fault (.write kind) = s.ledger.fault (.write kind) := by
      rw [h.ledger.fault]
    cases hs : s.ledger.fault (.write kind) with
    | some e =>
        rw [hfail s e hs, hfail t e (hsame.trans hs)]
        exact ⟨rfl, h⟩
    | none =>
        rw [hput s hs, hput t (hsame.trans hs)]
        exact ⟨rfl, { h with ledger := ⟨h.ledger.store.perform hw, h.ledger.fault⟩ }⟩
  · intro s
    cases hs : s.ledger.fault (.write kind) with
    | some e =>
        rw [hfail s e hs]
        exact .refl job _
    | none =>
        rw [hput s hs]
        exact ⟨Store.confined_perform _ hw, rfl⟩

end Step

/-! ### Proposals -/

namespace Engine

open Step

variable {job : JobId} (e : Engine) (ctx : JobContext) (topology : Topology) (restart : Span)
  (now : Instant)

/-- The decision about a vertex goes by its history and the holds, which are
    alike, and it sets the holds. -/
theorem local_proposeVertex (v : VertexId) (readings : Readings) :
    Local job (e.proposeVertex ctx topology restart now v readings) := by
  rw [proposeVertex]
  cases topology.get? v with
  | none => exact local_throw _
  | some stage =>
      refine local_bind (local_ofExcept _) fun current => ?_
      refine local_update (fun s t h => ?_) (fun s t h decision => ?_) fun _ _ => rfl
      · rw [h.history, h.pending]
      · exact ⟨h.ledger, h.readings, h.history, h.restarts, rfl⟩

/-- By induction on the vertices: each of them is decided on locally. -/
theorem local_proposeEach (vertices : List (VertexId × Readings)) :
    Local job (e.proposeEach ctx topology restart now vertices) := by
  induction vertices with
  | nil => exact local_pure ∅
  | cons entry rest ih =>
      rcases entry with ⟨v, readings⟩
      rw [proposeEach]
      split
      · exact ih
      · refine local_bind (e.local_proposeVertex ctx topology restart now v readings) fun _ => ?_
        exact local_bind ih fun _ => local_pure _

theorem local_propose : Local job (e.propose ctx topology restart now) := by
  rw [propose]
  refine local_get_bind (fun s t h => by rw [h.readings]) fun s => ?_
  cases pressure? ctx s.readings with
  | some event => exact local_bind (local_tell _) fun _ => local_pure _
  | none =>
      refine local_bind (e.local_proposeEach ctx topology restart now _) fun p => ?_
      refine local_bind (local_ofExcept _) fun within => ?_
      cases within with
      | true => exact local_pure _
      | false => exact local_pure _

end Engine

/-! ### Storing -/

namespace Step

variable {job : JobId} (ctx : JobContext) (now : Instant) (p : Proposal)

theorem local_openEntry : Local ctx.id (openEntry ctx now p) := by
  rw [openEntry]
  refine local_bind (local_modify (fun s t h => ?_) fun _ => rfl) fun _ => ?_
  · exact { h with history := by rw [h.history] }
  refine local_get_bind (fun s t h => by rw [h.history]) fun s => ?_
  refine local_bind (local_write .history (.history s.history) trivial) fun _ => ?_
  refine local_bind (local_modify (fun s t h => ?_) fun _ => rfl) fun _ => ?_
  · exact { h with restarts := by rw [h.restarts] }
  refine local_get_bind (fun s t h => by rw [h.restarts]) fun s => ?_
  exact local_write .restartLog (.restartLog s.restarts) trivial

theorem local_storeOverrides (overrides tuning : Overrides) :
    Local job (storeOverrides job overrides tuning) :=
  local_bind (local_write .parallelism (.parallelism overrides) trivial) fun _ =>
    local_write .configChanges (.configChanges tuning) trivial

theorem local_previousGeneration (period : Nat) : Local job (previousGeneration job period) := by
  cases period with
  | zero => exact local_pure none
  | succ n =>
      refine local_read fun s t h => ?_
      rw [Store.generation?, Store.generation?, h.generations n]

theorem local_persistGeneration (overrides : Overrides) :
    Local ctx.id (persistGeneration ctx p overrides) := by
  rw [persistGeneration]
  -- What is read is the number of decisions and a generation under it, both of the job.
  refine local_bind (local_read fun s t h => by rw [h.period_eq]) fun period => ?_
  refine local_bind (local_previousGeneration period) fun previous => ?_
  refine local_get_bind (fun s t h => by rw [h.readings]) fun s => ?_
  rw [storeGeneration]
  refine local_bind (local_write .generation (.generation _) trivial) fun _ => ?_
  refine local_bind (local_write .parallelism (.parallelism _) trivial) fun _ => ?_
  exact local_write .profiles (.profiles _) trivial

theorem local_countDecision : Local job (countDecision job) := by
  rw [countDecision]
  refine local_bind (local_write .period .advancePeriod trivial) fun _ => ?_
  refine local_modify (fun s t h => ?_) fun _ => rfl
  exact { h with pending := by rw [h.pending] }

theorem local_persist (tuning : Overrides) : Local ctx.id (persist ctx now p tuning) := by
  rw [persist]
  refine local_bind (local_openEntry ctx now p) fun _ => ?_
  refine local_get_bind (fun s t h => by rw [h.readings]) fun s => ?_
  refine local_bind (local_ofExcept _) fun overrides => ?_
  refine local_bind (local_storeOverrides overrides tuning) fun _ => ?_
  split
  · exact local_bind (local_persistGeneration ctx p overrides) fun _ => local_countDecision
  · exact local_countDecision

end Step

/-! ### Decisions -/

namespace Engine

open Step

variable (e : Engine) (ctx : JobContext) (topology : Topology) (now : Instant)

theorem local_ceiling? {job : JobId} (tuned : Config) (readings : JobReadings) (p : Proposal) :
    Local job (e.ceiling? ctx tuned topology readings p) := by
  rw [ceiling?]
  refine local_bind (local_ofExcept _) fun c => ?_
  cases c with
  | some c => exact local_pure _
  | none =>
      cases quotaCeiling tuned ctx.cores (ctx.processSize? tuned.memory) topology p with
      | some c => exact local_bind (local_tell _) fun _ => local_pure _
      | none => exact local_pure _

theorem local_applyProposal (p : Proposal) :
    Local ctx.id (e.applyProposal ctx topology now p) := by
  rw [applyProposal]
  refine local_get_bind (fun s t h => by rw [h.readings]) fun s => ?_
  refine local_bind (local_tell _) fun _ => ?_
  refine local_bind (local_ofExcept _) fun tuned => ?_
  refine local_bind (e.local_ceiling? ctx topology tuned _ p) fun c => ?_
  cases c with
  | some c => exact local_pure _
  | none => exact local_bind (local_persist ctx now p _) fun _ => local_pure _

/-- Everything that a decision looks at is alike: readings, restart times, history
    and holds, and what it reads from the store. -/
theorem local_decide : Local ctx.id (e.decide ctx topology now) := by
  rw [decide]
  refine local_get_bind (fun s t h => by rw [h.restarts]) fun s => ?_
  refine local_bind (e.local_propose ctx topology _ now) fun p => ?_
  split
  · exact local_pure _
  refine local_bind (local_modify (fun s t h => ?_) fun _ => rfl) fun _ => ?_
  · exact { h with readings := by rw [h.readings] }
  refine local_bind (local_tell _) fun _ => ?_
  cases blockReason? ctx.config now with
  | some reason => exact local_pure _
  | none => exact e.local_applyProposal ctx topology now p

end Engine

end Rescale
