import Rescale.Proofs.Vertex.Window

/-!
# Refused Scale-Ups

What the history of a vertex has to do with the decisions about it.

The rate scaler reads the history for one reason: it refuses to scale up further
when the last scale-up fell short of its promise. The readings alone settle
whether a call fails and which parallelism the load needs, and a hold has ended
before a refusal is considered. So two calls that differ in nothing but the
history of their vertex fail alike and leave the same holds. They decide the same
about a load that does not ask for more instances, and about one that does, each
of them follows the target or refuses it. When a scale-down comes and how far it
goes is not a matter of history at all.

What refuses is a single change, the latest of the history: a scale-up from a
positive parallelism to the present one, with the rate that it began at. Whatever
else a history holds makes no difference.

None of this adds up over time. Calls share their holds, and a whole list of
them leaves the same holds behind whatever histories they were shown.

## Main definitions

* `VertexHistory.Latest`: The change that was decided last.
* `Change.FellShort`: A scale-up gained too little.
* `VertexHistory.Refuses`: The latest change is one that fell short.
* `VertexDecision.FollowsUnless`: A target is followed or refused.
* `ScalerCall.withHistory`: A call with another history.
* `ScalerCall.AsksMore`: The load needs more instances than there are.

## Theorems

* `isSome_shortfall?_iff`: When a history refuses a scale-up.
* `decide_of_asksMore`, `decide_eq_of_not_asksMore`: What a call decides, and what
  the history has to do with it.
* `decide_withHistory`: Two calls that differ in their histories.
* `decide_after_withHistories`: Two lists of such calls.
-/

namespace Rescale

/-! ### What refuses -/

/-- The change of a history that was decided last, and when. -/
structure VertexHistory.Latest (h : VertexHistory) (decided : Instant) (change : Change) :
    Prop where
  found : h.get? decided = some change
  last : ∀ i other, h.get? i = some other → i.millis ≤ decided.millis

/-- A scale-up that led from a positive parallelism to the present one, with the
    rate that it began at, and that gained less than the threshold part of what
    it promised. A part that is not a number is less than that. -/
structure Change.FellShort (change : Change) (threshold : Float) (current : Nat)
    (trueRate : Float) : Prop where
  up : change.isScaleUp = true
  present : change.target = current
  positive : 0 < change.current
  short : ∃ rate, change.readings.get? .trueProcessingRate = some rate ∧
    ¬(gains change rate.average trueRate).1 ≤ 0.0 ∧
    ¬(gains change rate.average trueRate).2 / (gains change rate.average trueRate).1 ≥ threshold

/-- The latest change of a history is one that fell short. -/
def VertexHistory.Refuses (h : VertexHistory) (threshold : Float) (current : Nat)
    (trueRate : Float) : Prop :=
  ∃ decided change, h.Latest decided change ∧ change.FellShort threshold current trueRate

section History

variable {h h' : VertexHistory} {decided : Instant} {change : Change} {threshold trueRate : Float}
  {current : Nat}

/-- The last entry of a history is the latest change with its instant. -/
theorem last?_eq_some_iff_latest : h.last? = some (decided, change) ↔ h.Latest decided change := by
  have hle : ∀ i : Instant, compare i decided ≠ .gt ↔ i.millis ≤ decided.millis := by
    intro i
    change compare i.millis decided.millis ≠ .gt ↔ _
    exact compare_le_iff_le
  rw [SortedMap.last?_eq_some_iff]
  constructor
  · rintro ⟨hfound, habove⟩
    exact ⟨hfound, fun i other hother => (hle i).1 (habove i other hother)⟩
  · rintro ⟨hfound, hlast⟩
    exact ⟨hfound, fun i other hother => (hle i).2 (hlast i other hother)⟩

/-- Histories with the same latest change, if any, end alike. -/
theorem last?_congr (hsame : ∀ decided change, h.Latest decided change ↔ h'.Latest decided change) :
    h.last? = h'.last? := by
  refine Option.ext fun e => ?_
  rw [← Prod.eta e, last?_eq_some_iff_latest, last?_eq_some_iff_latest]
  exact hsame e.1 e.2

theorem shortfall?_congr (hlast : h.last? = h'.last?) :
    shortfall? threshold h current trueRate = shortfall? threshold h' current trueRate := by
  rw [shortfall?, shortfall?, hlast]

/-- The tests of the scaler, one after the other, are those of falling short. -/
theorem isSome_shortfall?_of_last (hlast : h.last? = some (decided, change)) :
    (shortfall? threshold h current trueRate).isSome = true ↔
      change.FellShort threshold current trueRate := by
  simp only [shortfall?, hlast]
  by_cases hguard : (!change.isScaleUp || change.target != current || change.current == 0) = true
  · -- Each part of the guard excludes one part of falling short.
    rw [if_pos hguard]
    refine iff_of_false Bool.false_ne_true fun hshort => ?_
    rw [hshort.up, bne_eq_false_iff_eq.2 hshort.present,
      beq_eq_false_iff_ne.2 hshort.positive.ne'] at hguard
    cases hguard
  · rw [if_neg hguard]
    simp only [Bool.or_eq_true, Bool.not_eq_true', bne_iff_ne, beq_iff_eq, not_or,
      Bool.not_eq_false, not_not] at hguard
    rcases hguard with ⟨⟨hup, hpresent⟩, hpositive⟩
    cases hrate : change.readings.get? .trueProcessingRate with
    | none =>
        refine iff_of_false Bool.false_ne_true fun hshort => ?_
        rcases hshort.short with ⟨rate, hfound, _⟩
        rw [hrate] at hfound
        cases hfound
    | some rate =>
        -- With the rate it began at, what remains are the two tests of the gains.
        dsimp only
        by_cases hexpected : (gains change rate.average trueRate).1 ≤ 0.0
        · rw [if_pos hexpected]
          refine iff_of_false Bool.false_ne_true fun hshort => ?_
          rcases hshort.short with ⟨_, hfound, hpromised, _⟩
          rw [hrate, Option.some.injEq] at hfound
          exact hpromised (hfound ▸ hexpected)
        · rw [if_neg hexpected]
          by_cases hpart : (gains change rate.average trueRate).2 /
              (gains change rate.average trueRate).1 ≥ threshold
          · rw [if_pos hpart]
            refine iff_of_false Bool.false_ne_true fun hshort => ?_
            rcases hshort.short with ⟨_, hfound, _, hless⟩
            rw [hrate, Option.some.injEq] at hfound
            exact hless (hfound ▸ hpart)
          · rw [if_neg hpart]
            exact iff_of_true rfl ⟨hup, hpresent, Nat.pos_of_ne_zero hpositive, rate, hrate,
              hexpected, hpart⟩

/-- A history refuses a scale-up exactly if its latest change fell short. -/
theorem isSome_shortfall?_iff :
    (shortfall? threshold h current trueRate).isSome = true ↔
      h.Refuses threshold current trueRate := by
  simp only [VertexHistory.Refuses, ← last?_eq_some_iff_latest]
  cases hlast : h.last? with
  | none =>
      simp only [shortfall?, hlast]
      refine iff_of_false Bool.false_ne_true ?_
      rintro ⟨_, _, hnone, _⟩
      cases hnone
  | some e =>
      rw [isSome_shortfall?_of_last hlast]
      constructor
      · exact fun hshort => ⟨_, _, rfl, hshort⟩
      · rintro ⟨_, _, ⟨⟩, hshort⟩
        exact hshort

end History

/-! ### Demand for more -/

/-- A decision follows a target, or the target is refused and an event says so. -/
def VertexDecision.FollowsUnless (d : VertexDecision) (target : Nat) (refused : Prop) : Prop :=
  (refused ∧ d.target = none ∧ d.event.isSome = true) ∨
    (¬refused ∧ d.target = some target ∧ d.event = none)

namespace Demand

/-- A demand above the present parallelism is followed unless the history refuses
    it, and either way the hold of the vertex is over. -/
theorem decide_of_gt {current target : Nat} (hup : current < target) (trueRate : Float)
    (ctx : JobContext) (r : VertexRequest) (pending : PendingScaleDowns) :
    ((needs current target trueRate).decide ctx r pending).pending = pending.release r.vertex ∧
      ((needs current target trueRate).decide ctx r pending).FollowsUnless target
        (r.history.Refuses ctx.config.vertex.ineffectiveThreshold current trueRate) := by
  have hne : ¬(target == current) = true := by
    rw [beq_iff_eq]
    omega
  rw [← isSome_shortfall?_iff]
  simp only [decide, hne, hup, if_true, Bool.false_eq_true, if_false]
  -- The hold is released in both cases, so only target and event depend on the history.
  cases shortfall? ctx.config.vertex.ineffectiveThreshold r.history current trueRate with
  | none => exact ⟨rfl, Or.inr ⟨Bool.false_ne_true, rfl, rfl⟩⟩
  | some found => exact ⟨rfl, Or.inl ⟨rfl, rfl, rfl⟩⟩

end Demand

/-! ### Other histories -/

/-- The request, if the history of the vertex were another one. -/
def VertexRequest.withHistory (r : VertexRequest) (h : VertexHistory) : VertexRequest :=
  { r with history := h }

namespace ScalerCall

/-- The call, if the history of the vertex were another one. -/
def withHistory (c : ScalerCall) (h : VertexHistory) : ScalerCall :=
  { c with request := c.request.withHistory h }

/-- The load of a call needs `target` instances, which are more than the `current`
    ones. -/
def AsksMore (c : ScalerCall) (current target : Nat) (trueRate : Float) : Prop :=
  demandOf c.ctx.config c.request = .ok (.needs current target trueRate) ∧ current < target

/-- The demand is computed without a look at the history. -/
theorem decide_eq_map (c : ScalerCall) (h : VertexHistory) (pending : PendingScaleDowns) :
    (c.withHistory h).decide pending =
      (demandOf c.ctx.config c.request).map fun demand =>
        demand.decide c.ctx (c.request.withHistory h) pending := by
  -- Inputs, readings, restart time and bounds are all that a demand is made of.
  have hdemand : demandOf c.ctx.config (c.request.withHistory h) =
      demandOf c.ctx.config c.request := rfl
  change (demandOf c.ctx.config (c.request.withHistory h) >>= fun demand =>
    pure (demand.decide c.ctx (c.request.withHistory h) pending)) = _
  rw [hdemand]
  cases demandOf c.ctx.config c.request with
  | error err => rfl
  | ok demand => rfl

section Call

variable {c : ScalerCall} (pending : PendingScaleDowns) (h h' : VertexHistory)

/-- What the load asks for beyond the present parallelism is refused or followed,
    and either way the hold of the vertex is over. -/
theorem decide_of_asksMore {current target : Nat} {trueRate : Float}
    (hmore : c.AsksMore current target trueRate) :
    ∃ d, (c.withHistory h).decide pending = .ok d ∧
      d.pending = pending.release c.request.vertex ∧
      d.FollowsUnless target
        (h.Refuses c.ctx.config.vertex.ineffectiveThreshold current trueRate) := by
  rcases hmore with ⟨hdemand, hup⟩
  rw [decide_eq_map, hdemand]
  exact ⟨_, rfl, Demand.decide_of_gt hup trueRate c.ctx (c.request.withHistory h) pending⟩

/-- A load that does not ask for more is decided without the history, and so is
    a call that fails. -/
theorem decide_eq_of_not_asksMore
    (hmore : ∀ current target trueRate, ¬c.AsksMore current target trueRate) :
    (c.withHistory h).decide pending = (c.withHistory h').decide pending := by
  rw [decide_eq_map, decide_eq_map]
  cases hdemand : demandOf c.ctx.config c.request with
  | error err => rfl
  | ok demand =>
      refine congrArg Except.ok ?_
      cases demand with
      | unusable => rfl
      | needs current target trueRate =>
          have hle : target ≤ current := Nat.le_of_not_lt fun hup => hmore _ _ _ ⟨hdemand, hup⟩
          dsimp only
          rcases hle.lt_or_eq with hdown | heq
          · -- A scale-down asks the hold of the vertex and nothing else.
            rw [Demand.decide_of_lt hdown, Demand.decide_of_lt hdown]
            rfl
          · have hsame : (target == current) = true := beq_iff_eq.2 heq
            simp only [Demand.decide, hsame, if_true]
            rfl

variable {h h'}

/-- Histories with the same latest change, if any, lead to the same decision. -/
theorem decide_eq_of_latest
    (hsame : ∀ decided change, h.Latest decided change ↔ h'.Latest decided change) :
    (c.withHistory h).decide pending = (c.withHistory h').decide pending := by
  rw [decide_eq_map, decide_eq_map]
  refine congrArg (fun f => Except.map f (demandOf c.ctx.config c.request)) ?_
  funext demand
  cases demand with
  | unusable => rfl
  | needs current target trueRate =>
      have hshortfall : shortfall? c.ctx.config.vertex.ineffectiveThreshold
          (c.request.withHistory h).history current trueRate =
          shortfall? c.ctx.config.vertex.ineffectiveThreshold
          (c.request.withHistory h').history current trueRate :=
        shortfall?_congr (last?_congr hsame)
      simp only [Demand.decide, hshortfall]
      rfl

/-- A call leaves the same holds whatever history it is shown. -/
theorem leaves_withHistory (h h' : VertexHistory) :
    (c.withHistory h).leaves pending = (c.withHistory h').leaves pending := by
  by_cases hmore : ∃ current target trueRate, c.AsksMore current target trueRate
  · -- The hold of the vertex is over, and that is all.
    rcases hmore with ⟨current, target, trueRate, hmore⟩
    rcases decide_of_asksMore pending h hmore with ⟨d, hd, hpending, _⟩
    rcases decide_of_asksMore pending h' hmore with ⟨d', hd', hpending', _⟩
    simp only [leaves, hd, hd', hpending, hpending']
  · have hnot : ∀ current target trueRate, ¬c.AsksMore current target trueRate :=
      fun current target trueRate hasks => hmore ⟨current, target, trueRate, hasks⟩
    rw [leaves, leaves, decide_eq_of_not_asksMore pending h h' hnot]

end Call

/-- Two calls that differ in nothing but the history of their vertex leave the
    same holds, also where they fail. Their decisions are the same unless the
    load asks for more instances than there are, and also then if the two
    histories have the same latest change. Otherwise each of them follows the
    load unless its own history refuses that, and a history refuses exactly if
    its latest change is a scale-up to the present parallelism that fell short. -/
theorem decide_withHistory (c : ScalerCall) (pending : PendingScaleDowns) (h h' : VertexHistory) :
    (c.withHistory h).leaves pending = (c.withHistory h').leaves pending ∧
      ((∀ current target trueRate, ¬c.AsksMore current target trueRate) →
        (c.withHistory h).decide pending = (c.withHistory h').decide pending) ∧
      ((∀ decided change, h.Latest decided change ↔ h'.Latest decided change) →
        (c.withHistory h).decide pending = (c.withHistory h').decide pending) ∧
      ∀ current target trueRate, c.AsksMore current target trueRate →
        ∃ d d', (c.withHistory h).decide pending = .ok d ∧
          (c.withHistory h').decide pending = .ok d' ∧ d.pending = d'.pending ∧
          d.FollowsUnless target
            (h.Refuses c.ctx.config.vertex.ineffectiveThreshold current trueRate) ∧
          d'.FollowsUnless target
            (h'.Refuses c.ctx.config.vertex.ineffectiveThreshold current trueRate) := by
  refine ⟨leaves_withHistory pending h h', decide_eq_of_not_asksMore pending h h',
    decide_eq_of_latest pending, ?_⟩
  intro current target trueRate hmore
  rcases decide_of_asksMore pending h hmore with ⟨d, hd, hpending, hfollows⟩
  rcases decide_of_asksMore pending h' hmore with ⟨d', hd', hpending', hfollows'⟩
  exact ⟨d, d', hd, hd', hpending.trans hpending'.symm, hfollows, hfollows'⟩

end ScalerCall

namespace Doubled

/-- Four instances are measured, with load for more. -/
def call (trueRate : Float) : ScalerCall where
  ctx := { id := "job", config := {} }
  request :=
    { vertex := "map"
      readings := SortedMap.ofList [(.parallelism, Reading.point 4.0),
        (.trueProcessingRate, Reading.point trueRate), (.targetDataRate, Reading.point 300.0)]
      now := ⟨600000⟩ }

/-- The vertex was doubled to four instances, from a rate of one hundred. -/
def change : Change where
  current := 2
  target := 4
  readings := SortedMap.ofList [(.trueProcessingRate, Reading.point 100.0)]

def history : VertexHistory := SortedMap.ofList [(⟨0⟩, change)]

theorem asksMore : (call 102.0).AsksMore 4 17 102.0 := by
  refine ⟨?_, by decide⟩
  decide +kernel

/-- Two more of the hundred that were promised are too few. -/
theorem refuses_history :
    history.Refuses (call 102.0).ctx.config.vertex.ineffectiveThreshold 4 102.0 := by
  rw [← isSome_shortfall?_iff]
  decide

theorem not_refuses_empty {threshold trueRate : Float} {current : Nat} :
    ¬(∅ : VertexHistory).Refuses threshold current trueRate := by
  rintro ⟨_, _, hlatest, _⟩
  cases hlatest.found

/-- So the vertex is not scaled up again. Without its history it is. -/
theorem decide_withHistory_refused :
    (call 102.0).AsksMore 4 17 102.0 ∧
      ∃ d d', ((call 102.0).withHistory history).decide {} = .ok d ∧
        ((call 102.0).withHistory ∅).decide {} = .ok d' ∧ d.pending = d'.pending ∧
        d.target = none ∧ d'.target = some 17 := by
  rcases (ScalerCall.decide_withHistory (call 102.0) {} history ∅).2.2.2 _ _ _ asksMore with
    ⟨d, d', hd, hd', hpending, hfollows, hfollows'⟩
  refine ⟨asksMore, d, d', hd, hd', hpending, ?_, ?_⟩
  · rcases hfollows with ⟨_, htarget, _⟩ | ⟨hnot, _⟩
    · exact htarget
    · exact absurd refuses_history hnot
  · rcases hfollows' with ⟨hrefuses, _⟩ | ⟨_, htarget, _⟩
    · exact absurd hrefuses not_refuses_empty
    · exact htarget

end Doubled

/-! ### Many calls -/

/-- Calls that were shown other histories. By induction on the calls: each of
    them hands the same holds to the next. -/
theorem foldl_leaves_withHistories {calls calls' : List ScalerCall}
    (hcalls : List.Forall₂ (fun c c' => ∃ h, c' = c.withHistory h) calls calls') :
    ∀ pending : PendingScaleDowns,
      calls'.foldl (fun pending c => c.leaves pending) pending =
        calls.foldl (fun pending c => c.leaves pending) pending := by
  induction hcalls with
  | nil => exact fun _ => rfl
  | @cons c c' _ _ hfirst _ ih =>
      intro pending
      rcases hfirst with ⟨h, rfl⟩
      have hleaves : (c.withHistory h).leaves pending = c.leaves pending :=
        ScalerCall.leaves_withHistory pending h c.request.history
      rw [List.foldl_cons, List.foldl_cons, hleaves]
      exact ih _

/-- Whatever histories some calls were shown, they leave the same holds, and a
    call after them that does not ask for more decides the same. So scale-downs
    come when they come, and go as far as they go, without the histories. -/
theorem decide_after_withHistories {calls calls' : List ScalerCall}
    (hcalls : List.Forall₂ (fun c c' => ∃ h, c' = c.withHistory h) calls calls')
    (c : ScalerCall) (h h' : VertexHistory)
    (hmore : ∀ current target trueRate, ¬c.AsksMore current target trueRate) :
    holdsAfter calls' = holdsAfter calls ∧
      (c.withHistory h').decide (holdsAfter calls') =
        (c.withHistory h).decide (holdsAfter calls) := by
  have hholds : holdsAfter calls' = holdsAfter calls := foldl_leaves_withHistories hcalls {}
  refine ⟨hholds, ?_⟩
  rw [hholds]
  exact ScalerCall.decide_eq_of_not_asksMore _ h' h hmore

end Rescale
