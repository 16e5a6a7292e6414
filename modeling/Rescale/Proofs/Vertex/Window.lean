import Rescale.Proofs.Double.Finite
import Rescale.SortedMap.Lemmas
import Rescale.Vertex.Scaler

/-!
# The Window of a Scale-Down

How long and how deep the rate scaler holds a scale-down back, read off the whole
list of its calls.

The scaler keeps one hold per vertex: the first proposal opens it, later ones can
only raise it, and demand that is not below the present parallelism ends it. What
a hold stands for can be said without any of these steps. A call whose readings
are usable finds a current and a target parallelism, and the window of a vertex
is the longest run of findings at the end of the list whose targets are all below
their current parallelisms. The hold began with the first of them, and its peak
is the largest of their targets.

So a scale-down is followed once the window of the vertex is as old as the
interval of the call, and at the largest target in the window. Calls for other
vertices, calls that cannot be used and clocks that run backwards make no
difference to this.

## Main definitions

* `Finding`: What a usable call finds.
* `UsableRate`: A rate that a demand can be computed from.
* `ScalerCall`: One call of the rate scaler.
* `ScalerCall.finding?`: What a call finds, if it can be used.
* `findings`: What calls find for one vertex.
* `window`: The scale-downs at the end of a list of findings.
* `holdsAfter`: The holds that calls leave behind, from none at first.
* `Hold.ofWindow`: The hold that a window stands for.
* `Finding.act`: What a finding makes of the hold of its vertex.

## Theorems

* `ScalerCall.decide_cases`: The decision of a call, by what it finds.
* `ScalerCall.get?_leaves`: A call acts on the hold of its vertex and on no other.
* `foldl_act`: Findings, one by one, leave the hold of their window.
* `get?_holdsAfter`: The hold of a vertex is that of its window.
* `decide_after_calls`: The decision of a call, from the list of all calls.
-/

namespace Rescale

namespace Double

/-- Doubles that are numbers can be compared one way or the other. -/
theorem lt_iff_not_le {x y : Float} (hx : x.isFinite = true) (hy : y.isFinite = true) :
    x < y ↔ ¬y ≤ x := by
  rcases isFinite_iff_level.1 hx with ⟨a, ha, _⟩
  rcases isFinite_iff_level.1 hy with ⟨b, hb, _⟩
  simp only [lt_iff, le_iff, ha, hb, Option.some.injEq, exists_and_left, exists_eq_left']
  exact Int.not_le.symm

end Double

/-! ### Findings -/

/-- What a usable call finds: the present parallelism of the vertex, and the one
    that its load needs. -/
structure Finding where
  now : Instant
  current : Nat
  target : Nat
  deriving DecidableEq, Repr

/-- Whether a scale-down was found. -/
def Finding.isScaleDown (f : Finding) : Bool := f.target < f.current

/-- A rate that a demand can be computed from. -/
def UsableRate (rate : Float) : Prop := rate.isFinite = true ∧ 0.0 < rate

instance (rate : Float) : Decidable (UsableRate rate) := inferInstanceAs (Decidable (_ ∧ _))

theorem usableRate_iff {rate : Float} :
    UsableRate rate ↔ ¬(!rate.isFinite || decide (rate ≤ 0.0)) = true := by
  have hzero : (0.0 : Float).isFinite = true := by decide
  simp only [UsableRate, Bool.or_eq_true, Bool.not_eq_true', decide_eq_true_iff, not_or,
    Bool.not_eq_false]
  exact and_congr_right fun hfinite => Double.lt_iff_not_le hzero hfinite

/-- One call of the rate scaler. -/
structure ScalerCall where
  ctx : JobContext
  request : VertexRequest

namespace ScalerCall

/-- The decision of a call, with the holds at that time. -/
def decide (c : ScalerCall) (pending : PendingScaleDowns) : Except DecisionError VertexDecision :=
  Scaler.rate.decide c.ctx c.request pending

/-- The holds after a call. One that fails returns none, so they stay. -/
def leaves (c : ScalerCall) (pending : PendingScaleDowns) : PendingScaleDowns :=
  match c.decide pending with
  | .ok decision => decision.pending
  | .error _ => pending

/-- What a call finds, if all readings are there and the true rate is usable. -/
def finding? (c : ScalerCall) : Option Finding :=
  let r := c.request
  match r.readings.get? .parallelism, r.readings.get? .trueProcessingRate,
      r.readings.get? .targetDataRate with
  | some instances, some rate, some load =>
    let current := parallelismOf instances.current
    let needed := boundedTarget c.ctx.config r current rate.average load.average
    if UsableRate rate.average then some ⟨r.now, current, alignedTarget c.ctx.config r needed⟩
    else none
  | _, _, _ => none

/-- A call finds something and decides by it, or it finds nothing and leaves
    everything as it is. -/
theorem decide_cases (c : ScalerCall) (pending : PendingScaleDowns) :
    (c.finding? = none ∧
      ((∃ m, c.decide pending = .error (.missingMetric c.request.vertex m)) ∨
        c.decide pending = .ok ⟨none, pending, none⟩)) ∨
    ∃ f trueRate, c.finding? = some f ∧ f.now = c.request.now ∧ c.decide pending =
      .ok ((Demand.needs f.current f.target trueRate).decide c.ctx c.request pending) := by
  rw [finding?, decide, Scaler.decide, demandOf, currentParallelism, requireReading,
    requireReading, requireReading]
  -- The first reading that is missing settles how the call fails.
  cases hinstances : c.request.readings.get? .parallelism with
  | none => exact Or.inl ⟨rfl, Or.inl ⟨_, rfl⟩⟩
  | some instances =>
  cases hrate : c.request.readings.get? .trueProcessingRate with
  | none => exact Or.inl ⟨rfl, Or.inl ⟨_, rfl⟩⟩
  | some rate =>
  cases hload : c.request.readings.get? .targetDataRate with
  | none => exact Or.inl ⟨rfl, Or.inl ⟨_, rfl⟩⟩
  | some load =>
      by_cases husable : UsableRate rate.average
      · refine Or.inr ⟨_, rate.average, if_pos husable, rfl, ?_⟩
        rw [usableRate_iff] at husable
        simp only [bind, Except.bind, pure, Except.pure, husable]
        rfl
      · refine Or.inl ⟨if_neg husable, Or.inr ?_⟩
        rw [usableRate_iff, not_not] at husable
        simp only [bind, Except.bind, pure, Except.pure, husable, if_true]
        rfl

end ScalerCall

/-! ### Windows -/

/-- What calls find for one vertex. -/
def findings (v : VertexId) (calls : List ScalerCall) : List Finding :=
  (calls.filter fun c => c.request.vertex == v).filterMap ScalerCall.finding?

theorem findings_append (v : VertexId) (before after : List ScalerCall) :
    findings v (before ++ after) = findings v before ++ findings v after := by
  rw [findings, List.filter_append, List.filterMap_append]
  rfl

theorem findings_self (c : ScalerCall) :
    findings c.request.vertex [c] = c.finding?.toList := by
  rw [findings, List.filter_singleton, beq_self_eq_true, cond_true]
  cases h : c.finding? with
  | none => rw [List.filterMap_cons_none h, List.filterMap_nil, Option.toList_none]
  | some f => rw [List.filterMap_cons_some h, List.filterMap_nil, Option.toList_some]

theorem findings_of_ne {c : ScalerCall} {v : VertexId} (h : v ≠ c.request.vertex) :
    findings v [c] = [] := by
  rw [findings, List.filter_singleton, beq_eq_false_iff_ne.2 h.symm, cond_false,
    List.filterMap_nil]

/-- The scale-downs at the end of a list of findings. -/
def window (found : List Finding) : List Finding := found.rtakeWhile Finding.isScaleDown

/-- The holds that calls leave behind, from none at first. -/
def holdsAfter (calls : List ScalerCall) : PendingScaleDowns :=
  calls.foldl (fun pending c => c.leaves pending) {}

/-- The hold that a window stands for. -/
def Hold.ofWindow (w : List Finding) : Option Hold :=
  w.head?.bind fun first => (w.map Finding.target).max?.map fun peak => ⟨first.now, peak⟩

/-- The hold of a vertex after one more scale-down was found. -/
def Hold.raised (hold : Option Hold) (f : Finding) : Hold :=
  match hold with
  | some hold => { hold with peak := max hold.peak f.target }
  | none => ⟨f.now, f.target⟩

/-- What a finding makes of the hold of its vertex. -/
def Finding.act (hold : Option Hold) (f : Finding) : Option Hold :=
  if f.isScaleDown then some (Hold.raised hold f) else none

theorem Hold.ofWindow_concat (w : List Finding) (f : Finding) :
    Hold.ofWindow (w ++ [f]) = some (Hold.raised (Hold.ofWindow w) f) := by
  cases w with
  | nil => rfl
  | cons first rest =>
      simp only [ofWindow, List.cons_append, List.head?_cons, List.map_cons, List.map_append,
        List.map_nil, List.max?_cons', List.foldl_append, List.foldl_cons, List.foldl_nil,
        Option.bind_some, Option.map_some]
      rfl

/-- By induction on the findings, from the last one: a scale-down comes to the
    window, and anything else empties it. -/
theorem foldl_act (found : List Finding) :
    found.foldl Finding.act none = Hold.ofWindow (window found) := by
  induction found using List.reverseRecOn with
  | nil => rfl
  | append_singleton found f ih =>
      rw [List.foldl_append, List.foldl_cons, List.foldl_nil, ih, Finding.act, window, window]
      by_cases hdown : f.isScaleDown = true
      · rw [if_pos hdown, List.rtakeWhile_concat_pos _ _ _ hdown, Hold.ofWindow_concat]
      · rw [if_neg hdown, List.rtakeWhile_concat_neg _ _ _ hdown]
        rfl

/-! ### Holds -/

namespace PendingScaleDowns

theorem proposed_eq (pending : PendingScaleDowns) (v : VertexId) (f : Finding) :
    pending.proposed v f.now f.target = Hold.raised (pending.get? v) f := by
  rw [proposed, get?]
  cases pending.holds.get? v with
  | none => rfl
  | some hold => rfl

theorem get?_propose (pending : PendingScaleDowns) (v w : VertexId) (now : Instant) (n : Nat) :
    (pending.propose v now n).get? w =
      if w = v then some (pending.proposed v now n) else pending.get? w := by
  rw [get?, propose]
  by_cases h : w = v
  · rw [h, SortedMap.get?_insert_self, if_pos rfl]
  · rw [SortedMap.get?_insert_of_ne _ _ h, if_neg h, get?]

theorem get?_release (pending : PendingScaleDowns) (v w : VertexId) :
    (pending.release v).get? w = if w = v then none else pending.get? w := by
  rw [get?, release, SortedMap.get?_erase, get?]
  by_cases h : w = v
  · rw [h, if_pos Std.ReflOrd.compare_self, if_pos rfl]
  · rw [if_neg (mt Std.LawfulEqOrd.eq_of_compare h), if_neg h]

end PendingScaleDowns

namespace Demand

variable {current target : Nat}

/-- A demand below the present parallelism raises the hold and asks it. -/
theorem decide_of_lt (h : target < current) (trueRate : Float) (ctx : JobContext)
    (r : VertexRequest) (pending : PendingScaleDowns) :
    (needs current target trueRate).decide ctx r pending =
      ⟨(pending.proposed r.vertex r.now target).allowed? r.now
          ctx.config.vertex.scaleDownInterval current,
        pending.propose r.vertex r.now target, none⟩ := by
  rw [decide, if_neg (by rw [beq_iff_eq]; omega), if_neg (by omega)]

/-- Any other demand ends the hold and leads to nothing below the present
    parallelism. -/
theorem decide_of_le (h : current ≤ target) (trueRate : Float) (ctx : JobContext)
    (r : VertexRequest) (pending : PendingScaleDowns) :
    ((needs current target trueRate).decide ctx r pending).pending = pending.release r.vertex ∧
      ∀ n, ((needs current target trueRate).decide ctx r pending).target = some n →
        current ≤ n := by
  rw [decide]
  by_cases heq : target = current
  · rw [if_pos (beq_iff_eq.2 heq)]
    exact ⟨rfl, nofun⟩
  · rw [if_neg (mt beq_iff_eq.1 heq), if_pos (by omega)]
    -- A scale-up that is refused ends the hold like one that is followed.
    cases shortfall? ctx.config.vertex.ineffectiveThreshold r.history current trueRate with
    | some gains => exact ⟨rfl, nofun⟩
    | none =>
        refine ⟨rfl, ?_⟩
        rintro n ⟨⟩
        exact h

end Demand

namespace ScalerCall

variable {c : ScalerCall} {f : Finding}

theorem leaves_of_nothing (h : c.finding? = none) (pending : PendingScaleDowns) :
    c.leaves pending = pending := by
  rw [leaves]
  rcases c.decide_cases pending with ⟨_, (⟨m, hdecide⟩ | hdecide)⟩ | ⟨f, _, hfound, _⟩
  · rw [hdecide]
  · rw [hdecide]
  · rw [h] at hfound
    cases hfound

theorem leaves_of_finding (h : c.finding? = some f) (pending : PendingScaleDowns) :
    c.leaves pending =
      if f.isScaleDown then pending.propose c.request.vertex f.now f.target
      else pending.release c.request.vertex := by
  rw [leaves]
  rcases c.decide_cases pending with ⟨hnone, _⟩ | ⟨g, rate, hfound, hnow, hdecide⟩
  · rw [h] at hnone
    cases hnone
  · rw [h] at hfound
    cases hfound
    rw [hdecide, hnow]
    simp only [Finding.isScaleDown, decide_eq_true_iff]
    split
    · next hlt => rw [Demand.decide_of_lt hlt]
    · next hle => exact (Demand.decide_of_le (Nat.not_lt.1 hle) rate c.ctx c.request pending).1

/-- A call acts on the hold of its vertex by what it finds, and on no other. -/
theorem get?_leaves (c : ScalerCall) (pending : PendingScaleDowns) (v : VertexId) :
    (c.leaves pending).get? v = (findings v [c]).foldl Finding.act (pending.get? v) := by
  cases hfound : c.finding? with
  | none =>
      -- Nothing is found for any vertex.
      have hfindings : findings v [c] = [] := by
        by_cases hv : v = c.request.vertex
        · rw [hv, findings_self, hfound, Option.toList_none]
        · exact findings_of_ne hv
      rw [leaves_of_nothing hfound, hfindings, List.foldl_nil]
  | some f =>
      rw [leaves_of_finding hfound]
      by_cases hv : v = c.request.vertex
      · rw [hv, findings_self, hfound, Option.toList_some, List.foldl_cons, List.foldl_nil,
          Finding.act]
        split
        · rw [PendingScaleDowns.get?_propose, if_pos rfl, PendingScaleDowns.proposed_eq]
        · rw [PendingScaleDowns.get?_release, if_pos rfl]
      · rw [findings_of_ne hv, List.foldl_nil]
        split
        · rw [PendingScaleDowns.get?_propose, if_neg hv]
        · rw [PendingScaleDowns.get?_release, if_neg hv]

end ScalerCall

/-- The hold of a vertex is that of its window. By induction on the calls, from
    the last one. -/
theorem get?_holdsAfter (calls : List ScalerCall) (v : VertexId) :
    (holdsAfter calls).get? v = Hold.ofWindow (window (findings v calls)) := by
  -- What a call makes of a hold is known one finding at a time.
  rw [← foldl_act]
  induction calls using List.reverseRecOn with
  | nil => rfl
  | append_singleton calls c ih =>
      rw [findings_append, List.foldl_append, ← ih, ← ScalerCall.get?_leaves, holdsAfter,
        List.foldl_append]
      rfl

/-! ### Decisions -/

/-- A hold allows its peak once it is old enough, if that is a scale-down. A hold
    from later than now has no age. -/
theorem Hold.allowed?_eq (hold : Hold) (now : Instant) (interval : Span) (current : Nat) :
    hold.allowed? now interval current =
      if (interval.millis : Int) ≤ max 0 (now.millis - hold.since.millis) ∧ hold.peak < current
      then some hold.peak else none := by
  rw [allowed?, Instant.since]
  by_cases hage : (interval.millis : Int) ≤ max 0 (now.millis - hold.since.millis)
  · rw [if_neg (by simp only; omega)]
    by_cases hpeak : hold.peak < current
    · rw [if_neg (by omega), if_pos ⟨hage, hpeak⟩]
    · rw [if_pos (by omega), if_neg fun h => hpeak h.2]
  · rw [if_pos (by simp only; omega), if_neg fun h => hage h.1]

/-- After any calls that share their holds, none at first, look at one more
    call. Demand below the present parallelism is followed at the largest target
    in the window of the vertex, once that is as old as the interval of the call.
    Any other demand leads to nothing below the present parallelism and ends the
    hold. A call that cannot be used fails or decides nothing, and it leaves all
    holds as they are. -/
theorem decide_after_calls (before : List ScalerCall) (c : ScalerCall) :
    (∀ f, c.finding? = some f → f.target < f.current →
      ∃ first peak d, (window (findings c.request.vertex (before ++ [c]))).head? = some first ∧
        ((window (findings c.request.vertex (before ++ [c]))).map Finding.target).max? = some peak ∧
        c.decide (holdsAfter before) = .ok d ∧
        d.target =
          if (c.ctx.config.vertex.scaleDownInterval.millis : Int) ≤
              max 0 (f.now.millis - first.now.millis) ∧ peak < f.current
          then some peak else none) ∧
    (∀ f, c.finding? = some f → f.current ≤ f.target →
      ∃ d, c.decide (holdsAfter before) = .ok d ∧ (∀ n, d.target = some n → f.current ≤ n) ∧
        d.pending.get? c.request.vertex = none) ∧
    (c.finding? = none →
      ((∃ m, c.decide (holdsAfter before) = .error (.missingMetric c.request.vertex m)) ∨
        c.decide (holdsAfter before) = .ok ⟨none, holdsAfter before, none⟩) ∧
      holdsAfter (before ++ [c]) = holdsAfter before) := by
  rcases c.decide_cases (holdsAfter before) with
    ⟨hnone, hkeeps⟩ | ⟨f, rate, hfound, hnow, hdecide⟩
  · rw [hnone]
    refine ⟨nofun, nofun, fun _ => ⟨hkeeps, ?_⟩⟩
    rw [holdsAfter, List.foldl_append, List.foldl_cons, List.foldl_nil]
    exact ScalerCall.leaves_of_nothing hnone _
  · rw [hfound]
    refine ⟨?_, ?_, nofun⟩
    · rintro _ ⟨⟩ hdown
      -- The hold that is asked is the one of the window with this call in it.
      have hhold : some ((holdsAfter before).proposed c.request.vertex f.now f.target) =
          Hold.ofWindow (window (findings c.request.vertex (before ++ [c]))) := by
        rw [← foldl_act, findings_append, findings_self, hfound, List.foldl_append, foldl_act,
          ← get?_holdsAfter, PendingScaleDowns.proposed_eq]
        exact (if_pos (decide_eq_true hdown)).symm
      rcases Option.bind_eq_some_iff.1 hhold.symm with ⟨first, hfirst, hmap⟩
      rcases Option.map_eq_some_iff.1 hmap with ⟨peak, hpeak, heq⟩
      refine ⟨first, peak, _, hfirst, hpeak, hdecide, ?_⟩
      rw [Demand.decide_of_lt hdown, ← hnow, ← heq, Hold.allowed?_eq]
    · rintro _ ⟨⟩ hle
      rcases Demand.decide_of_le hle rate c.ctx c.request (holdsAfter before) with
        ⟨hpending, htarget⟩
      refine ⟨_, hdecide, htarget, ?_⟩
      rw [hpending, PendingScaleDowns.get?_release, if_pos rfl]

/-! ### Pinned parallelisms -/

namespace Pinned

/-- Ten instances are measured some minutes after midnight, with options that
    leave `n` as the only parallelism. -/
def call (minute : Int) (trueRate : Float) (n : Nat) : ScalerCall where
  ctx := { id := "job", config := { vertex := { minParallelism := n, maxParallelism := n } } }
  request :=
    { vertex := "map"
      readings := SortedMap.ofList [(.parallelism, Reading.point 10.0),
        (.trueProcessingRate, Reading.point trueRate), (.targetDataRate, Reading.point 50.0)]
      now := ⟨minute * 60000⟩ }

theorem finding?_call (minute : Int) (trueRate : Float) (n : Nat) :
    (call minute trueRate n).finding? =
      if UsableRate trueRate then some ⟨⟨minute * 60000⟩, 10, n⟩ else none := by
  have hcurrent : parallelismOf 10.0 = 10 := by decide
  have hclamp : ∀ m, Bounds.clamp ⟨min n n, n⟩ m = n := by
    intro m
    change max (min n n) (min m n) = n
    omega
  change (if UsableRate trueRate then some (Finding.mk ⟨minute * 60000⟩ (parallelismOf 10.0)
    (Bounds.clamp ⟨min n n, n⟩ _)) else none) = _
  rw [hclamp, hcurrent]

theorem usable : UsableRate 100.0 := by decide

theorem not_usable : ¬UsableRate 0.0 := by decide

/-- A scale-down is proposed twice after something else, and one call cannot be
    used. -/
def before : List ScalerCall := [call 0 100.0 12, call 10 100.0 5, call 30 100.0 8, call 40 0.0 3]

/-- The window began after ten minutes, so it is old enough after eighty. The
    vertex goes down to the larger one of the two proposals before. -/
theorem decide_after_calls_pinned :
    (∃ d, (call 80 100.0 3).decide (holdsAfter before) = .ok d ∧ d.target = some 8) ∧
      (∃ d, (call 80 100.0 10).decide (holdsAfter before) = .ok d ∧
        d.pending.get? "map" = none) ∧
      holdsAfter (before ++ [call 80 0.0 3]) = holdsAfter before := by
  have hfindings : findings "map" (before ++ [call 80 100.0 3]) =
      [⟨⟨0 * 60000⟩, 10, 12⟩, ⟨⟨10 * 60000⟩, 10, 5⟩, ⟨⟨30 * 60000⟩, 10, 8⟩,
        ⟨⟨80 * 60000⟩, 10, 3⟩] := by
    change (before ++ [call 80 100.0 3]).filterMap ScalerCall.finding? = _
    simp only [before, List.cons_append, List.nil_append, List.filterMap_cons, finding?_call,
      usable, not_usable, if_true, if_false, List.filterMap_nil]
  refine ⟨?_, ?_, ?_⟩
  · have hfound := (finding?_call 80 100.0 3).trans (if_pos usable)
    rcases (decide_after_calls before (call 80 100.0 3)).1 _ hfound (by decide) with
      ⟨first, peak, d, hfirst, hpeak, hdecide, htarget⟩
    change (window (findings "map" _)).head? = _ at hfirst
    change ((window (findings "map" _)).map Finding.target).max? = _ at hpeak
    rw [hfindings] at hfirst hpeak
    cases hfirst
    cases hpeak
    exact ⟨d, hdecide, htarget⟩
  · have hfound := (finding?_call 80 100.0 10).trans (if_pos usable)
    rcases (decide_after_calls before (call 80 100.0 10)).2.1 _ hfound le_rfl with
      ⟨d, hdecide, _, hpending⟩
    exact ⟨d, hdecide, hpending⟩
  · have hfound := (finding?_call 80 0.0 3).trans (if_neg not_usable)
    exact ((decide_after_calls before (call 80 0.0 3)).2.2 hfound).2

end Pinned

end Rescale
