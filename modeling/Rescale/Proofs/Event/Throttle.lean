import Mathlib.Data.List.Induction
import Mathlib.Data.List.Pairwise
import Rescale.Event.Throttle
import Rescale.Lookup

/-!
# The Log as a Trace

Which events of a run are logged, told by what was logged before them.

A throttle remembers one reading for each key. What it is meant to do is a
statement about the whole past: an event is held back if any logged event like it
that carried an interval was too recent. The two agree because the clock does not
run backwards. Of the logged events of a key the last one is the nearest, so if
any of them is near enough then that one is. How near is near enough is up to the
event that asks, so the intervals of the earlier ones need not be remembered.

What the throttle remembers changes only when an event with an interval is
logged, and then only under its key. So the dropped events, those without an
interval and those with other keys can be left out of a run, and the rest of it
does not notice.

## Main definitions

* `Event.Alike`: Two events are repeats of each other.
* `Delivery`: An event and the reading of the clock when it is delivered.
* `Throttle.Entry`: A delivery with the line that it adds to the log.
* `Throttle.transcript`: The entries of a run.
* `Throttle.HeldBack`: An event repeats a logged one too soon.
* `Throttle.Recalls`: A throttle remembers the last entry that counts for a key.

## Theorems

* `Event.throttleKey_eq_iff`: Events have one key exactly if they are alike.
* `accept_cases`: What a delivery does.
* `last?_step`: What a delivery leaves to be remembered.
* `recalls_step`, `recalls_after`: Throttles remember the past of a run.
* `step_of_untraced`: What leaves no trace.
* `line_eq_none_iff`: What is held back is what adds no line.
* `transcript_filter`: Events that are not alike do not concern each other.
* `transcript_by_past`: The entries of a run, by the past of each.
-/

namespace Rescale

/-- Two events are alike if one can be a repeat of the other: they are about the
    same job, for the same reason, with the same key or else message. -/
def Event.Alike (e f : Event) : Prop :=
  e.job = f.job ∧ e.reason = f.reason ∧ e.key.getD e.message = f.key.getD f.message

instance (e f : Event) : Decidable (e.Alike f) :=
  inferInstanceAs (Decidable (_ ∧ _ ∧ _))

theorem Event.throttleKey_eq_iff {e f : Event} : e.throttleKey = f.throttleKey ↔ e.Alike f :=
  EventKey.mk.injEq .. ▸ Iff.rfl

/-- An event and the reading of the clock when it is delivered. -/
structure Delivery where
  event : Event
  time : Tick
  deriving DecidableEq

namespace Throttle

/-- A delivery and the line that it adds to the log, if any. -/
structure Entry extends Delivery where
  line : Option LogLine
  deriving DecidableEq

/-- The entry of a delivery. -/
def enter (t : Throttle) (d : Delivery) : Entry := { d with line := (t.log d.event d.time).1 }

/-- What is remembered after a delivery. -/
def step (t : Throttle) (d : Delivery) : Throttle := (t.log d.event d.time).2

/-- The entries of a run, one for each delivery. -/
def transcript (t : Throttle) : List Delivery → List Entry
  | [] => []
  | d :: ds => t.enter d :: transcript (t.step d) ds

/-- What is remembered after a run. -/
def after (t : Throttle) (ds : List Delivery) : Throttle := ds.foldl step t

/-- An event is held back by the past: it has an interval, and less than that ago
    an event like it was logged that also had one. -/
def HeldBack (past : List Entry) (d : Delivery) : Prop :=
  ∃ interval, d.event.interval = some interval ∧
    ∃ x ∈ past, x.line.isSome = true ∧ x.event.interval.isSome = true ∧ x.event.Alike d.event ∧
      d.time.nanos < x.time.nanos + interval.millis * 1000000

/-- Whether an entry counts for a key: it was logged under it, with an
    interval. -/
def Entry.counts (key : EventKey) (x : Entry) : Bool :=
  x.line.isSome && x.event.interval.isSome && x.event.throttleKey == key

theorem Entry.counts_iff {key : EventKey} {x : Entry} :
    x.counts key = true ↔
      x.line.isSome = true ∧ x.event.interval.isSome = true ∧ x.event.throttleKey = key := by
  rw [counts, Bool.and_eq_true, Bool.and_eq_true, beq_iff_eq, and_assoc]

/-- A throttle remembers a past: under each key the reading of the last entry
    that counts for it. -/
def Recalls (t : Throttle) (past : List Entry) : Prop :=
  ∀ key, t.last? key = (past.filter (Entry.counts key)).getLast?.map (·.time)

variable {t : Throttle} {d : Delivery}

/-! ### One delivery -/

/-- What is noted under a key is found there, and all else stays. -/
theorem last?_note (t : Throttle) (key key' : EventKey) (now : Tick) :
    (t.note key now).last? key' = if key' = key then some now else t.last? key' :=
  Lookup.lookup_replace key key' now t.logged

/-- What a delivery does. Without an interval an event passes and nothing is
    noted. With one it is dropped, if its key was logged too recently, and else it
    passes and is noted. -/
theorem accept_cases (t : Throttle) (e : Event) (now : Tick) :
    (e.interval = none ∧ t.accept e now = (true, t)) ∨
      ∃ interval, e.interval = some interval ∧
        ((∃ last, t.last? e.throttleKey = some last ∧
            now.nanos - last.nanos < interval.millis * 1000000 ∧ t.accept e now = (false, t)) ∨
          ((∀ last, t.last? e.throttleKey = some last →
              interval.millis * 1000000 ≤ now.nanos - last.nanos) ∧
            t.accept e now = (true, t.note e.throttleKey now))) := by
  unfold accept
  cases hinterval : e.interval with
  | none => exact Or.inl ⟨rfl, rfl⟩
  | some interval =>
      refine Or.inr ⟨interval, rfl, ?_⟩
      cases hlast : t.last? e.throttleKey with
      | none => exact Or.inr ⟨fun _ h => (Option.some_ne_none _ h.symm).elim, rfl⟩
      | some last =>
          by_cases hnear : now.nanos - last.nanos < interval.millis * 1000000
          · exact Or.inl ⟨last, rfl, hnear, if_pos hnear⟩
          · refine Or.inr ⟨fun last' h => ?_, if_neg hnear⟩
            rw [← Option.some.inj h]
            exact Nat.le_of_not_lt hnear

/-- A delivery adds the line of its event exactly if the event is admitted. -/
theorem line_enter (t : Throttle) (d : Delivery) :
    (t.enter d).line =
      if (t.accept d.event d.time).1 then
        some ⟨d.event.severity, d.event.job, d.event.reason, d.event.message⟩
      else none :=
  rfl

theorem step_eq (t : Throttle) (d : Delivery) : t.step d = (t.accept d.event d.time).2 := rfl

/-- A delivery leaves its reading under its key if its entry counts, and nothing
    else. -/
theorem last?_step (t : Throttle) (d : Delivery) (key : EventKey) :
    (t.step d).last? key =
      if (t.enter d).counts key = true then some d.time else t.last? key := by
  have hcounts : (t.enter d).counts key = ((t.enter d).line.isSome &&
      d.event.interval.isSome && d.event.throttleKey == key) := rfl
  rw [hcounts, line_enter, step_eq]
  rcases accept_cases t d.event d.time with
    ⟨hnone, heq⟩ | ⟨interval, hsome, ⟨_, _, _, heq⟩ | ⟨_, heq⟩⟩
  · rw [heq, hnone]
    rfl
  · rw [heq]
    rfl
  · rw [heq, hsome, last?_note]
    simp only [if_true, Option.isSome_some, Bool.true_and, beq_iff_eq, eq_comm (a := key)]

/-- Events that are dropped and events without an interval leave no trace. -/
theorem step_of_untraced (h : (t.enter d).line = none ∨ d.event.interval = none) :
    t.step d = t := by
  rw [line_enter] at h
  rw [step_eq]
  rcases accept_cases t d.event d.time with
    ⟨_, heq⟩ | ⟨interval, hsome, ⟨_, _, _, heq⟩ | ⟨_, heq⟩⟩
  · rw [heq]
  · rw [heq]
  · rw [heq, hsome] at h
    rcases h with h | h <;> cases h

/-- What becomes of an event only depends on what is remembered under its key. -/
theorem enter_congr {t' : Throttle}
    (h : t.last? d.event.throttleKey = t'.last? d.event.throttleKey) :
    t.enter d = t'.enter d := by
  have hadmit : (t.accept d.event d.time).1 = (t'.accept d.event d.time).1 := by
    unfold accept
    cases d.event.interval with
    | none => rfl
    | some interval =>
        simp only [h]
        cases t'.last? d.event.throttleKey with
        | none => rfl
        | some last => simp only [apply_ite Prod.fst]
  have hline : (t.enter d).line = (t'.enter d).line := by
    rw [line_enter, line_enter, hadmit]
  exact congrArg (Entry.mk d) hline

/-! ### What is held back -/

variable {past : List Entry}

/-- A delivery is remembered with the past. -/
theorem recalls_step (h : Recalls t past) (d : Delivery) :
    Recalls (t.step d) (past ++ [t.enter d]) := by
  intro key
  rw [last?_step, List.filter_append]
  by_cases hcounts : (t.enter d).counts key = true
  · rw [if_pos hcounts, List.filter_cons_of_pos hcounts, List.filter_nil, List.getLast?_concat]
    rfl
  · rw [if_neg hcounts, List.filter_cons_of_neg hcounts, List.filter_nil, List.append_nil, h key]

/-- What adds no line is what is held back by the past, if the past is not later
    than any of what follows it. -/
theorem line_eq_none_iff (h : Recalls t past)
    (hpast : past.Pairwise fun x y => x.time.nanos ≤ y.time.nanos)
    (hnow : ∀ x ∈ past, x.time.nanos ≤ d.time.nanos) :
    (t.enter d).line = none ↔ HeldBack past d := by
  have hlast := h d.event.throttleKey
  rw [line_enter]
  rcases accept_cases t d.event d.time with
    ⟨hnone, heq⟩ | ⟨interval, hsome, ⟨last, hfound, hnear, heq⟩ | ⟨hfar, heq⟩⟩
  · rw [heq]
    refine iff_of_false (Option.some_ne_none _) ?_
    rintro ⟨interval, hsome, -⟩
    rw [hnone] at hsome
    cases hsome
  · -- The entry of the reading that was found is the one that holds it back.
    rw [heq]
    refine iff_of_true rfl ⟨interval, hsome, ?_⟩
    rw [hfound] at hlast
    rcases Option.map_eq_some_iff.1 hlast.symm with ⟨x, hx, rfl⟩
    rcases List.mem_filter.1 (List.mem_of_getLast? hx) with ⟨hmem, hcounts⟩
    rcases Entry.counts_iff.1 hcounts with ⟨hlogged, hlimited, hkey⟩
    exact ⟨x, hmem, hlogged, hlimited, Event.throttleKey_eq_iff.1 hkey, by omega⟩
  · -- Any entry that could hold it back is at most as late as the last one.
    rw [heq]
    refine iff_of_false (Option.some_ne_none _) ?_
    rintro ⟨interval', hsome', x, hmem, hlogged, hlimited, halike, hnear⟩
    obtain rfl : interval = interval' := Option.some.inj (hsome.symm.trans hsome')
    have hcounts : x.counts d.event.throttleKey = true :=
      Entry.counts_iff.2 ⟨hlogged, hlimited, Event.throttleKey_eq_iff.2 halike⟩
    have hx := List.mem_filter.2 ⟨hmem, hcounts⟩
    have hne := List.ne_nil_of_mem hx
    rw [List.getLast?_eq_some_getLast hne, Option.map_some] at hlast
    have hle := (hpast.filter _).rel_getLast_of_rel_getLast_getLast hx (Nat.le_refl _)
    have hgap := hfar _ hlast
    have hold := hnow x hmem
    omega

/-! ### Runs -/

theorem transcript_append (t : Throttle) (ds ds' : List Delivery) :
    t.transcript (ds ++ ds') = t.transcript ds ++ (t.after ds).transcript ds' := by
  induction ds generalizing t with
  | nil => rfl
  | cons d ds ih =>
      rw [List.cons_append, transcript, transcript, ih, List.cons_append]
      rfl

/-- The entries of a run are its deliveries. -/
theorem toDelivery_transcript (t : Throttle) (ds : List Delivery) :
    (t.transcript ds).map Entry.toDelivery = ds := by
  induction ds generalizing t with
  | nil => rfl
  | cons d ds ih => rw [transcript, List.map_cons, ih]; rfl

/-- Where an entry stands, the run is cut in two. -/
theorem transcript_eq_append_iff {ds : List Delivery} {past rest : List Entry} {x : Entry} :
    t.transcript ds = past ++ x :: rest ↔
      ∃ before d later, ds = before ++ d :: later ∧ past = t.transcript before ∧
        x = (t.after before).enter d ∧
        rest = ((t.after before).step d).transcript later := by
  constructor
  · intro h
    refine ⟨past.map Entry.toDelivery, x.toDelivery, rest.map Entry.toDelivery, ?_, ?_⟩
    · rw [← toDelivery_transcript t ds, h, List.map_append, List.map_cons]
    · have hds : ds = past.map Entry.toDelivery ++ x.toDelivery :: rest.map Entry.toDelivery := by
        rw [← toDelivery_transcript t ds, h, List.map_append, List.map_cons]
      rw [hds, transcript_append] at h
      have hlength : (t.transcript (past.map Entry.toDelivery)).length = past.length := by
        have := congrArg List.length (toDelivery_transcript t (past.map Entry.toDelivery))
        simpa only [List.length_map] using this
      rcases List.append_inj h hlength with ⟨hpast, hrest⟩
      rcases List.cons_eq_cons.1 hrest with ⟨hx, hlater⟩
      exact ⟨hpast.symm, hx.symm, hlater.symm⟩
  · rintro ⟨before, d, later, rfl, rfl, rfl, rfl⟩
    exact transcript_append t before (d :: later)

/-- A throttle that starts empty remembers the whole run. -/
theorem recalls_after (ds : List Delivery) :
    Recalls (after {} ds) (transcript {} ds) := by
  induction ds using List.reverseRecOn with
  | nil => exact fun _ => rfl
  | append_singleton ds d ih =>
      rw [transcript_append, after, List.foldl_append]
      exact recalls_step ih d

/-- Events that are not alike do not concern each other. -/
theorem transcript_filter {t t' : Throttle} {e : Event}
    (h : t.last? e.throttleKey = t'.last? e.throttleKey) (ds : List Delivery) :
    t.transcript (ds.filter fun d => d.event.Alike e) =
      (t'.transcript ds).filter fun x => x.event.Alike e := by
  induction ds generalizing t t' with
  | nil => rfl
  | cons d ds ih =>
      have hevent : (t'.enter d).event = d.event := rfl
      rw [transcript, List.filter_cons, List.filter_cons, hevent]
      by_cases halike : d.event.Alike e
      · have hkey := Event.throttleKey_eq_iff.2 halike
        rw [if_pos (decide_eq_true halike), if_pos (decide_eq_true halike), transcript]
        have henter : t.enter d = t'.enter d := enter_congr (by rw [hkey]; exact h)
        rw [henter, ih]
        rw [last?_step, last?_step, henter, h]
      · rw [if_neg (by rwa [decide_eq_true_iff]), if_neg (by rwa [decide_eq_true_iff])]
        refine ih ?_
        have hcounts : ¬(t'.enter d).counts e.throttleKey = true := by
          intro hcounts
          exact halike (Event.throttleKey_eq_iff.1 (Entry.counts_iff.1 hcounts).2.2)
        rw [last?_step, if_neg hcounts]
        exact h

/-- The entries of a run, by the past of each. With a clock that does not run
    backwards an event adds its line exactly if the past does not hold it back. An
    event that is dropped or has no interval can be left out, and the rest of the
    run stays as it is. So can all events that are not like a given one, and those
    that are like it stay as they are. -/
theorem transcript_by_past (ds : List Delivery)
    (hclock : ds.Pairwise fun d d' => d.time.nanos ≤ d'.time.nanos) :
    (transcript {} ds).map Entry.toDelivery = ds ∧
    (∀ past x rest, transcript {} ds = past ++ x :: rest →
      (HeldBack past x.toDelivery → x.line = none) ∧
      (¬HeldBack past x.toDelivery →
        x.line = some ⟨x.event.severity, x.event.job, x.event.reason, x.event.message⟩)) ∧
    (∀ past x rest, transcript {} ds = past ++ x :: rest →
      x.line = none ∨ x.event.interval = none →
      transcript {} ((past ++ rest).map Entry.toDelivery) = past ++ rest) ∧
    ∀ e : Event, (transcript {} ds).filter (fun x => x.event.Alike e) =
      transcript {} (ds.filter fun d => d.event.Alike e) := by
  refine ⟨toDelivery_transcript {} ds, fun past x rest h => ?_, fun past x rest h huntraced => ?_,
    fun e => (transcript_filter rfl ds).symm⟩
  · rcases transcript_eq_append_iff.1 h with ⟨before, d, later, rfl, rfl, rfl, rfl⟩
    rcases List.pairwise_append.1 hclock with ⟨hbefore, -, hcross⟩
    have hdeliveries := toDelivery_transcript {} before
    have hpast : (transcript {} before).Pairwise fun x y => x.time.nanos ≤ y.time.nanos := by
      rw [← hdeliveries, List.pairwise_map] at hbefore
      exact hbefore
    have hnow : ∀ x ∈ transcript {} before, x.time.nanos ≤ d.time.nanos := by
      intro x hx
      refine hcross x.toDelivery ?_ d List.mem_cons_self
      rw [← hdeliveries]
      exact List.mem_map_of_mem hx
    have hiff := line_eq_none_iff (recalls_after before) hpast hnow
    refine ⟨hiff.2, fun hfree => ?_⟩
    have hline := line_enter (after {} before) d
    split at hline
    · exact hline
    · exact absurd (hiff.1 hline) hfree
  · rcases transcript_eq_append_iff.1 h with ⟨before, d, later, rfl, rfl, rfl, rfl⟩
    rw [List.map_append, toDelivery_transcript, toDelivery_transcript, transcript_append,
      step_of_untraced huntraced]

namespace Quota

/-- A reached quota is told once a minute. -/
def warning (message : String) (key : Option String) : Event where
  job := "orders"
  severity := .warning
  reason := "ResourceQuotaReached"
  message
  key
  interval := some (.ofSeconds 60)

/-- Told, told again half a minute later under a key that is the first message,
    and once more after another half. -/
def run : List Delivery :=
  [⟨warning "cpu" none, ⟨0⟩⟩, ⟨warning "cpu quota" (some "cpu"), ⟨30000000000⟩⟩,
    ⟨warning "cpu" none, ⟨60000000000⟩⟩]

/-- The second warning is held back by the first one, and since it was dropped
    the third one is not held back by it. -/
theorem transcript_by_past_quota :
    run.Pairwise (fun d d' => d.time.nanos ≤ d'.time.nanos) ∧
    (transcript {} run).map (fun x => x.line.isSome) = [true, false, true] ∧
    ∃ first second third, transcript {} run = [first, second, third] ∧
      HeldBack [first] second.toDelivery ∧ ¬HeldBack [first, second] third.toDelivery := by
  have hclock : run.Pairwise fun d d' => d.time.nanos ≤ d'.time.nanos := by decide
  have hpast := (transcript_by_past run hclock).2.1
  refine ⟨hclock, by decide, _, _, _, rfl, ?_, ?_⟩
  · by_contra hfree
    have hline := (hpast [_] _ [_] rfl).2 hfree
    cases hline
  · intro hheld
    have hline := (hpast [_, _] _ [] rfl).1 hheld
    cases hline

end Quota

end Throttle

end Rescale
