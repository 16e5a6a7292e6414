import Rescale.Job.RestartLog
import Rescale.SortedMap.Lemmas

/-!
# Entries of a Restart Log

What a restart log lists, after each operation on it.

Cycles come one after the other, so a decision is later than all entries of the
log, and its entry goes to the end. That is also the only place where an entry is
closed. Once the job was seen running the latest entry is closed, and seeing it
again changes nothing: of all the cycles that follow a decision the first one
settles how long the restart took.

## Main definitions

* `RestartLog.Before`: All entries are older than an instant.
* `RestartLog.running`: A log once the job was seen running.
* `RestartLog.seen`: A log once the job was seen running, if it ever was.

## Theorems

* `toList_add`: A decision goes to the end.
* `toList_running_of_open`: An open entry is closed at the end.
* `running_running`: Only the first sight of the running job counts.
* `toList_seen_add`: What becomes of the entry of a decision.
* `get?_seen`: What becomes of the entries of a log.
* `longest?_eq_some`: The longest of some spans.
* `estimate_eq_restartTime`, `estimate_of_closed`: The time to reckon with.
-/

namespace Rescale

namespace RestartLog

/-- All entries of a log are older than an instant. -/
def Before (log : RestartLog) (now : Instant) : Prop :=
  ∀ e ∈ log.toList, e.1.millis < now.millis

/-- A log once the job was seen running: its latest entry is closed if it is
    open. -/
def running (log : RestartLog) (now : Instant) : RestartLog :=
  match log.observeRunning now with
  | some (_, log') => log'
  | none => log

/-- A log once the job was seen running at an instant, if it ever was. -/
def seen (log : RestartLog) : Option Instant → RestartLog
  | some now => log.running now
  | none => log

/-- The time from one instant to a later one leads there. -/
theorem add_since {i start : Instant} (h : start.millis ≤ i.millis) :
    start.add (i.since start) = i := by
  refine congrArg Instant.mk ?_
  change start.millis + ((i.millis - start.millis).toNat : Int) = i.millis
  omega

variable {log : RestartLog} {now t : Instant}

/-! ### The latest entry -/

/-- A decision is entered at the end of a log that is older. -/
theorem toList_add (h : log.Before now) (restart : Option Span) :
    (log.add now restart).toList = log.toList ++ [(now, restart)] :=
  SortedMap.toList_insert_of_above restart fun e he => Int.compare_eq_lt.2 (h e he)

/-- An open entry at the end is closed with the time that has passed. -/
theorem toList_running_of_open {past : List (Instant × Option Span)} {started : Instant}
    (h : log.toList = past ++ [(started, none)]) (hnow : started.millis ≤ now.millis) :
    (log.running now).toList = past ++ [(started, some (now.since started))] := by
  have hlast : log.last? = some (started, none) := by
    rw [SortedMap.last?, h, List.getLast?_concat]
  have hsince : now.since? started = some (now.since started) := by
    rw [Instant.since?, if_neg (Int.not_lt.2 hnow)]
    rfl
  have hrunning : log.running now = log.insert started (some (now.since started)) := by
    simp only [running, observeRunning, hlast, hsince]
  rw [hrunning]
  exact SortedMap.toList_insert_last h

/-- Without an open entry at the end there is nothing to close. -/
theorem running_of_closed (h : ∀ started, log.last? ≠ some (started, none)) :
    log.running now = log := by
  unfold running observeRunning
  rcases hlast : log.last? with _ | ⟨started, _ | span⟩
  · rfl
  · exact absurd hlast (h started)
  · rfl

/-- A log in which the job was seen running either had nothing to close, or its
    open entry was closed. -/
theorem running_cases (h : log.Before now) :
    ((∀ started, log.last? ≠ some (started, none)) ∧ log.running now = log) ∨
      ∃ past started, log.toList = past ++ [(started, none)] ∧
        (log.running now).toList = past ++ [(started, some (now.since started))] := by
  by_cases hopen : ∃ started, log.last? = some (started, none)
  · rcases hopen with ⟨started, hlast⟩
    rcases List.getLast?_eq_some_iff.1 hlast with ⟨past, hpast⟩
    have hstarted : started.millis < now.millis := h _ (List.mem_of_getLast? hlast)
    exact Or.inr ⟨past, started, hpast, toList_running_of_open hpast (Int.le_of_lt hstarted)⟩
  · have hclosed := not_exists.1 hopen
    exact Or.inl ⟨hclosed, running_of_closed hclosed⟩

/-- Seeing the job run again changes nothing. -/
theorem running_running (h : log.Before now) : (log.running now).running t = log.running now := by
  refine running_of_closed fun started hlast => ?_
  rcases running_cases h with ⟨hclosed, heq⟩ | ⟨past, started', _, hlist⟩
  · rw [heq] at hlast
    exact hclosed started hlast
  · rw [SortedMap.last?, hlist, List.getLast?_concat] at hlast
    cases hlast

theorem seen_running (h : log.Before now) (later : Option Instant) :
    (log.running now).seen later = log.running now := by
  cases later with
  | none => rfl
  | some t => exact running_running h

/-- The entry of a new decision gets the time until the job was first seen
    running after it. -/
theorem toList_seen_add (h : log.Before now) (later : Option Instant)
    (hlater : ∀ t, later = some t → now.millis ≤ t.millis) :
    ((log.add now none).seen later).toList = log.toList ++ [(now, later.map (·.since now))] := by
  cases later with
  | none => exact toList_add h none
  | some t => exact toList_running_of_open (toList_add h none) (hlater t rfl)

/-- Closing an entry leaves its instant as it is. -/
theorem before_running (h : log.Before now) (ht : log.Before t) : (log.running now).Before t := by
  intro e he
  rcases running_cases h with ⟨_, heq⟩ | ⟨past, started, hpast, hlist⟩
  · rw [heq] at he
    exact ht e he
  · rw [hlist, List.mem_append, List.mem_singleton] at he
    rcases he with he | rfl
    · exact ht e (hpast ▸ List.mem_append_left _ he)
    · exact ht (started, none) (hpast ▸ List.mem_concat_self)

theorem before_add (h : log.Before now) (ht : log.Before t) (hnow : now.millis < t.millis)
    (restart : Option Span) : (log.add now restart).Before t := by
  intro e he
  rw [toList_add h, List.mem_append, List.mem_singleton] at he
  rcases he with he | rfl
  · exact ht e he
  · exact hnow

/-- Of what is entered in a log only an open entry is touched, where the job is
    seen running. -/
theorem get?_running {i : Instant} {r : Option Span} (h : log.get? i = some r) :
    ∃ r', (log.running now).get? i = some r' ∧ (r' = r ∨ r = none) := by
  unfold running observeRunning
  rcases hlast : log.last? with _ | ⟨started, _ | span⟩
  · exact ⟨r, h, Or.inl rfl⟩
  · have hstarted : log.get? started = some none :=
      SortedMap.mem_toList_iff.1 (List.mem_of_getLast? hlast)
    cases hspan : now.since? started with
    | none =>
        simp only [hspan]
        exact ⟨r, h, Or.inl rfl⟩
    | some span =>
        simp only [hspan, SortedMap.get?_insert]
        by_cases hi : compare i started = .eq
        · obtain rfl := Std.LawfulEqOrd.eq_of_compare hi
          rw [if_pos hi]
          exact ⟨some span, rfl, Or.inr (Option.some.inj (h.symm.trans hstarted))⟩
        · rw [if_neg hi]
          exact ⟨r, h, Or.inl rfl⟩
  · exact ⟨r, h, Or.inl rfl⟩

theorem get?_seen {i : Instant} {r : Option Span} (later : Option Instant)
    (h : log.get? i = some r) : ∃ r', (log.seen later).get? i = some r' ∧ (r' = r ∨ r = none) := by
  cases later with
  | none => exact ⟨r, h, Or.inl rfl⟩
  | some t => exact get?_running h

/-! ### The time to reckon with -/

theorem longest?_eq_none_iff {spans : List Span} : longest? spans = none ↔ spans = [] := by
  cases spans with
  | nil => exact iff_of_true rfl rfl
  | cons first rest =>
      rw [longest?]
      cases longest? rest with
      | none => simp only [reduceCtorEq]
      | some _ => simp only [reduceCtorEq]

/-- By induction on the spans: the longest one is among them, and no other is
    longer. -/
theorem longest?_eq_some {spans : List Span} : ∀ {longest : Span}, longest? spans = some longest →
    longest ∈ spans ∧ ∀ s ∈ spans, s.millis ≤ longest.millis := by
  induction spans with
  | nil => exact fun h => nomatch h
  | cons first rest ih =>
      intro longest h
      rw [longest?] at h
      cases hrest : longest? rest with
      | none =>
          rw [hrest] at h
          obtain rfl := Option.some.inj h
          obtain rfl := longest?_eq_none_iff.1 hrest
          refine ⟨List.mem_singleton_self _, fun s hs => ?_⟩
          exact Nat.le_of_eq (congrArg _ (List.mem_singleton.1 hs))
      | some other =>
          rw [hrest] at h
          obtain rfl := Option.some.inj h
          rcases ih hrest with ⟨hmem, hle⟩
          by_cases hfirst : first.millis ≤ other.millis
          · rw [Span.max, if_pos hfirst]
            exact ⟨List.mem_cons_of_mem _ hmem, List.forall_mem_cons.2 ⟨hfirst, hle⟩⟩
          · rw [Span.max, if_neg hfirst]
            refine ⟨List.mem_cons_self, List.forall_mem_cons.2 ⟨Nat.le_refl _, fun s hs => ?_⟩⟩
            exact Nat.le_trans (hle s hs) (Nat.le_of_not_le hfirst)

/-- The observed times are those of the closed entries. -/
theorem mem_observed_iff {span : Span} :
    span ∈ log.values.filterMap id ↔ ∃ i, log.get? i = some (some span) := by
  simp only [SortedMap.values, List.mem_filterMap, List.mem_map, id_eq, exists_eq_right]
  constructor
  · rintro ⟨⟨i, _⟩, hmem, rfl⟩
    exact ⟨i, SortedMap.mem_toList_iff.1 hmem⟩
  · rintro ⟨i, hi⟩
    exact ⟨(i, some span), SortedMap.mem_toList_iff.2 hi, rfl⟩

/-- Where observed times are not preferred, or no entry is closed, the configured
    time holds. -/
theorem estimate_eq_restartTime {options : Config.Restart}
    (h : ¬(options.preferTracked = true ∧ ∃ i span, log.get? i = some (some span))) :
    log.estimate options = options.restartTime := by
  unfold estimate longestObserved?
  by_cases hprefer : options.preferTracked = true
  · have hnil : log.values.filterMap id = [] := by
      refine List.eq_nil_iff_forall_not_mem.2 fun span hspan => h ⟨hprefer, ?_⟩
      rcases mem_observed_iff.1 hspan with ⟨i, hi⟩
      exact ⟨i, span, hi⟩
    rw [if_pos hprefer, hnil]
    rfl
  · rw [if_neg hprefer]

theorem millis_min (a b : Span) : (a.min b).millis = min b.millis a.millis := by
  unfold Span.min
  by_cases h : b.millis ≤ a.millis
  · rw [if_pos h, Nat.min_eq_left h]
  · rw [if_neg h, Nat.min_eq_right (Nat.le_of_not_le h)]

/-- Where they are preferred and some entry is closed, the longest one holds, up
    to the limit. -/
theorem estimate_of_closed {options : Config.Restart} (hprefer : options.preferTracked = true)
    (h : ∃ i span, log.get? i = some (some span)) :
    ∃ i longest, log.get? i = some (some longest) ∧
      (∀ i' span, log.get? i' = some (some span) → span.millis ≤ longest.millis) ∧
      (log.estimate options).millis = min options.trackedLimit.millis longest.millis := by
  unfold estimate longestObserved?
  rw [if_pos hprefer]
  cases hlongest : longest? (log.values.filterMap id) with
  | none =>
      rcases h with ⟨i, span, hspan⟩
      have hmem := mem_observed_iff.2 ⟨i, hspan⟩
      rw [longest?_eq_none_iff.1 hlongest] at hmem
      cases hmem
  | some longest =>
      rcases longest?_eq_some hlongest with ⟨hmem, hle⟩
      rcases mem_observed_iff.1 hmem with ⟨i, hi⟩
      refine ⟨i, longest, hi, fun i' span hspan => ?_, millis_min longest options.trackedLimit⟩
      exact hle span (mem_observed_iff.2 ⟨i', hspan⟩)

end RestartLog

end Rescale
