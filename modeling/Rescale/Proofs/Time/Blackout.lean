import Rescale.Config.Basic
import Rescale.Proofs.Text.Padded
import Rescale.Proofs.Text.Trim

/-!
# Blackouts on the Clock Face

A window as an interval of a circle, the day.

The test of a window has two cases, one for windows within a day and one for
those that run over midnight. On a clock face there is no midnight and only one
case: start the clock at the beginning of the window, and a second lies in the
window if the clock shows it before it shows the end. Seen like that, a window
and the one from its end to its start take turns, and since only the second of
the day is looked at, every day is like the others.

What has to hold of a window is what settings can write: its start and its end
are two different minutes of the day.

## Main definitions

* `Blackout.lap`: How long a clock runs from one second of the day to another.
* `Blackout.Proper`: Two different minutes of the day.
* `Blackout.reverse`: The window from the end of another one to its start.
* `Blackout.clock`: A minute of the day as settings write it.

## Theorems

* `field?_eq_some`, `field?_padded`: What is read as a field of a time of day.
* `minute?_clock`: A written minute reads back.
* `exists_ofText?_iff`: The windows that can be written.
* `secondOfDay_eq`: The second of the day, before the epoch too.
* `contains_iff_lap`: A window is an interval of the clock face.
* `contains_reverse`: A window and its reverse take turns.
* `inBlackout_circular`: Blackouts are circular intervals.
-/

namespace Rescale

namespace Blackout

/-- How many seconds a clock runs from showing `a` until it shows `b`. -/
def lap (a b : Int) : Int := (b - a) % 86400

/-- A window from one minute of the day to another. -/
structure Proper (w : Blackout) : Prop where
  start_lt : w.start < 1440
  stop_lt : w.stop < 1440
  start_ne_stop : w.start ≠ w.stop

/-- The window from the end of another one to its start. -/
def reverse (w : Blackout) : Blackout := ⟨w.stop, w.start⟩

/-- A minute of the day as settings write it, `HH:MM`. -/
def clock (minute : Nat) : List Char :=
  Text.padded 2 (minute / 60) ++ ':' :: Text.padded 2 (minute % 60)

/-! ### Reading -/

/-- A field is below its limit. -/
theorem lt_of_field? {limit n : Nat} {cs rest : List Char} (h : field? limit cs = some (n, rest)) :
    n < limit := by
  have hread : ∃ front, Text.natural? limit front = some n := by
    unfold field? at h
    split at h
    · split at h
      all_goals
        rcases Option.map_eq_some_iff.1 h with ⟨n', hn, hpair⟩
        rw [(Prod.mk.inj hpair).1] at hn
        exact ⟨_, hn⟩
    · rcases Option.map_eq_some_iff.1 h with ⟨n', hn, hpair⟩
      rw [(Prod.mk.inj hpair).1] at hn
      exact ⟨_, hn⟩
    · cases h
  rcases hread with ⟨front, hfront⟩
  exact (Text.natural?_eq_some_iff.1 hfront).2.2.2

theorem lt_of_minute? {m : Nat} {cs : List Char} (h : minute? cs = some m) : m < 1440 := by
  unfold minute? at h
  split at h
  case h_2 => cases h
  case h_1 hour rest hhour =>
    split at h
    case h_2 => cases h
    case h_1 minute hminute =>
      have := lt_of_field? hhour
      have := lt_of_field? hminute
      have := Option.some.inj h
      omega

/-- A field of two digits is read up to its end. -/
theorem field?_padded {limit n : Nat} (hn : n < 100) (hlimit : n < limit) (rest : List Char) :
    field? limit (Text.padded 2 n ++ rest) = some (n, rest) := by
  have hread : Text.natural? limit (Text.padded 2 n) = some n := Text.natural?_padded hlimit
  have hdigits : ∀ c ∈ Text.padded 2 n, Text.isDigit c = true := fun _ =>
    Text.isDigit_of_mem_padded
  rcases List.length_eq_two.1 (Text.length_padded (by decide) hn) with ⟨a, b, hab⟩
  rw [hab] at hread hdigits ⊢
  have ha : Text.isBlank a = false :=
    Text.isBlank_eq_false_of_isDigit (hdigits a List.mem_cons_self)
  have hb : Text.isDigit b = true := hdigits b (List.mem_cons_of_mem _ List.mem_cons_self)
  have hstart : Text.trimStart ([a, b] ++ rest) = a :: b :: rest :=
    List.dropWhile_cons_of_neg (Bool.eq_false_iff.1 ha)
  rw [field?, hstart]
  simp only [hb, if_true, hread, Option.map_some]

/-- A written minute reads back. -/
theorem minute?_clock {m : Nat} (h : m < 1440) : minute? (clock m) = some m := by
  have hminute : field? 60 (Text.padded 2 (m % 60) ++ []) = some (m % 60, []) :=
    field?_padded (by omega) (by omega) []
  rw [List.append_nil] at hminute
  unfold minute? clock
  rw [field?_padded (by omega) (by omega)]
  simp only [hminute]
  rw [Nat.mul_comm, Nat.div_add_mod]

theorem of_mem_clock {m : Nat} {c : Char} (h : c ∈ clock m) : Text.isDigit c = true ∨ c = ':' := by
  rcases List.mem_append.1 h with hhour | htail
  · exact Or.inl (Text.isDigit_of_mem_padded hhour)
  · rcases List.mem_cons.1 htail with hcolon | hminute
    · exact Or.inr hcolon
    · exact Or.inl (Text.isDigit_of_mem_padded hminute)

theorem trim_clock (m : Nat) : Text.trim (clock m) = clock m := by
  refine Text.trim_eq_self fun c hc => ?_
  rcases of_mem_clock hc with hdigit | rfl
  · exact Text.isBlank_eq_false_of_isDigit hdigit
  · decide

/-- The windows that can be written are those between two different minutes of
    the day. -/
theorem exists_ofText?_iff {w : Blackout} : (∃ s, ofText? s = some w) ↔ w.Proper := by
  constructor
  · rintro ⟨s, h⟩
    simp only [ofText?] at h
    split at h
    case h_2 => cases h
    case h_1 =>
      split at h
      case h_2 => cases h
      case h_1 start stop hstart hstop =>
        rcases Option.ite_none_left_eq_some.1 h with ⟨hne, hw⟩
        obtain rfl := Option.some.inj hw
        exact ⟨lt_of_minute? hstart, lt_of_minute? hstop, fun heq => hne (beq_iff_eq.2 heq)⟩
  · intro h
    refine ⟨String.ofList (clock w.start ++ '-' :: clock w.stop), ?_⟩
    have hfront : ∀ c ∈ clock w.start, (c != '-') = true := by
      intro c hc
      rcases of_mem_clock hc with hdigit | rfl
      · refine bne_iff_ne.2 ?_
        rintro rfl
        exact absurd hdigit (by decide)
      · decide
    have htake : (clock w.start ++ '-' :: clock w.stop).takeWhile (· != '-') = clock w.start := by
      rw [List.takeWhile_append_of_pos hfront, List.takeWhile_cons_of_neg (by decide),
        List.append_nil]
    have hdrop : (clock w.start ++ '-' :: clock w.stop).dropWhile (· != '-') =
        '-' :: clock w.stop := by
      rw [List.dropWhile_append_of_pos hfront, List.dropWhile_cons_of_neg (by decide)]
    simp only [ofText?, String.toList_ofList, htake, hdrop, trim_clock, minute?_clock h.start_lt,
      minute?_clock h.stop_lt, beq_iff_eq, h.start_ne_stop, if_false]

/-! ### The clock face -/

/-- The second of the day goes by floored division, so it is also right before
    the epoch. -/
theorem secondOfDay_eq (i : Instant) : (i.secondOfDay : Int) = i.millis / 1000 % 86400 := by
  unfold Instant.secondOfDay Instant.milliOfDay
  omega

theorem secondOfDay_add_days (i : Instant) (n : Int) :
    Instant.secondOfDay ⟨i.millis + n * 86400000⟩ = i.secondOfDay := by
  simp only [Instant.secondOfDay, Instant.milliOfDay]
  omega

theorem Proper.reverse {w : Blackout} (h : w.Proper) : w.reverse.Proper :=
  ⟨h.stop_lt, h.start_lt, h.start_ne_stop.symm⟩

variable {w : Blackout}

/-- A window is an interval of the clock face: started with the window, the clock
    shows what lies in it before it shows its end. -/
theorem contains_iff_lap (h : w.Proper) {s : Nat} (hs : s < 86400) :
    w.contains s = true ↔ lap (60 * w.start) s < lap (60 * w.start) (60 * w.stop) := by
  have hstart := h.start_lt
  have hstop := h.stop_lt
  unfold contains lap
  split
  case isTrue => rw [Bool.and_eq_true, decide_eq_true_iff, decide_eq_true_iff]; omega
  case isFalse => rw [Bool.or_eq_true, decide_eq_true_iff, decide_eq_true_iff]; omega

/-- A window and its reverse take turns. -/
theorem contains_reverse (h : w.Proper) {s : Nat} (hs : s < 86400) :
    w.reverse.contains s = !w.contains s := by
  have hne := h.start_ne_stop
  have hstart := h.start_lt
  have hstop := h.stop_lt
  rw [Bool.eq_iff_iff, Bool.not_eq_true', ← Bool.not_eq_true, contains_iff_lap h hs,
    contains_iff_lap h.reverse hs]
  simp only [lap, Blackout.reverse]
  omega

/-- Blackouts are circular intervals. An instant lies in one exactly if a clock
    that starts with some window shows the second of the instant before the end of
    the window. The windows are those that settings can write: two different
    minutes of the day. One of them and its reverse cover every instant once, and
    all days are alike. -/
theorem inBlackout_circular (c : Config)
    (h : ∀ w ∈ c.scaling.blackouts, ∃ s, ofText? s = some w) (i : Instant) :
    (c.inBlackout i = true ↔ ∃ w ∈ c.scaling.blackouts,
      (i.millis / 1000 % 86400 - 60 * w.start) % 86400 <
        ((60 * w.stop - 60 * w.start) % 86400 : Int)) ∧
    (∀ w : Blackout, (∃ s, ofText? s = some w) ↔
      w.start < 1440 ∧ w.stop < 1440 ∧ w.start ≠ w.stop) ∧
    (∀ w : Blackout, (∃ s, ofText? s = some w) →
      (∃ s, ofText? s = some w.reverse) ∧ w.reverse.covers i = !w.covers i) ∧
    ∀ n : Int, c.inBlackout ⟨i.millis + n * 86400000⟩ = c.inBlackout i := by
  have hday : i.secondOfDay < 86400 := by
    have := secondOfDay_eq i
    omega
  refine ⟨?_, fun w => ?_, fun w hw => ?_, fun n => ?_⟩
  · rw [Config.inBlackout, List.any_eq_true]
    refine exists_congr fun w => and_congr_right fun hw => ?_
    rw [covers, contains_iff_lap (exists_ofText?_iff.1 (h w hw)) hday, secondOfDay_eq]
    rfl
  · exact exists_ofText?_iff.trans ⟨fun h => ⟨h.start_lt, h.stop_lt, h.start_ne_stop⟩,
      fun h => ⟨h.1, h.2.1, h.2.2⟩⟩
  · have hproper := exists_ofText?_iff.1 hw
    exact ⟨exists_ofText?_iff.2 hproper.reverse, contains_reverse hproper hday⟩
  · simp only [Config.inBlackout, covers, secondOfDay_add_days]

namespace Overnight

/-- From ten in the evening until six. -/
def config : Config := { scaling := { blackouts := [⟨1320, 360⟩] } }

/-- An hour before the epoch it is eleven in the evening, as it is a day later,
    and the window from six until ten is over. -/
theorem inBlackout_circular_overnight :
    (∀ w ∈ config.scaling.blackouts, ∃ s, ofText? s = some w) ∧
      config.inBlackout ⟨-3600000⟩ = true ∧ config.inBlackout ⟨-3600000 + 1 * 86400000⟩ = true ∧
      (reverse ⟨1320, 360⟩).covers ⟨-3600000⟩ = false := by
  have hwritten : ∀ w ∈ config.scaling.blackouts, ∃ s, ofText? s = some w := by
    intro w hw
    refine ⟨"22:00-06:00", ?_⟩
    rw [List.mem_singleton.1 hw]
    decide
  have hcircular := inBlackout_circular config hwritten ⟨-3600000⟩
  have hin : config.inBlackout ⟨-3600000⟩ = true :=
    hcircular.1.2 ⟨_, List.mem_cons_self, by decide⟩
  refine ⟨hwritten, hin, ?_, ?_⟩
  · rw [hcircular.2.2.2 1, hin]
  · rw [(hcircular.2.2.1 ⟨1320, 360⟩ (hwritten _ List.mem_cons_self)).2]
    decide

end Overnight

end Blackout

end Rescale
