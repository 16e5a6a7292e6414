import Rescale.Proofs.Json.Value
import Rescale.Proofs.Time.Instant
import Rescale.Record.Node

/-!
# Reading Records Back

What is remembered of jobs and nodes comes back from the records.

A record is an object with a member for every field, so reading it finds every field
it asks for, and each of them comes back by the law of its kind. What is left to say
is which records that holds for, and what happens to the others. Numbers have as many
bits as their field, 32 or 64, and years six digits. That is what `inRange` says of a
record, and no field can hold anything else. Doubles are the exception: they are in
range whatever they are, but not every one of them comes back. So the laws of records
with doubles have two sides. If all doubles of the record are finite it comes back with
each of them reread, and otherwise it does not come back.

## Main definitions

* `Change.inRange`, `History.inRange`: The numbers of applied changes are in range.
* `RestartLog.inRange`, `Holds.inRange`: So are those of restarts and holds.
* `Generation.inRange`, `Node.inRange`: So are those of generations and nodes.

## Theorems

* `History.ofJson?_toJson`: The applied changes come back reread if they are finite.
* `RestartLog.ofJson?_toJson`: The restart log comes back.
* `PendingScaleDowns.ofJson?_toJson`: Pending scale-downs come back unmarked.
* `Overrides.ofJson?_toJson`, `Overrides.ofChangesJson?_changesJson`: Values by name
  come back.
* `Generation.ofJson?_toJson`: A generation comes back reread if it is finite.
* `Node.ofJson?_toJson`: A node comes back.
-/

namespace Rescale

/-! ### Readings -/

theorem Metric.ofKey?_key (m : Metric) : Metric.ofKey? m.key = some m := by
  cases m <;> rfl

theorem Reading.plain_toJson (r : Reading) : Json.Plain r.toJson :=
  Json.plain_object ⟨Json.plain_float r.current, Json.plain_float r.average⟩

theorem Reading.ofJson?_toJson (r : Reading) :
    Reading.ofJson? Json.float? r.toJson =
      if r.isFinite then some (r.mapFloats Decimal.reread) else none := by
  rw [ofJson?, toJson]
  refine Json.bind_fields? rfl (by decide) ?_
  simp only [Json.required_cons, String.reduceEq, if_true, if_false, Json.float?_float,
    Json.bind_ite, isFinite, Bool.and_eq_true, ite_and]
  rfl

theorem Readings.plain_toJson (r : Readings) : Json.Plain r.toJson :=
  Json.plain_ofMap Metric.key Reading.plain_toJson r

theorem Readings.ofJson?_toJson (r : Readings) :
    Readings.ofJson? Json.float? r.toJson =
      if r.values.all Reading.isFinite then
        some (r.mapValues fun _ x => x.mapFloats Decimal.reread) else none :=
  Json.map?_ofMap (fun e _ => Metric.ofKey?_key e.1) fun e _ => e.2.ofJson?_toJson

/-! ### Changes -/

/-- The sizes of a profile have 64 bits. -/
def SlotProfile.inRange (p : SlotProfile) : Bool :=
  p.taskHeap < Text.wordLimit && p.taskOffHeap < Text.wordLimit && p.managed < Text.wordLimit
    && p.network < Text.wordLimit

theorem SlotProfile.plain_toJson (p : SlotProfile) : Json.Plain p.toJson :=
  Json.plain_object ⟨Json.plain_float p.cpuCores, Json.plain_nat p.taskHeap,
    Json.plain_nat p.taskOffHeap, Json.plain_nat p.managed, Json.plain_nat p.network⟩

theorem SlotProfile.ofJson?_toJson {p : SlotProfile} (h : p.inRange = true) :
    SlotProfile.ofJson? Json.float? p.toJson =
      if p.cpuCores.isFinite then some (p.mapFloats Decimal.reread) else none := by
  simp only [inRange, Bool.and_eq_true, decide_eq_true_eq] at h
  obtain ⟨⟨⟨hheap, hoff⟩, hmanaged⟩, hnetwork⟩ := h
  rw [ofJson?, toJson]
  refine Json.bind_fields? rfl (by decide) ?_
  simp only [Json.required_cons, String.reduceEq, if_true, if_false, Json.float?_float,
    Json.bind_ite, Json.nat?_nat hheap, Json.nat?_nat hoff, Json.nat?_nat hmanaged,
    Json.nat?_nat hnetwork]
  rfl

/-- A profile that may be missing comes back if it is finite. -/
theorem SlotProfile.nullable?_toJson {o : Option SlotProfile} (h : o.all inRange = true) :
    Json.nullable? (SlotProfile.ofJson? Json.float?) (.ofOption toJson o) =
      if o.all (·.cpuCores.isFinite) then some (o.map (·.mapFloats Decimal.reread)) else none := by
  rw [Json.nullable?_ofOption fun _ => Json.noConfusion]
  cases o with
  | none => rfl
  | some p =>
      simp only [ofJson?_toJson (p := p) h, Option.all_some]
      split
      · rfl
      · rfl

/-- The numbers of a change have as many bits as their fields. -/
def Change.inRange (c : Change) : Bool :=
  c.current < Text.halfWordLimit && c.target < Text.halfWordLimit
    && c.currentProfile.all SlotProfile.inRange && c.targetProfile.all SlotProfile.inRange

theorem Change.plain_toJson (c : Change) : Json.Plain c.toJson :=
  Json.plain_object ⟨Json.plain_nat c.current, Json.plain_nat c.target,
    Json.plain_ofOption SlotProfile.plain_toJson _, Json.plain_ofOption SlotProfile.plain_toJson _,
    c.readings.plain_toJson⟩

theorem Change.ofJson?_toJson {c : Change} (h : c.inRange = true) :
    Change.ofJson? Json.float? c.toJson =
      if c.isFinite then some (c.mapFloats Decimal.reread) else none := by
  simp only [inRange, Bool.and_eq_true, decide_eq_true_eq] at h
  obtain ⟨⟨⟨hcurrent, htarget⟩, hbefore⟩, hafter⟩ := h
  rw [ofJson?, toJson]
  refine Json.bind_fields? rfl (by decide) ?_
  simp only [Json.required_cons, Json.fieldOr_cons, String.reduceEq, if_true, if_false,
    Json.nat?_nat hcurrent, Json.nat?_nat htarget, SlotProfile.nullable?_toJson hbefore,
    SlotProfile.nullable?_toJson hafter, Readings.ofJson?_toJson, Json.bind_ite,
    Option.bind_eq_bind, Option.bind_some]
  simp only [isFinite, Bool.and_eq_true, ← ite_and]
  exact if_congr ⟨fun ⟨hbefore, hafter, hreadings⟩ => ⟨⟨hreadings, hbefore⟩, hafter⟩,
    fun ⟨⟨hreadings, hbefore⟩, hafter⟩ => ⟨hbefore, hafter, hreadings⟩⟩ rfl rfl

/-- The years and the changes of a history are in range. -/
def History.inRange (h : History) : Bool :=
  h.toList.all fun e => e.2.toList.all fun c => c.1.inRange && c.2.inRange

theorem History.plain_toJson (h : History) : Json.Plain h.toJson :=
  Json.plain_ofMap id (fun past : VertexHistory =>
    Json.plain_ofMap Instant.recordText Change.plain_toJson past) h

/-- A history comes back with every double reread if all of them are finite, and it
    does not come back otherwise. -/
theorem History.ofJson?_toJson {h : History} (hrange : h.inRange = true) :
    History.ofJson? Json.float? h.toJson =
      if h.isFinite then some (h.mapFloats Decimal.reread) else none := by
  refine Json.map?_ofMap (fun _ _ => rfl) fun e he => ?_
  have hpast := List.all_eq_true.1 (List.all_eq_true.1 hrange e he)
  refine Json.map?_ofMap (fun c hc => ?_) fun c hc => ?_
  · exact Instant.ofText?_recordText (Bool.and_eq_true_iff.1 (hpast c hc)).1
  · exact Change.ofJson?_toJson (Bool.and_eq_true_iff.1 (hpast c hc)).2

/-! ### Restarts and holds -/

/-- The whole seconds of a span have 64 bits. -/
def Span.inRange (s : Span) : Bool := s.wholeSeconds < Text.wordLimit

theorem Span.plain_toJson (s : Span) : Json.Plain s.toJson :=
  Json.plain_object ⟨Json.plain_nat s.wholeSeconds, Json.plain_nat s.nanos⟩

theorem Span.ofJson?_toJson {s : Span} (h : s.inRange = true) : Span.ofJson? s.toJson = some s := by
  have hseconds : s.wholeSeconds < Text.wordLimit := of_decide_eq_true h
  have hnanos : s.nanos < Text.halfWordLimit := by
    have hlimit : Text.halfWordLimit = 4294967296 := rfl
    unfold nanos
    omega
  have hmillis : s.wholeSeconds * 1000 + s.nanos / 1000000 = s.millis := by
    unfold wholeSeconds nanos
    omega
  rw [ofJson?, toJson]
  refine Json.bind_fields? rfl (by decide) ?_
  simp only [Json.required_cons, String.reduceEq, if_true, if_false, Json.nat?_nat hseconds,
    Json.nat?_nat hnanos, Option.bind_eq_bind, Option.bind_some, hmillis]
  rfl

/-- The years and the spans of a restart log are in range. -/
def RestartLog.inRange (log : RestartLog) : Bool :=
  log.toList.all fun e => e.1.inRange && e.2.all Span.inRange

theorem RestartLog.plain_toJson (log : RestartLog) : Json.Plain log.toJson := by
  have hentry : ∀ restart, Json.Plain (RestartLog.entryJson restart) := fun restart =>
    Json.plain_object (Json.plain_ofOption Span.plain_toJson restart)
  exact Json.plain_object (Json.plain_ofMap Instant.recordText hentry log)

theorem RestartLog.restart?_entryJson {restart : Option Span}
    (h : restart.all Span.inRange = true) :
    RestartLog.restart? (RestartLog.entryJson restart) = some restart := by
  rw [restart?, entryJson]
  refine Json.bind_fields? rfl (by decide) ?_
  simp only [Json.fieldOr_cons, if_true]
  rw [Json.nullable?_ofOption fun _ => Json.noConfusion]
  cases restart with
  | none => rfl
  | some s => simp only [Span.ofJson?_toJson (s := s) h, Option.map_some]

theorem RestartLog.ofJson?_toJson {log : RestartLog} (h : log.inRange = true) :
    RestartLog.ofJson? log.toJson = some log := by
  have hentries := List.all_eq_true.1 h
  rw [ofJson?, toJson]
  refine Json.bind_fields? rfl (by decide) ?_
  simp only [Json.fieldOr_cons, if_true]
  refine Json.map?_ofMap_self (fun e he => ?_) fun e he => ?_
  · exact Instant.ofText?_recordText (Bool.and_eq_true_iff.1 (hentries e he)).1
  · exact restart?_entryJson (Bool.and_eq_true_iff.1 (hentries e he)).2

theorem Instant.ofJson?_toJson {i : Instant} (h : i.inRange = true) :
    Instant.ofJson? i.toJson = some i := by
  simp only [ofJson?, toJson, Json.string?, Option.bind_eq_bind, Option.bind_some,
    ofText?_recordText h]

/-- The year and the parallelism of a hold are in range. -/
def Hold.inRange (h : Hold) : Bool := h.since.inRange && h.peak < Text.halfWordLimit

theorem Hold.plain_toJson (h : Hold) : Json.Plain h.toJson :=
  Json.plain_object ⟨.string h.since.recordText, Json.plain_nat h.peak⟩

theorem Hold.ofJson?_toJson {h : Hold} (hrange : h.inRange = true) :
    Hold.ofJson? h.toJson = some h := by
  simp only [inRange, Bool.and_eq_true, decide_eq_true_eq] at hrange
  rw [ofJson?, toJson]
  refine Json.bind_fields? rfl (by decide) ?_
  simp only [Json.required_cons, String.reduceEq, if_true, if_false,
    Instant.ofJson?_toJson hrange.1, Json.nat?_nat hrange.2, Option.bind_eq_bind, Option.bind_some]
  rfl

/-- All holds are in range. -/
def Holds.inRange (h : Holds) : Bool := h.values.all Hold.inRange

theorem Holds.plain_toJson (h : Holds) : Json.Plain h.toJson :=
  Json.plain_object (Json.plain_ofMap id Hold.plain_toJson h)

theorem Holds.ofJson?_toJson {h : Holds} (hrange : h.inRange = true) :
    Holds.ofJson? h.toJson = some h := by
  rw [ofJson?, toJson]
  refine Json.bind_fields? rfl (by decide) ?_
  simp only [Json.fieldOr_cons, if_true]
  refine Json.map?_ofMap_self (fun _ _ => rfl) fun e he => Hold.ofJson?_toJson ?_
  exact List.all_eq_true.1 hrange e.2 (List.mem_map_of_mem he)

/-- Pending scale-downs come back with the mark off that they were changed. -/
theorem PendingScaleDowns.ofJson?_toJson {p : PendingScaleDowns} (h : p.holds.inRange = true) :
    PendingScaleDowns.ofJson? p.toJson = some { p with changed := false } := by
  rw [ofJson?, toJson, Holds.ofJson?_toJson h]
  rfl

/-! ### Overrides -/

theorem Overrides.plain_toJson (o : Overrides) : Json.Plain o.toJson :=
  Json.plain_ofMap id .string o

theorem Overrides.ofJson?_toJson (o : Overrides) : Overrides.ofJson? o.toJson = some o :=
  Json.map?_ofMap_self (fun _ _ => rfl) fun _ _ => rfl

theorem Overrides.plain_changesJson (o : Overrides) : Json.Plain o.changesJson :=
  Json.plain_object o.plain_toJson

theorem Overrides.ofChangesJson?_changesJson (o : Overrides) :
    Overrides.ofChangesJson? o.changesJson = some o := by
  rw [ofChangesJson?, changesJson]
  refine Json.bind_fields? rfl (by decide) ?_
  simp only [Json.fieldOr_cons, if_true, ofJson?_toJson]

/-! ### Generations -/

/-- The parallelism of a stance has 32 bits. -/
def Stance.inRange (s : Stance) : Bool := s.parallelism < Text.halfWordLimit

theorem Stance.plain_toJson (s : Stance) : Json.Plain s.toJson :=
  Json.plain_object ⟨Json.plain_nat s.parallelism, Json.plain_int s.memoryLevel,
    Json.plain_float s.hitRate, Json.plain_float s.latency, Json.plain_float s.throughput,
    .bool s.vertical, .bool s.horizontal, .bool s.stopVertical⟩

theorem Stance.ofJson?_toJson {s : Stance} (h : s.inRange = true) :
    Stance.ofJson? Json.float? s.toJson =
      if s.isFinite then some (s.mapFloats Decimal.reread) else none := by
  have hparallelism : s.parallelism < Text.halfWordLimit := of_decide_eq_true h
  rw [ofJson?, toJson]
  refine Json.bind_fields? rfl (by decide) ?_
  simp only [Json.required_cons, String.reduceEq, if_true, if_false, Json.float?_float,
    Json.nat?_nat hparallelism, Json.int?_int, Json.bool?, Json.bind_ite, Option.bind_eq_bind,
    Option.bind_some, isFinite, Bool.and_eq_true, ite_and]
  rfl

/-- The period and the stances of a generation are in range. -/
def Generation.inRange (g : Generation) : Bool :=
  g.period < Text.wordLimit && g.stances.values.all Stance.inRange

theorem Generation.plain_toJson (g : Generation) : Json.Plain g.toJson :=
  Json.plain_object ⟨Json.plain_nat g.period, Json.plain_ofMap id Stance.plain_toJson g.stances⟩

/-- A generation comes back with every double reread if all of them are finite, and it
    does not come back otherwise. -/
theorem Generation.ofJson?_toJson {g : Generation} (h : g.inRange = true) :
    Generation.ofJson? Json.float? g.toJson =
      if g.isFinite then some (g.mapFloats Decimal.reread) else none := by
  simp only [inRange, Bool.and_eq_true, decide_eq_true_eq] at h
  have hstances : Json.map? Json.textKey? (Stance.ofJson? Json.float?)
      (Json.ofMap id Stance.toJson g.stances) =
        if g.stances.values.all Stance.isFinite then
          some (g.stances.mapValues fun _ s => s.mapFloats Decimal.reread) else none :=
    Json.map?_ofMap (fun _ _ => rfl) fun e he =>
      Stance.ofJson?_toJson (List.all_eq_true.1 h.2 e.2 (List.mem_map_of_mem he))
  rw [ofJson?, toJson]
  refine Json.bind_fields? rfl (by decide) ?_
  simp only [Json.required_cons, String.reduceEq, if_true, if_false, Json.nat?_nat h.1, hstances,
    Json.bind_ite, Option.bind_eq_bind, Option.bind_some]
  rfl

/-! ### Nodes -/

/-- The sizes of a node have 64 bits. -/
def Node.inRange (n : Node) : Bool :=
  n.cpuCapacity < Text.wordLimit && n.memoryCapacity < Text.wordLimit
    && n.cpuUsed < Text.wordLimit && n.memoryUsed < Text.wordLimit

theorem Node.plain_toJson (n : Node) : Json.Plain n.toJson :=
  Json.plain_object ⟨.string n.id, Json.plain_nat n.cpuCapacity, Json.plain_nat n.memoryCapacity,
    Json.plain_nat n.cpuUsed, Json.plain_nat n.memoryUsed, Overrides.plain_toJson n.labels,
    .bool n.unschedulable⟩

theorem Node.ofJson?_toJson {n : Node} (h : n.inRange = true) : Node.ofJson? n.toJson = some n := by
  simp only [inRange, Bool.and_eq_true, decide_eq_true_eq] at h
  obtain ⟨⟨⟨hcpu, hmemory⟩, hcpuUsed⟩, hmemoryUsed⟩ := h
  rw [ofJson?, toJson]
  refine Json.bind_fields? rfl (by decide) ?_
  simp only [Json.required_cons, Json.fieldOr_cons, String.reduceEq, if_true, if_false,
    Json.string?, Json.bool?, Json.nat?_nat hcpu, Json.nat?_nat hmemory, Json.nat?_nat hcpuUsed,
    Json.nat?_nat hmemoryUsed, Overrides.ofJson?_toJson, Option.bind_eq_bind, Option.bind_some]
  rfl

end Rescale
