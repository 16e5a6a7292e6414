import Rescale.Proofs.Record
import Rescale.Proofs.Store.Finite
import Rescale.Store.Database

/-!
# Stores and Their Tables

What is kept as text answers every question as the records themselves do.

A store is a picture of its tables in which every record stands for its text. For the
picture to be true, two things have to agree. The first is that writing and taking the
picture can be done in either order. Most writes do not look at what is there. They
put the text of a record where the store puts the record, or drop rows by their keys,
and neither depends on the other rows. Only counting reads the number that it raises,
and this one comes back whatever it is, since it is counted in 64 bits.

The second is that the text of a record is read as what the store says comes back of
it. That is the law of its kind, and the laws are about numbers in the range of their
fields: another one would be written and then not be read. So they hold for a store in
which all records are in range, and writes of such records keep it so.

## Main definitions

* `Database.apply`, `Database.run`: The tables after some operations.
* `Store.Operation.inRange`: The numbers of what is put are in range.
* `Store.InRange`: So are those of everything that is stored.
* `Database.Answers`: Tables answer every question as a store does.

## Theorems

* `decode_compact`: A written record is read from its text.
* `find?_mapValues`, `readBackAll_mapValues`: A look-up and a list read records back.
* `apply_database`, `run_eq`: Operations on the tables are those on the store.
* `inRange_foldl`: What is put in range is stored in range.
* `answers_database`: The tables of a store in range answer as the store does.
* `answers_run`: So do the tables after any operations that put records in range.
-/

namespace Rescale

/-! ### Operations -/

namespace Database

/-- A write for a job. Counting is the one that may fail. -/
def perform (d : Database) (job : JobId) : JobWrite → Except StoreError Database
  | .history h => .ok (d.putHistory job h)
  | .restartLog log => .ok (d.putRestartLog job log)
  | .parallelism o => .ok (d.putParallelism job o)
  | .profiles o => .ok (d.putProfiles job o)
  | .configChanges o => .ok (d.putConfigChanges job o)
  | .holds p => .ok (d.putPending job p)
  | .generation g => .ok (d.putGeneration job g)
  | .advancePeriod => d.advancePeriod job
  | .delete => .ok (d.deleteJob job)

/-- The tables after an operation. -/
def apply (d : Database) : Store.Operation → Except StoreError Database
  | .write job w => d.perform job w
  | .putNode n => .ok (d.putNode n)
  | .deleteNode id => .ok (d.deleteNode id)

/-- The tables after some operations, from empty ones. The first that fails ends it. -/
def run (ops : List Store.Operation) : Except StoreError Database := ops.foldlM apply {}

end Database

/-- The numbers of what is written are in the range of their fields. -/
def JobWrite.inRange : JobWrite → Bool
  | .history h => h.inRange
  | .restartLog log => log.inRange
  | .holds p => p.holds.inRange
  | .generation g => g.inRange
  | _ => true

/-- The numbers of what is put are in the range of their fields. -/
def Store.Operation.inRange : Store.Operation → Bool
  | .write _ w => w.inRange
  | .putNode n => n.inRange
  | .deleteNode _ => true

/-! ### Writing -/

namespace Database

theorem ext_rows {d d' : Database} (h : ∀ t, d.rows t = d'.rows t) : d = d' := by
  cases d
  exact congrArg mk (funext h)

section Decode

variable {β : Type} {read : Json → Option β} {j : Json} {x : β} (hj : j.Plain)

include hj

/-- A written record is read from its text. -/
theorem decode_compact (hread : read j = some x) : decode read j.compact = .ok x := by
  rw [decode, Json.ofText?_compact hj, Option.bind_some, hread]

/-- One that may be lost is read as what is left of it. -/
theorem decode_compact_ite {b : Bool} (hread : read j = if b then some x else none) :
    decode read j.compact = if b then .ok x else .error .unreadable := by
  rw [decode, Json.ofText?_compact hj, Option.bind_some, hread]
  cases b with
  | true => rfl
  | false => rfl

end Decode

section Rows

variable {α : Type} {f : α → Json} {m : SortedMap String α} {d d' : Database} {t : Table}

/-- A list reads back the records that were put. By induction on the list. -/
theorem readBackAll_mapValues {β : Type} {read : Json → Option β}
    {reread : α → Except StoreError β}
    (hread : ∀ key x, m.get? key = some x → decode read (f x).compact = reread x) :
    Store.readBackAll (decode read) (m.mapValues fun _ x => (f x).compact).values =
      Store.readBackAll reread m.values := by
  have hlist : ∀ l : List (String × α), (∀ e ∈ l, m.get? e.1 = some e.2) →
      Store.readBackAll (decode read) (l.map fun e => (f e.2).compact) =
        Store.readBackAll reread (l.map (·.2)) := by
    intro l
    induction l with
    | nil => exact fun _ => rfl
    | cons e rest ih =>
        intro hl
        rw [List.map_cons, List.map_cons, Store.readBackAll, Store.readBackAll,
          hread e.1 e.2 (hl e List.mem_cons_self),
          ih fun e' he' => hl e' (List.mem_cons_of_mem _ he')]
  rw [SortedMap.values_mapValues fun x => (f x).compact, SortedMap.values, List.map_map]
  exact hlist m.toList fun e he => SortedMap.mem_toList_iff.1 he

variable (hrow : d.rows t = m.mapValues fun _ x => (f x).compact)

include hrow

/-- Putting the text of a record leads to the tables of a store with the record, if it
    has the other tables as they are. -/
theorem put_eq {key : String} {x : α} (hrows : ∀ t', d'.rows t' =
      if t' = t then (m.insert key x).mapValues fun _ x => (f x).compact else d.rows t') :
    d.put t key (f x) = d' := by
  refine ext_rows fun t' => ?_
  rw [hrows, SortedMap.mapValues_insert fun x => (f x).compact, ← hrow]
  rfl

/-- A look-up reads back the record that was put. -/
theorem find?_mapValues {β : Type} {read : Json → Option β} {reread : α → Except StoreError β}
    (hread : ∀ key x, m.get? key = some x → decode read (f x).compact = reread x)
    (key : String) : d.find? t key read = Store.readBack? reread (m.get? key) := by
  rw [find?, hrow, SortedMap.get?_mapValues]
  cases hx : m.get? key with
  | none => rfl
  | some x => rw [Option.map_some, Store.readBack?, Store.readBack?, hread key x hx]

/-- A look-up finds what was put, if every record is read. -/
theorem find?_eq_ok {β : Type} {read : Json → Option β} {g : α → β}
    (hplain : ∀ x, (f x).Plain)
    (hread : ∀ key x, m.get? key = some x → read (f x) = some (g x)) (key : String) :
    d.find? t key read = .ok ((m.get? key).map g) := by
  have hback : ∀ key x, m.get? key = some x → decode read (f x).compact = .ok (g x) :=
    fun key x hx => decode_compact (hplain x) (hread key x hx)
  rw [find?_mapValues hrow hback]
  cases m.get? key with
  | none => rfl
  | some x => rfl

/-- It finds what was put as it was, if every record is read as it was. -/
theorem find?_self {read : Json → Option α} (hplain : ∀ x, (f x).Plain)
    (hread : ∀ key x, m.get? key = some x → read (f x) = some x) (key : String) :
    d.find? t key read = .ok (m.get? key) := by
  rw [find?_eq_ok (g := fun x => x) hrow hplain hread, Option.map_id']

end Rows

/-- The number of decisions comes back as far as 64 bits hold it. -/
theorem period_database (s : Store) (job : JobId) :
    s.database.period job = .ok (s.period job % Text.wordLimit) := by
  have hread : ∀ n : Nat, (Json.nat (n % Text.wordLimit)).nat? Text.wordLimit =
      some (n % Text.wordLimit) := fun n => Json.nat?_nat (Nat.mod_lt n (by decide))
  rw [period, find?_eq_ok (f := fun n => Json.nat (n % Text.wordLimit)) rfl
    (fun n => Json.plain_nat _) (fun _ n _ => hread n), Store.period, SortedMap.getD]
  cases s.periods.get? job with
  | none => rfl
  | some n => rfl

/-- Rows are dropped by their keys, and the text of a record has the key of the
    record. -/
theorem deleteJob_database (s : Store) (job : JobId) :
    s.database.deleteJob job = (s.deleteJob job).database := by
  refine ext_rows fun t => ?_
  cases t with
  | generations =>
      exact (SortedMap.mapValues_filter (fun g : Generation => g.toJson.compact)
        (fun key => !Store.isGenerationOf job key) s.generations).symm
  | nodes => rfl
  | _ => exact (SortedMap.mapValues_erase _ _ job).symm

/-- A write for a job on the tables of a store leads to the tables of the store after
    it. A put changes one table, and the others are the same on both sides. -/
theorem perform_database (s : Store) (job : JobId) (w : JobWrite) :
    s.database.perform job w = .ok (s.perform job w).database := by
  cases w with
  | history h => exact congrArg Except.ok (put_eq rfl fun t => by cases t <;> rfl)
  | restartLog log => exact congrArg Except.ok (put_eq rfl fun t => by cases t <;> rfl)
  | parallelism o => exact congrArg Except.ok (put_eq rfl fun t => by cases t <;> rfl)
  | profiles o => exact congrArg Except.ok (put_eq rfl fun t => by cases t <;> rfl)
  | configChanges o => exact congrArg Except.ok (put_eq rfl fun t => by cases t <;> rfl)
  | holds p =>
      exact congrArg Except.ok (put_eq (f := Holds.toJson) rfl fun t => by cases t <;> rfl)
  | generation g => exact congrArg Except.ok (put_eq rfl fun t => by cases t <;> rfl)
  | advancePeriod =>
      -- The number that is raised has lost what is beyond 64 bits, and the new one
      -- would lose it again.
      rw [perform, advancePeriod, period_database]
      change Except.ok (s.database.put .periods job
        (.nat ((s.period job % Text.wordLimit + 1) % Text.wordLimit))) = _
      rw [Nat.mod_add_mod]
      exact congrArg Except.ok (put_eq (f := fun n => Json.nat (n % Text.wordLimit)) rfl
        fun t => by cases t <;> rfl)
  | delete => exact congrArg Except.ok (deleteJob_database s job)

/-- An operation on the tables of a store leads to the tables of the store after it. -/
theorem apply_database (s : Store) (op : Store.Operation) :
    s.database.apply op = .ok (s.apply op).database := by
  cases op with
  | write job w => exact perform_database s job w
  | putNode n => exact congrArg Except.ok (put_eq rfl fun t => by cases t <;> rfl)
  | deleteNode id =>
      refine congrArg Except.ok (ext_rows fun t => ?_)
      cases t with
      | nodes => exact (SortedMap.mapValues_erase _ s.nodes id).symm
      | _ => rfl

theorem database_empty : ({} : Store).database = {} :=
  ext_rows fun t => by cases t <;> rfl

/-- No operation fails, and together they lead to the tables of the store after all of
    them. By induction on the operations. -/
theorem run_eq (ops : List Store.Operation) :
    run ops = .ok (ops.foldl Store.apply {}).database := by
  have hfrom : ∀ s : Store,
      ops.foldlM apply s.database = .ok (ops.foldl Store.apply s).database := by
    induction ops with
    | nil => exact fun s => rfl
    | cons op rest ih =>
        intro s
        rw [List.foldlM_cons, apply_database, List.foldl_cons, ← ih]
        rfl
  rw [run, ← database_empty, hfrom]

end Database

/-! ### Ranges -/

/-- The numbers of everything that is stored are in the range of their fields. -/
structure Store.InRange (s : Store) : Prop where
  histories : ∀ job h, s.histories.get? job = some h → h.inRange = true
  restartLogs : ∀ job log, s.restartLogs.get? job = some log → log.inRange = true
  holds : ∀ job h, s.holds.get? job = some h → h.inRange = true
  generations : ∀ key g, s.generations.get? key = some g → g.inRange = true
  nodes : ∀ id n, s.nodes.get? id = some n → n.inRange = true

namespace Store

variable {s : Store}

theorem inRange_empty : ({} : Store).InRange := ⟨nofun, nofun, nofun, nofun, nofun⟩

theorem inRange_perform (hs : s.InRange) (job : JobId) {w : JobWrite} (hw : w.inRange = true) :
    (s.perform job w).InRange := by
  cases w with
  | history h => exact { hs with histories := SortedMap.found_insert hs.histories hw }
  | restartLog log => exact { hs with restartLogs := SortedMap.found_insert hs.restartLogs hw }
  | holds p => exact { hs with holds := SortedMap.found_insert hs.holds hw }
  | generation g => exact { hs with generations := SortedMap.found_insert hs.generations hw }
  | delete =>
      exact
        { hs with
          histories := SortedMap.found_filter hs.histories
          restartLogs := SortedMap.found_filter hs.restartLogs
          holds := SortedMap.found_filter hs.holds
          generations := SortedMap.found_filter hs.generations }
  | _ => exact { hs with }

theorem inRange_apply (hs : s.InRange) {op : Operation} (hop : op.inRange = true) :
    (s.apply op).InRange := by
  cases op with
  | write job w => exact inRange_perform hs job hop
  | putNode n => exact { hs with nodes := SortedMap.found_insert hs.nodes hop }
  | deleteNode id => exact { hs with nodes := SortedMap.found_filter hs.nodes }

/-- By induction on the operations: each of them keeps a store in range. -/
theorem inRange_foldl (ops : List Operation) :
    (∀ op ∈ ops, op.inRange = true) → ∀ {s : Store}, s.InRange → (ops.foldl apply s).InRange := by
  induction ops with
  | nil => exact fun _ _ hs => hs
  | cons op rest ih =>
      intro hops s hs
      exact ih (fun op' hop' => hops op' (List.mem_cons_of_mem _ hop'))
        (inRange_apply hs (hops op List.mem_cons_self))

end Store

/-! ### Reading -/

theorem Store.readBackAll_ok {α : Type} (l : List α) : readBackAll .ok l = .ok l := by
  induction l with
  | nil => rfl
  | cons x rest ih => rw [readBackAll, ih]; rfl

namespace Database

/-- Tables answer every question as a store does. -/
structure Answers (d : Database) (s : Store) : Prop where
  history : ∀ job, d.history? job = s.history? job
  restartLog : ∀ job, d.restartLog? job = .ok (s.restartLog? job)
  parallelism : ∀ job, d.parallelism? job = .ok (s.parallelism? job)
  profiles : ∀ job, d.profiles? job = .ok (s.profiles? job)
  configChanges : ∀ job, d.configChanges? job = .ok (s.configChanges? job)
  pending : ∀ job, d.pending? job = .ok ((s.holds? job).map PendingScaleDowns.ofHolds)
  /-- The number of decisions has 64 bits. -/
  period : ∀ job, d.period job = .ok (s.period job % Text.wordLimit)
  generation : ∀ job period, d.generation? job period = s.generation? job period
  generations : ∀ job, d.generationsOf job = s.generationsOf job
  nodes : d.nodeList = .ok s.nodeList
  recordCount : ∀ job, d.recordCount job = s.recordCount job

theorem decode_history {h : History} (hrange : h.inRange = true) :
    decode (History.ofJson? Json.float?) h.toJson.compact = Store.rereadHistory h := by
  rw [decode_compact_ite h.plain_toJson (History.ofJson?_toJson hrange), Store.rereadHistory_eq]

theorem decode_generation {g : Generation} (hrange : g.inRange = true) :
    decode (Generation.ofJson? Json.float?) g.toJson.compact = Store.rereadGeneration g := by
  rw [decode_compact_ite g.plain_toJson (Generation.ofJson?_toJson hrange),
    Store.rereadGeneration_eq]

/-- The generations of a job are told by their keys, so their texts are those listed. -/
theorem filter_generations_database (s : Store) (job : JobId) :
    (s.database.rows .generations).filter (fun key _ => Store.isGenerationOf job key) =
      (s.generations.filter fun key _ => Store.isGenerationOf job key).mapValues
        fun _ g => g.toJson.compact :=
  (SortedMap.mapValues_filter (fun g : Generation => g.toJson.compact)
    (Store.isGenerationOf job) s.generations).symm

theorem generationsOf_database {s : Store} (hs : s.InRange) (job : JobId) :
    s.database.generationsOf job = s.generationsOf job := by
  rw [generationsOf, filter_generations_database, Store.generationsOf]
  exact readBackAll_mapValues (f := Generation.toJson) fun key g hg =>
    decode_generation (SortedMap.found_filter hs.generations key g hg)

theorem nodeList_database {s : Store} (hs : s.InRange) : s.database.nodeList = .ok s.nodeList := by
  have hread : s.database.nodeList = Store.readBackAll .ok s.nodeList :=
    readBackAll_mapValues (f := Node.toJson) fun id n hn =>
      decode_compact n.plain_toJson (Node.ofJson?_toJson (hs.nodes id n hn))
  rw [hread, Store.readBackAll_ok]

theorem recordCount_database (s : Store) (job : JobId) :
    s.database.recordCount job = s.recordCount job := by
  rw [recordCount, filter_generations_database, SortedMap.size_mapValues, Store.recordCount]
  simp only [Table.ofJobs, List.countP_cons, List.countP_nil, Store.database,
    SortedMap.contains_mapValues, Store.countOf]
  omega

/-- The tables of a store in which all records are in range answer as the store
    does. -/
theorem answers_database {s : Store} (hs : s.InRange) : s.database.Answers s where
  history := find?_mapValues rfl fun job h hh => decode_history (hs.histories job h hh)
  restartLog := find?_self rfl RestartLog.plain_toJson fun job log hlog =>
    RestartLog.ofJson?_toJson (hs.restartLogs job log hlog)
  parallelism := find?_self rfl Overrides.plain_toJson fun _ o _ => o.ofJson?_toJson
  profiles := find?_self rfl Overrides.plain_toJson fun _ o _ => o.ofJson?_toJson
  configChanges := find?_self rfl Overrides.plain_changesJson fun _ o _ =>
    o.ofChangesJson?_changesJson
  pending := find?_eq_ok rfl Holds.plain_toJson fun job h hh =>
    PendingScaleDowns.ofJson?_toJson (p := { holds := h }) (hs.holds job h hh)
  period := period_database s
  generation := fun job period =>
    find?_mapValues rfl (fun key g hg => decode_generation (hs.generations key g hg))
      (Store.generationKey job period)
  generations := generationsOf_database hs
  nodes := nodeList_database hs
  recordCount := recordCount_database s

/-- The tables after operations on records in range answer as the store after them
    does. -/
theorem answers_run {ops : List Store.Operation} (h : ∀ op ∈ ops, op.inRange = true) :
    ∃ d, run ops = .ok d ∧ d.Answers (ops.foldl Store.apply {}) :=
  ⟨_, run_eq ops, answers_database (Store.inRange_foldl ops h Store.inRange_empty)⟩

end Database

end Rescale
