import Mathlib.Data.List.DropRight
import Rescale.Proofs.Store.Database
import Rescale.Proofs.Text.Bytes

/-!
# The Store as a Map

A store gives back what was last put into it, although it keeps nothing but texts.

Many things may have been done to a store, for all kinds of jobs and nodes. What it
answers about a job is settled by few of them: by the writes for this job after its
records were last deleted, and among them by the last one for the record in question.
The number of decisions is an exception only at first sight. Each write of it adds
one to what is there, so the last one has counted them all.

What was last put is then written in a text, and what is answered is read from it.
Two kinds of records do not come back as they were put. A history comes back reread,
that is with each double as its numeral is read, and it does not come back at all if
one of them is not finite. Pending scale-downs come back without the mark that they
were changed. All others come back unchanged.

The nodes are a map of their own. They are listed by identifier, in the order of the
bytes.

## Main definitions

* `Store.after`: A store after some operations, from the empty one.
* `Store.sinceDelete`: The writes for a job since its records were last deleted.
* `Store.lastPut?`: The last record of one kind among them.
* `Store.lastNode?`: The last record of a node, unless the node was deleted.
* `Store.Faithful`: What is answered about a job is what was last put.

## Theorems

* `found_after`: What operations set is as the last of them has set it.
* `row_after`: What belongs to a job depends on the writes since the last delete.
* `get?_after`: A row of a table holds what was last put into it.
* `get?_nodes_after`: So does the table of the nodes.
* `faithful_of_answers`: What is read from the texts is what was put.
* `store_faithful`: A store is a faithful map.
-/

namespace Rescale

namespace JobWrite

/-- The write removes all records of the job. -/
def isDelete : JobWrite → Bool
  | .delete => true
  | _ => false

/-- The write counts one more decision. -/
def isAdvance : JobWrite → Bool
  | .advancePeriod => true
  | _ => false

/-- The history that is written, if it is one. -/
def history? : JobWrite → Option History
  | .history h => some h
  | _ => none

/-- The restart log that is written, if it is one. -/
def restartLog? : JobWrite → Option RestartLog
  | .restartLog log => some log
  | _ => none

/-- The parallelism of the vertices that is written, if it is that. -/
def parallelism? : JobWrite → Option Overrides
  | .parallelism o => some o
  | _ => none

/-- The slot profiles that are written, if it is these. -/
def profiles? : JobWrite → Option Overrides
  | .profiles o => some o
  | _ => none

/-- The changed options that are written, if it is these. -/
def configChanges? : JobWrite → Option Overrides
  | .configChanges o => some o
  | _ => none

/-- The pending scale-downs that are written, if it is these. -/
def pending? : JobWrite → Option PendingScaleDowns
  | .holds p => some p
  | _ => none

end JobWrite

namespace Store

/-! ### What was last put -/

/-- A store after some operations, from the empty one. -/
def after (ops : List Operation) : Store := ops.foldl apply {}

/-- The write that an operation makes for a job, if it makes one. -/
def Operation.writeFor? (job : JobId) : Operation → Option JobWrite
  | .write owner w => if owner = job then some w else none
  | _ => none

/-- The writes for a job since its records were last deleted. -/
def sinceDelete (job : JobId) (ops : List Operation) : List JobWrite :=
  (ops.filterMap (Operation.writeFor? job)).rtakeWhile fun w => !w.isDelete

/-- The last record of one kind that was put for a job since its records were last
    deleted. -/
def lastPut? {α : Type} (pick : JobWrite → Option α) (job : JobId) (ops : List Operation) :
    Option α :=
  ((sinceDelete job ops).filterMap pick).getLast?

/-- What an operation does to a node, if it is about this node: it puts a record, or
    it deletes the node. -/
def Operation.nodeFor? (id : String) : Operation → Option (Option Node)
  | .putNode n => if n.id = id then some (some n) else none
  | .deleteNode id' => if id' = id then some none else none
  | .write _ _ => none

/-- The last record that was put of a node, unless the node was deleted since. -/
def lastNode? (id : String) (ops : List Operation) : Option Node :=
  (ops.filterMap (Operation.nodeFor? id)).getLast?.join

theorem after_concat (ops : List Operation) (op : Operation) :
    after (ops ++ [op]) = (after ops).apply op :=
  List.foldl_concat _ _ _ _

/-- What every operation either sets or leaves as it is, is after some operations
    what the last of them that set it has made of it. By induction on the operations,
    with a case for the last one. -/
theorem found_after {α : Type} (find : Store → Option α) {effect? : Operation → Option (Option α)}
    (hempty : find {} = none) (happly : ∀ s op, find (s.apply op) = (effect? op).getD (find s))
    (ops : List Operation) : find (after ops) = (ops.filterMap effect?).getLast?.join := by
  induction ops using List.reverseRecOn with
  | nil => exact hempty
  | append_singleton ops op ih =>
      rw [after_concat, happly, ih, List.filterMap_append, List.getLast?_append]
      cases heffect : effect? op with
      | none => rw [List.filterMap_cons_none heffect]; rfl
      | some made => rw [List.filterMap_cons_some heffect]; rfl

/-! ### Rows of a job -/

/-- An operation that makes no write for a job keeps its rows. -/
theorem sameRows_apply {job : JobId} (s : Store) {op : Operation} (h : op.writeFor? job = none) :
    SameRows job s (s.apply op) := by
  cases op with
  | write owner w =>
      have hne : job ≠ owner := by
        rintro rfl
        rw [Operation.writeFor?, if_pos rfl] at h
        cases h
      exact sameRows_perform hne s w
  | putNode n => exact ⟨rfl, rfl, rfl, rfl, rfl, rfl, rfl⟩
  | deleteNode id => exact ⟨rfl, rfl, rfl, rfl, rfl, rfl, rfl⟩

/-- An operation that makes a write for a job is this write. -/
theorem apply_of_writeFor? {job : JobId} (s : Store) {op : Operation} {w : JobWrite}
    (h : op.writeFor? job = some w) : s.apply op = s.perform job w := by
  cases op with
  | write owner w' =>
      rw [Operation.writeFor?] at h
      split at h
      · next howner =>
        obtain rfl := Option.some.inj h
        rw [apply, howner]
      · cases h
  | putNode n => cases h
  | deleteNode id => cases h

section Rows

variable {job : JobId} {β : Type} {f : Store → β} {g : List JobWrite → β}

/-- What depends on the rows of a job only depends on the writes since its records
    were last deleted. By induction on the operations, with a case for the last one:
    it makes no write for the job, or deletes its records, or writes one of them. -/
theorem row_after (hrows : ∀ s t, SameRows job s t → f t = f s) (hempty : f {} = g [])
    (hdelete : ∀ s : Store, f (s.perform job .delete) = g [])
    (hwrite : ∀ (s : Store) w writes, w.isDelete = false → f s = g writes →
      f (s.perform job w) = g (writes ++ [w]))
    (ops : List Operation) : f (after ops) = g (sinceDelete job ops) := by
  induction ops using List.reverseRecOn with
  | nil => exact hempty
  | append_singleton ops op ih =>
      rw [after_concat, sinceDelete, List.filterMap_append]
      cases hw : op.writeFor? job with
      | none =>
          rw [List.filterMap_cons_none hw, List.filterMap_nil, List.append_nil,
            hrows _ _ (sameRows_apply _ hw)]
          exact ih
      | some w =>
          rw [List.filterMap_cons_some hw, List.filterMap_nil, apply_of_writeFor? _ hw]
          cases hdel : w.isDelete with
          | false =>
              rw [List.rtakeWhile_concat_pos _ _ _ (by rw [hdel]; rfl)]
              exact hwrite _ w _ hdel ih
          | true =>
              rw [List.rtakeWhile_concat_neg _ _ _ (by rw [hdel]; exact Bool.false_ne_true)]
              cases w with
              | delete => exact hdelete _
              | _ => cases hdel

end Rows

/-- A write puts one row of a job or none, and leaves the others. -/
structure Puts (job : JobId) (w : JobWrite) (s t : Store) : Prop where
  history : t.histories.get? job = w.history?.or (s.histories.get? job)
  restartLog : t.restartLogs.get? job = w.restartLog?.or (s.restartLogs.get? job)
  parallelism : t.parallelisms.get? job = w.parallelism?.or (s.parallelisms.get? job)
  profiles : t.profiles.get? job = w.profiles?.or (s.profiles.get? job)
  configChanges : t.configChanges.get? job = w.configChanges?.or (s.configChanges.get? job)
  holds : t.holds.get? job = (w.pending?.map (·.holds)).or (s.holds.get? job)

theorem puts_perform {job : JobId} (s : Store) {w : JobWrite} (hw : w.isDelete = false) :
    Puts job w s (s.perform job w) := by
  have hput : ∀ {α : Type} (m : SortedMap JobId α) (x : α), (m.insert job x).get? job = some x :=
    fun m x => SortedMap.get?_insert_self m job x
  cases w with
  | history h => exact ⟨hput _ h, rfl, rfl, rfl, rfl, rfl⟩
  | restartLog log => exact ⟨rfl, hput _ log, rfl, rfl, rfl, rfl⟩
  | parallelism o => exact ⟨rfl, rfl, hput _ o, rfl, rfl, rfl⟩
  | profiles o => exact ⟨rfl, rfl, rfl, hput _ o, rfl, rfl⟩
  | configChanges o => exact ⟨rfl, rfl, rfl, rfl, hput _ o, rfl⟩
  | holds p => exact ⟨rfl, rfl, rfl, rfl, rfl, hput _ p.holds⟩
  | generation g => exact ⟨rfl, rfl, rfl, rfl, rfl, rfl⟩
  | advancePeriod => exact ⟨rfl, rfl, rfl, rfl, rfl, rfl⟩
  | delete => cases hw

/-- A row of a table of jobs holds what was last put into it, if every write but a
    delete either puts the row or leaves it. -/
theorem get?_after {α : Type} {job : JobId} (table : Store → SortedMap JobId α)
    {pick : JobWrite → Option α}
    (hrows : ∀ s t, SameRows job s t → (table t).get? job = (table s).get? job)
    (hempty : table {} = ∅) (hdelete : ∀ s, table (s.deleteJob job) = (table s).erase job)
    (hputs : ∀ (s : Store) w, w.isDelete = false →
      (table (s.perform job w)).get? job = (pick w).or ((table s).get? job))
    (ops : List Operation) : (table (after ops)).get? job = lastPut? pick job ops := by
  have hgone : ∀ s : Store, (table (s.perform job .delete)).get? job = none := by
    intro s
    rw [perform, hdelete, SortedMap.get?_erase_self]
  refine row_after (f := fun s => (table s).get? job)
    (g := fun writes => (writes.filterMap pick).getLast?) hrows (by rw [hempty]; rfl) hgone
    (fun s w writes hw hs => ?_) ops
  rw [hputs s w hw, hs, List.filterMap_append, List.getLast?_append]
  cases hpick : pick w with
  | none => rw [List.filterMap_cons_none hpick]; rfl
  | some x => rw [List.filterMap_cons_some hpick]; rfl

theorem lastPut?_map {α β : Type} (f : α → β) (pick : JobWrite → Option α) (job : JobId)
    (ops : List Operation) :
    lastPut? (fun w => (pick w).map f) job ops = (lastPut? pick job ops).map f := by
  rw [lastPut?, ← List.map_filterMap, List.getLast?_map, lastPut?]

/-- The number of decisions is that of the writes that counted one. -/
theorem period_after (job : JobId) (ops : List Operation) :
    (after ops).period job = (sinceDelete job ops).countP JobWrite.isAdvance := by
  refine row_after (f := fun s => s.period job) (fun s t h => congrArg (·.getD 0) h.period) rfl
    (fun s => congrArg (·.getD 0) (SortedMap.get?_erase_self s.periods job))
    (fun s w writes hw hs => ?_) ops
  rw [List.countP_append, List.countP_singleton, ← hs]
  cases w with
  | advancePeriod => exact congrArg (·.getD 0) (SortedMap.get?_insert_self s.periods job _)
  | delete => cases hw
  | _ => rfl

/-! ### Nodes -/

/-- An operation on a node puts or deletes its record, and all others leave it. -/
theorem get?_nodes_apply (s : Store) (op : Operation) (id : String) :
    (s.apply op).nodes.get? id = (op.nodeFor? id).getD (s.nodes.get? id) := by
  cases op with
  | write job w =>
      cases w with
      | _ => rfl
  | putNode n =>
      rw [apply, putNode, Operation.nodeFor?]
      by_cases hid : n.id = id
      · rw [if_pos hid, ← hid, SortedMap.get?_insert_self, Option.getD_some]
      · rw [if_neg hid, SortedMap.get?_insert_of_ne _ _ (Ne.symm hid), Option.getD_none]
  | deleteNode id' =>
      rw [apply, deleteNode, Operation.nodeFor?]
      by_cases hid : id' = id
      · rw [if_pos hid, hid, SortedMap.get?_erase_self, Option.getD_some]
      · rw [if_neg hid, SortedMap.get?_erase_of_ne _ (Ne.symm hid), Option.getD_none]

theorem get?_nodes_after (id : String) (ops : List Operation) :
    (after ops).nodes.get? id = lastNode? id ops :=
  found_after (fun s => s.nodes.get? id) rfl (fun s op => get?_nodes_apply s op id) ops

theorem filed_after (ops : List Operation) : (after ops).Filed :=
  filed_of_reachable (reachable_foldl ops .empty)

/-- A node is listed if it is the last record that was put of it. -/
theorem mem_nodeList_after_iff {n : Node} {ops : List Operation} :
    n ∈ (after ops).nodeList ↔ lastNode? n.id ops = some n := by
  rw [← get?_nodes_after, nodeList, SortedMap.values, List.mem_map]
  constructor
  · rintro ⟨⟨id, n'⟩, hmem, rfl⟩
    have hfound := SortedMap.mem_toList_iff.1 hmem
    rwa [← (filed_after ops).nodes id n' hfound] at hfound
  · intro hfound
    exact ⟨(n.id, n), SortedMap.mem_toList_iff.2 hfound, rfl⟩

/-- Nodes are listed in the order of the bytes of their identifiers. -/
theorem pairwise_nodeList_after (ops : List Operation) :
    (after ops).nodeList.Pairwise fun a b => Text.bytes a.id < Text.bytes b.id := by
  rw [nodeList, SortedMap.values, List.pairwise_map]
  refine (after ops).nodes.sorted.imp_of_mem fun {a b} ha hb hlt => ?_
  have hfiled : ∀ e ∈ (after ops).nodes.toList, e.2.id = e.1 := fun e he =>
    (filed_after ops).nodes e.1 e.2 (SortedMap.mem_toList_iff.1 he)
  rw [hfiled a ha, hfiled b hb]
  exact Text.compare_eq_lt_iff.1 hlt

/-! ### Faithfulness -/

/-- What is answered about a job is what was last put for it by some operations, since
    its records were last deleted. -/
structure Faithful (ops : List Operation) (job : JobId) (d : Database) : Prop where
  /-- There is no history as long as none was put. -/
  noHistory : lastPut? JobWrite.history? job ops = none → d.history? job = .ok none
  /-- A finite history comes back with its doubles reread. -/
  history : ∀ h, lastPut? JobWrite.history? job ops = some h → h.isFinite = true →
    d.history? job = .ok (some (h.mapFloats Decimal.reread))
  /-- It comes back as it was if its doubles do. -/
  sameHistory : ∀ h, lastPut? JobWrite.history? job ops = some h → h.isFinite = true →
    h.mapFloats Decimal.reread = h → d.history? job = .ok (some h)
  /-- One that is not finite was put and is lost. -/
  lostHistory : ∀ h, lastPut? JobWrite.history? job ops = some h → h.isFinite = false →
    d.history? job = .error .unreadable
  restartLog : d.restartLog? job = .ok (lastPut? JobWrite.restartLog? job ops)
  parallelism : d.parallelism? job = .ok (lastPut? JobWrite.parallelism? job ops)
  profiles : d.profiles? job = .ok (lastPut? JobWrite.profiles? job ops)
  configChanges : d.configChanges? job = .ok (lastPut? JobWrite.configChanges? job ops)
  /-- Pending scale-downs come back without the mark that they were changed. -/
  pending : d.pending? job =
    .ok ((lastPut? JobWrite.pending? job ops).map fun p => { p with changed := false })
  /-- Each write of the number of decisions has added one, in 64 bits. -/
  period : d.period job = .ok ((sinceDelete job ops).countP JobWrite.isAdvance % Text.wordLimit)

/-- Tables that answer as the store after some operations give back what was last put
    into them. -/
theorem faithful_of_answers {ops : List Operation} {d : Database} (hd : d.Answers (after ops))
    (job : JobId) : Faithful ops job d := by
  have hhistory : (after ops).histories.get? job = lastPut? JobWrite.history? job ops :=
    get?_after histories (fun _ _ h => h.history) rfl (fun _ => rfl)
      (fun s _ hw => (puts_perform s hw).history) ops
  have hread : ReadsBack History.isFinite (·.mapFloats Decimal.reread)
      (lastPut? JobWrite.history? job ops) (d.history? job) := by
    rw [hd.history, history?, hhistory]
    exact readsBack_readBack? rereadHistory_eq _
  have hholds : (after ops).holds? job =
      (lastPut? JobWrite.pending? job ops).map PendingScaleDowns.holds := by
    rw [← lastPut?_map]
    exact get?_after Store.holds (fun _ _ h => h.holds) rfl (fun _ => rfl)
      (fun s _ hw => (puts_perform s hw).holds) ops
  exact
    { noHistory := hread.missing
      history := hread.found
      sameHistory := hread.same
      lostHistory := hread.lost
      restartLog := (hd.restartLog job).trans <| congrArg Except.ok <|
        get?_after restartLogs (fun _ _ h => h.restartLog) rfl (fun _ => rfl)
          (fun s _ hw => (puts_perform s hw).restartLog) ops
      parallelism := (hd.parallelism job).trans <| congrArg Except.ok <|
        get?_after parallelisms (fun _ _ h => h.parallelism) rfl (fun _ => rfl)
          (fun s _ hw => (puts_perform s hw).parallelism) ops
      profiles := (hd.profiles job).trans <| congrArg Except.ok <|
        get?_after profiles (fun _ _ h => h.profiles) rfl (fun _ => rfl)
          (fun s _ hw => (puts_perform s hw).profiles) ops
      configChanges := (hd.configChanges job).trans <| congrArg Except.ok <|
        get?_after configChanges (fun _ _ h => h.configChanges) rfl (fun _ => rfl)
          (fun s _ hw => (puts_perform s hw).configChanges) ops
      pending := by
        rw [hd.pending, hholds, Option.map_map]
        rfl
      period := by rw [hd.period, period_after] }

/-- The store is a faithful map. No operation fails, on whatever jobs and nodes, and
    what is answered after them about each job is what was last put for it since its
    records were last deleted. The nodes that are listed are exactly the last records of
    those that were not deleted since, ascending by the bytes of the identifiers. -/
theorem store_faithful (ops : List Operation) (h : ∀ op ∈ ops, op.inRange = true) :
    ∃ d, Database.run ops = .ok d ∧ (∀ job, Faithful ops job d) ∧
      ∃ nodes, d.nodeList = .ok nodes ∧
        nodes.Pairwise (fun a b => Text.bytes a.id < Text.bytes b.id) ∧
        ∀ n, n ∈ nodes ↔ lastNode? n.id ops = some n := by
  obtain ⟨d, hrun, hd⟩ := Database.answers_run h
  exact ⟨d, hrun, faithful_of_answers hd, (after ops).nodeList, hd.nodes,
    pairwise_nodeList_after ops, fun _ => mem_nodeList_after_iff⟩

namespace Refilled

/-- A history of one change, with the rate that it was based on. -/
def historyAt (rate : Float) : History :=
  SortedMap.ofList [("map", SortedMap.ofList [(⟨0⟩,
    { current := 2, target := 4,
      readings := SortedMap.ofList [(.trueProcessingRate, .point rate)] })])]

def node (id : String) (cpu : Nat) : Node := ⟨id, cpu, 1024, 0, 0, ∅, false⟩

/-- The first history of `orders` is deleted with the job, that of `payments` cannot
    be read, and one node is put twice and another one removed. -/
def ops : List Operation :=
  [.write "orders" (.history (historyAt (1.0 / 0.0))), .write "orders" .advancePeriod,
    .write "orders" .delete, .write "payments" (.history (historyAt (1.0 / 0.0))),
    .write "orders" (.history (historyAt 0.1)), .write "orders" .advancePeriod,
    .putNode (node "b" 1000), .putNode (node "a" 1000), .putNode (node "b" 2000),
    .deleteNode "a"]

theorem store_faithful_refilled :
    ∃ d nodes, Database.run ops = .ok d ∧ d.history? "orders" = .ok (some (historyAt 0.1)) ∧
      d.history? "payments" = .error .unreadable ∧ d.period "orders" = .ok 1 ∧
      d.nodeList = .ok nodes ∧ node "b" 2000 ∈ nodes ∧ node "a" 1000 ∉ nodes := by
  rcases store_faithful ops (by decide +kernel) with ⟨d, hrun, hjobs, nodes, hlist, _, hnodes⟩
  refine ⟨d, nodes, hrun, ?_, ?_, ?_, hlist, ?_, ?_⟩
  · exact (hjobs "orders").sameHistory _ rfl (by decide +kernel) (by decide +kernel)
  · exact (hjobs "payments").lostHistory _ rfl (by decide +kernel)
  · exact (hjobs "orders").period.trans (by decide)
  · exact (hnodes _).2 rfl
  · exact fun hmem => absurd ((hnodes _).1 hmem) (by decide)

end Refilled

end Store

end Rescale
