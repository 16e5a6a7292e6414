import Rescale.SortedMap.Lemmas
import Rescale.Store.Basic

/-!
# Writes to the Store

What can be done to a store, and what each write leaves alone.

Everything that happens to a store is done for one job or to one node. A write
for a job touches one row in one table, but for two of them: a generation goes
into the table that all jobs share, and deleting a job takes its row from every
table of jobs and its keys from that of the generations. The rows of another job
are therefore the same after any write. What a store holds is filed by what it
is: a generation lies under the key of its own period, and a node under its own
identifier.

## Main definitions

* `JobWrite`: What can be written for a job.
* `JobWrite.Within`: Nothing is deleted, and no other period is touched.
* `Store.perform`, `Store.performAll`: A write for a job, and several of them.
* `Store.Operation`, `Store.apply`: Anything that can be done to a store.
* `Store.Reachable`: A store that operations have led to.
* `Store.SameRows`: A job has the same row in every table of jobs.
* `Store.SameElsewhere`: Nothing but the rows and one generation of a job
  differs.
* `Store.Filed`: Generations and nodes lie under keys of their own.

## Theorems

* `sameRows_perform`: Writes for one job keep the rows of the others.
* `sameElsewhere_perform`, `sameElsewhere_performAll`: What writes that delete
  nothing may change.
* `filed_of_reachable`: Stores are filed.
* `nodup_id_nodeList`: No two nodes have the same identifier.
-/

namespace Rescale

/-- What can be written for a job. -/
inductive JobWrite where
  | history (h : History)
  | restartLog (log : RestartLog)
  | parallelism (o : Overrides)
  | profiles (o : Overrides)
  | configChanges (o : Overrides)
  | holds (p : PendingScaleDowns)
  | generation (g : Generation)
  /-- One more decision is counted. -/
  | advancePeriod
  /-- All records of the job are removed. -/
  | delete

/-- A write deletes nothing, and a generation that it puts is that of a period. -/
def JobWrite.Within (period : Nat) : JobWrite → Prop
  | .delete => False
  | .generation g => g.period = period
  | _ => True

namespace Store

/-- A write for a job. -/
def perform (s : Store) (job : JobId) : JobWrite → Store
  | .history h => s.putHistory job h
  | .restartLog log => s.putRestartLog job log
  | .parallelism o => s.putParallelism job o
  | .profiles o => s.putProfiles job o
  | .configChanges o => s.putConfigChanges job o
  | .holds p => s.putHolds job p.holds
  | .generation g => s.putGeneration job g
  | .advancePeriod => s.advancePeriod job
  | .delete => s.deleteJob job

/-- Several writes for a job, one after the other. -/
def performAll (s : Store) (job : JobId) (writes : List JobWrite) : Store :=
  writes.foldl (fun s w => s.perform job w) s

/-- Anything that can be done to a store. -/
inductive Operation where
  | write (job : JobId) (w : JobWrite)
  | putNode (n : Node)
  | deleteNode (id : String)

/-- The store after an operation. -/
def apply (s : Store) : Operation → Store
  | .write job w => s.perform job w
  | .putNode n => s.putNode n
  | .deleteNode id => s.deleteNode id

/-- A store that operations have led to, from the empty one. -/
inductive Reachable : Store → Prop
  | empty : Reachable {}
  | apply {s : Store} (op : Operation) : Reachable s → Reachable (s.apply op)

theorem reachable_foldl (ops : List Operation) :
    ∀ {s : Store}, s.Reachable → (ops.foldl apply s).Reachable := by
  induction ops with
  | nil => exact fun h => h
  | cons op rest ih => exact fun h => ih (.apply op h)

/-! ### What a write leaves alone -/

/-- A job has the same row in two stores, in every table of jobs. -/
structure SameRows (job : JobId) (s t : Store) : Prop where
  history : t.histories.get? job = s.histories.get? job
  restartLog : t.restartLogs.get? job = s.restartLogs.get? job
  parallelism : t.parallelisms.get? job = s.parallelisms.get? job
  profiles : t.profiles.get? job = s.profiles.get? job
  configChanges : t.configChanges.get? job = s.configChanges.get? job
  holds : t.holds.get? job = s.holds.get? job
  period : t.periods.get? job = s.periods.get? job

theorem SameRows.refl (job : JobId) (s : Store) : SameRows job s s :=
  ⟨rfl, rfl, rfl, rfl, rfl, rfl, rfl⟩

theorem SameRows.trans {job : JobId} {s t u : Store} (h : SameRows job s t)
    (h' : SameRows job t u) : SameRows job s u where
  history := h'.history.trans h.history
  restartLog := h'.restartLog.trans h.restartLog
  parallelism := h'.parallelism.trans h.parallelism
  profiles := h'.profiles.trans h.profiles
  configChanges := h'.configChanges.trans h.configChanges
  holds := h'.holds.trans h.holds
  period := h'.period.trans h.period

/-- A write for one job keeps the rows of every other one. -/
theorem sameRows_perform {job other : JobId} (hne : other ≠ job) (s : Store) (w : JobWrite) :
    SameRows other s (s.perform job w) := by
  cases w with
  | history h => exact { SameRows.refl other s with history := SortedMap.get?_insert_of_ne _ _ hne }
  | restartLog log =>
      exact { SameRows.refl other s with restartLog := SortedMap.get?_insert_of_ne _ _ hne }
  | parallelism o =>
      exact { SameRows.refl other s with parallelism := SortedMap.get?_insert_of_ne _ _ hne }
  | profiles o =>
      exact { SameRows.refl other s with profiles := SortedMap.get?_insert_of_ne _ _ hne }
  | configChanges o =>
      exact { SameRows.refl other s with configChanges := SortedMap.get?_insert_of_ne _ _ hne }
  | holds h => exact { SameRows.refl other s with holds := SortedMap.get?_insert_of_ne _ _ hne }
  | generation g => exact ⟨rfl, rfl, rfl, rfl, rfl, rfl, rfl⟩
  | advancePeriod =>
      exact { SameRows.refl other s with period := SortedMap.get?_insert_of_ne _ _ hne }
  | delete =>
      -- Every table of jobs loses a row, and it is not that of the other one.
      exact
        { history := SortedMap.get?_erase_of_ne _ hne
          restartLog := SortedMap.get?_erase_of_ne _ hne
          parallelism := SortedMap.get?_erase_of_ne _ hne
          profiles := SortedMap.get?_erase_of_ne _ hne
          configChanges := SortedMap.get?_erase_of_ne _ hne
          holds := SortedMap.get?_erase_of_ne _ hne
          period := SortedMap.get?_erase_of_ne _ hne }

/-- Two stores differ at most in the rows of a job and in its generation under
    one period. -/
structure SameElsewhere (job : JobId) (period : Nat) (s t : Store) : Prop where
  rows : ∀ other, other ≠ job → SameRows other s t
  generations : ∀ key, key ≠ generationKey job period → t.generations.get? key =
    s.generations.get? key
  nodes : t.nodes = s.nodes

theorem SameElsewhere.refl (job : JobId) (period : Nat) (s : Store) :
    SameElsewhere job period s s :=
  ⟨fun other _ => .refl other s, fun _ _ => rfl, rfl⟩

theorem SameElsewhere.trans {job : JobId} {period : Nat} {s t u : Store}
    (h : SameElsewhere job period s t) (h' : SameElsewhere job period t u) :
    SameElsewhere job period s u where
  rows := fun other hne => (h.rows other hne).trans (h'.rows other hne)
  generations := fun key hkey => (h'.generations key hkey).trans (h.generations key hkey)
  nodes := h'.nodes.trans h.nodes

/-- A write that deletes nothing and puts no generation under another period
    changes nothing elsewhere. -/
theorem sameElsewhere_perform {job : JobId} {period : Nat} (s : Store) {w : JobWrite}
    (hw : w.Within period) : SameElsewhere job period s (s.perform job w) := by
  refine ⟨fun other hne => sameRows_perform hne s w, fun key hkey => ?_, ?_⟩
  · cases w with
    | generation g =>
        obtain rfl : g.period = period := hw
        exact SortedMap.get?_insert_of_ne _ _ hkey
    | delete => exact hw.elim
    | _ => rfl
  · cases w with
    | _ => rfl

/-- By induction on the writes: each of them changes nothing elsewhere. -/
theorem sameElsewhere_performAll {job : JobId} {period : Nat} (writes : List JobWrite) :
    (∀ w ∈ writes, w.Within period) → ∀ s : Store,
      SameElsewhere job period s (s.performAll job writes) := by
  induction writes with
  | nil => exact fun _ s => .refl job period s
  | cons w rest ih =>
      intro hw s
      exact (sameElsewhere_perform s (hw w List.mem_cons_self)).trans
        (ih (fun w' hw' => hw w' (List.mem_cons_of_mem _ hw')) (s.perform job w))

/-! ### Filing -/

/-- What a store holds is filed by what it is: a generation under a key with its
    own period, and a node under its own identifier. -/
structure Filed (s : Store) : Prop where
  generations : ∀ key g, s.generations.get? key = some g → ∃ job, key = generationKey job g.period
  nodes : ∀ id n, s.nodes.get? id = some n → n.id = id

theorem filed_perform {s : Store} (hs : s.Filed) (job : JobId) (w : JobWrite) :
    (s.perform job w).Filed := by
  cases w with
  | generation g =>
      exact { hs with generations := SortedMap.found_insert hs.generations ⟨job, rfl⟩ }
  | delete => exact { hs with generations := SortedMap.found_filter hs.generations }
  | _ => exact ⟨hs.generations, hs.nodes⟩

theorem filed_apply {s : Store} (hs : s.Filed) (op : Operation) : (s.apply op).Filed := by
  cases op with
  | write job w => exact filed_perform hs job w
  | putNode n => exact { hs with nodes := SortedMap.found_insert hs.nodes rfl }
  | deleteNode id => exact { hs with nodes := SortedMap.found_filter hs.nodes }

/-- Every operation files what it puts, and so do all of them together. -/
theorem filed_of_reachable {s : Store} (h : s.Reachable) : s.Filed := by
  induction h with
  | empty => exact ⟨nofun, nofun⟩
  | apply op _ ih => exact filed_apply ih op

/-- The identifiers of the nodes are the keys of their table. -/
theorem map_id_nodeList {s : Store} (hs : s.Filed) : s.nodeList.map (·.id) = s.nodes.keys := by
  rw [nodeList, SortedMap.values, SortedMap.keys, List.map_map]
  refine List.map_congr_left fun e he => ?_
  exact hs.nodes e.1 e.2 (SortedMap.mem_toList_iff.1 he)

theorem nodup_id_nodeList {s : Store} (hs : s.Filed) : (s.nodeList.map (·.id)).Nodup := by
  rw [map_id_nodeList hs, SortedMap.keys, List.Nodup, List.pairwise_map]
  refine s.nodes.sorted.imp fun hlt heq => ?_
  rw [heq, Std.ReflOrd.compare_self] at hlt
  exact Ordering.noConfusion hlt

end Store

end Rescale
