import Rescale.Config.Resolve
import Rescale.Decimal.Numeral
import Rescale.Elastic.Stance
import Rescale.Job.Change
import Rescale.Job.PendingScaleDowns
import Rescale.Job.RestartLog
import Rescale.Placement.Node
import Rescale.Store.Error

/-!
# The Store

What the autoscaler remembers between cycles.

The store is a set of tables. Seven of them have one record per job. The
generations of the elastic policy share a table across jobs and periods: their
key is the job, a colon and the period with twenty digits, so that the
generations of a job come in the order of their periods, and listing or removing
them goes by the part of the key up to the colon. The nodes of the cluster have
a table of their own.

Records are kept as text. It has no spelling for numbers that are not finite:
writing such a record succeeds, but it cannot be read back. And a double in a
record comes back as the coarse reading of its numeral, see `Decimal.reread`. Here
the tables hold the records themselves, and the look-ups say what comes back. The
texts are in `Store.Database`.

## Main definitions

* `Store`: The tables.
* `Store.generationKey`: The key of a generation.
* `Store.history?` and its siblings: Read a record.
* `Store.putHistory` and its siblings: Write a record.
* `Store.deleteJob`: Remove all records of a job.
-/

namespace Rescale

/-- What the autoscaler remembers between cycles. -/
structure Store where
  histories : SortedMap JobId History := ∅
  restartLogs : SortedMap JobId RestartLog := ∅
  /-- Parallelism by vertex, as text. -/
  parallelisms : SortedMap JobId Overrides := ∅
  /-- Slot profile by vertex, as text. -/
  profiles : SortedMap JobId Overrides := ∅
  /-- Changed options, by their name. -/
  configChanges : SortedMap JobId Overrides := ∅
  holds : SortedMap JobId Holds := ∅
  /-- The number of applied decisions. -/
  periods : SortedMap JobId Nat := ∅
  generations : SortedMap String Generation := ∅
  nodes : SortedMap String Node := ∅
  deriving DecidableEq

namespace Store

instance : Inhabited Store := ⟨{}⟩

/-- A history as it is read back: with every double reread, and not at all unless
    all of them are finite. -/
def rereadHistory (h : History) : Except StoreError History :=
  let h := h.mapFloats Decimal.reread
  if h.isFinite then .ok h else .error .unreadable

/-- A generation as it is read back. -/
def rereadGeneration (g : Generation) : Except StoreError Generation :=
  let g := g.mapFloats Decimal.reread
  if g.isFinite then .ok g else .error .unreadable

/-- A record that may be missing, as it is read back. -/
def readBack? {α β : Type} (reread : α → Except StoreError β) :
    Option α → Except StoreError (Option β)
  | none => .ok none
  | some x => (reread x).map some

/-- All records of a list as they are read back. -/
def readBackAll {α β : Type} (reread : α → Except StoreError β) :
    List α → Except StoreError (List β)
  | [] => .ok []
  | x :: rest => do
    let x ← reread x
    let rest ← readBackAll reread rest
    return x :: rest

/-- A history that is read back has every double reread. -/
theorem eq_of_rereadHistory {h h' : History} (hread : rereadHistory h = .ok h') :
    h' = h.mapFloats Decimal.reread := by
  simp only [rereadHistory] at hread
  split at hread
  · exact (Except.ok.inj hread).symm
  · cases hread

theorem eq_of_rereadGeneration {g g' : Generation} (hread : rereadGeneration g = .ok g') :
    g' = g.mapFloats Decimal.reread := by
  simp only [rereadGeneration] at hread
  split at hread
  · exact (Except.ok.inj hread).symm
  · cases hread

theorem readBack?_some_eq_ok_iff {α β : Type} {reread : α → Except StoreError β} {x : α}
    {found : Option β} :
    readBack? reread (some x) = .ok found ↔ ∃ y, reread x = .ok y ∧ found = some y := by
  rw [readBack?]
  cases reread x with
  | ok y => simp only [Except.map, Except.ok.injEq, exists_eq_left', eq_comm]
  | error e => simp only [Except.map, reduceCtorEq, false_and, exists_false]

/-! ### Records of a job -/

/-- The applied changes of a job. -/
def history? (s : Store) (job : JobId) : Except StoreError (Option History) :=
  readBack? rereadHistory (s.histories.get? job)

/-- The restart log of a job. -/
def restartLog? (s : Store) (job : JobId) : Option RestartLog := s.restartLogs.get? job

/-- The parallelism that each vertex of a job is set to. -/
def parallelism? (s : Store) (job : JobId) : Option Overrides := s.parallelisms.get? job

/-- The slot profile that each vertex of a job is set to. -/
def profiles? (s : Store) (job : JobId) : Option Overrides := s.profiles.get? job

/-- The options changed by memory tuning. -/
def configChanges? (s : Store) (job : JobId) : Option Overrides := s.configChanges.get? job

/-- The holds of a job. -/
def holds? (s : Store) (job : JobId) : Option Holds := s.holds.get? job

/-- The number of applied decisions of a job. -/
def period (s : Store) (job : JobId) : Nat := s.periods.getD job 0

/-- Store the applied changes of a job. -/
def putHistory (s : Store) (job : JobId) (h : History) : Store :=
  { s with histories := s.histories.insert job h }

/-- Store the restart log of a job. -/
def putRestartLog (s : Store) (job : JobId) (log : RestartLog) : Store :=
  { s with restartLogs := s.restartLogs.insert job log }

/-- Store the parallelism that each vertex of a job is set to. -/
def putParallelism (s : Store) (job : JobId) (o : Overrides) : Store :=
  { s with parallelisms := s.parallelisms.insert job o }

/-- Store the slot profile that each vertex of a job is set to. -/
def putProfiles (s : Store) (job : JobId) (o : Overrides) : Store :=
  { s with profiles := s.profiles.insert job o }

/-- Store the options changed by memory tuning. -/
def putConfigChanges (s : Store) (job : JobId) (o : Overrides) : Store :=
  { s with configChanges := s.configChanges.insert job o }

/-- Store the holds of a job. -/
def putHolds (s : Store) (job : JobId) (h : Holds) : Store :=
  { s with holds := s.holds.insert job h }

/-- Count one more applied decision. -/
def advancePeriod (s : Store) (job : JobId) : Store :=
  { s with periods := s.periods.insert job (s.period job + 1) }

/-! ### Generations -/

/-- What the keys of a job's generations start with. -/
def generationPrefix (job : JobId) : List Char := job.toList ++ [':']

/-- The key of a generation. -/
def generationKey (job : JobId) (period : Nat) : String :=
  String.ofList (generationPrefix job ++ Text.padded 20 period)

/-- Whether a key is listed and removed with the generations of a job. -/
def isGenerationOf (job : JobId) (key : String) : Bool :=
  (generationPrefix job).isPrefixOf key.toList

/-- The generation of a job under a period. -/
def generation? (s : Store) (job : JobId) (period : Nat) : Except StoreError (Option Generation) :=
  readBack? rereadGeneration (s.generations.get? (generationKey job period))

/-- The generations of a job, in the order of their keys. -/
def generationsOf (s : Store) (job : JobId) : Except StoreError (List Generation) :=
  readBackAll rereadGeneration (s.generations.filter fun key _ => isGenerationOf job key).values

/-- Store a generation under its period. -/
def putGeneration (s : Store) (job : JobId) (g : Generation) : Store :=
  { s with generations := s.generations.insert (generationKey job g.period) g }

/-! ### Jobs and nodes -/

/-- How many records a table loses when a job is removed from it. -/
def countOf {α : Type} (table : SortedMap JobId α) (job : JobId) : Nat :=
  if table.contains job then 1 else 0

/-- How many records are removed with a job. -/
def recordCount (s : Store) (job : JobId) : Nat :=
  countOf s.histories job + countOf s.restartLogs job + countOf s.parallelisms job
    + countOf s.profiles job + countOf s.configChanges job + countOf s.holds job
    + countOf s.periods job
    + (s.generations.filter fun key _ => isGenerationOf job key).size

/-- Remove all records of a job. -/
def deleteJob (s : Store) (job : JobId) : Store :=
  { s with
    histories := s.histories.erase job
    restartLogs := s.restartLogs.erase job
    parallelisms := s.parallelisms.erase job
    profiles := s.profiles.erase job
    configChanges := s.configChanges.erase job
    holds := s.holds.erase job
    periods := s.periods.erase job
    generations := s.generations.filter fun key _ => !isGenerationOf job key }

/-- Store a node under its identifier. -/
def putNode (s : Store) (n : Node) : Store := { s with nodes := s.nodes.insert n.id n }

/-- The nodes of the cluster, by identifier. -/
def nodeList (s : Store) : List Node := s.nodes.values

/-- Remove a node. -/
def deleteNode (s : Store) (id : String) : Store := { s with nodes := s.nodes.erase id }

end Store

end Rescale
