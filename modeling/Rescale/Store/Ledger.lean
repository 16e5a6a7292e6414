import Rescale.Store.Basic

/-!
# The Ledger

The store as a decision cycle meets it: a place where access can fail.

A cycle reads and writes records one at a time. The ledger keeps the store, the
accesses that fail and how, and the writes that were made so far. A failing
access leaves the store as it is.

## Main definitions

* `RecordKind`: The kinds of records that a cycle uses.
* `Access`: A read or a write of a kind of record.
* `Ledger`: The store, its faults and the writes so far.
* `Ledger.read`: Read something, unless this access fails.
* `Ledger.write`: Change the store, unless this access fails.
-/

namespace Rescale

/-- The kinds of records that a decision cycle uses. -/
inductive RecordKind where
  | history
  | restartLog
  | parallelism
  | profiles
  | configChanges
  | holds
  | generation
  | period
  deriving DecidableEq, Repr

/-- One kind of access to the store. -/
inductive Access where
  | read (kind : RecordKind)
  | write (kind : RecordKind)
  deriving DecidableEq, Repr

/-- The store as a decision cycle meets it. -/
structure Ledger where
  store : Store := {}
  /-- How an access fails, if it does. -/
  fault : Access → Option StoreError := fun _ => none
  /-- The kinds of records written, in order. -/
  written : List RecordKind := []

namespace Ledger

instance : Inhabited Ledger := ⟨{}⟩

/-- A ledger whose accesses never fail. -/
def ofStore (store : Store) : Ledger := { store }

/-- Read something, unless reads of its kind fail. -/
def read {α : Type} (l : Ledger) (kind : RecordKind) (f : Store → Except StoreError α) :
    Except StoreError α :=
  match l.fault (.read kind) with
  | some e => .error e
  | none => f l.store

/-- Change the store, unless writes of this kind fail. -/
def write (l : Ledger) (kind : RecordKind) (f : Store → Store) : Except StoreError Ledger :=
  match l.fault (.write kind) with
  | some e => .error e
  | none => .ok { l with store := f l.store, written := l.written ++ [kind] }

end Ledger

end Rescale
