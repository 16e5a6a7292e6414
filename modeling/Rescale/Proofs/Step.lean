import Rescale.Decision.Session

/-!
# Runs of Steps

How a step ends, and what that says of the steps it is made of.

A step either returns a value or fails with an error, and it leaves a session
behind in both cases. `Returns` and `Fails` name the two ends, so a statement
about a run never has to mention the monad. Each way of building a step has one
equivalence for each end. Read from left to right they take a run apart, and
after a bind there is a session between its two halves; nothing else of the
monad is needed to reason about a decision.

## Main definitions

* `Step.Returns`: A step returns a value and leaves a session.
* `Step.Fails`: A step fails with an error and leaves a session.
* `Step.Leaves`: A step leaves a session, however it ends.
* `Step.Keeps`: A step keeps a part of the session, however it ends.
* `Ledger.put`: A ledger after a write that went through.
* `Ledger.TakesWrites`: No write to a ledger fails.

## Theorems

* `returns_bind_iff`, `fails_bind_iff`: A run of two steps, one after the other.
* `returns_functional`: A step ends in one way only.
* `returns_read_iff`, `fails_read_iff`: When a read succeeds.
* `returns_write_iff`, `fails_write_iff`: When a write succeeds, and what it
  leaves.
* `keeps_bind` and its siblings: What is kept by each way to build a step.
-/

namespace Rescale

namespace Ledger

/-- The ledger after a write that went through. -/
def put (l : Ledger) (kind : RecordKind) (f : Store → Store) : Ledger :=
  { l with store := f l.store, written := l.written ++ [kind] }

/-- No write to the ledger fails. -/
def TakesWrites (l : Ledger) : Prop := ∀ kind, l.fault (.write kind) = none

/-- Whether writes fail is a matter of the faults alone. -/
theorem TakesWrites.of_fault_eq {l l' : Ledger} (hw : l.TakesWrites) (h : l'.fault = l.fault) :
    l'.TakesWrites := by
  intro kind
  rw [h]
  exact hw kind

end Ledger

namespace Step

variable {α β : Type}

/-- How a step ends, and the session that it leaves. -/
def exec (x : Step α) (s : Session) : Except DecisionError α × Session := x.run.run s

/-- Run from `s`, the step `x` returns `a` and leaves `t`. -/
def Returns (x : Step α) (s : Session) (a : α) (t : Session) : Prop := exec x s = (.ok a, t)

/-- Run from `s`, the step `x` fails with `e` and leaves `t`. -/
def Fails (x : Step α) (s : Session) (e : DecisionError) (t : Session) : Prop :=
  exec x s = (.error e, t)

/-- Run from `s`, the step `x` leaves `t`, however it ends. -/
def Leaves (x : Step α) (s t : Session) : Prop := (exec x s).2 = t

/-! ### Ends -/

theorem returns_functional {x : Step α} {s t t' : Session} {a a' : α}
    (h : Returns x s a t) (h' : Returns x s a' t') : a = a' ∧ t = t' := by
  have heq := h.symm.trans h'
  simpa only [Prod.mk.injEq, Except.ok.injEq] using heq

theorem not_fails_of_returns {x : Step α} {s t t' : Session} {a : α} {e : DecisionError}
    (h : Returns x s a t) : ¬Fails x s e t' := by
  intro h'
  have heq := h.symm.trans h'
  simp only [Prod.mk.injEq, reduceCtorEq, false_and] at heq

theorem returns_of_exec {x : Step α} {s : Session} {a : α} (h : (exec x s).1 = .ok a) :
    Returns x s a (exec x s).2 :=
  Prod.ext h rfl

theorem Returns.exec_eq {x : Step α} {s t : Session} {a : α} (h : Returns x s a t) :
    (exec x s).1 = .ok a :=
  congrArg Prod.fst h

theorem leaves_iff {x : Step α} {s t : Session} :
    Leaves x s t ↔ (∃ a, Returns x s a t) ∨ ∃ e, Fails x s e t := by
  simp only [Leaves, Returns, Fails]
  rcases exec x s with ⟨e | a, m⟩
  · simp only [Prod.mk.injEq, reduceCtorEq, false_and, exists_false, false_or, Except.error.injEq,
      exists_eq_left']
  · simp only [Prod.mk.injEq, reduceCtorEq, false_and, exists_false, or_false, Except.ok.injEq,
      exists_eq_left']

theorem Returns.leaves {x : Step α} {s t : Session} {a : α} (h : Returns x s a t) :
    Leaves x s t :=
  leaves_iff.2 (Or.inl ⟨a, h⟩)

theorem Fails.leaves {x : Step α} {s t : Session} {e : DecisionError} (h : Fails x s e t) :
    Leaves x s t :=
  leaves_iff.2 (Or.inr ⟨e, h⟩)

/-- A run that is evaluated to a value returned it. -/
theorem eq_ok_of_toOption {ε σ : Type} {x : Except ε α × σ} {a : α}
    (h : x.1.toOption = some a) : x = (.ok a, x.2) := by
  rcases x with ⟨e | b, t⟩
  · cases h
  · rw [Option.some.inj h]

/-! ### One after the other -/

/-- The end of a bind, with the end of its first half opened. -/
theorem exec_bind (x : Step α) (f : α → Step β) (s : Session) :
    exec (x >>= f) s =
      match exec x s with
      | (.ok a, m) => exec (f a) m
      | (.error e, m) => (.error e, m) := by
  -- The session is threaded through, and the second half looks at how the first ended.
  change StateT.run (ExceptT.bindCont f (exec x s).1) (exec x s).2 = _
  rcases exec x s with ⟨e | a, m⟩
  · rfl
  · rfl

theorem returns_bind_iff {x : Step α} {f : α → Step β} {s t : Session} {b : β} :
    Returns (x >>= f) s b t ↔ ∃ a m, Returns x s a m ∧ Returns (f a) m b t := by
  simp only [Returns, exec_bind]
  rcases h : exec x s with ⟨e | a, m⟩
  · -- The first half fails, so neither side returns.
    simp only [Prod.mk.injEq, reduceCtorEq, false_and, exists_false]
  · constructor
    · intro hf
      exact ⟨a, m, rfl, hf⟩
    · rintro ⟨a', m', heq, hf⟩
      cases heq
      exact hf

theorem fails_bind_iff {x : Step α} {f : α → Step β} {s t : Session} {e : DecisionError} :
    Fails (x >>= f) s e t ↔ Fails x s e t ∨ ∃ a m, Returns x s a m ∧ Fails (f a) m e t := by
  simp only [Returns, Fails, exec_bind]
  rcases h : exec x s with ⟨e' | a, m⟩
  · -- The first half fails, and its error is the one of the whole.
    simp only [Prod.mk.injEq, Except.error.injEq, reduceCtorEq, false_and, exists_false, or_false]
  · constructor
    · intro hf
      exact Or.inr ⟨a, m, rfl, hf⟩
    · rintro (heq | ⟨a', m', heq, hf⟩)
      · cases heq
      · cases heq
        exact hf

theorem leaves_bind_iff {x : Step α} {f : α → Step β} {s t : Session} :
    Leaves (x >>= f) s t ↔
      (∃ e, Fails x s e t) ∨ ∃ a m, Returns x s a m ∧ Leaves (f a) m t := by
  simp only [Leaves, Returns, Fails, exec_bind]
  rcases exec x s with ⟨e | a, m⟩
  · simp only [Prod.mk.injEq, Except.error.injEq, exists_and_right, exists_eq', true_and,
      reduceCtorEq, false_and, exists_false, or_false]
  · simp only [Prod.mk.injEq, reduceCtorEq, false_and, exists_false, false_or]
    constructor
    · intro h
      exact ⟨a, m, ⟨rfl, rfl⟩, h⟩
    · rintro ⟨a', m', ⟨heq, rfl⟩, h⟩
      cases heq
      exact h

/-! ### Single steps -/

@[simp] theorem returns_pure_iff {a b : α} {s t : Session} :
    Returns (pure a) s b t ↔ a = b ∧ s = t := by
  change ((Except.ok a, s) : Except DecisionError α × Session) = (.ok b, t) ↔ _
  rw [Prod.mk.injEq, Except.ok.injEq]

@[simp] theorem not_fails_pure {a : α} {s t : Session} {e : DecisionError} :
    ¬Fails (pure a) s e t :=
  not_fails_of_returns (returns_pure_iff.2 ⟨rfl, rfl⟩)

@[simp] theorem fails_throw_iff {e e' : DecisionError} {s t : Session} :
    Fails (throw e : Step α) s e' t ↔ e = e' ∧ s = t := by
  change ((Except.error e, s) : Except DecisionError α × Session) = (.error e', t) ↔ _
  rw [Prod.mk.injEq, Except.error.injEq]

@[simp] theorem not_returns_throw {a : α} {s t : Session} {e : DecisionError} :
    ¬Returns (throw e : Step α) s a t :=
  fun h => not_fails_of_returns h (fails_throw_iff.2 ⟨rfl, rfl⟩)

@[simp] theorem leaves_pure_iff {a : α} {s t : Session} : Leaves (pure a) s t ↔ s = t := Iff.rfl

@[simp] theorem leaves_throw_iff {e : DecisionError} {s t : Session} :
    Leaves (throw e : Step α) s t ↔ s = t :=
  Iff.rfl

@[simp] theorem returns_get_iff {s a t : Session} :
    Returns get s a t ↔ s = a ∧ s = t :=
  returns_pure_iff

@[simp] theorem not_fails_get {s t : Session} {e : DecisionError} : ¬Fails get s e t :=
  not_fails_pure

@[simp] theorem returns_set_iff {s s' t : Session} {u : PUnit} :
    Returns (set s') s u t ↔ s' = t := by
  change ((Except.ok _, s') : Except DecisionError PUnit × Session) = (.ok u, t) ↔ _
  simp only [Prod.mk.injEq, true_and]

@[simp] theorem not_fails_set {s s' t : Session} {e : DecisionError} :
    ¬Fails (set s' : Step PUnit) s e t :=
  not_fails_of_returns (a := ⟨⟩) (returns_set_iff.2 rfl)

@[simp] theorem returns_modify_iff {f : Session → Session} {s t : Session} {u : PUnit} :
    Returns (modify f) s u t ↔ f s = t := by
  change ((Except.ok _, f s) : Except DecisionError PUnit × Session) = (.ok u, t) ↔ _
  simp only [Prod.mk.injEq, true_and]

@[simp] theorem not_fails_modify {f : Session → Session} {s t : Session} {e : DecisionError} :
    ¬Fails (modify f : Step PUnit) s e t :=
  not_fails_of_returns (a := ⟨⟩) (returns_modify_iff.2 rfl)

@[simp] theorem returns_ofExcept_iff {x : Except DecisionError α} {s t : Session} {a : α} :
    Returns (ofExcept x) s a t ↔ x = .ok a ∧ s = t := by
  cases x with
  | ok b => simp only [ofExcept, returns_pure_iff, Except.ok.injEq]
  | error e => simp only [ofExcept, not_returns_throw, reduceCtorEq, false_and]

@[simp] theorem fails_ofExcept_iff {x : Except DecisionError α} {s t : Session}
    {e : DecisionError} :
    Fails (ofExcept x) s e t ↔ x = .error e ∧ s = t := by
  cases x with
  | ok b => simp only [ofExcept, not_fails_pure, reduceCtorEq, false_and]
  | error e' => simp only [ofExcept, fails_throw_iff, Except.error.injEq]

@[simp] theorem returns_tell_iff {events : List Event} {s t : Session} {u : Unit} :
    Returns (tell events) s u t ↔ { s with events := s.events ++ events } = t :=
  returns_modify_iff

@[simp] theorem not_fails_tell {events : List Event} {s t : Session} {e : DecisionError} :
    ¬Fails (tell events) s e t :=
  not_fails_modify

/-! ### The ledger -/

@[simp] theorem returns_read_iff {kind : RecordKind} {f : Store → Except StoreError α}
    {s t : Session} {a : α} :
    Returns (read kind f) s a t ↔ s.ledger.read kind f = .ok a ∧ s = t := by
  simp only [read, returns_bind_iff, returns_get_iff]
  constructor
  · rintro ⟨m, m', ⟨rfl, rfl⟩, h⟩
    -- What the ledger answers is returned or thrown.
    split at h
    · next x hx =>
      rcases returns_pure_iff.1 h with ⟨rfl, rfl⟩
      exact ⟨hx, rfl⟩
    · exact absurd h not_returns_throw
  · rintro ⟨h, rfl⟩
    refine ⟨s, s, ⟨rfl, rfl⟩, ?_⟩
    rw [h]
    exact returns_pure_iff.2 ⟨rfl, rfl⟩

@[simp] theorem fails_read_iff {kind : RecordKind} {f : Store → Except StoreError α}
    {s t : Session} {e : DecisionError} :
    Fails (read kind f) s e t ↔
      ∃ cause, s.ledger.read kind f = .error cause ∧ e = .store cause ∧ s = t := by
  simp only [read, fails_bind_iff, returns_get_iff, not_fails_get, false_or]
  constructor
  · rintro ⟨m, m', ⟨rfl, rfl⟩, h⟩
    split at h
    · exact absurd h not_fails_pure
    · next cause hc =>
      rcases fails_throw_iff.1 h with ⟨rfl, rfl⟩
      exact ⟨cause, hc, rfl, rfl⟩
  · rintro ⟨cause, h, rfl, rfl⟩
    refine ⟨s, s, ⟨rfl, rfl⟩, ?_⟩
    rw [h]
    exact fails_throw_iff.2 ⟨rfl, rfl⟩

@[simp] theorem returns_write_iff {kind : RecordKind} {f : Store → Store} {s t : Session}
    {u : Unit} :
    Returns (write kind f) s u t ↔
      s.ledger.fault (.write kind) = none ∧ { s with ledger := s.ledger.put kind f } = t := by
  simp only [write, returns_bind_iff, returns_get_iff, Ledger.write]
  constructor
  · rintro ⟨m, m', ⟨rfl, rfl⟩, h⟩
    -- Only a write without a fault sets the ledger.
    cases hfault : s.ledger.fault (.write kind) with
    | some e =>
        simp only [hfault, not_returns_throw] at h
    | none =>
        simp only [hfault, returns_set_iff] at h
        exact ⟨rfl, h⟩
  · rintro ⟨hfault, rfl⟩
    refine ⟨s, s, ⟨rfl, rfl⟩, ?_⟩
    simp only [hfault, returns_set_iff, Ledger.put]

@[simp] theorem fails_write_iff {kind : RecordKind} {f : Store → Store} {s t : Session}
    {e : DecisionError} :
    Fails (write kind f) s e t ↔
      ∃ cause, s.ledger.fault (.write kind) = some cause ∧ e = .store cause ∧ s = t := by
  simp only [write, fails_bind_iff, returns_get_iff, not_fails_get, false_or, Ledger.write]
  constructor
  · rintro ⟨m, m', ⟨rfl, rfl⟩, h⟩
    cases hfault : s.ledger.fault (.write kind) with
    | some cause =>
        simp only [hfault, fails_throw_iff] at h
        exact ⟨cause, rfl, h.1.symm, h.2⟩
    | none =>
        simp only [hfault, not_fails_set] at h
  · rintro ⟨cause, hfault, rfl, rfl⟩
    refine ⟨s, s, ⟨rfl, rfl⟩, ?_⟩
    simp only [hfault, fails_throw_iff, and_self]

/-! ### What a step keeps -/

/-- However a step ends, some part of the session is as it was. -/
def Keeps {γ : Type} (part : Session → γ) (x : Step α) : Prop :=
  ∀ s t, Leaves x s t → part t = part s

section Keeps

variable {γ : Type} {part : Session → γ}

/-- A step that leaves the session alone keeps all of it. -/
theorem keeps_of_same {x : Step α} (h : ∀ s t, Leaves x s t → s = t) : Keeps part x :=
  fun s t hx => congrArg part (h s t hx).symm

theorem keeps_pure (a : α) : Keeps part (pure a) := keeps_of_same fun _ _ => leaves_pure_iff.1

theorem keeps_throw (e : DecisionError) : Keeps part (throw e : Step α) :=
  keeps_of_same fun _ _ => leaves_throw_iff.1

theorem keeps_get : Keeps part get := keeps_of_same fun _ _ => leaves_pure_iff.1

theorem keeps_ofExcept (x : Except DecisionError α) : Keeps part (ofExcept x) := by
  cases x with
  | ok a => exact keeps_pure a
  | error e => exact keeps_throw e

theorem keeps_bind {x : Step α} {f : α → Step β} (hx : Keeps part x)
    (hf : ∀ a, Keeps part (f a)) : Keeps part (x >>= f) := by
  intro s t h
  rcases leaves_bind_iff.1 h with ⟨e, hfail⟩ | ⟨a, m, hreturn, hrest⟩
  · exact hx s t hfail.leaves
  · exact (hf a m t hrest).trans (hx s m hreturn.leaves)

theorem keeps_modify {f : Session → Session} (hf : ∀ s, part (f s) = part s) :
    Keeps part (modify f) := by
  intro s t h
  rcases leaves_iff.1 h with ⟨_, hreturn⟩ | ⟨_, hfail⟩
  · rw [← returns_modify_iff.1 hreturn, hf]
  · exact absurd hfail not_fails_modify

theorem keeps_read {kind : RecordKind} {f : Store → Except StoreError α} :
    Keeps part (read kind f) := by
  refine keeps_of_same fun s t h => ?_
  rcases leaves_iff.1 h with ⟨_, hreturn⟩ | ⟨_, hfail⟩
  · exact (returns_read_iff.1 hreturn).2
  · rcases fails_read_iff.1 hfail with ⟨_, _, _, hsame⟩
    exact hsame

/-- A write that fails changes nothing, so only one that goes through counts. -/
theorem keeps_write {kind : RecordKind} {f : Store → Store}
    (hf : ∀ s : Session, part { s with ledger := s.ledger.put kind f } = part s) :
    Keeps part (write kind f) := by
  intro s t h
  rcases leaves_iff.1 h with ⟨_, hreturn⟩ | ⟨_, hfail⟩
  · rw [← (returns_write_iff.1 hreturn).2, hf]
  · rcases fails_write_iff.1 hfail with ⟨_, _, _, hsame⟩
    rw [hsame]

end Keeps

end Step

end Rescale
