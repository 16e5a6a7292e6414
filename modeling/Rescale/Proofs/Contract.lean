import Rescale.Proofs.Step

/-!
# Contracts of Steps

What a step promises of the sessions that it leaves.

A step that returns and one that fails both leave a session behind, and what is
known of it differs: after a return it may depend on the value, after a failure
on the error. A contract therefore has one precondition and two postconditions.
Each way of building a step has one rule, so a stage of a decision is gone
through from its first step to its last, and what the steps before have found
out is at hand as the precondition of the next one. Where it does not matter what
a session is like, a contract only says which errors a step can fail with.

## Main definitions

* `Step.Meets`: A step meets a contract.
* `Step.FailsOnly`: A step fails with some errors only.
* `Step.Preserves`: What is true of a session stays true.

## Theorems

* `meets_bind`: What the first step leaves is what the second one starts from.
* `meets_read`, `meets_write`: Access to the store, which may fail like a store.
* `meets_of_keeps`: What depends on a part that is kept stays true.
* `preserves_bind`, `Preserves.exec`: What every step of a run preserves holds in
  the end.
-/

namespace Rescale

namespace Step

variable {α β : Type}

/-- Run from a session with `pre`, a step that returns `a` leaves one with
    `post a`, and a step that fails with `e` leaves one with `fail e`. -/
structure Meets (pre : Session → Prop) (x : Step α) (post : α → Session → Prop)
    (fail : DecisionError → Session → Prop) : Prop where
  returns : ∀ s a t, pre s → Returns x s a t → post a t
  fails : ∀ s e t, pre s → Fails x s e t → fail e t

/-- Whatever the session is like, a step fails with errors of a kind only. -/
abbrev FailsOnly (kind : DecisionError → Prop) (x : Step α) : Prop :=
  Meets (fun _ => True) x (fun _ _ => True) fun e _ => kind e

/-- However a step ends, what was true of the session is true of the one that it
    leaves. -/
abbrev Preserves (inv : Session → Prop) (x : Step α) : Prop :=
  Meets inv x (fun _ => inv) fun _ => inv

theorem Preserves.exec {inv : Session → Prop} {x : Step α} (hx : Preserves inv x) {s : Session}
    (hs : inv s) : inv (Step.exec x s).2 := by
  rcases leaves_iff.1 (rfl : Leaves x s (Step.exec x s).2) with ⟨a, hreturn⟩ | ⟨e, hfail⟩
  · exact hx.returns s a _ hs hreturn
  · exact hx.fails s e _ hs hfail

section Rules

variable {pre : Session → Prop} {post : α → Session → Prop}
  {fail : DecisionError → Session → Prop}

theorem meets_pure {a : α} (h : ∀ s, pre s → post a s) : Meets pre (pure a) post fail where
  returns := fun s b t hs hpure => by
    rcases returns_pure_iff.1 hpure with ⟨rfl, rfl⟩
    exact h s hs
  fails := fun _ _ _ _ hpure => absurd hpure not_fails_pure

theorem meets_throw {e : DecisionError} (h : ∀ s, pre s → fail e s) :
    Meets pre (throw e : Step α) post fail where
  returns := fun _ _ _ _ hthrow => absurd hthrow not_returns_throw
  fails := fun s e' t hs hthrow => by
    rcases fails_throw_iff.1 hthrow with ⟨rfl, rfl⟩
    exact h s hs

/-- What the first step leaves is what the second one starts from. -/
theorem meets_bind {x : Step α} {f : α → Step β} {after : β → Session → Prop}
    (hx : Meets pre x post fail) (hf : ∀ a, Meets (post a) (f a) after fail) :
    Meets pre (x >>= f) after fail where
  returns := fun s b t hs h => by
    rcases returns_bind_iff.1 h with ⟨a, m, hfirst, hrest⟩
    exact (hf a).returns m b t (hx.returns s a m hs hfirst) hrest
  fails := fun s e t hs h => by
    rcases fails_bind_iff.1 h with hfirst | ⟨a, m, hfirst, hrest⟩
    · exact hx.fails s e t hs hfirst
    · exact (hf a).fails m e t (hx.returns s a m hs hfirst) hrest

theorem meets_get {post : Session → Session → Prop} (h : ∀ s, pre s → post s s) :
    Meets pre get post fail where
  returns := fun s a t hs hget => by
    rcases returns_get_iff.1 hget with ⟨rfl, rfl⟩
    exact h s hs
  fails := fun _ _ _ _ hget => absurd hget not_fails_get

theorem meets_set {s' : Session} {post : PUnit → Session → Prop} (h : ∀ s, pre s → post ⟨⟩ s') :
    Meets pre (set s') post fail where
  returns := fun s _ t hs hset => by
    obtain rfl := returns_set_iff.1 hset
    exact h s hs
  fails := fun _ _ _ _ hset => absurd hset not_fails_set

theorem meets_modify {f : Session → Session} {post : PUnit → Session → Prop}
    (h : ∀ s, pre s → post ⟨⟩ (f s)) : Meets pre (modify f) post fail where
  returns := fun s _ t hs hmodify => by
    obtain rfl := returns_modify_iff.1 hmodify
    exact h s hs
  fails := fun _ _ _ _ hmodify => absurd hmodify not_fails_modify

theorem meets_ofExcept {x : Except DecisionError α} (hok : ∀ s a, pre s → x = .ok a → post a s)
    (herror : ∀ s e, pre s → x = .error e → fail e s) : Meets pre (ofExcept x) post fail where
  returns := fun s a t hs h => by
    rcases returns_ofExcept_iff.1 h with ⟨hx, rfl⟩
    exact hok s a hs hx
  fails := fun s e t hs h => by
    rcases fails_ofExcept_iff.1 h with ⟨hx, rfl⟩
    exact herror s e hs hx

/-- A read leaves the session alone, and it fails like a store. -/
theorem meets_read {kind : RecordKind} {f : Store → Except StoreError α}
    (hok : ∀ s a, pre s → s.ledger.read kind f = .ok a → post a s)
    (hstore : ∀ s cause, pre s → fail (.store cause) s) : Meets pre (read kind f) post fail where
  returns := fun s a t hs h => by
    rcases returns_read_iff.1 h with ⟨hread, rfl⟩
    exact hok s a hs hread
  fails := fun s e t hs h => by
    rcases fails_read_iff.1 h with ⟨cause, _, rfl, rfl⟩
    exact hstore s cause hs

/-- A write that fails leaves the session alone, and it fails like a store. -/
theorem meets_write {kind : RecordKind} {f : Store → Store} {post : Unit → Session → Prop}
    (hok : ∀ s : Session, pre s → post () { s with ledger := s.ledger.put kind f })
    (hstore : ∀ s cause, pre s → fail (.store cause) s) : Meets pre (write kind f) post fail where
  returns := fun s _ t hs h => by
    rcases returns_write_iff.1 h with ⟨_, rfl⟩
    exact hok s hs
  fails := fun s e t hs h => by
    rcases fails_write_iff.1 h with ⟨cause, _, rfl, rfl⟩
    exact hstore s cause hs

/-- A step that keeps a part of the session keeps what depends on it, however it
    ends. -/
theorem meets_of_keeps {γ : Type} {part : Session → γ} {x : Step α} (hx : Keeps part x)
    (h : ∀ s t, part t = part s → pre s → pre t) :
    Meets pre x (fun _ => pre) fun _ => pre where
  returns := fun s _ t hs hreturn => h s t (hx s t hreturn.leaves) hs
  fails := fun s _ t hs hfail => h s t (hx s t hfail.leaves) hs

/-- What is known apart from the session is at hand for the whole step. -/
theorem meets_of_fact {known : Prop} {x : Step α} (h : known → Meets pre x post fail) :
    Meets (fun s => pre s ∧ known) x post fail where
  returns := fun s a t hs hreturn => (h hs.2).returns s a t hs.1 hreturn
  fails := fun s e t hs hfail => (h hs.2).fails s e t hs.1 hfail

end Rules

/-! ### What is preserved -/

section Preserves

variable {inv : Session → Prop}

theorem preserves_bind {x : Step α} {f : α → Step β} (hx : Preserves inv x)
    (hf : ∀ a, Preserves inv (f a)) : Preserves inv (x >>= f) :=
  meets_bind hx hf

/-- A step that leaves the session alone preserves everything. -/
theorem preserves_of_same {x : Step α} (hx : Keeps id x) : Preserves inv x := by
  refine meets_of_keeps hx fun s t hsame hs => ?_
  obtain rfl : t = s := hsame
  exact hs

theorem preserves_modify {f : Session → Session} (hf : ∀ s, inv s → inv (f s)) :
    Preserves inv (modify f) :=
  meets_modify hf

end Preserves

end Step

end Rescale
