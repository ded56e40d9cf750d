import Mathlib.Logic.Function.Basic

/-!
Exclusive locks.

A table of locks says for every name which session holds it. A session may take
a lock that is free or its own, and gives all its locks back at once, as a
database does at the end of a transaction. What the rules say is what a session
may count on while others work: a lock it holds stays its own.
-/

namespace FetchTask

universe u

/-- For every name the session that holds it. -/
abbrev Locks (κ : Type u) := κ → Option Nat

namespace Locks

variable {κ : Type u} [DecidableEq κ] (l : Locks κ)

/-- The session would not have to wait for the lock. -/
def Available (k : κ) (p : Nat) : Prop := l k = none ∨ l k = some p

instance (k : κ) (p : Nat) : Decidable (l.Available k p) := inferInstanceAs (Decidable (_ ∨ _))

def acquire (k : κ) (p : Nat) : Locks κ := Function.update l k (some p)

/-- The end of a transaction. -/
def release (p : Nat) : Locks κ := fun k => if l k = some p then none else l k

variable {l}

@[simp] theorem acquire_self (k : κ) (p : Nat) : l.acquire k p k = some p :=
  Function.update_self ..

/-- A lock that another session holds was not available. -/
theorem acquire_of_held {j k : κ} {p q : Nat} (hk : l.Available k p) (hj : l j = some q)
    (hqp : q ≠ p) : l.acquire k p j = some q := by
  have hne : j ≠ k := by
    rintro rfl
    rcases hk with hnone | hown
    · cases hj.symm.trans hnone
    · exact hqp (Option.some.inj (hj.symm.trans hown))
  rw [acquire, Function.update_of_ne hne, hj]

omit [DecidableEq κ] in
theorem release_of_held {j : κ} {p q : Nat} (hj : l j = some q) (hqp : q ≠ p) :
    l.release p j = some q := by
  have hne : ¬ l j = some p := fun h => hqp (Option.some.inj (hj.symm.trans h))
  rw [release, if_neg hne, hj]

end Locks

end FetchTask
