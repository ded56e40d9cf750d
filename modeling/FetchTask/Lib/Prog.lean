import FetchTask.Lib.Runs
import Mathlib.Logic.Function.Basic

/-!
Programs of atomic operations, and their interleavings.

A program is a tree: it performs an operation and continues with its result, or
it has returned. What an operation does to the shared state is said by a
handler, which also takes what the environment contributes to it (such as the
time). Any number of programs run on one shared state; a step starts a call on
an idle thread or lets one thread perform its next operation. `step` is a
function of a label, so runs are lists of labels and the rules of `Runs` apply.
-/

namespace FetchTask

open Runs

/-- Atomic operations, each with the type of its results. -/
structure Sig where
  Op : Type
  Res : Op → Type

inductive Prog (S : Sig) (α : Type)
  | ret (a : α)
  | act (o : S.Op) (k : S.Res o → Prog S α)

namespace Prog

variable {S : Sig} {α β : Type}

def bind : Prog S α → (α → Prog S β) → Prog S β
  | .ret a, f => f a
  | .act o k, f => .act o fun r => (k r).bind f

instance : Monad (Prog S) where
  pure := .ret
  bind := bind

/-- The program of one operation. -/
def perform (o : S.Op) : Prog S (S.Res o) := .act o .ret

/-- Whether the program has returned. -/
def isDone : Prog S α → Bool
  | .ret _ => true
  | .act .. => false

@[simp] theorem pure_eq (a : α) : (pure a : Prog S α) = .ret a := rfl

@[simp] theorem ret_bind (a : α) (f : α → Prog S β) : ((.ret a : Prog S α) >>= f) = f a := rfl

@[simp] theorem act_bind (o : S.Op) (k : S.Res o → Prog S α) (f : α → Prog S β) :
    ((.act o k : Prog S α) >>= f) = .act o fun r => k r >>= f := rfl

@[simp] theorem perform_bind (o : S.Op) (f : S.Res o → Prog S β) :
    (perform o >>= f) = .act o f := rfl

protected theorem bind_assoc {γ : Type} (p : Prog S α) (f : α → Prog S β) (g : β → Prog S γ) :
    (p >>= f) >>= g = p >>= fun a => f a >>= g := by
  induction p with
  | ret a => rfl
  | act o k ih => exact congrArg (Prog.act o) (funext fun r => ih r)

end Prog

/-! ### Interleavings -/

/-- A shared state and what every thread has left to do. -/
structure Config (S : Sig) (σ : Type) where
  shared : σ
  threads : Nat → Prog S Unit

/-- A step: thread `i` starts a call, or performs its next operation with what the
environment contributes. -/
inductive Label (κ ε : Type)
  | spawn (i : Nat) (call : κ)
  | act (i : Nat) (e : ε)

/-- The thread that a step is of. -/
def Label.thread {κ ε : Type} : Label κ ε → Nat
  | .spawn i _ => i
  | .act i _ => i

section Config

variable {S : Sig} {σ κ ε : Type}

/-- What an operation returns and the state it leaves. -/
abbrev Handler (S : Sig) (σ ε : Type) := ε → (o : S.Op) → σ → S.Res o × σ

variable (handle : Handler S σ ε) (prog : κ → Prog S Unit)

/-- One step; a call starts on an idle thread only, and an idle thread performs nothing. -/
def Config.step : Label κ ε → Config S σ → Config S σ
  | .spawn i call, c =>
    match c.threads i with
    | .ret _ => { c with threads := Function.update c.threads i (prog call) }
    | .act .. => c
  | .act i e, c =>
    match c.threads i with
    | .ret _ => c
    | .act o k =>
      let result := handle e o c.shared
      { shared := result.2, threads := Function.update c.threads i (k result.1) }

variable {handle prog}

theorem Config.step_spawn_shared (i : Nat) (call : κ) (c : Config S σ) :
    (Config.step handle prog (.spawn i call) c).shared = c.shared := by
  simp only [Config.step]
  split <;> rfl

theorem Config.step_act {i : Nat} {e : ε} {c : Config S σ} {o : S.Op}
    {k : S.Res o → Prog S Unit} (h : c.threads i = .act o k) :
    Config.step handle prog (.act i e) c =
      { shared := (handle e o c.shared).2
        threads := Function.update c.threads i (k (handle e o c.shared).1) } := by
  simp only [Config.step, h]

theorem Config.step_idle {i : Nat} {e : ε} {c : Config S σ} {u : Unit}
    (h : c.threads i = .ret u) : Config.step handle prog (.act i e) c = c := by
  simp only [Config.step, h]

/-- A step leaves the other threads alone. -/
theorem Config.step_threads {label : Label κ ε} {i : Nat} (h : i ≠ label.thread) (c : Config S σ) :
    (Config.step handle prog label c).threads i = c.threads i := by
  cases label with
  | spawn j call =>
    have hne : i ≠ j := h
    simp only [Config.step]
    split
    · simp [hne]
    · rfl
  | act j e =>
    have hne : i ≠ j := h
    simp only [Config.step]
    split
    · rfl
    · simp [hne]

theorem run_threads {labels : List (Label κ ε)} {i : Nat} (h : ∀ label ∈ labels, i ≠ label.thread)
    (c : Config S σ) : (run (Config.step handle prog) labels c).threads i = c.threads i := by
  induction labels generalizing c with
  | nil => rfl
  | cons label labels ih =>
    rw [run, ih fun l hl => h l (List.mem_cons_of_mem _ hl)]
    exact Config.step_threads (h label List.mem_cons_self) c

/-- A condition on the operation that a step performs, in the configuration it finds. -/
def OnAct (C : (i : Nat) → (e : ε) → (o : S.Op) → Config S σ → Prop) :
    Label κ ε → Config S σ → Prop
  | .spawn .., _ => True
  | .act i e, c =>
    match c.threads i with
    | .ret _ => True
    | .act o _ => C i e o c

instance OnAct.decidable {C : (i : Nat) → (e : ε) → (o : S.Op) → Config S σ → Prop}
    [∀ i e o c, Decidable (C i e o c)] (label : Label κ ε) (c : Config S σ) :
    Decidable (OnAct C label c) :=
  match label with
  | .spawn .. => .isTrue trivial
  | .act i e =>
    match h : c.threads i with
    | .ret _ => .isTrue (by simp [OnAct, h])
    | .act o _ => decidable_of_iff (C i e o c) (by simp [OnAct, h])

/-- The exact rule for a property of the shared state: if every operation keeps it exactly
under a condition, then so does every step. -/
theorem Config.step_iff {P : σ → Prop} {C : ε → (o : S.Op) → σ → Prop}
    (h : ∀ e o s, P s → (P (handle e o s).2 ↔ C e o s)) (label : Label κ ε) (c : Config S σ)
    (hP : P c.shared) :
    P (Config.step handle prog label c).shared ↔
      OnAct (fun _ e o c => C e o c.shared) label c := by
  cases label with
  | spawn i call =>
    rw [Config.step_spawn_shared]
    exact iff_of_true hP trivial
  | act i e =>
    cases hi : c.threads i with
    | ret u =>
      rw [Config.step_idle hi]
      exact iff_of_true hP (by simp [OnAct, hi])
    | act o k =>
      rw [Config.step_act hi]
      simpa [OnAct, hi] using h e o c.shared hP

/-- What every operation keeps of the shared state, every step keeps. -/
theorem Config.step_inv {P : σ → Prop} (h : ∀ e o s, P s → P (handle e o s).2)
    (label : Label κ ε) (c : Config S σ) (hP : P c.shared) :
    P (Config.step handle prog label c).shared := by
  cases label with
  | spawn i call =>
    rw [Config.step_spawn_shared]
    exact hP
  | act i e =>
    cases hi : c.threads i with
    | ret u =>
      rw [Config.step_idle hi]
      exact hP
    | act o k =>
      rw [Config.step_act hi]
      exact h e o c.shared hP

theorem onAct_of_forall {C : (i : Nat) → (e : ε) → (o : S.Op) → Config S σ → Prop}
    {c : Config S σ} (h : ∀ i e o, C i e o c) (label : Label κ ε) : OnAct C label c := by
  cases label with
  | spawn i call => trivial
  | act i e =>
    cases hi : c.threads i with
    | ret u => simp [OnAct, hi]
    | act o k => simpa [OnAct, hi] using h i e o

end Config

end FetchTask
