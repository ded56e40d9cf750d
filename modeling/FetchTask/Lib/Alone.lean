import FetchTask.Lib.Sum

/-!
Programs that run alone.

While no other thread performs an operation, a program is a function of the shared
state and of what the environment contributes to its operations. `alone` computes it,
and is what an interleaved run does in which only one thread acts (`run_alone`).
`Ends` is the logic for it: whatever the environment contributes, as long as it
satisfies a condition, the program ends with the postcondition.
-/

namespace FetchTask.Prog

open Runs

variable {S T : Sig} {σ ε α β : Type}

section Alone

variable (handle : Handler S σ ε)

/-- The program run alone, with what the environment contributes to each of its operations;
`none` if these are too few or too many. -/
def alone : Prog S α → List ε → σ → Option (α × σ)
  | .ret a, [], s => some (a, s)
  | .act o k, e :: es, s => alone (k (handle e o s).1) es (handle e o s).2
  | _, _, _ => none

/-- What is made of the result takes no operation. -/
theorem alone_map (f : α → β) {p : Prog S α} {es : List ε} {s s' : σ} {a : α}
    (h : alone handle p es s = some (a, s')) :
    alone handle (p >>= fun a => pure (f a)) es s = some (f a, s') := by
  induction p generalizing es s with
  | ret b =>
    cases es with
    | nil =>
      obtain ⟨rfl, rfl⟩ := Prod.mk.inj (Option.some.inj h)
      rfl
    | cons e es => cases h
  | act o k ih =>
    cases es with
    | nil => cases h
    | cons e es => exact ih _ h

/-- The steps of one thread alone. -/
theorem run_alone {κ : Type} {prog : κ → Prog S Unit} {p : Prog S Unit} {es : List ε} {s s' : σ}
    {u : Unit} (i : Nat) (threads : Nat → Prog S Unit) (h : alone handle p es s = some (u, s')) :
    run (Config.step handle prog) (es.map fun e => (.act i e : Label κ ε))
        ⟨s, Function.update threads i p⟩ =
      ⟨s', Function.update threads i (.ret u)⟩ := by
  induction p generalizing es s with
  | ret a =>
    cases es with
    | nil =>
      obtain ⟨rfl, rfl⟩ := Prod.mk.inj (Option.some.inj h)
      rfl
    | cons e es => cases h
  | act o k ih =>
    cases es with
    | nil => cases h
    | cons e es =>
      have hi : (Function.update threads i (.act o k)) i = .act o k := Function.update_self ..
      rw [List.map_cons, run, Config.step_act (c := ⟨s, Function.update threads i (.act o k)⟩) hi,
        Function.update_idem]
      exact ih _ h

/-- Run alone, with contributions that satisfy `E`, the program ends in `Q`. -/
def Ends (E : ε → Prop) (Q : α → σ → Prop) : Prog S α → σ → Prop
  | .ret a, s => Q a s
  | .act o k, s => ∀ e, E e → Ends E Q (k (handle e o s).1) (handle e o s).2

variable {handle} {E : ε → Prop} {Q Q' : α → σ → Prop} {R : β → σ → Prop} {s : σ}

theorem Ends.mono {p : Prog S α} (hQ : ∀ a s, Q a s → Q' a s) (h : Ends handle E Q p s) :
    Ends handle E Q' p s := by
  induction p generalizing s with
  | ret a => exact hQ a s h
  | act o k ih => exact fun e he => ih _ (h e he)

theorem Ends.bind {p : Prog S α} {f : α → Prog S β} (h : Ends handle E Q p s)
    (hf : ∀ a s, Q a s → Ends handle E R (f a) s) : Ends handle E R (p >>= f) s := by
  induction p generalizing s with
  | ret a => exact hf a s h
  | act o k ih => exact fun e he => ih _ (h e he)

theorem Ends.trivial (p : Prog S α) (s : σ) : Ends handle E (fun _ _ => True) p s := by
  induction p generalizing s with
  | ret a => exact True.intro
  | act o k ih => exact fun e _ => ih _ _

/-- What holds at the end of every run holds at the end of this one. -/
theorem Ends.alone {p : Prog S α} {es : List ε} {a : α} {s' : σ} (h : Ends handle E Q p s)
    (hes : ∀ e ∈ es, E e) (hrun : alone handle p es s = some (a, s')) : Q a s' := by
  induction p generalizing es s with
  | ret b =>
    cases es with
    | nil =>
      obtain ⟨rfl, rfl⟩ := Prod.mk.inj (Option.some.inj hrun)
      exact h
    | cons e es => cases hrun
  | act o k ih =>
    cases es with
    | nil => cases hrun
    | cons e es =>
      exact ih _ (h e (hes e List.mem_cons_self)) (fun e' he => hes e' (List.mem_cons_of_mem _ he)) hrun

end Alone

/-! ### Programs of two kinds -/

section Sum

variable {ε' : Type} {handle : Handler S σ ε} {handle' : Handler (S.sum T) σ ε'} {E : ε → Prop}
  {E' : ε' → Prop} {Q : α → σ → Prop}

/-- A program of the first kind ends in the sum as it does by itself; `g` is what its own
operations see of the environment. -/
theorem Ends.inl {p : Prog S α} {s : σ} (g : ε' → ε)
    (hsame : ∀ e o s, handle' e (.inl o) s = handle (g e) o s) (hE : ∀ e, E' e → E (g e))
    (h : Ends handle E Q p s) : Ends handle' E' Q (p.inl (T := T)) s := by
  induction p generalizing s with
  | ret a => exact h
  | act o k ih =>
    intro e he
    rw [hsame]
    exact ih _ (h (g e) (hE e he))

end Sum

end FetchTask.Prog
