import Mathlib.Logic.Basic

/-!
Programs that may raise.

An exception undoes nothing: what a program did before it raised stays done. So a
program has two postconditions, one for its return and one for its exception, and
both speak of the state. `Ends` states them together, and its rules follow the
structure of a program.
-/

namespace FetchTask.Raising

universe u

variable {ε σ α β : Type u}

/-- A computation that has no effect. -/
def result (r : Except ε α) : EStateM ε σ α := fun s =>
  match r with
  | .ok a => .ok a s
  | .error e => .error e s

/-- Started in `s`, the program returns with `Q` or raises with `R`. -/
def Ends (m : EStateM ε σ α) (s : σ) (Q : α → σ → Prop) (R : ε → σ → Prop) : Prop :=
  match m s with
  | .ok a s' => Q a s'
  | .error e s' => R e s'

namespace Ends

variable {m : EStateM ε σ α} {f : α → EStateM ε σ β} {s s' : σ} {Q Q' : α → σ → Prop}
  {P : β → σ → Prop} {R R' : ε → σ → Prop} {a : α} {e : ε}

theorem of_ok (h : Ends m s Q R) (hm : m s = .ok a s') : Q a s' := by
  rw [Ends, hm] at h
  exact h

theorem of_error (h : Ends m s Q R) (hm : m s = .error e s') : R e s' := by
  rw [Ends, hm] at h
  exact h

theorem mono (h : Ends m s Q R) (hQ : ∀ a s', Q a s' → Q' a s') (hR : ∀ e s', R e s' → R' e s') :
    Ends m s Q' R' := by
  unfold Ends at h ⊢
  split at h
  · exact hQ _ _ h
  · exact hR _ _ h

theorem pure (h : Q a s) : Ends (Pure.pure a) s Q R := h

theorem throw (h : R e s) : Ends (EStateM.throw e : EStateM ε σ α) s Q R := h

theorem result {r : Except ε α} (hQ : ∀ a, r = .ok a → Q a s) (hR : ∀ e, r = .error e → R e s) :
    Ends (result r) s Q R := by
  cases r with
  | ok a => exact hQ a rfl
  | error e => exact hR e rfl

/-- An exception of the first part is one of the whole. -/
theorem bind (h : Ends m s Q R) (hf : ∀ a s', Q a s' → Ends (f a) s' P R) :
    Ends (m >>= f) s P R := by
  show Ends (EStateM.bind m f) s P R
  unfold Ends at h
  unfold Ends EStateM.bind
  cases hm : m s with
  | ok a s' =>
    rw [hm] at h
    exact hf a s' h
  | error e s' =>
    rw [hm] at h
    exact h

end Ends

end FetchTask.Raising
