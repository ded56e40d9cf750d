import Mathlib.Algebra.Order.Field.Basic
import Mathlib.Algebra.Order.Ring.Unbundled.Rat
import Mathlib.Data.Rat.Floor

/-!
Arithmetic that rounds.

A `Rounding` is what is needed of a floating point format to bound its results:
it is monotone and leaves the integers of its significand as they are. Each
operation is the exact one, rounded. The identity is a rounding.
-/

namespace FetchTask

structure Rounding where
  round : Rat → Rat
  mono : Monotone round
  /-- The integers up to here are exact. -/
  exact : Nat
  round_natCast : ∀ n ≤ exact, round n = n

namespace Rounding

variable (R : Rounding)

def sub (x y : Rat) : Rat := R.round (x - y)

def div (x y : Rat) : Rat := R.round (x / y)

def mul (x y : Rat) : Rat := R.round (x * y)

/-- Exact arithmetic, on which the definitions can be run. -/
def ideal (n : Nat) : Rounding where
  round := id
  mono := monotone_id
  exact := n
  round_natCast _ _ := rfl

variable {R}

theorem sub_le_sub {x x' y y' : Rat} (hx : x ≤ x') (hy : y' ≤ y) : R.sub x y ≤ R.sub x' y' :=
  R.mono (by linarith)

theorem sub_nonneg {x y : Rat} (h : y ≤ x) : 0 ≤ R.sub x y := by
  have hzero : R.round ((0 : Nat) : Rat) = ((0 : Nat) : Rat) := R.round_natCast 0 (Nat.zero_le _)
  have hle : R.round ((0 : Nat) : Rat) ≤ R.sub x y := R.mono (by simpa using h)
  rw [hzero] at hle
  exact_mod_cast hle

/-- A part of a whole is at most one. -/
theorem div_le_one (hR : 1 ≤ R.exact) {x y : Rat} (hy : 0 ≤ y) (h : x ≤ y) : R.div x y ≤ 1 := by
  have hone : R.round ((1 : Nat) : Rat) = ((1 : Nat) : Rat) := R.round_natCast 1 hR
  have hle : R.div x y ≤ R.round ((1 : Nat) : Rat) := R.mono (by simpa using div_le_one_of_le₀ h hy)
  rw [hone] at hle
  exact_mod_cast hle

/-- A share of an exact number is at most that number. -/
theorem mul_le_self {n : Nat} (hn : n ≤ R.exact) {x : Rat} (h : x ≤ 1) : R.mul n x ≤ n := by
  have hle : R.mul n x ≤ R.round n := R.mono (mul_le_of_le_one_right (Nat.cast_nonneg n) h)
  rwa [R.round_natCast n hn] at hle

end Rounding

end FetchTask
