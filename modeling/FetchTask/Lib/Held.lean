import Mathlib.Data.Nat.Basic

/-!
What a call has of a pool.

A call has taken room in a slot that is there, or a slot that it is to launch, or
nothing. The predicates say whether it is a given slot, so that calls can be
counted by the slot they hold.
-/

namespace FetchTask

inductive Held
  | selected (i : Nat)
  | launch (i : Nat)
  deriving DecidableEq

namespace Held

variable {i j : Nat}

def slot : Held → Nat
  | .selected i | .launch i => i

/-- The slot is the one that is held. -/
def holds (i : Nat) (held : Option Held) : Bool := held.any fun h => h.slot == i

/-- The slot is held to be launched. -/
def launches (i : Nat) (held : Option Held) : Bool := held.any fun h => h == .launch i

@[simp] theorem slot_selected (i : Nat) : (Held.selected i).slot = i := rfl

@[simp] theorem slot_launch (i : Nat) : (Held.launch i).slot = i := rfl

@[simp] theorem holds_none : holds i none = false := rfl

@[simp] theorem launches_none : launches i none = false := rfl

@[simp] theorem holds_some (held : Held) : holds i (some held) = (held.slot == i) := rfl

@[simp] theorem launches_selected (j : Nat) : launches i (some (.selected j)) = false := by
  simp [launches]

@[simp] theorem launches_launch (j : Nat) : launches i (some (.launch j)) = (j == i) := by
  simp [launches]

/-- For any other slot nothing is held. -/
theorem not_held (held : Held) (hne : j ≠ held.slot) :
    holds j none = holds j (some held) ∧ launches j none = launches j (some held) := by
  cases held with
  | selected i | launch i =>
    have hne : i ≠ j := fun h => hne h.symm
    simp [hne]

theorem holds_of_launches {held : Option Held} (h : launches i held = true) :
    holds i held = true := by
  cases held with
  | none => cases h
  | some held =>
    obtain rfl : held = .launch i := by simpa [launches] using h
    simp

end Held

end FetchTask
