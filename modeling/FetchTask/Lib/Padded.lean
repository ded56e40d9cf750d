import Mathlib.Data.List.Basic
import Mathlib.Logic.Function.Basic

/-!
Numbers written with leading zeros, and texts put together from them.

Reading the digits gives the number back whatever its width, and a separator that
does not occur before its place says where a text is to be cut.
-/

namespace FetchTask.Padded

/-- The decimal digits, with zeros in front of them up to a width. -/
def padded (width n : Nat) : List Char := (Nat.toDigits 10 n).leftpad width '0'

theorem ofDigitChars_padded (width n : Nat) : Nat.ofDigitChars 10 (padded width n) 0 = n := by
  rw [padded, List.leftpad, Nat.ofDigitChars_append, Nat.ofDigitChars_replicate_zero, Nat.mul_zero]
  exact Nat.ofDigitChars_ten_toDigits

theorem padded_injective (width : Nat) : Function.Injective (padded width) := by
  intro m n h
  rw [← ofDigitChars_padded width m, h, ofDigitChars_padded]

theorem isDigit_of_mem_padded {width n : Nat} {c : Char} (h : c ∈ padded width n) :
    c.isDigit = true := by
  rw [padded, List.leftpad, List.mem_append] at h
  rcases h with hzero | hdigit
  · obtain ⟨-, rfl⟩ := List.mem_replicate.mp hzero
    rfl
  · exact Nat.isDigit_of_mem_toDigits (by decide) (by decide) hdigit

theorem notMem_padded {c : Char} (hc : c.isDigit = false) (width n : Nat) : c ∉ padded width n := by
  intro hmem
  rw [isDigit_of_mem_padded hmem] at hc
  cases hc

theorem padded_ne_nil (width n : Nat) : padded width n ≠ [] := by
  rw [padded, List.leftpad]
  exact List.append_ne_nil_of_right_ne_nil _ Nat.toDigits_ne_nil

/-- Two texts that are cut at the first place of a separator. -/
theorem append_cons_inj {α : Type*} {c : α} {before before' after after' : List α}
    (hbefore : c ∉ before) (hbefore' : c ∉ before') :
    before ++ c :: after = before' ++ c :: after' ↔ before = before' ∧ after = after' := by
  constructor
  · intro h
    induction before generalizing before' with
    | nil =>
      cases before' with
      | nil => exact ⟨rfl, (List.cons.inj h).2⟩
      | cons d ds =>
        obtain ⟨rfl, -⟩ := List.cons.inj h
        exact absurd List.mem_cons_self hbefore'
    | cons d ds ih =>
      rw [List.mem_cons, not_or] at hbefore
      cases before' with
      | nil =>
        obtain ⟨rfl, -⟩ := List.cons.inj h
        exact absurd rfl hbefore.1
      | cons e es =>
        rw [List.mem_cons, not_or] at hbefore'
        obtain ⟨rfl, hrest⟩ := List.cons.inj h
        obtain ⟨rfl, hafter⟩ := ih hbefore.2 hbefore'.2 hrest
        exact ⟨rfl, hafter⟩
  · rintro ⟨rfl, rfl⟩
    rfl

end FetchTask.Padded
