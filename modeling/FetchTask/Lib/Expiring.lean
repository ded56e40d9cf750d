import Mathlib.Data.Nat.Basic
import Mathlib.Order.Lattice

/-!
Keys that expire.

A key of a store holds a value and may have a deadline. Before the deadline it is
there and after it it is gone. Whether it is still there at the very instant of
the deadline is left open: `lasting` says so, and what is proved holds for both.
-/

namespace FetchTask.Expiring

universe u v

structure Key (τ : Type u) (α : Type v) where
  value : α
  deadline : Option τ := none

variable {τ : Type u} {α : Type v} [LinearOrder τ] {lasting : Bool} {now : τ}

/-- Whether a key with this deadline is there. -/
def there (lasting : Bool) (now : τ) : Option τ → Bool
  | none => true
  | some deadline => decide (now < deadline) || (lasting && decide (now = deadline))

/-- The key, while it is there. -/
def live (lasting : Bool) (now : τ) : Option (Key τ α) → Option (Key τ α)
  | none => none
  | some key => if there lasting now key.deadline then some key else none

/-- `EXPIRE`. -/
def expire (deadline : τ) (key : Key τ α) : Key τ α := { key with deadline := some deadline }

@[simp] theorem live_none : live lasting now (none : Option (Key τ α)) = none := rfl

theorem there_of_lt {deadline : τ} (h : now < deadline) : there lasting now (some deadline) := by
  simp [there, h]

theorem not_there_of_lt {deadline : τ} (h : deadline < now) :
    there lasting now (some deadline) = false := by
  simp [there, not_lt_of_ge (le_of_lt h), ne_of_gt h]

/-- What is there was there before. -/
theorem there_anti {now' : τ} (hnow : now ≤ now') {deadline : Option τ}
    (h : there lasting now' deadline) : there lasting now deadline := by
  cases deadline with
  | none => rfl
  | some deadline =>
    simp only [there, Bool.or_eq_true, decide_eq_true_eq, Bool.and_eq_true] at h ⊢
    rcases h with h | ⟨hlasting, rfl⟩
    · exact .inl (lt_of_le_of_lt hnow h)
    · rcases lt_or_eq_of_le hnow with hlt | heq
      · exact .inl hlt
      · exact .inr ⟨hlasting, heq⟩

/-- A later deadline lasts at least as long. -/
theorem there_mono {deadline deadline' : τ} (h : deadline ≤ deadline')
    (hthere : there lasting now (some deadline)) : there lasting now (some deadline') := by
  simp only [there, Bool.or_eq_true, decide_eq_true_eq, Bool.and_eq_true] at hthere ⊢
  rcases hthere with hlt | ⟨hlasting, rfl⟩
  · exact .inl (lt_of_lt_of_le hlt h)
  · rcases lt_or_eq_of_le h with hlt | heq
    · exact .inl hlt
    · exact .inr ⟨hlasting, heq⟩

/-- A key that is there later is there now. -/
theorem live_anti {now' : τ} (hnow : now ≤ now') {stored : Option (Key τ α)} {key : Key τ α}
    (h : live lasting now' stored = some key) : live lasting now stored = some key := by
  cases stored with
  | none => cases h
  | some key' =>
    simp only [live] at h ⊢
    split at h
    · rw [if_pos (there_anti hnow ‹_›)]
      exact h
    · cases h

theorem live_eq_some {stored : Option (Key τ α)} {key : Key τ α}
    (h : live lasting now stored = some key) :
    stored = some key ∧ there lasting now key.deadline = true := by
  cases stored with
  | none => cases h
  | some key' =>
    simp only [live] at h
    split at h
    · cases h
      exact ⟨rfl, ‹_›⟩
    · cases h

section Counters

/-- `INCR`: a counter that is gone starts anew, without a deadline. -/
def incr (lasting : Bool) (now : τ) (counter : Option (Key τ Nat)) : Key τ Nat :=
  match live lasting now counter with
  | none => ⟨1, none⟩
  | some key => { key with value := key.value + 1 }

/-- What a counter counts, nothing when it is gone. -/
def count (lasting : Bool) (now : τ) (counter : Option (Key τ Nat)) : Nat :=
  (live lasting now counter).elim 0 Key.value

/-- `TTL`, in the unit of the times. -/
def ttl (lasting : Bool) (now : Nat) (key : Option (Key Nat α)) : Int :=
  match live lasting now key with
  | none => -2
  | some ⟨_, none⟩ => -1
  | some ⟨_, some deadline⟩ => deadline - now

theorem incr_value (now : τ) (counter : Option (Key τ Nat)) :
    (incr lasting now counter).value = count lasting now counter + 1 := by
  rw [incr, count]
  cases live lasting now counter <;> rfl

/-- A counter counts its value or, once it is gone, nothing. -/
theorem count_some (lasting : Bool) (now : τ) (counter : Key τ Nat) :
    count lasting now (some counter) = counter.value ∨ count lasting now (some counter) = 0 := by
  simp only [count, live]
  by_cases hthere : there lasting now counter.deadline = true
  · exact .inl (by simp [hthere])
  · exact .inr (by simp [hthere])

/-- A key with a deadline lives for what is left until then. -/
theorem ttl_some (lasting : Bool) (now : Nat) (value : α) (deadline : Nat) :
    (ttl lasting now (some ⟨value, some deadline⟩)).toNat = deadline - now := by
  simp only [ttl, live, there]
  by_cases hlt : now < deadline
  · simp [hlt]
  · by_cases hgone : (lasting && decide (now = deadline)) = true
    · simp [hlt, hgone]
    · simp [hlt, hgone]
      omega

end Counters

end FetchTask.Expiring
