import Mathlib.Data.List.Basic

/-!
Counting in a table of which one entry is being worked on.

A property of all entries of a table is a count of those that meet a predicate.
While one entry is worked on, the others stay as they are: `others` counts
these, and what the entry itself contributes is added when the work is done.
-/

namespace FetchTask.Tally

universe u

variable {α : Type u} (p : α → Bool) {table : List α} {k : Nat} {a b : α}

/-- How many entries other than the one at `k` meet `p`. -/
def others (table : List α) (k : Nat) : Nat := (table.eraseIdx k).countP p

theorem countP_eq (h : table[k]? = some a) :
    table.countP p = others p table k + (p a).toNat := by
  obtain ⟨hk, rfl⟩ := List.getElem?_eq_some_iff.mp h
  have hsplit : table = table.take k ++ table[k] :: table.drop (k + 1) := by simp
  rw [others, List.eraseIdx_eq_take_drop_succ, List.countP_append]
  conv_lhs => rw [hsplit, List.countP_append, List.countP_cons]
  cases p table[k] <;> simp [Nat.add_assoc]

@[simp] theorem others_set (a : α) : others p (table.set k a) k = others p table k := by
  rw [others, List.eraseIdx_set_eq, others]

theorem countP_set (h : k < table.length) (a : α) :
    (table.set k a).countP p = others p table k + (p a).toNat := by
  rw [countP_eq p (List.getElem?_set_self h), others_set]

/-- What one entry is, and what it becomes. -/
theorem countP_set_add (h : table[k]? = some a) (b : α) :
    (table.set k b).countP p + (p a).toNat = table.countP p + (p b).toNat := by
  have hk : k < table.length := (List.getElem?_eq_some_iff.mp h).1
  rw [countP_set p hk, countP_eq p h]
  omega

/-- At the end of the table no entry is left out. -/
@[simp] theorem others_length (table : List α) : others p table table.length = table.countP p := by
  rw [others, List.eraseIdx_of_length_le (Nat.le_refl _)]

theorem others_mono {q : α → Bool} (hpq : ∀ a, p a = true → q a = true) (table : List α) (k : Nat) :
    others p table k ≤ others q table k :=
  List.countP_mono_left fun a _ => hpq a

theorem others_map {f : α → α} (hf : ∀ a, p (f a) = p a) :
    others p (table.map f) k = others p table k := by
  have hsame : p ∘ f = p := funext hf
  simp only [others, List.eraseIdx_eq_take_drop_succ, ← List.map_take, ← List.map_drop,
    ← List.map_append, List.countP_map, hsame]

theorem countP_map {f : α → α} (hf : ∀ a, p (f a) = p a) :
    (table.map f).countP p = table.countP p := by
  rw [List.countP_map]
  exact congrArg (List.countP · _) (funext hf)

theorem countP_append_singleton (table : List α) (a : α) :
    (table ++ [a]).countP p = table.countP p + (p a).toNat := by
  rw [List.countP_append, List.countP_singleton]
  cases p a <;> rfl

/-- A new entry at the end has all the others before it. -/
@[simp] theorem others_append_self (table : List α) (a : α) :
    others p (table ++ [a]) table.length = table.countP p := by
  rw [others, List.eraseIdx_append_of_length_le (Nat.le_refl _)]
  simp

/-- In a table without repetitions, a property of one entry only is met at most once. -/
theorem countP_le_one (hnodup : table.Nodup)
    (hsingle : ∀ a ∈ table, ∀ b ∈ table, p a = true → p b = true → a = b) :
    table.countP p ≤ 1 := by
  rw [List.countP_eq_length_filter]
  have hfilter : (table.filter p).Nodup := hnodup.filter p
  match hmatch : table.filter p with
  | [] => exact Nat.zero_le 1
  | [a] => exact Nat.le_refl 1
  | a :: b :: rest =>
    have ha : a ∈ table.filter p := by simp [hmatch]
    have hb : b ∈ table.filter p := by simp [hmatch]
    have heq : a = b := hsingle a (List.mem_of_mem_filter ha) b (List.mem_of_mem_filter hb)
      (List.mem_filter.mp ha).2 (List.mem_filter.mp hb).2
    rw [hmatch, heq] at hfilter
    simp at hfilter

end FetchTask.Tally
