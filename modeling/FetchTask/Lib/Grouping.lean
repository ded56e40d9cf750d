import FetchTask.Lib.Dict

/-!
Grouping a list under a key.

`group` collects values under their keys, in the order in which the keys come up.
What is found under a key is the part of the list with that key (`get?_group`).
-/

namespace FetchTask.Grouping

universe u v

variable {κ : Type u} {α : Type v} [DecidableEq κ] (key : α → κ)

/-- `d.setdefault(key, []).append(x)`. -/
def push (d : Dict κ (List α)) (x : α) : Dict κ (List α) :=
  d.set (key x) ((d.get? (key x)).getD [] ++ [x])

def group (values : List α) : Dict κ (List α) := values.foldl (push key) .empty

/-- The part of a list with this key. -/
def part (k : κ) (values : List α) : List α := values.filter fun x => key x = k

theorem mem_part {k : κ} {values : List α} {x : α} :
    x ∈ part key k values ↔ x ∈ values ∧ key x = k := by
  simp [part]

theorem part_cons_self (x : α) (values : List α) :
    part key (key x) (x :: values) = x :: part key (key x) values := by
  simp [part]

theorem part_cons_of_ne {k : κ} {x : α} (h : key x ≠ k) (values : List α) :
    part key k (x :: values) = part key k values := by
  simp [part, h]

theorem getD_push (d : Dict κ (List α)) (x : α) (k : κ) :
    ((push key d x).get? k).getD [] = (d.get? k).getD [] ++ part key k [x] := by
  rw [push, Dict.get?_set]
  split
  · rename_i hk
    subst hk
    rw [part_cons_self]
    rfl
  · rename_i hk
    rw [part_cons_of_ne key hk, part, List.filter_nil, List.append_nil]

theorem getD_foldl_push (d : Dict κ (List α)) (values : List α) (k : κ) :
    ((values.foldl (push key) d).get? k).getD [] = (d.get? k).getD [] ++ part key k values := by
  induction values generalizing d with
  | nil => simp [part]
  | cons x values ih =>
    rw [List.foldl_cons, ih, getD_push, List.append_assoc, part, part, ← List.filter_append,
      List.singleton_append, part]

theorem contains_foldl_push (d : Dict κ (List α)) (values : List α) (k : κ) :
    (values.foldl (push key) d).contains k = true ↔
      d.contains k = true ∨ ∃ x ∈ values, key x = k := by
  induction values generalizing d with
  | nil => simp
  | cons x values ih =>
    rw [List.foldl_cons, ih, push, Dict.contains_set, Bool.or_eq_true, decide_eq_true_eq,
      List.exists_mem_cons_iff, or_comm (a := key x = k), or_assoc]

/-- A key is there when some value has it. -/
theorem contains_group (values : List α) (k : κ) :
    (group key values).contains k = true ↔ ∃ x ∈ values, key x = k := by
  rw [group, contains_foldl_push]
  simp

theorem getD_group (values : List α) (k : κ) :
    ((group key values).get? k).getD [] = part key k values := by
  rw [group, getD_foldl_push, Dict.get?_empty, Option.getD_none, List.nil_append]

/-- What stands under a key is the part of the list with that key. -/
theorem eq_part_of_mem {values : List α} {p : κ × List α} (h : p ∈ (group key values).items) :
    p.2 = part key p.1 values := by
  rw [← getD_group, (Dict.get?_eq_some_iff _).mpr h, Option.getD_some]

end FetchTask.Grouping
