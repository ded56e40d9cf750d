import FetchTask.Lib.Dict
import Mathlib.Algebra.BigOperators.Group.Finset.Piecewise
import Mathlib.Algebra.Order.BigOperators.Group.Finset
import Mathlib.Data.List.Count

/-!
Dictionaries of counts.

`countBy` counts a list under the keys it has, some of which are given from the
start; `addTo` adds such counts to stored ones, but keeps only the keys that were
counted. The stored counts are all there afterwards if and only if every key with
a stored count was counted (`total_addTo_iff`).
-/

namespace FetchTask.Counts

universe u

variable {κ : Type u} [DecidableEq κ]

/-- The count under a key, nothing when it is absent. -/
def count (d : Dict κ Nat) (k : κ) : Nat := (d.get? k).getD 0

def bump (d : Dict κ Nat) (k : κ) : Dict κ Nat := d.set k (count d k + 1)

/-- `{k: 0 for k in keys}`. -/
def zeros (keys : List κ) : Dict κ Nat := keys.foldl (fun d k => d.set k 0) .empty

/-- `values`, counted under each of them; the keys that are given have a count in any case. -/
def countBy (keys values : List κ) : Dict κ Nat := values.foldl bump (zeros keys)

/-- `{k: stored.get(k, 0) + n for k, n in counts.items()}`. -/
def addTo (stored counts : Dict κ Nat) : Dict κ Nat where
  items := counts.items.map fun p => (p.1, count stored p.1 + p.2)
  nodup := by
    rw [List.map_map]
    exact counts.nodup

def keys (d : Dict κ Nat) : Finset κ := (d.items.map Prod.fst).toFinset

theorem mem_keys (d : Dict κ Nat) {k : κ} : k ∈ keys d ↔ d.contains k = true := by
  rw [keys, List.mem_toFinset, Dict.contains_iff_mem_keys]

theorem count_of_notMem {d : Dict κ Nat} {k : κ} (h : k ∉ keys d) : count d k = 0 := by
  rw [mem_keys, Dict.contains, Bool.not_eq_true, Option.isSome_eq_false_iff,
    Option.isNone_iff_eq_none] at h
  rw [count, h, Option.getD_none]

theorem count_of_mem {d : Dict κ Nat} {p : κ × Nat} (h : p ∈ d.items) : count d p.1 = p.2 := by
  rw [count, (Dict.get?_eq_some_iff d).mpr h, Option.getD_some]

/-- A total is the sum of the counts of its keys. -/
theorem total_eq_sum (d : Dict κ Nat) : d.total id = ∑ k ∈ keys d, count d k := by
  rw [keys, List.sum_toFinset _ d.nodup, Dict.total, List.map_map]
  refine congrArg List.sum (List.map_congr_left fun p hp => ?_)
  exact (count_of_mem hp).symm

theorem total_addTo (stored counts : Dict κ Nat) :
    (addTo stored counts).total id = (∑ k ∈ keys counts, count stored k) + counts.total id := by
  rw [keys, List.sum_toFinset _ counts.nodup, Dict.total, addTo, List.map_map, Dict.total,
    List.map_map, ← List.sum_map_add]
  rfl

/-- Adding keeps the stored counts if and only if it covers their keys. -/
theorem total_addTo_iff (stored counts : Dict κ Nat) :
    (addTo stored counts).total id = stored.total id + counts.total id ↔
      ∀ k, 0 < count stored k → counts.contains k = true := by
  rw [total_addTo, total_eq_sum stored]
  -- Both sums are over the keys that both have, and what only one of them has.
  have hcounted : ∑ k ∈ keys counts, count stored k =
      ∑ k ∈ keys counts ∩ keys stored, count stored k := by
    refine (Finset.sum_subset Finset.inter_subset_left fun k hk hnot => ?_).symm
    exact count_of_notMem fun hstored => hnot (Finset.mem_inter.mpr ⟨hk, hstored⟩)
  have hsplit : ∑ k ∈ keys stored, count stored k =
      (∑ k ∈ keys counts ∩ keys stored, count stored k) +
        ∑ k ∈ keys stored \ keys counts, count stored k := by
    rw [Finset.inter_comm, Finset.sum_inter_add_sum_sdiff]
  have hlost : (∑ k ∈ keys stored \ keys counts, count stored k) = 0 ↔
      ∀ k, 0 < count stored k → counts.contains k = true := by
    rw [Finset.sum_eq_zero_iff]
    constructor
    · intro hzero k hpos
      rw [← mem_keys]
      by_contra hnot
      have hstored : k ∈ keys stored := by
        by_contra hnotStored
        exact hpos.ne' (count_of_notMem hnotStored)
      exact hpos.ne' (hzero k (Finset.mem_sdiff.mpr ⟨hstored, hnot⟩))
    · intro hcovered k hk
      obtain ⟨-, hnot⟩ := Finset.mem_sdiff.mp hk
      by_contra hne
      exact hnot ((mem_keys counts).mpr (hcovered k (Nat.pos_of_ne_zero hne)))
  rw [← hlost, hcounted, hsplit]
  omega

/-! ### Counting a list -/

theorem total_bump (d : Dict κ Nat) (k : κ) : (bump d k).total id = d.total id + 1 := by
  have hset := d.total_set id k (count d k + 1)
  have hweight : d.weight id k = count d k := by
    rw [Dict.weight, count]
    cases d.get? k <;> rfl
  rw [hweight, id, ← Nat.add_assoc, Nat.add_right_comm] at hset
  rw [bump]
  omega

theorem count_zeros (keys : List κ) (k : κ) : count (zeros keys) k = 0 := by
  have hfold : ∀ d : Dict κ Nat, count d k = 0 →
      count (keys.foldl (fun d k => d.set k 0) d) k = 0 := by
    induction keys with
    | nil => exact fun d hd => hd
    | cons j keys ih =>
      intro d hd
      refine ih (d.set j 0) ?_
      rw [count, Dict.get?_set]
      split_ifs
      · rfl
      · exact hd
  exact hfold .empty rfl

theorem total_zeros (keys : List κ) : (zeros keys).total id = 0 := by
  rw [total_eq_sum]
  exact Finset.sum_eq_zero fun k _ => count_zeros keys k

theorem contains_zeros (keys : List κ) (k : κ) : (zeros keys).contains k = true ↔ k ∈ keys := by
  have hfold : ∀ d : Dict κ Nat, (keys.foldl (fun d k => d.set k 0) d).contains k = true ↔
      d.contains k = true ∨ k ∈ keys := by
    induction keys with
    | nil => simp
    | cons j keys ih =>
      intro d
      rw [List.foldl_cons, ih, Dict.contains_set, List.mem_cons]
      simp only [Bool.or_eq_true, decide_eq_true_eq, eq_comm (a := j)]
      tauto
  simpa [zeros] using hfold .empty

/-- Every value is counted once. -/
theorem total_countBy (keys values : List κ) : (countBy keys values).total id = values.length := by
  have hfold : ∀ d : Dict κ Nat, (values.foldl bump d).total id = d.total id + values.length := by
    induction values with
    | nil => simp
    | cons v values ih =>
      intro d
      rw [List.foldl_cons, ih, total_bump, List.length_cons]
      omega
  rw [countBy, hfold, total_zeros, Nat.zero_add]

theorem contains_countBy (keys values : List κ) (k : κ) :
    (countBy keys values).contains k = true ↔ k ∈ keys ∨ k ∈ values := by
  have hfold : ∀ d : Dict κ Nat, (values.foldl bump d).contains k = true ↔
      d.contains k = true ∨ k ∈ values := by
    induction values with
    | nil => simp
    | cons v values ih =>
      intro d
      rw [List.foldl_cons, ih, bump, Dict.contains_set, List.mem_cons]
      simp only [Bool.or_eq_true, decide_eq_true_eq, eq_comm (a := v)]
      tauto
  rw [countBy, hfold, contains_zeros]

end FetchTask.Counts
