import Mathlib.Data.List.Sort

/-!
Sorted lists whose members are told apart.

Where a relation is total and transitive, and tells the members of a list apart, the
sorted list does not depend on the order they come in: sorting then goes with
selecting, and two relations that agree on the members sort them alike.
-/

namespace FetchTask.Sorting

universe u

variable {α : Type u} (r s : α → α → Prop) [DecidableRel r] [DecidableRel s] {l l' : List α}

/-- The relation tells the members apart. -/
def Separates (l : List α) : Prop := ∀ a ∈ l, ∀ b ∈ l, r a b → r b a → a = b

variable {r s}

omit [DecidableRel r] in
theorem Separates.sublist (h : Separates r l) (hsub : l'.Sublist l) : Separates r l' :=
  fun a ha b hb => h a (hsub.subset ha) b (hsub.subset hb)

theorem insertionSort_congr (h : ∀ a ∈ l, ∀ b ∈ l, r a b ↔ s a b) :
    l.insertionSort r = l.insertionSort s := by
  have hmap := List.map_insertionSort r s id l h
  rwa [List.map_id, List.map_id] at hmap

/-- How two members are sorted, as seen by a function that tells them apart, says which of
them the relation puts first. -/
theorem congr_of_insertionSort_pair {β : Type*} (f : α → β) {a b : α} (hne : f a ≠ f b)
    (h : ([a, b].insertionSort r).map f = ([a, b].insertionSort s).map f) : r a b ↔ s a b := by
  have hab : [a, b].map f ≠ [b, a].map f := fun heq => hne (List.cons.inj heq).1
  simp only [List.insertionSort_cons, List.insertionSort_nil, List.orderedInsert_cons,
    List.orderedInsert_nil] at h
  by_cases hr : r a b <;> by_cases hs : s a b
  · exact iff_of_true hr hs
  · rw [if_pos hr, if_neg hs] at h
    exact absurd h hab
  · rw [if_neg hr, if_pos hs] at h
    exact absurd h.symm hab
  · exact iff_of_false hr hs

variable [Std.Total r] [IsTrans α r]

theorem insertionSort_eq_of_perm (hr : Separates r l) (h : l.Perm l') :
    l.insertionSort r = l'.insertionSort r := by
  refine List.Perm.eq_of_pairwise (fun a b ha hb => ?_) (List.pairwise_insertionSort r l)
    (List.pairwise_insertionSort r l')
    (((List.perm_insertionSort r l).trans h).trans (List.perm_insertionSort r l').symm)
  refine hr a ((List.mem_insertionSort r).mp ha) b ?_
  exact h.mem_iff.mpr ((List.mem_insertionSort r).mp hb)

/-- What is selected of a sorted list is what was selected, sorted. -/
theorem filter_insertionSort (hr : Separates r l) (p : α → Bool) :
    (l.insertionSort r).filter p = (l.filter p).insertionSort r := by
  refine List.Perm.eq_of_pairwise (fun a b ha hb => ?_)
    ((List.pairwise_insertionSort r l).sublist List.filter_sublist)
    (List.pairwise_insertionSort r (l.filter p))
    (((List.perm_insertionSort r l).filter p).trans (List.perm_insertionSort r _).symm)
  refine hr a ((List.mem_insertionSort r).mp (List.mem_of_mem_filter ha)) b ?_
  exact List.mem_of_mem_filter ((List.mem_insertionSort r).mp hb)

end FetchTask.Sorting
