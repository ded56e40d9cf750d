import Mathlib.Data.List.Basic
import Mathlib.Logic.Function.Basic

/-!
Replacing several cells one after the other.

`replaceAll` writes new values into the cells of a list until a write raises; the
cells written before that keep their new values. `unchanged_iff` says when such a
run, if it is cut short, has nevertheless changed nothing.
-/

namespace FetchTask

namespace Replace

universe u v

variable {ι : Type u} {α : Type v} [DecidableEq ι] (raises : ι → Bool) (new : ι → α)

/-- Whether all cells were written, and the cells afterwards. -/
def replaceAll : List ι → (ι → α) → Bool × (ι → α)
  | [], cells => (true, cells)
  | i :: is, cells =>
    if raises i then (false, cells) else replaceAll is (Function.update cells i (new i))

/-- Whatever was written before a write that raises was there already. -/
def Unchanged (names : List ι) (cells : ι → α) : Prop :=
  ∀ before i after, names = before ++ i :: after → (∀ j ∈ before, raises j = false) →
    raises i = true → ∀ j ∈ before, cells j = new j

variable {raises new} {names : List ι} {cells : ι → α}

theorem replaceAll_fst_iff :
    (replaceAll raises new names cells).1 = true ↔ ∀ i ∈ names, raises i = false := by
  induction names generalizing cells with
  | nil => simp [replaceAll]
  | cons i is ih =>
    cases hi : raises i with
    | true => simp [replaceAll, hi]
    | false => simp [replaceAll, hi, ih]

/-- A cell has its old value or the new one. -/
theorem replaceAll_cell (i : ι) : (replaceAll raises new names cells).2 i = cells i ∨
    i ∈ names ∧ (replaceAll raises new names cells).2 i = new i := by
  induction names generalizing cells with
  | nil => exact .inl rfl
  | cons j js ih =>
    rw [replaceAll]
    split
    · exact .inl rfl
    · rcases @ih (Function.update cells j (new j)) with hold | ⟨hmem, hnew⟩
      · by_cases hij : i = j
        · subst hij
          rw [Function.update_self] at hold
          exact .inr ⟨List.mem_cons_self, hold⟩
        · rw [Function.update_of_ne hij] at hold
          exact .inl hold
      · exact .inr ⟨List.mem_cons_of_mem _ hmem, hnew⟩

/-- After a run that was not cut short, the cells of the list have the new values. -/
theorem replaceAll_of_true (h : (replaceAll raises new names cells).1 = true) (i : ι) :
    (replaceAll raises new names cells).2 i = if i ∈ names then new i else cells i := by
  induction names generalizing cells with
  | nil => rfl
  | cons j js ih =>
    have hj : raises j = false := replaceAll_fst_iff.mp h j List.mem_cons_self
    simp only [replaceAll, hj, Bool.false_eq_true, if_false] at h ⊢
    rw [ih h]
    by_cases hij : i = j
    · subst hij
      simp
    · simp [hij]

/-- A run is cut short at the first write that raises. -/
theorem replaceAll_append {before after : List ι} {i : ι} (hquiet : ∀ j ∈ before, raises j = false)
    (hi : raises i = true) :
    replaceAll raises new (before ++ i :: after) cells =
      (false, (replaceAll raises new before cells).2) := by
  induction before generalizing cells with
  | nil => simp [replaceAll, hi]
  | cons j js ih =>
    have hj : raises j = false := hquiet j List.mem_cons_self
    have hjs := @ih (Function.update cells j (new j))
      fun k hk => hquiet k (List.mem_cons_of_mem _ hk)
    simp only [List.cons_append, replaceAll, hj, Bool.false_eq_true, if_false, hjs]

theorem replaceAll_of_first {before after : List ι} {i : ι}
    (hquiet : ∀ j ∈ before, raises j = false) (hi : raises i = true) :
    (replaceAll raises new (before ++ i :: after) cells).2 = cells ↔
      ∀ j ∈ before, cells j = new j := by
  have hwritten : ∀ j, (replaceAll raises new before cells).2 j =
      if j ∈ before then new j else cells j :=
    replaceAll_of_true (replaceAll_fst_iff.mpr hquiet)
  rw [replaceAll_append hquiet hi]
  constructor
  · intro hsame j hj
    have hcell := hwritten j
    rw [if_pos hj] at hcell
    exact (congrFun hsame j).symm.trans hcell
  · intro h
    funext j
    rw [hwritten j]
    split
    · rename_i hj
      exact (h j hj).symm
    · rfl

/-- A run that was cut short has changed nothing exactly when the values written before
were there already. -/
theorem unchanged_iff (h : (replaceAll raises new names cells).1 = false) :
    (replaceAll raises new names cells).2 = cells ↔ Unchanged raises new names cells := by
  constructor
  · rintro hsame before i after rfl hquiet hi
    exact (replaceAll_of_first hquiet hi).mp hsame
  · intro hunchanged
    have hsome : (names.find? raises).isSome = true := by
      rw [List.find?_isSome]
      by_contra hnone
      push Not at hnone
      have hall : (replaceAll raises new names cells).1 = true :=
        replaceAll_fst_iff.mpr fun i hi => Bool.eq_false_iff.mpr (hnone i hi)
      rw [h] at hall
      cases hall
    obtain ⟨i, hfind⟩ := Option.isSome_iff_exists.mp hsome
    obtain ⟨hi, before, after, rfl, hbefore⟩ := List.find?_eq_some_iff_append.mp hfind
    have hquiet : ∀ j ∈ before, raises j = false := fun j hj => by simpa using hbefore j hj
    exact (replaceAll_of_first hquiet hi).mpr (hunchanged before i after rfl hquiet hi)

end Replace

end FetchTask
