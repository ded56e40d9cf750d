import Mathlib.Data.String.Basic

/-!
The order of texts in a database, and two orders built on it.

`newest` is that of a time and an identifier, both descending, where a row without a
time comes first. `ranked` is that of counted texts: the larger count first, the texts
ascending.
-/

namespace FetchTask

structure Collation where
  le : String → String → Bool
  total : ∀ a b, le a b = true ∨ le b a = true
  trans : ∀ a b c, le a b = true → le b c = true → le a c = true
  antisymm : ∀ a b, le a b = true → le b a = true → a = b

namespace Collation

/-- The order of the code points. -/
def codePoints : Collation where
  le a b := decide (a ≤ b)
  total a b := by simpa only [decide_eq_true_eq] using le_total a b
  trans a b c := by simpa only [decide_eq_true_eq] using le_trans
  antisymm a b := by simpa only [decide_eq_true_eq] using le_antisymm

variable (c : Collation)

theorem refl (a : String) : c.le a a = true := (c.total a a).elim id id

/-- `ORDER BY time DESC, id DESC`. -/
def newest (a b : Option String × String) : Prop :=
  match a.1, b.1 with
  | none, none => c.le b.2 a.2 = true
  | none, some _ => True
  | some _, none => False
  | some x, some y => if x = y then c.le b.2 a.2 = true else c.le y x = true

instance : DecidableRel c.newest := fun a b => by
  unfold newest
  split <;> infer_instance

theorem newest_some {x y i j : String} :
    c.newest (some x, i) (some y, j) ↔ if x = y then c.le j i = true else c.le y x = true := Iff.rfl

theorem newest_total (a b : Option String × String) : c.newest a b ∨ c.newest b a := by
  obtain ⟨x, i⟩ := a
  obtain ⟨y, j⟩ := b
  cases x with
  | none =>
    cases y with
    | none => exact c.total j i
    | some y => exact Or.inl trivial
  | some x =>
    cases y with
    | none => exact Or.inr trivial
    | some y =>
      rw [newest_some, newest_some]
      by_cases hxy : x = y
      · rw [if_pos hxy, if_pos hxy.symm]
        exact c.total j i
      · rw [if_neg hxy, if_neg (Ne.symm hxy)]
        exact c.total y x

theorem newest_refl (a : Option String × String) : c.newest a a :=
  (c.newest_total a a).elim id id

theorem newest_trans {a b d : Option String × String} (hab : c.newest a b) (hbd : c.newest b d) :
    c.newest a d := by
  obtain ⟨x, i⟩ := a
  obtain ⟨y, j⟩ := b
  obtain ⟨z, k⟩ := d
  cases x with
  | none =>
    cases z with
    | some z => trivial
    | none =>
      cases y with
      | none => exact c.trans k j i hbd hab
      | some y => exact hbd.elim
  | some x =>
    cases y with
    | none => exact hab.elim
    | some y =>
      cases z with
      | none => exact hbd.elim
      | some z =>
        rw [newest_some] at hab hbd ⊢
        by_cases hxy : x = y
        · subst hxy
          rw [if_pos rfl] at hab
          by_cases hxz : x = z
          · rw [if_pos hxz] at hbd ⊢
            exact c.trans k j i hbd hab
          · rwa [if_neg hxz] at hbd ⊢
        · rw [if_neg hxy] at hab
          by_cases hyz : y = z
          · subst hyz
            rwa [if_neg hxy]
          · rw [if_neg hyz] at hbd
            have hzx : c.le z x = true := c.trans z y x hbd hab
            by_cases hxz : x = z
            · subst hxz
              exact absurd (c.antisymm x y hbd hab) hxy
            · rwa [if_neg hxz]

/-- The order tells the rows apart where the identifiers differ. -/
theorem eq_of_newest {a b : Option String × String} (hab : c.newest a b) (hba : c.newest b a) :
    a = b := by
  obtain ⟨x, i⟩ := a
  obtain ⟨y, j⟩ := b
  cases x with
  | none =>
    cases y with
    | none => exact congrArg _ (c.antisymm i j hba hab)
    | some y => exact hba.elim
  | some x =>
    cases y with
    | none => exact hab.elim
    | some y =>
      rw [newest_some] at hab hba
      by_cases hxy : x = y
      · rw [if_pos hxy] at hab
        rw [if_pos hxy.symm] at hba
        rw [hxy, c.antisymm i j hba hab]
      · rw [if_neg hxy] at hab
        rw [if_neg (Ne.symm hxy)] at hba
        exact absurd (c.antisymm x y hba hab) hxy

instance : Std.Total c.newest := ⟨c.newest_total⟩

instance : IsTrans _ c.newest := ⟨fun _ _ _ => c.newest_trans⟩

section By

universe u

variable {α : Type u} (key : α → Option String × String)

/-- Rows by the time and the identifier that the key finds in them. -/
def newestBy (a b : α) : Prop := c.newest (key a) (key b)

instance : DecidableRel (c.newestBy key) := fun a b =>
  inferInstanceAs (Decidable (c.newest (key a) (key b)))

instance : Std.Total (c.newestBy key) := ⟨fun _ _ => c.newest_total ..⟩

instance : IsTrans α (c.newestBy key) := ⟨fun _ _ _ => c.newest_trans⟩

end By

/-- `ORDER BY count(*) DESC, text ASC`. -/
def ranked (a b : String × Nat) : Prop := b.2 < a.2 ∨ a.2 = b.2 ∧ c.le a.1 b.1 = true

instance : DecidableRel c.ranked := fun a b =>
  inferInstanceAs (Decidable (b.2 < a.2 ∨ a.2 = b.2 ∧ c.le a.1 b.1 = true))

theorem ranked_total (a b : String × Nat) : c.ranked a b ∨ c.ranked b a := by
  rcases lt_trichotomy a.2 b.2 with hlt | heq | hgt
  · exact Or.inr (Or.inl hlt)
  · exact (c.total a.1 b.1).imp (fun h => Or.inr ⟨heq, h⟩) fun h => Or.inr ⟨heq.symm, h⟩
  · exact Or.inl (Or.inl hgt)

theorem ranked_trans {a b d : String × Nat} (hab : c.ranked a b) (hbd : c.ranked b d) :
    c.ranked a d := by
  rcases hab with hab | ⟨hab, hle⟩
  · rcases hbd with hbd | ⟨hbd, -⟩
    · exact Or.inl (hbd.trans hab)
    · exact Or.inl (hbd ▸ hab)
  · rcases hbd with hbd | ⟨hbd, hle'⟩
    · exact Or.inl (hab ▸ hbd)
    · exact Or.inr ⟨hab.trans hbd, c.trans _ _ _ hle hle'⟩

theorem eq_of_ranked {a b : String × Nat} (hab : c.ranked a b) (hba : c.ranked b a) : a = b := by
  rcases hab with hab | ⟨hcount, hle⟩
  · rcases hba with hba | ⟨hcount, -⟩
    · exact absurd hba hab.not_gt
    · exact absurd hcount hab.ne
  · rcases hba with hba | ⟨-, hle'⟩
    · exact absurd hcount hba.ne
    · exact Prod.ext (c.antisymm _ _ hle hle') hcount

instance : Std.Total c.ranked := ⟨c.ranked_total⟩

instance : IsTrans _ c.ranked := ⟨fun _ _ _ => c.ranked_trans⟩

end Collation

end FetchTask
