import Mathlib.Data.List.Infix

/-!
The patterns of `LIKE`.

In a pattern `%` stands for any text, `_` for any character, and a backslash takes the
character after it literally. A pattern of other characters between two `%` says that
a text contains them.
-/

namespace FetchTask

/-- `text LIKE pattern`. -/
def like : List Char → List Char → Bool
  | [], text => text.isEmpty
  | '%' :: pattern, text => text.tails.any (like pattern)
  | '_' :: pattern, text =>
    match text with
    | [] => false
    | _ :: rest => like pattern rest
  | '\\' :: c :: pattern, text =>
    match text with
    | [] => false
    | d :: rest => c == d && like pattern rest
  | c :: pattern, text =>
    match text with
    | [] => false
    | d :: rest => c == d && like pattern rest

namespace Like

variable {c d : Char} {word pattern text : List Char}

/-- The character stands for itself. -/
def Literal (c : Char) : Prop := c ≠ '%' ∧ c ≠ '_' ∧ c ≠ '\\'

instance (c : Char) : Decidable (Literal c) :=
  inferInstanceAs (Decidable (c ≠ '%' ∧ c ≠ '_' ∧ c ≠ '\\'))

theorem like_any :
    like ('%' :: pattern) text = true ↔ ∃ rest, rest <:+ text ∧ like pattern rest = true := by
  simp only [like, List.any_eq_true, List.mem_tails]

theorem like_literal_nil (hc : Literal c) : like (c :: pattern) [] = false := by
  obtain ⟨hany, hone, hescape⟩ := hc
  unfold like
  split <;> simp_all

theorem like_literal_cons (hc : Literal c) :
    like (c :: pattern) (d :: text) = (c == d && like pattern text) := by
  obtain ⟨hany, hone, hescape⟩ := hc
  rw [like]
  · exact hany
  · exact hone
  · exact fun c' pattern' heq => absurd heq hescape

/-- A text begins with the characters. -/
theorem like_begins (hword : ∀ c ∈ word, Literal c) :
    like (word ++ ['%']) text = true ↔ word <+: text := by
  induction word generalizing text with
  | nil =>
    refine iff_of_true (like_any.mpr ⟨[], List.nil_suffix, rfl⟩) List.nil_prefix
  | cons c word ih =>
    have hc : Literal c := hword c List.mem_cons_self
    have hrest : ∀ c ∈ word, Literal c := fun c hin => hword c (List.mem_cons_of_mem _ hin)
    cases text with
    | nil =>
      rw [List.cons_append, like_literal_nil hc]
      simp
    | cons d text =>
      rw [List.cons_append, like_literal_cons hc, Bool.and_eq_true, ih hrest, beq_iff_eq,
        List.cons_prefix_cons]

/-- A text contains the characters. -/
theorem like_contains (hword : ∀ c ∈ word, Literal c) :
    like ('%' :: (word ++ ['%'])) text = true ↔ word <:+: text := by
  rw [like_any, List.infix_iff_prefix_suffix]
  constructor
  · rintro ⟨rest, hsuffix, hlike⟩
    exact ⟨rest, (like_begins hword).mp hlike, hsuffix⟩
  · rintro ⟨rest, hbegins, hsuffix⟩
    exact ⟨rest, hsuffix, (like_begins hword).mpr hbegins⟩

end Like

end FetchTask
