import FetchTask.InvitationCodes

/-!
What the codes say of the registrations.

Each code that stands tells how often it was used since it was generated, and by
whom last, whatever was deleted and drawn again in between, and whatever
registrations were under way.
-/

namespace FetchTask.InvitationCodes

open Runs

variable {S : Setting} {d d' : Data} {codes : Codes} {since : String → List Use} {w : World}
  {codeHash : String} {r : Code}

/-! ### The last items of a list -/

theorem lastItems_append {α : Type} (n : Nat) (items rest : List α) :
    lastItems n (lastItems n items ++ rest) = lastItems n (items ++ rest) := by
  have hle : items.length - n ≤ items.length := Nat.sub_le _ _
  simp only [lastItems]
  rw [← List.drop_append_of_le_length hle, List.drop_drop]
  congr 1
  simp only [List.length_drop, List.length_append]
  omega

theorem lastItems_lastItems {α : Type} (n : Nat) (items : List α) :
    lastItems n (lastItems n items) = lastItems n items := by
  simpa using lastItems_append n items []

/-! ### Calls -/

/-- What a call that raises keeps, and one that does not brings about. -/
theorem mutate_of {α : Type} {mutator : Data → Except String (α × Data)} {P : Data → Prop}
    (hd : P d) (h : ∀ answer d', mutator (normalizeData S d) = .ok (answer, d') → P d') :
    P (mutate S mutator d).2 := by
  rw [mutate]
  split
  · rename_i answer d' heq
    exact h answer d' heq
  · exact hd

/-- New codes are refused, or the ones that were drawn are in the document. -/
theorem generateCodes_cases (S : Setting) (now : String) (draws : List (String × String))
    (count length : Int) (note : String) (d : Data) :
    (∃ text, generateCodes S now draws count length note d = (.error text, d)) ∨
    generateCodes S now draws count length note d =
      let drawn := drawCodes S now (takeText 120 (S.chars.strip note)) count.toNat draws
        (normalizeData S d).codes
      (.ok drawn.1, { normalizeData S d with codes := drawn.2 }) := by
  rw [generateCodes]
  split
  · exact .inl ⟨_, rfl⟩
  split
  · exact .inl ⟨_, rfl⟩
  · exact .inr rfl

theorem findCode_get? {codeId : String} (h : findCode S codeId codes = some (codeHash, r)) :
    codes.get? codeHash = some r :=
  (codes.get?_eq_some_iff).mpr (List.mem_of_find?_eq_some h)

/-! ### What a code tells -/

/-- The number of uses, the last hundred of them, and the last one. -/
structure Code.Tells (r : Code) (history : List Use) : Prop where
  count : r.useCount = history.length
  uses : r.uses = lastItems maxUseHistory history
  last : (r.lastUsedAt, r.lastUsedBy, r.lastUsedUsername) =
    (history.getLast?.map fun use => (use.usedAt, use.userId, use.username)).getD ("", "", "")

def Told (codes : Codes) (since : String → List Use) : Prop :=
  ∀ codeHash r, codes.get? codeHash = some r → r.Tells (since codeHash)

theorem Code.Tells.normalized {history : List Use} (h : r.Tells history) :
    (r.normalized S).Tells history where
  count := by
    simp only [Code.normalized]
    exact h.count
  uses := by
    simp only [Code.normalized, h.uses]
    exact lastItems_lastItems _ _
  last := by
    simp only [Code.normalized]
    exact h.last

theorem Code.Tells.noted {history : List Use} (h : r.Tells history) (note : String) :
    ({ r with note } : Code).Tells history :=
  ⟨h.count, h.uses, h.last⟩

theorem Code.Tells.used {history : List Use} (h : r.Tells history) (use : Use) :
    (r.used use).Tells (history ++ [use]) where
  count := by simp [Code.used, h.count]
  uses := by
    simp only [Code.used, h.uses]
    exact lastItems_append _ _ _
  last := by simp [Code.used]

theorem Told.normalized (h : Told d.codes since) : Told (normalizeData S d).codes since := by
  intro codeHash r hget
  simp only [normalizeData, Dict.get?_mapValues, Option.map_eq_some_iff] at hget
  obtain ⟨r, hget, rfl⟩ := hget
  exact (h codeHash r hget).normalized

/-- A code that stands after codes were drawn stood before, and was not drawn, or is new. -/
theorem drawCodes_get? {now note : String} {count : Nat} {draws : List (String × String)}
    (h : (drawCodes S now note count draws codes).2.get? codeHash = some r) :
    (codes.get? codeHash = some r ∧
      ∀ created ∈ (drawCodes S now note count draws codes).1, created.codeHash ≠ codeHash) ∨
    (r ∈ (drawCodes S now note count draws codes).1 ∧ r.codeHash = codeHash ∧ r.Tells []) := by
  induction draws generalizing count codes with
  | nil =>
    cases count <;>
    · simp only [drawCodes] at h ⊢
      exact .inl ⟨h, fun created hmem => absurd hmem List.not_mem_nil⟩
  | cons draw draws ih =>
    obtain ⟨code, id⟩ := draw
    cases count with
    | zero =>
      simp only [drawCodes] at h ⊢
      exact .inl ⟨h, fun created hmem => absurd hmem List.not_mem_nil⟩
    | succ count =>
      -- a digest that is taken costs a draw and makes no code
      by_cases hknown : codes.contains (S.digest code) = true
      · simp only [drawCodes, if_pos hknown] at h ⊢
        exact ih h
      · simp only [drawCodes, if_neg hknown] at h ⊢
        obtain ⟨hget, hnone⟩ | ⟨hmem, heq, htells⟩ := ih h
        · rw [Dict.get?_set] at hget
          split at hget
          · rename_i heq
            obtain rfl := Option.some.inj hget
            exact .inr ⟨List.mem_cons_self, heq, rfl, rfl, rfl⟩
          · rename_i hne
            refine .inl ⟨hget, fun created hmem => ?_⟩
            obtain rfl | hmem := List.mem_cons.mp hmem
            · exact hne
            · exact hnone created hmem
        · exact .inr ⟨List.mem_cons_of_mem _ hmem, heq, htells⟩

/-! ### Runs -/

theorem Told.reserved (h : Told d.codes since) (code : String) :
    Told (reserveCode S code d).2.codes since := by
  rw [reserveCode]
  split
  · exact h
  · refine mutate_of (P := fun d => Told d.codes since) h fun answer d' heq => ?_
    simp only at heq
    split at heq
    · contradiction
    · obtain ⟨-, rfl⟩ := Prod.mk.inj (Except.ok.inj heq)
      exact h.normalized

theorem Told.invited (h : Told d.codes since) (code : String) :
    Told (invitation S code d).2.codes since := by
  rw [invitation]
  split
  · exact h
  split
  · exact h
  · exact h.reserved _

theorem Told.deleted (h : Told d.codes since) (codeId : String) :
    Told (deleteCode S codeId d).2.codes since := by
  rw [deleteCode]
  split
  · exact h
  · refine mutate_of (P := fun d => Told d.codes since) h fun answer d' heq => ?_
    split at heq
    · obtain ⟨-, rfl⟩ := Prod.mk.inj (Except.ok.inj heq)
      exact h.normalized
    · split at heq
      · contradiction
      · obtain ⟨-, rfl⟩ := Prod.mk.inj (Except.ok.inj heq)
        exact Dict.forall_erase h.normalized

theorem Told.noted (h : Told d.codes since) (codeId note : String) :
    Told (updateCodeNote S codeId note d).2.codes since := by
  rw [updateCodeNote]
  split
  · exact h
  · refine mutate_of (P := fun d => Told d.codes since) h fun answer d' heq => ?_
    simp only at heq
    split at heq
    · obtain ⟨-, rfl⟩ := Prod.mk.inj (Except.ok.inj heq)
      exact h.normalized
    · rename_i codeHash record hfind
      obtain ⟨-, rfl⟩ := Prod.mk.inj (Except.ok.inj heq)
      exact Dict.forall_set ((h.normalized _ _ (findCode_get? hfind)).noted _) h.normalized

theorem Told.completed (h : Told d.codes since) (codeHash : String) (use : Use) :
    Told (completeReservation S codeHash use d).2.codes
      (Function.update since codeHash (since codeHash ++ [use])) := by
  rw [completeReservation, mutate]
  cases hget : (normalizeData S d).codes.get? codeHash with
  | none =>
    intro other r hother
    -- the code was deleted meanwhile, and nothing tells of the use
    have hne : other ≠ codeHash := by
      rintro rfl
      rw [hget] at hother
      contradiction
    rw [Function.update_of_ne hne]
    exact h.normalized other r hother
  | some record =>
    simp only
    intro other r hother
    rw [Dict.get?_set] at hother
    split at hother
    · rename_i heq
      obtain rfl := heq
      obtain rfl := Option.some.inj hother
      rw [Function.update_self]
      exact (h.normalized _ _ hget).used use
    · rename_i hne
      rw [Function.update_of_ne (Ne.symm hne)]
      exact h.normalized other r hother

theorem Told.step (h : Told w.data.codes w.since) (event : Event) :
    Told (step S event w).data.codes (step S event w).since := by
  cases event with
  | setRequired required => exact h.normalized
  | generate now draws count length note =>
    simp only [InvitationCodes.step]
    obtain ⟨text, heq⟩ | heq := generateCodes_cases S now draws count length note w.data
    · rw [heq]
      exact h
    · rw [heq]
      -- the history of a digest begins anew where it is drawn again
      intro codeHash r hget
      simp only at hget ⊢
      obtain ⟨hget, hnone⟩ | ⟨hmem, rfl, htells⟩ := drawCodes_get? hget
      · rw [if_neg]
        · exact h.normalized codeHash r hget
        · simpa using hnone
      · rw [if_pos]
        · exact htells
        · simpa using ⟨r, hmem, rfl⟩
  | delete codeId => exact h.deleted codeId
  | note codeId note => exact h.noted codeId note
  | start call code =>
    have hinvited := h.invited (S := S) code
    simp only [InvitationCodes.step]
    split
    · rename_i invitation data heq
      rw [heq] at hinvited
      split <;> exact hinvited
    · rename_i text data heq
      rw [heq] at hinvited
      exact hinvited
  | create call userId username =>
    simp only [InvitationCodes.step]
    split <;> exact h
  | complete call now =>
    simp only [InvitationCodes.step]
    split
    · rename_i required invitation userId username hcall
      cases invitation with
      | none => exact h
      | some codeHash => exact h.completed codeHash _
    · exact h
  | fail call => exact h

/-- In every run, every code that stands tells exactly how often it was used since it was
generated, by whom last, and its last hundred uses, whatever was deleted and drawn again while
registrations were under way. -/
theorem codes_tell (S : Setting) (events : List Event) :
    Throughout (step S) (fun w => ∀ codeHash r, w.data.codes.get? codeHash = some r →
      r.Tells (w.since codeHash)) events {} :=
  throughout_of_step (fun event _ h => Told.step h event) fun _ _ hget => by cases hget

end FetchTask.InvitationCodes
