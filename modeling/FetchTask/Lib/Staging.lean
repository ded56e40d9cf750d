import Mathlib.Data.List.Nodup
import Mathlib.Logic.Function.Basic

/-!
Files that are written under temporary names and then put in place.

Every key has at most one item, and a naming gives an item its place. New items are
first written under names of their own. Then each is put in place: what its key
had before is removed if it was in another place, and the new file takes its place
under the final name. `Holds` says that the files are those of the items in place
and of the ones that wait; it is kept by each of the three operations, so that in
the end the files are those of the items, the new ones over the old ones
(`holds_placeAll`).
-/

namespace FetchTask.Staging

variable {κ ν α β : Type} [DecidableEq κ] [DecidableEq ν]

abbrev Files (ν β : Type) := ν → Option β

def write (name : ν) (content : β) (files : Files ν β) : Files ν β :=
  Function.update files name (some content)

def unlink (name : ν) (files : Files ν β) : Files ν β := Function.update files name none

/-- The file takes the place of whatever has the new name. -/
def rename (name new : ν) (files : Files ν β) : Files ν β :=
  Function.update (Function.update files name none) new (files name)

/-- Places of items; items with different keys never have the same one. -/
structure Naming (κ α ν : Type) where
  place : κ → α → ν
  key_eq : ∀ {k k' : κ} {a a' : α}, place k a = place k' a' → k = k'

/-- A new item, and the name under which its file waits. -/
structure Staged (κ α ν : Type) where
  key : κ
  item : α
  temporary : ν

/-- The items, with new ones over the old ones. -/
def overlay (items : κ → Option α) : List (κ × α) → κ → Option α
  | [] => items
  | (k, a) :: rest => overlay (Function.update items k (some a)) rest

/-- A new item without its temporary name. -/
def Staged.pair (s : Staged κ α ν) : κ × α := (s.key, s.item)

section Rules

variable (N : Naming κ α ν) (content : α → β)

/-- The files are those of the items in place and of the items that wait. -/
def Holds (items : κ → Option α) (staged : List (Staged κ α ν)) (files : Files ν β) : Prop :=
  ∀ name c, files name = some c ↔
    (∃ k a, items k = some a ∧ N.place k a = name ∧ content a = c) ∨
      ∃ s ∈ staged, s.temporary = name ∧ content s.item = c

/-- The temporary names are distinct, and none of them is a place. -/
structure Apart (staged : List (Staged κ α ν)) : Prop where
  nodup : (staged.map Staged.temporary).Nodup
  place_ne : ∀ s ∈ staged, ∀ k a, N.place k a ≠ s.temporary

/-- What is removed before a new item is put in place. -/
def clearPlace (old : Option α) (s : Staged κ α ν) (files : Files ν β) : Files ν β :=
  match old with
  | some a => if N.place s.key a = N.place s.key s.item then files
    else unlink (N.place s.key a) files
  | none => files

/-- A new item is put in place. -/
def placeOne (old : Option α) (s : Staged κ α ν) (files : Files ν β) : Files ν β :=
  rename s.temporary (N.place s.key s.item) (clearPlace N old s files)

variable {N content} {items : κ → Option α} {staged : List (Staged κ α ν)} {files : Files ν β}
  {s : Staged κ α ν}

omit [DecidableEq κ] [DecidableEq ν] in
theorem Apart.tail (h : Apart N (s :: staged)) : Apart N staged where
  nodup := (List.nodup_cons.mp h.nodup).2
  place_ne t ht := h.place_ne t (List.mem_cons_of_mem _ ht)

omit [DecidableEq κ] [DecidableEq ν] in
theorem Apart.head_ne (h : Apart N (s :: staged)) {t : Staged κ α ν} (ht : t ∈ staged) :
    t.temporary ≠ s.temporary := by
  intro heq
  exact (List.nodup_cons.mp h.nodup).1 (heq ▸ List.mem_map_of_mem ht)

omit [DecidableEq κ] in
/-- A file is written under a name that no other file has. -/
theorem Holds.write (h : Holds N content items staged files)
    (hfresh : ∀ t ∈ staged, t.temporary ≠ s.temporary)
    (hplace : ∀ k a, N.place k a ≠ s.temporary) :
    Holds N content items (staged ++ [s]) (write s.temporary (content s.item) files) := by
  intro name c
  by_cases hname : name = s.temporary
  · subst hname
    rw [Staging.write, Function.update_self, Option.some.injEq]
    constructor
    · intro hc
      exact .inr ⟨s, List.mem_append_right _ List.mem_cons_self, rfl, hc⟩
    · rintro (⟨k, a, -, hat, -⟩ | ⟨t, ht, htemp, hc⟩)
      · exact absurd hat (hplace k a)
      · rcases List.mem_append.mp ht with hold | hnew
        · exact absurd htemp (hfresh t hold)
        · obtain rfl := List.mem_singleton.mp hnew
          exact hc
  · rw [Staging.write, Function.update_of_ne hname, h name c]
    refine or_congr Iff.rfl ⟨?_, ?_⟩
    · rintro ⟨t, ht, hrest⟩
      exact ⟨t, List.mem_append_left _ ht, hrest⟩
    · rintro ⟨t, ht, htemp, hc⟩
      rcases List.mem_append.mp ht with hold | hnew
      · exact ⟨t, hold, htemp, hc⟩
      · obtain rfl := List.mem_singleton.mp hnew
        exact absurd htemp.symm hname

omit [DecidableEq κ] in
theorem clearPlace_apply {old : Option α} {name : ν} (hname : name ≠ N.place s.key s.item) :
    clearPlace N old s files name =
      if old.map (N.place s.key) = some name then none else files name := by
  cases old with
  | none => rfl
  | some a =>
    simp only [clearPlace, Option.map_some, Option.some.injEq]
    by_cases hsame : N.place s.key a = N.place s.key s.item
    · rw [if_pos hsame, if_neg (hsame ▸ Ne.symm hname)]
    · rw [if_neg hsame]
      by_cases hgone : N.place s.key a = name
      · rw [if_pos hgone, unlink, hgone, Function.update_self]
      · rw [if_neg hgone, unlink, Function.update_of_ne (Ne.symm hgone)]

omit [DecidableEq κ] [DecidableEq ν] in
theorem Holds.temporary (h : Holds N content items staged files) (hs : s ∈ staged) :
    files s.temporary = some (content s.item) :=
  (h s.temporary (content s.item)).mpr (.inr ⟨s, hs, rfl, rfl⟩)

/-- A waiting item is put in place. -/
theorem Holds.placeOne (h : Holds N content items (s :: staged) files)
    (hapart : Apart N (s :: staged)) :
    Holds N content (Function.update items s.key (some s.item)) staged
      (placeOne N (items s.key) s files) := by
  have hplace : ∀ k a, N.place k a ≠ s.temporary := hapart.place_ne s List.mem_cons_self
  intro name c
  rw [Staging.placeOne, rename]
  by_cases hnew : name = N.place s.key s.item
  · -- The new file: no other item has this place.
    subst hnew
    have htemp : clearPlace N (items s.key) s files s.temporary = some (content s.item) := by
      rw [clearPlace_apply (hplace _ _).symm, if_neg, h.temporary List.mem_cons_self]
      intro hold
      obtain ⟨a, -, hat⟩ := Option.map_eq_some_iff.mp hold
      exact hplace _ _ hat
    rw [Function.update_self, htemp, Option.some.injEq]
    constructor
    · intro hc
      exact .inl ⟨s.key, s.item, Function.update_self .., rfl, hc⟩
    · rintro (⟨k, a, ha, hat, hc⟩ | ⟨t, ht, hat, -⟩)
      · obtain rfl := N.key_eq hat
        rw [Function.update_self] at ha
        obtain rfl := Option.some.inj ha
        exact hc
      · exact absurd hat.symm (hapart.place_ne t (List.mem_cons_of_mem _ ht) _ _)
  · rw [Function.update_of_ne hnew]
    by_cases hname : name = s.temporary
    · -- The temporary name is free again.
      subst hname
      rw [Function.update_self]
      refine iff_of_false (fun hnone => nomatch hnone) ?_
      rintro (⟨k, a, -, hat, -⟩ | ⟨t, ht, hat, -⟩)
      · exact hplace k a hat
      · exact hapart.head_ne ht hat
    · rw [Function.update_of_ne hname, clearPlace_apply hnew]
      by_cases hgone : (items s.key).map (N.place s.key) = some name
      · -- What the key had elsewhere is removed.
        rw [if_pos hgone]
        obtain ⟨b, -, rfl⟩ := Option.map_eq_some_iff.mp hgone
        refine iff_of_false (fun hnone => nomatch hnone) ?_
        rintro (⟨k, a, ha, hat, -⟩ | ⟨t, ht, hat, -⟩)
        · obtain rfl := N.key_eq hat
          rw [Function.update_self] at ha
          obtain rfl := Option.some.inj ha
          exact hnew hat.symm
        · exact hapart.place_ne t (List.mem_cons_of_mem _ ht) _ _ hat.symm
      · rw [if_neg hgone, h name c]
        constructor
        · rintro (⟨k, a, ha, hat, hc⟩ | ⟨t, ht, hat, hc⟩)
          · have hk : k ≠ s.key := by
              rintro rfl
              exact hgone (by rw [ha, Option.map_some, hat])
            exact .inl ⟨k, a, by rw [Function.update_of_ne hk, ha], hat, hc⟩
          · rcases List.mem_cons.mp ht with rfl | htail
            · exact absurd hat.symm hname
            · exact .inr ⟨t, htail, hat, hc⟩
        · rintro (⟨k, a, ha, hat, hc⟩ | ⟨t, ht, hat, hc⟩)
          · by_cases hk : k = s.key
            · subst hk
              rw [Function.update_self] at ha
              obtain rfl := Option.some.inj ha
              exact absurd hat.symm hnew
            · rw [Function.update_of_ne hk] at ha
              exact .inl ⟨k, a, ha, hat, hc⟩
          · exact .inr ⟨t, List.mem_cons_of_mem _ ht, hat, hc⟩

/-- All the waiting items are put in place, one after the other. -/
def placeAll (N : Naming κ α ν) : (κ → Option α) → List (Staged κ α ν) → Files ν β → Files ν β
  | _, [], files => files
  | items, s :: rest, files =>
    placeAll N (Function.update items s.key (some s.item)) rest (placeOne N (items s.key) s files)

/-- In the end the files are those of the items, the new ones over the old ones. -/
theorem holds_placeAll (h : Holds N content items staged files) (hapart : Apart N staged) :
    Holds N content (overlay items (staged.map Staged.pair)) [] (placeAll N items staged files) := by
  induction staged generalizing items files with
  | nil => exact h
  | cons s rest ih => exact ih (h.placeOne hapart) hapart.tail

omit [DecidableEq κ] in
/-- Removing files leaves the others alone. -/
theorem foldl_unlink_apply (names : List ν) (files : Files ν β) (name : ν) :
    names.foldl (fun files n => unlink n files) files name =
      if name ∈ names then none else files name := by
  induction names generalizing files with
  | nil => rfl
  | cons n rest ih =>
    rw [List.foldl_cons, ih, unlink]
    by_cases hname : name = n
    · subst hname
      simp
    · simp [hname]

end Rules

end FetchTask.Staging
