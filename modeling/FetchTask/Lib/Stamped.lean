import Mathlib.Data.List.Forall2
import Mathlib.Data.List.Nodup

/-!
Entries with the revision of their last change.

A list of entries is changed in steps, each at a revision of its own, and an
entry that a step changes is stamped with the step's revision. A reader who has
the entries of some revision brings them up to date by replacing, by key, those
that were stamped after it.
-/

namespace FetchTask.Stamped

universe u v w

variable {α : Type u} {β : Type v} {κ : Type w} {key : α → κ} {stamp : α → Int}

/-- An entry is the one of revision `r`, or was stamped after it. -/
def Since (key : α → κ) (stamp : α → Int) (r : Int) (a b : α) : Prop :=
  key b = key a ∧ (b = a ∨ r < stamp b)

theorem Since.refl (r : Int) (a : α) : Since key stamp r a a := ⟨rfl, .inl rfl⟩

theorem Since.trans {r r' : Int} {a b c : α} (hr : r ≤ r') (hab : Since key stamp r a b)
    (hbc : Since key stamp r' b c) : Since key stamp r a c := by
  refine ⟨hbc.1.trans hab.1, ?_⟩
  rcases hbc.2 with rfl | hstamp
  · exact hab.2
  · exact .inr (by omega)

/-- The same keys in the same order, and every entry as at revision `r` or stamped later. -/
def Follows (key : α → κ) (stamp : α → Int) (r : Int) : List α → List α → Prop :=
  List.Forall₂ (Since key stamp r)

theorem Follows.refl (r : Int) (as : List α) : Follows key stamp r as as :=
  List.forall₂_same.mpr fun a _ => Since.refl r a

theorem Follows.trans {r r' : Int} {as bs cs : List α} (hr : r ≤ r')
    (hab : Follows key stamp r as bs) (hbc : Follows key stamp r' bs cs) :
    Follows key stamp r as cs := by
  induction hab generalizing cs with
  | nil =>
    cases hbc
    exact .nil
  | cons hhead _ ih =>
    cases hbc with
    | cons hhead' htail' => exact .cons (hhead.trans hr hhead') (ih htail')

theorem Follows.keys {r : Int} {as bs : List α} (h : Follows key stamp r as bs) :
    bs.map key = as.map key := by
  induction h with
  | nil => rfl
  | cons hhead _ ih => rw [List.map_cons, List.map_cons, hhead.1, ih]

/-- Entries are replaced by the news with their key. -/
def merge [DecidableEq κ] (key : β → κ) (entries news : List β) : List β :=
  entries.map fun b => (news.find? (key · = key b)).getD b

theorem map_eq_map_of_forall₂ {R : α → α → Prop} {f g : α → β} {as bs : List α}
    (h : List.Forall₂ R as bs) (hfg : ∀ a b, R a b → b ∈ bs → f a = g b) :
    as.map f = bs.map g := by
  induction h with
  | nil => rfl
  | cons hhead _ ih =>
    rw [List.map_cons, List.map_cons, hfg _ _ hhead List.mem_cons_self,
      ih fun a b hab hb => hfg a b hab (List.mem_cons_of_mem _ hb)]

/-- Among entries with distinct keys, a key finds its entry. -/
theorem find?_key [DecidableEq κ] (key : β → κ) {bs : List β} {b : β} (hb : b ∈ bs)
    (hnodup : (bs.map key).Nodup) : bs.find? (key · = key b) = some b := by
  induction bs with
  | nil => cases hb
  | cons c cs ih =>
    rw [List.map_cons, List.nodup_cons] at hnodup
    rcases List.mem_cons.mp hb with rfl | htail
    · exact List.find?_cons_of_pos (by simp)
    · have hne : key c ≠ key b := fun heq => hnodup.1 (heq ▸ List.mem_map_of_mem htail)
      rw [List.find?_cons_of_neg (by simpa using hne)]
      exact ih htail hnodup.2

/-- The entries stamped after a revision bring the entries of that revision up to date. -/
theorem merge_changes [DecidableEq κ] (view : α → β) (key : β → κ) {r : Int} {as bs : List α}
    (h : Follows (key ∘ view) stamp r as bs) (hnodup : (bs.map (key ∘ view)).Nodup) :
    merge key (as.map view) ((bs.filter fun b => decide (r < stamp b)).map view) =
      bs.map view := by
  have hkeys : ((bs.filter fun b => decide (r < stamp b)).map (key ∘ view)).Nodup :=
    hnodup.sublist (List.filter_sublist.map _)
  rw [merge, List.map_map]
  refine map_eq_map_of_forall₂ h fun a b hab hb => ?_
  have hkey : key (view b) = key (view a) := hab.1
  rw [Function.comp_apply, ← hkey]
  by_cases hstamp : r < stamp b
  · have hnews : view b ∈ (bs.filter fun b => decide (r < stamp b)).map view :=
      List.mem_map_of_mem (List.mem_filter.mpr ⟨hb, by simpa using hstamp⟩)
    rw [find?_key key hnews (by rwa [List.map_map])]
    rfl
  · -- The entry is the old one, and no other entry has its key.
    have hnone : ((bs.filter fun b => decide (r < stamp b)).map view).find?
        (key · = key (view b)) = none := by
      refine List.find?_eq_none.mpr fun v hv hsame => hstamp ?_
      obtain ⟨c, hc, rfl⟩ := List.mem_map.mp hv
      obtain ⟨hmem, hlater⟩ := List.mem_filter.mp hc
      have heq : c = b := List.inj_on_of_nodup_map hnodup hmem hb (by simpa using hsame)
      simpa [heq] using hlater
    rw [hnone, Option.getD_none, hab.2.resolve_right hstamp]

end FetchTask.Stamped
