import FetchTask.Memberships
import Mathlib.Data.List.Forall2

/-!
No membership time is lost by the pass over a user's records.

Every change that the pass makes to a record keeps its id, its rank and the
seconds it has left at the time of the pass, provided that only one record is
active. What the pass leaves is one active record at most, of the highest rank.
-/

namespace FetchTask.Memberships

/-! ### Lists changed at one place -/

section Lists

variable {α : Type} {R : α → α → Prop} {l l' : List α}

theorem forall₂_refl (hrefl : ∀ a, R a a) (l : List α) : List.Forall₂ R l l :=
  List.forall₂_same.mpr fun a _ => hrefl a

theorem forall₂_comp {S T : α → α → Prop} (hcomp : ∀ a b c, R a b → S b c → T a c)
    {l'' : List α} (h : List.Forall₂ R l l') (h' : List.Forall₂ S l' l'') :
    List.Forall₂ T l l'' := by
  induction h generalizing l'' with
  | nil =>
    cases h'
    exact .nil
  | cons hab _ ih =>
    cases h' with
    | cons hbc hrest => exact .cons (hcomp _ _ _ hab hbc) (ih hrest)

theorem forall₂_map_eq {β : Type} {f : α → β} (hf : ∀ a b, R a b → f b = f a)
    (h : List.Forall₂ R l l') : l'.map f = l.map f := by
  induction h with
  | nil => rfl
  | cons hab _ ih => rw [List.map_cons, List.map_cons, hf _ _ hab, ih]

theorem forall₂_modify (hrefl : ∀ a, R a a) {i : Nat} {f : α → α}
    (h : ∀ a, l[i]? = some a → R a (f a)) : List.Forall₂ R l (l.modify i f) := by
  induction l generalizing i with
  | nil => simp
  | cons a l ih =>
    cases i with
    | zero => exact .cons (h a rfl) (forall₂_refl hrefl l)
    | succ i => exact .cons (hrefl a) (ih h)

theorem forall₂_mapIdx {f : Nat → α → α} (h : ∀ i a, l[i]? = some a → R a (f i a)) :
    List.Forall₂ R l (l.mapIdx f) := by
  induction l generalizing f with
  | nil => exact .nil
  | cons a l ih =>
    rw [List.mapIdx_cons]
    exact .cons (h 0 a rfl) (ih fun i b hb => h (i + 1) b hb)

theorem forall₂_getElem? (h : List.Forall₂ R l l') {i : Nat} {b : α} (hb : l'[i]? = some b) :
    ∃ a, l[i]? = some a ∧ R a b := by
  induction h generalizing i with
  | nil => simp at hb
  | cons hab _ ih =>
    cases i with
    | zero =>
      obtain rfl := Option.some.inj hb
      exact ⟨_, rfl, hab⟩
    | succ i => exact ih hb

end Lists

/-! ### What the changes keep -/

/-- A record that the pass has changed: its name, its rank and the time it has left stay, and
an expired one stays as it is. -/
structure Kept (now : Int) (r r' : Record) : Prop where
  id : r'.id = r.id
  rank : r'.rank = r.rank
  remaining : r'.remainingAt now = r.remainingAt now
  eligible : r'.eligible now = r.eligible now
  expired : r.status = .expired → r' = r

variable {now : Int} {r r' : Record} {records records' : List Record}

theorem Kept.refl (now : Int) (r : Record) : Kept now r r := ⟨rfl, rfl, rfl, rfl, fun _ => rfl⟩

theorem Kept.trans {r'' : Record} (h : Kept now r r') (h' : Kept now r' r'') : Kept now r r'' where
  id := h'.id.trans h.id
  rank := h'.rank.trans h.rank
  remaining := h'.remaining.trans h.remaining
  eligible := h'.eligible.trans h.eligible
  expired hr := by
    have heq := h.expired hr
    rw [← heq] at hr
    exact (h'.expired hr).trans heq

theorem remainingAt_nonneg (now : Int) (r : Record) : 0 ≤ r.remainingAt now := by
  simp only [Record.remainingAt]
  split
  · exact le_max_left _ _
  · split
    · exact le_max_left _ _
    · exact le_max_left _ _

theorem remainingAt_of_not_active (h : r.status ≠ .active) :
    r.remainingAt now = max 0 r.remainingSeconds := if_pos h

theorem eligible_of_unexpired (h : r.status ≠ .expired) :
    r.eligible now = decide (0 < r.remainingAt now) := by
  rw [Record.eligible, bne_iff_ne.mpr h, Bool.true_and]

/-- A change of an unexpired record into an unexpired one keeps it when its time stays. -/
theorem kept_of_unexpired (hid : r'.id = r.id) (hrank : r'.rank = r.rank)
    (hremaining : r'.remainingAt now = r.remainingAt now) (h : r.status ≠ .expired)
    (h' : r'.status ≠ .expired) : Kept now r r' where
  id := hid
  rank := hrank
  remaining := hremaining
  eligible := by rw [eligible_of_unexpired h, eligible_of_unexpired h', hremaining]
  expired hr := absurd hr h

theorem kept_expire (hactive : r.status = .active) (hout : r.remainingAt now ≤ 0) :
    Kept now r (expire r) where
  id := rfl
  rank := rfl
  remaining := by
    have hzero := le_antisymm hout (remainingAt_nonneg now r)
    rw [hzero]
    exact max_self 0
  eligible := by
    have hnone : ¬ 0 < r.remainingAt now := not_lt.mpr hout
    simp [Record.eligible, expire, hnone]
  expired hr := absurd (hactive.symm.trans hr) (by decide)

theorem kept_pause (hactive : r.status = .active) : Kept now r (pause now r) := by
  refine kept_of_unexpired rfl rfl ?_ (by rw [hactive]; decide) (by simp [pause])
  rw [remainingAt_of_not_active (by simp [pause])]
  exact max_eq_right (remainingAt_nonneg now r)

theorem unexpired_of_eligible (h : r.eligible now = true) : r.status ≠ .expired := by
  intro hr
  simp [Record.eligible, hr] at h

theorem secondsBetween_self (now : Int) : secondsBetween now now = 0 := by
  rw [secondsBetween, Int.sub_self]
  exact Rat.zero_mul _

theorem kept_activate (hidle : r.status ≠ .active) (heligible : r.eligible now = true) :
    Kept now r (activate now r) := by
  refine kept_of_unexpired rfl rfl ?_ (unexpired_of_eligible heligible) (by simp [activate])
  rw [remainingAt_of_not_active hidle]
  -- The clock of the record starts at the time of the pass: nothing is spent yet.
  simp [Record.remainingAt, activate, secondsBetween_self]

theorem kept_pauseOther (hidle : r.status ≠ .active) (hunexpired : r.status ≠ .expired) :
    Kept now r { r with status := .paused, activatedAt := none } :=
  kept_of_unexpired rfl rfl (remainingAt_of_not_active hidle).symm hunexpired
    (by show RecordStatus.paused ≠ .expired; decide)

/-! ### The active record -/

/-- No two records are active. -/
def OneActive (records : List Record) : Prop :=
  ∀ (i j : Nat) (a b : Record), records[i]? = some a → records[j]? = some b →
    a.status = .active → b.status = .active → i = j

theorem isActive_iff : r.isActive = true ↔ r.status = .active := by simp [Record.isActive]

theorem firstActive_eq_none : firstActive records = none ↔ ∀ r ∈ records, r.status ≠ .active := by
  rw [firstActive, List.find?_eq_none]
  constructor
  · intro h r hr hactive
    obtain ⟨i, hi⟩ := List.mem_iff_getElem?.mp hr
    exact h (r, i) (List.mk_mem_zipIdx_iff_getElem?.mpr hi) (isActive_iff.mpr hactive)
  · rintro h ⟨r, i⟩ hmem hactive
    have hr := List.mem_of_getElem? (List.mk_mem_zipIdx_iff_getElem?.mp hmem)
    exact h r hr (isActive_iff.mp hactive)

/-- What is active after one record is changed to something else. -/
theorem not_active_modify (hone : OneActive records) {i : Nat} {f : Record → Record}
    (hat : records[i]? = some r) (hactive : r.status = .active)
    (hf : ∀ r, (f r).status ≠ .active) : ∀ a ∈ records.modify i f, a.status ≠ .active := by
  intro a ha
  obtain ⟨j, hj⟩ := List.mem_iff_getElem?.mp ha
  rw [List.getElem?_modify] at hj
  split at hj
  · obtain ⟨b, -, rfl⟩ := Option.map_eq_some_iff.mp hj
    exact hf b
  · rename_i hij
    have hb : records[j]? = some a := by simpa using hj
    exact fun hstatus => hij (hone i j r a hat hb hactive hstatus)

theorem OneActive.of_none (h : ∀ r ∈ records, r.status ≠ .active) : OneActive records :=
  fun _ _ a _ ha _ hactive => absurd hactive (h a (List.mem_of_getElem? ha))

/-! ### The loop -/

theorem highest_eq_some {j : Nat} (h : highest now records = some j) :
    ∃ r, records[j]? = some r ∧ r.eligible now = true ∧
      ∀ a ∈ records, a.eligible now = true → a.rank ≤ r.rank := by
  obtain ⟨⟨r, k⟩, hmax, hk⟩ := Option.map_eq_some_iff.mp h
  obtain rfl : k = j := hk
  obtain ⟨hmem, heligible⟩ := List.mem_filter.mp (List.argmax_mem hmax)
  refine ⟨r, List.mk_mem_zipIdx_iff_getElem?.mp hmem, heligible, fun a ha hea => ?_⟩
  obtain ⟨i, hi⟩ := List.mem_iff_getElem?.mp ha
  have hcandidate : (a, i) ∈ records.zipIdx.filter fun p => p.1.eligible now :=
    List.mem_filter.mpr ⟨List.mk_mem_zipIdx_iff_getElem?.mpr hi, hea⟩
  exact List.le_of_mem_argmax (f := fun p : Record × Nat => p.1.rank) hcandidate hmax

theorem highest_eq_none (h : highest now records = none) :
    ∀ r ∈ records, r.eligible now = false := by
  intro r hr
  rw [highest, Option.map_eq_none_iff, List.argmax_eq_none, List.filter_eq_nil_iff] at h
  obtain ⟨i, hi⟩ := List.mem_iff_getElem?.mp hr
  exact Bool.eq_false_iff.mpr (h (r, i) (List.mk_mem_zipIdx_iff_getElem?.mpr hi))

/-- What the loop leaves: one active record at most, of the highest rank of the eligible ones,
and one if there is an eligible one. -/
structure Settled (now : Int) (records : List Record) : Prop where
  one : OneActive records
  best : ∀ a ∈ records, a.status = .active → a.eligible now = true ∧
    ∀ r ∈ records, r.eligible now = true → r.rank ≤ a.rank
  some : (∃ r ∈ records, r.eligible now = true) → ∃ a ∈ records, a.status = .active

/-- Among kept records the ranks of the eligible ones are those from before. -/
theorem rank_le_of_kept (hkept : List.Forall₂ (Kept now) records records')
    (hbest : ∀ a ∈ records, a.eligible now = true → a.rank ≤ r.rank) :
    ∀ a ∈ records', a.eligible now = true → a.rank ≤ r.rank := by
  intro a ha heligible
  obtain ⟨i, hi⟩ := List.mem_iff_getElem?.mp ha
  obtain ⟨b, hb, hab⟩ := forall₂_getElem? hkept hi
  rw [hab.rank]
  exact hbest b (List.mem_of_getElem? hb) (hab.eligible.symm.trans heligible)

/-- The record of the highest rank is activated where none is active. -/
theorem activate_settled {j : Nat} (hnone : ∀ r ∈ records, r.status ≠ .active)
    (hat : records[j]? = some r) (heligible : r.eligible now = true)
    (hbest : ∀ a ∈ records, a.eligible now = true → a.rank ≤ r.rank) :
    List.Forall₂ (Kept now) records (records.modify j (activate now)) ∧
      Settled now (records.modify j (activate now)) := by
  have hidle := hnone r (List.mem_of_getElem? hat)
  have hkept : List.Forall₂ (Kept now) records (records.modify j (activate now)) := by
    refine forall₂_modify (Kept.refl now) fun a ha => ?_
    obtain rfl : r = a := Option.some.inj (hat.symm.trans ha)
    exact kept_activate hidle heligible
  have hchosen : (records.modify j (activate now))[j]? = some (activate now r) := by
    simp [hat]
  -- Only the chosen place holds an active record.
  have honly : ∀ (i : Nat) (a : Record), (records.modify j (activate now))[i]? = some a →
      a.status = .active → i = j := by
    intro i a ha hactive
    rw [List.getElem?_modify] at ha
    split at ha
    · rename_i hij
      exact hij.symm
    · have hb : records[i]? = some a := by simpa using ha
      exact absurd hactive (hnone a (List.mem_of_getElem? hb))
  refine ⟨hkept, ?_, ?_, fun _ => ⟨_, List.mem_of_getElem? hchosen, rfl⟩⟩
  · intro i k a b ha hb hactive hactive'
    exact (honly i a ha hactive).trans (honly k b hb hactive').symm
  · intro a ha hactive
    obtain ⟨i, hi⟩ := List.mem_iff_getElem?.mp ha
    obtain rfl := honly i a hi hactive
    obtain rfl : activate now r = a := Option.some.inj (hchosen.symm.trans hi)
    have hsame := kept_activate hidle heligible
    exact ⟨hsame.eligible.trans heligible, rank_le_of_kept hkept hbest⟩

theorem choose_none (hnone : ∀ r ∈ records, r.status ≠ .active) :
    List.Forall₂ (Kept now) records (choose now none records) ∧
      Settled now (choose now none records) := by
  rw [choose]
  cases hhighest : highest now records with
  | none =>
    refine ⟨forall₂_refl (Kept.refl now) records, .of_none hnone, ?_, ?_⟩
    · exact fun a ha hactive => absurd hactive (hnone a ha)
    · rintro ⟨r, hr, heligible⟩
      exact absurd (heligible.symm.trans (highest_eq_none hhighest r hr)) (by decide)
  | some j =>
    obtain ⟨r, hat, heligible, hbest⟩ := highest_eq_some hhighest
    dsimp only
    rw [if_neg nofun]
    exact activate_settled hnone hat heligible hbest

theorem choose_some (hone : OneActive records) {i : Nat} (hat : records[i]? = some r)
    (hactive : r.status = .active) (hleft : 0 < r.remainingAt now) :
    List.Forall₂ (Kept now) records (choose now (some i) records) ∧
      Settled now (choose now (some i) records) := by
  have heligible : r.eligible now = true := by
    rw [eligible_of_unexpired (by rw [hactive]; decide)]
    exact decide_eq_true hleft
  rw [choose]
  cases hhighest : highest now records with
  | none =>
    have hnot := highest_eq_none hhighest r (List.mem_of_getElem? hat)
    exact absurd (heligible.symm.trans hnot) (by decide)
  | some j =>
    obtain ⟨r', hat', heligible', hbest⟩ := highest_eq_some hhighest
    dsimp only
    split
    next hsame =>
      obtain rfl : i = j := Option.some.inj hsame
      obtain rfl : r = r' := Option.some.inj (hat.symm.trans hat')
      refine ⟨forall₂_refl (Kept.refl now) records, hone, fun a ha hactive' => ?_,
        fun _ => ⟨r, List.mem_of_getElem? hat, hactive⟩⟩
      obtain ⟨k, hk⟩ := List.mem_iff_getElem?.mp ha
      obtain rfl := hone k i a r hk hat hactive' hactive
      obtain rfl : r = a := Option.some.inj (hat.symm.trans hk)
      exact ⟨heligible, hbest⟩
    next hother =>
      have hij : i ≠ j := fun h => hother (congrArg some h)
      have hpaused : List.Forall₂ (Kept now) records (records.modify i (pause now)) := by
        refine forall₂_modify (Kept.refl now) fun a ha => ?_
        obtain rfl : r = a := Option.some.inj (hat.symm.trans ha)
        exact kept_pause hactive
      have hat'' : (records.modify i (pause now))[j]? = some r' := by
        simp [hij, hat']
      obtain ⟨hkept, hsettled⟩ := activate_settled
        (not_active_modify hone hat hactive fun r => by simp [pause]) hat'' heligible'
        (rank_le_of_kept hpaused hbest)
      exact ⟨forall₂_comp (R := Kept now) (S := Kept now) (fun _ _ _ => Kept.trans) hpaused hkept, hsettled⟩

/-- The loop keeps the time of every record, expiring what has run out. -/
theorem settle_spec (hone : OneActive records) :
    List.Forall₂ (Kept now) records (settle now records) ∧ Settled now (settle now records) := by
  fun_induction settle now records with
  | case1 records r i hfirst hout ih =>
    obtain ⟨hat, hactive⟩ := getElem?_of_firstActive hfirst
    have hstatus := isActive_iff.mp hactive
    have hexpired : List.Forall₂ (Kept now) records (records.modify i expire) := by
      refine forall₂_modify (Kept.refl now) fun a ha => ?_
      obtain rfl : r = a := Option.some.inj (hat.symm.trans ha)
      exact kept_expire hstatus hout
    have hnone := not_active_modify (f := expire) hone hat hstatus fun r => by simp [expire]
    obtain ⟨hkept, hsettled⟩ := ih (.of_none hnone)
    exact ⟨forall₂_comp (R := Kept now) (S := Kept now) (fun _ _ _ => Kept.trans) hexpired hkept, hsettled⟩
  | case2 records r i hfirst hleft =>
    obtain ⟨hat, hactive⟩ := getElem?_of_firstActive hfirst
    exact choose_some hone hat (isActive_iff.mp hactive) (not_le.mp hleft)
  | case3 records hfirst => exact choose_none (firstActive_eq_none.mp hfirst)

/-! ### After the loop -/

/-- The first active record is the only one. -/
theorem firstActive_of_one (hone : OneActive records) {i : Nat} (hat : records[i]? = some r)
    (hactive : r.status = .active) : (firstActive records).map Prod.snd = some i := by
  cases hfirst : firstActive records with
  | none =>
    have hnone := firstActive_eq_none.mp hfirst
    exact absurd hactive (hnone r (List.mem_of_getElem? hat))
  | some p =>
    obtain ⟨hat', hactive'⟩ := getElem?_of_firstActive (r := p.1) (i := p.2) hfirst
    exact congrArg some (hone p.2 i p.1 r hat' hat (isActive_iff.mp hactive') hactive)

/-- What `_sync_membership_state` leaves. -/
structure Synced (now : Int) (records : List Record) : Prop extends Settled now records where
  paused : ∀ r ∈ records, r.status = .active ∨ r.status = .paused ∨ r.status = .expired

theorem pauseOthers_spec (h : Settled now records) :
    List.Forall₂ (Kept now) records (pauseOthers records) ∧ Synced now (pauseOthers records) := by
  -- The active record and the expired ones stay.
  have hkeep : ∀ (i : Nat) (r : Record), records[i]? = some r →
      r.status = .active ∨ r.status = .expired →
      (firstActive records).map Prod.snd = some i ∨ r.status = .expired := by
    intro i r hat hstatus
    rcases hstatus with hactive | hexpired
    · exact .inl (firstActive_of_one h.one hat hactive)
    · exact .inr hexpired
  have hkept : List.Forall₂ (Kept now) records (pauseOthers records) := by
    refine forall₂_mapIdx fun i r hat => ?_
    split
    next => exact .refl now r
    next hother =>
      refine kept_pauseOther (fun hactive => hother (hkeep i r hat (.inl hactive))) fun hexpired => ?_
      exact hother (.inr hexpired)
  have hfrom : ∀ (i : Nat) (r' : Record), (pauseOthers records)[i]? = some r' →
      ∃ r, records[i]? = some r ∧
        (r' = r ∧ (r.status = .active ∨ r.status = .expired) ∨ r'.status = .paused) := by
    intro i r' hat
    rw [pauseOthers, List.getElem?_mapIdx] at hat
    obtain ⟨r, hr, rfl⟩ := Option.map_eq_some_iff.mp hat
    refine ⟨r, hr, ?_⟩
    split
    next hstay =>
      refine .inl ⟨rfl, ?_⟩
      rcases hstay with hfirst | hexpired
      · obtain ⟨⟨a, k⟩, hfound, hk⟩ := Option.map_eq_some_iff.mp hfirst
        obtain rfl : k = i := hk
        obtain ⟨hat', hactive⟩ := getElem?_of_firstActive hfound
        obtain rfl : a = r := Option.some.inj (hat'.symm.trans hr)
        exact .inl (isActive_iff.mp hactive)
      · exact .inr hexpired
    next => exact .inr rfl
  have hactive_from : ∀ (i : Nat) (r' : Record), (pauseOthers records)[i]? = some r' →
      r'.status = .active → records[i]? = some r' := by
    intro i r' hat hactive
    obtain ⟨r, hr, ⟨rfl, -⟩ | hpaused⟩ := hfrom i r' hat
    · exact hr
    · rw [hpaused] at hactive
      cases hactive
  refine ⟨hkept, ⟨?_, ?_, ?_⟩, ?_⟩
  · intro i j a b ha hb hactive hactive'
    exact h.one i j a b (hactive_from i a ha hactive) (hactive_from j b hb hactive') hactive hactive'
  · intro a ha hactive
    obtain ⟨i, hi⟩ := List.mem_iff_getElem?.mp ha
    obtain ⟨heligible, hbest⟩ := h.best a (List.mem_of_getElem? (hactive_from i a hi hactive)) hactive
    exact ⟨heligible, rank_le_of_kept hkept hbest⟩
  · rintro ⟨r', hr', heligible⟩
    obtain ⟨i, hi⟩ := List.mem_iff_getElem?.mp hr'
    obtain ⟨r, hr, hsame⟩ := forall₂_getElem? hkept hi
    obtain ⟨a, ha, hactive⟩ :=
      h.some ⟨r, List.mem_of_getElem? hr, hsame.eligible.symm.trans heligible⟩
    obtain ⟨j, hj⟩ := List.mem_iff_getElem?.mp ha
    refine ⟨a, List.mem_of_getElem? (i := j) ?_, hactive⟩
    rw [pauseOthers, List.getElem?_mapIdx, hj, Option.map_some, if_pos (hkeep j a hj (.inl hactive))]
  · intro r' hr'
    obtain ⟨i, hi⟩ := List.mem_iff_getElem?.mp hr'
    obtain ⟨r, -, ⟨rfl, hactive | hexpired⟩ | hpaused⟩ := hfrom i r' hi
    · exact .inl hactive
    · exact .inr (.inr hexpired)
    · exact .inr (.inl hpaused)

theorem firstActive_isSome : (firstActive records).isSome ↔ ∃ r ∈ records, r.status = .active := by
  constructor
  · intro h
    obtain ⟨⟨r, i⟩, hfirst⟩ := Option.isSome_iff_exists.mp h
    obtain ⟨hat, hactive⟩ := getElem?_of_firstActive hfirst
    exact ⟨r, List.mem_of_getElem? hat, isActive_iff.mp hactive⟩
  · rintro ⟨r, hr, hactive⟩
    by_contra hnone
    have hall := firstActive_eq_none.mp (Option.not_isSome_iff_eq_none.mp hnone)
    exact hall r hr hactive

/-- A record is active exactly when one has time left. -/
theorem Settled.exists_active_iff (h : Settled now records) :
    (∃ r ∈ records, r.status = .active) ↔
      ∃ r ∈ records, r.status ≠ .expired ∧ 0 < r.remainingAt now := by
  constructor
  · rintro ⟨a, ha, hactive⟩
    have hunexpired : a.status ≠ .expired := by rw [hactive]; decide
    have hleft := (h.best a ha hactive).1
    rw [eligible_of_unexpired hunexpired] at hleft
    exact ⟨a, ha, hunexpired, of_decide_eq_true hleft⟩
  · rintro ⟨r, hr, hunexpired, hleft⟩
    refine h.some ⟨r, hr, ?_⟩
    rw [eligible_of_unexpired hunexpired]
    exact decide_eq_true hleft

/-! ### The whole pass -/

/-- A record of the user before the pass and after it. -/
structure TimeKept (now : Int) (r r' : Record) : Prop where
  id : r.id ≠ "" → r'.id = r.id
  remaining : r'.remainingAt now = r.remainingAt now
  expired : r.status = .expired →
    r'.status = .expired ∧ r'.remainingSeconds = max 0 r.remainingSeconds

/-- The time that a membership without records has left. -/
def Membership.legacyRemaining (now : Int) (legacy : Membership) : Rat :=
  match legacy.expiresAt with
  | some expiresAt => max 0 (secondsBetween now expiresAt)
  | none => 0

theorem normalize_status_active (d : Defaults) :
    (normalize d r).status = .active ↔ r.status = .active := by
  show (if r.status = .other then RecordStatus.paused else r.status) = .active ↔ _
  split
  next hother => simp [hother]
  next => rfl

theorem normalize_timeKept (d : Defaults) (now : Int) (r : Record) :
    TimeKept now r (normalize d r) where
  id := fun h => if_neg h
  remaining := by
    have hstatus := normalize_status_active (r := r) d
    have hseconds : max 0 (normalize d r).remainingSeconds = max 0 r.remainingSeconds :=
      max_eq_right (le_max_left 0 r.remainingSeconds)
    simp only [Record.remainingAt, ne_eq, hstatus, hseconds]
    rfl
  expired := by
    intro hr
    refine ⟨?_, rfl⟩
    show (if r.status = .other then RecordStatus.paused else r.status) = .expired
    rw [if_neg (by rw [hr]; decide), hr]

theorem TimeKept.trans_kept {r'' : Record} (h : TimeKept now r r') (h' : Kept now r' r'') :
    TimeKept now r r'' where
  id hid := h'.id.trans (h.id hid)
  remaining := h'.remaining.trans h.remaining
  expired hr := by
    obtain ⟨hexpired, hseconds⟩ := h.expired hr
    rw [h'.expired hexpired]
    exact ⟨hexpired, hseconds⟩

theorem startRecords_of_records {d : Nat → Defaults} {e : Entry} (h : e.memberships ≠ []) :
    startRecords d now e = e.memberships.mapIdx fun i r => normalize (d i) r := by
  rw [startRecords]
  split
  next hnil => exact absurd (List.mapIdx_eq_nil_iff.mp hnil) h
  next => rfl

theorem startRecords_of_legacy {d : Nat → Defaults} {e : Entry} (h : e.memberships = []) :
    startRecords d now e = (e.membership.map (migrate (d 0) now)).toList := by
  rw [startRecords, h]
  rfl

theorem startRecords_oneActive (d : Nat → Defaults) (now : Int) {e : Entry}
    (hone : OneActive e.memberships) : OneActive (startRecords d now e) := by
  by_cases h : e.memberships = []
  · rw [startRecords_of_legacy h]
    intro i j a b ha hb _ _
    cases hlegacy : e.membership with
    | none => simp [hlegacy] at ha
    | some legacy =>
      simp only [hlegacy, Option.map_some, Option.toList_some] at ha hb
      obtain ⟨hi, -⟩ := List.getElem?_eq_some_iff.mp ha
      obtain ⟨hj, -⟩ := List.getElem?_eq_some_iff.mp hb
      simp only [List.length_singleton] at hi hj
      omega
  · rw [startRecords_of_records h]
    intro i j a b ha hb hactive hactive'
    rw [List.getElem?_mapIdx] at ha hb
    obtain ⟨r, hr, rfl⟩ := Option.map_eq_some_iff.mp ha
    obtain ⟨r', hr', rfl⟩ := Option.map_eq_some_iff.mp hb
    exact hone i j r r' hr hr' ((normalize_status_active _).mp hactive)
      ((normalize_status_active _).mp hactive')

/-- A migrated membership has the time left that it had as a date. -/
theorem migrate_remainingAt (d : Defaults) (now : Int) (legacy : Membership) :
    (migrate d now legacy).remainingAt now = legacy.legacyRemaining now := by
  have hnonneg : 0 ≤ legacy.legacyRemaining now := by
    rw [Membership.legacyRemaining]
    split
    · exact le_max_left _ _
    · exact le_refl 0
  rw [migrate, (normalize_timeKept d now _).remaining]
  show Record.remainingAt now
    { legacy.toRecord with
      remainingSeconds := legacy.legacyRemaining now
      durationDays := _
      status := if 0 < legacy.legacyRemaining now then .active else .expired
      activatedAt := if 0 < legacy.legacyRemaining now then some now else none } = _
  rcases lt_or_eq_of_le hnonneg with hleft | hout
  · simp [Record.remainingAt, hleft, secondsBetween_self, hnonneg]
  · simp [Record.remainingAt, ← hout]

/-- The pass loses no time, and the field `membership` follows the records. -/
theorem membership_time_kept (d : Nat → Defaults) (now : Int) (e : Entry)
    (hone : OneActive e.memberships) :
    (e.memberships ≠ [] → List.Forall₂ (TimeKept now) e.memberships
        (syncMembershipState d now e).memberships) ∧
      (e.memberships = [] →
        (syncMembershipState d now e).memberships.map (Record.remainingAt now) =
          e.membership.toList.map (Membership.legacyRemaining now)) ∧
      Synced now (syncMembershipState d now e).memberships ∧
      ((syncMembershipState d now e).membership.isSome ↔
        ∃ r ∈ (syncMembershipState d now e).memberships,
          r.status ≠ .expired ∧ 0 < r.remainingAt now) := by
  have hstart := startRecords_oneActive d now hone
  obtain ⟨hkept, hsettled⟩ := @settle_spec now _ hstart
  obtain ⟨hkept', hsynced⟩ := pauseOthers_spec hsettled
  have hall : List.Forall₂ (Kept now) (startRecords d now e)
      (syncMembershipState d now e).memberships :=
    forall₂_comp (R := Kept now) (S := Kept now) (fun _ _ _ => Kept.trans) hkept hkept'
  refine ⟨fun h => ?_, fun h => ?_, hsynced, ?_⟩
  · rw [startRecords_of_records h] at hall
    have hnormal : List.Forall₂ (TimeKept now) e.memberships
        (e.memberships.mapIdx fun i r => normalize (d i) r) :=
      forall₂_mapIdx fun i r _ => normalize_timeKept (d i) now r
    exact forall₂_comp (R := TimeKept now) (S := Kept now) (fun _ _ _ => TimeKept.trans_kept)
      hnormal hall
  · rw [startRecords_of_legacy h] at hall
    rw [forall₂_map_eq (fun _ _ hsame => hsame.remaining) hall]
    cases e.membership with
    | none => rfl
    | some legacy => exact congrArg (fun q => [q]) (migrate_remainingAt (d 0) now legacy)
  · have hfield : (syncMembershipState d now e).membership.isSome =
        (firstActive (syncMembershipState d now e).memberships).isSome := Option.isSome_map
    rw [hfield, firstActive_isSome]
    exact hsynced.exists_active_iff

/-- A month that has run for a day, and a dearer month that was bought after it. -/
def sampleEntry : Entry where
  memberships :=
    [{ id := "m1", pointsCost := .number 20, remainingSeconds := 2592000, status := .active
       activatedAt := some 0, purchasedAt := "2025-01-01" },
     { id := "m2", pointsCost := .number 50, remainingSeconds := 2592000, status := .paused
       purchasedAt := "2025-01-02" }]

theorem sampleEntry_oneActive : OneActive sampleEntry.memberships := by
  intro i j a b ha hb hactive hactive'
  match i, j with
  | 0, 0 => rfl
  | 1, _ => cases ha; cases hactive
  | _, 1 => cases hb; cases hactive'
  | i + 2, _ => cases ha
  | _, j + 2 => cases hb

/-- After a day the first month has 29 days left and the second one is not begun. -/
theorem membership_time_kept_upgrade :
    OneActive sampleEntry.memberships ∧
      List.Forall₂ (TimeKept 86400000000) sampleEntry.memberships
        (syncMembershipState (fun _ => ⟨"", ""⟩) 86400000000 sampleEntry).memberships :=
  ⟨sampleEntry_oneActive,
    (membership_time_kept _ _ sampleEntry sampleEntry_oneActive).1 (by decide)⟩

end FetchTask.Memberships
