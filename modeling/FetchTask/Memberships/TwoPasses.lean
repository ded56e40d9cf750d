import FetchTask.Memberships.TimeKept
import Mathlib.Algebra.Order.Field.Basic
import Mathlib.Algebra.Order.Field.Rat
import Mathlib.Tactic.NormNum

/-!
Two passes against one.

A pass at a time followed by one at a later time is compared with the later pass alone.
They leave the same active record and the same times exactly when the first pass
activates no record, or the times are one: the clock of a record that a pass activates
starts at that pass.
-/

namespace FetchTask.Memberships

variable {now t₁ t₂ : Int} {r r' : Record} {records records' : List Record}

/-! ### The record of the highest rank -/

theorem argmax_map {α β γ : Type} [LinearOrder γ] (g : α → β) (f : β → γ) (l : List α) :
    (l.map g).argmax f = (l.argmax fun a => f (g a)).map g := by
  induction l using List.reverseRecOn with
  | nil => rfl
  | append_singleton l a ih =>
    rw [List.map_append, List.map_singleton, List.argmax_concat, List.argmax_concat, ih]
    cases l.argmax fun a => f (g a) with
    | none => rfl
    | some c =>
      dsimp only [Option.map_some]
      split <;> rfl

/-- What the choice looks at of a record. -/
def Record.claims (now : Int) (r : Record) : Bool × Lex (Int × String) :=
  (r.eligible now, r.rank)

theorem highest_congr
    (h : records.map (Record.claims now) = records'.map (Record.claims now)) :
    highest now records = highest now records' := by
  have hform : ∀ l : List Record, highest now l =
      (((l.map (Record.claims now)).zipIdx.filter fun p => p.1.1).argmax fun p => p.1.2).map
        Prod.snd := by
    intro l
    have hzip : (l.map (Record.claims now)).zipIdx =
        l.zipIdx.map fun p => (p.1.claims now, p.2) := by
      rw [List.zipIdx_map]
      rfl
    rw [highest, hzip, List.filter_map, argmax_map, Option.map_map]
    rfl
  rw [hform, hform, h]

theorem claims_of_kept (h : Kept now r r') : r'.claims now = r.claims now :=
  Prod.ext h.eligible h.rank

theorem highest_of_kept (h : List.Forall₂ (Kept now) records records') :
    highest now records' = highest now records :=
  highest_congr (forall₂_map_eq (fun _ _ => claims_of_kept) h)

/-! ### The active record after a pass -/

/-- The record at a place after the pass: where it is active, it is the one of the highest rank,
and it has either been active or is activated now. -/
structure Chosen (now : Int) (records : List Record) (i : Nat) (r' : Record) : Prop where
  highest : highest now records = some i
  record : ∃ r, records[i]? = some r ∧ (r.status = .active ∧ r' = r ∨
    r.status ≠ .active ∧ r' = activate now r)

theorem chosen_activate {j i : Nat} (hnone : ∀ r ∈ records, r.status ≠ .active)
    (hhighest : highest now records = some j)
    (hat : (records.modify j (activate now))[i]? = some r') (hactive : r'.status = .active) :
    Chosen now records i r' := by
  rw [List.getElem?_modify] at hat
  split at hat
  next hij =>
    subst hij
    obtain ⟨r, hr, rfl⟩ := Option.map_eq_some_iff.mp hat
    exact ⟨hhighest, r, hr, .inr ⟨hnone r (List.mem_of_getElem? hr), rfl⟩⟩
  next =>
    have hr : records[i]? = some r' := by simpa using hat
    exact absurd hactive (hnone r' (List.mem_of_getElem? hr))

theorem chosen_choose_none {i : Nat} (hnone : ∀ r ∈ records, r.status ≠ .active)
    (hat : (choose now none records)[i]? = some r') (hactive : r'.status = .active) :
    Chosen now records i r' := by
  rw [choose] at hat
  cases hhighest : highest now records with
  | none =>
    rw [hhighest] at hat
    exact absurd hactive (hnone r' (List.mem_of_getElem? hat))
  | some j =>
    simp only [hhighest] at hat
    rw [if_neg (Option.some_ne_none j).symm] at hat
    exact chosen_activate hnone hhighest hat hactive

theorem chosen_choose_some {i k : Nat} (hone : OneActive records) (hk : records[k]? = some r)
    (hstatus : r.status = .active) (hleft : 0 < r.remainingAt now)
    (hat : (choose now (some k) records)[i]? = some r') (hactive : r'.status = .active) :
    Chosen now records i r' := by
  have heligible : r.eligible now = true := by
    rw [eligible_of_unexpired (by rw [hstatus]; decide)]
    exact decide_eq_true hleft
  rw [choose] at hat
  cases hhighest : highest now records with
  | none =>
    have hnot := highest_eq_none hhighest r (List.mem_of_getElem? hk)
    exact absurd (heligible.symm.trans hnot) (by decide)
  | some j =>
    simp only [hhighest] at hat
    split at hat
    next hsame =>
      obtain rfl : k = j := Option.some.inj hsame
      obtain rfl := hone i k r' r hat hk hactive hstatus
      exact ⟨hhighest, r', hat, .inl ⟨hactive, rfl⟩⟩
    next hother =>
      have hkj : k ≠ j := fun heq => hother (congrArg some heq)
      have hnone := not_active_modify (f := pause now) hone hk hstatus fun r => by simp [pause]
      have hpaused : List.Forall₂ (Kept now) records (records.modify k (pause now)) := by
        refine forall₂_modify (Kept.refl now) fun a ha => ?_
        obtain rfl : r = a := Option.some.inj (hk.symm.trans ha)
        exact kept_pause hstatus
      obtain ⟨hbest, a, ha, hrecord⟩ := chosen_activate hnone
        ((highest_of_kept hpaused).trans hhighest) hat hactive
      obtain rfl : j = i := Option.some.inj
        (hhighest.symm.trans ((highest_of_kept hpaused).symm.trans hbest))
      have ha' : records[j]? = some a := by simpa [hkj] using ha
      exact ⟨hhighest, a, ha', hrecord⟩

/-- Expiring a record that has run out keeps what the choice looks at. -/
theorem kept_expired {k : Nat} (hk : records[k]? = some r) (hstatus : r.status = .active)
    (hout : r.remainingAt now ≤ 0) :
    List.Forall₂ (Kept now) records (records.modify k expire) := by
  refine forall₂_modify (Kept.refl now) fun a ha => ?_
  obtain rfl : r = a := Option.some.inj (hk.symm.trans ha)
  exact kept_expire hstatus hout

theorem chosen_settle {i : Nat} (hone : OneActive records)
    (hat : (settle now records)[i]? = some r') (hactive : r'.status = .active) :
    Chosen now records i r' := by
  fun_induction settle now records with
  | case1 records r k hfirst hout ih =>
    obtain ⟨hk, hrunning⟩ := getElem?_of_firstActive hfirst
    have hstatus := isActive_iff.mp hrunning
    have hnone := not_active_modify (f := expire) hone hk hstatus fun r => by simp [expire]
    obtain ⟨hbest, a, ha, hrecord⟩ := ih (.of_none hnone) hat
    have hkept := kept_expired hk hstatus hout
    refine ⟨(highest_of_kept hkept).symm.trans hbest, ?_⟩
    -- The record that has run out is not the one that is active.
    rcases hrecord with ⟨hrunning', -⟩ | ⟨hidle, rfl⟩
    · exact absurd hrunning' (hnone a (List.mem_of_getElem? ha))
    · obtain ⟨b, hb, heligible, -⟩ := highest_eq_some hbest
      obtain rfl : a = b := Option.some.inj (ha.symm.trans hb)
      have hki : k ≠ i := by
        rintro rfl
        have hexpired : a = expire r := by
          simpa [hk] using ha.symm
        rw [hexpired] at heligible
        exact absurd rfl (unexpired_of_eligible heligible)
      exact ⟨a, by simpa [hki] using ha, .inr ⟨hidle, rfl⟩⟩
  | case2 records r k hfirst hleft =>
    obtain ⟨hk, hrunning⟩ := getElem?_of_firstActive hfirst
    exact chosen_choose_some hone hk (isActive_iff.mp hrunning) (not_le.mp hleft) hat hactive
  | case3 records hfirst => exact chosen_choose_none (firstActive_eq_none.mp hfirst) hat hactive

theorem pauseOthers_active {i : Nat} (hat : (pauseOthers records)[i]? = some r')
    (hactive : r'.status = .active) : records[i]? = some r' := by
  rw [pauseOthers, List.getElem?_mapIdx] at hat
  obtain ⟨r, hr, rfl⟩ := Option.map_eq_some_iff.mp hat
  split at hactive
  next hstay => rw [if_pos hstay, hr]
  next => cases hactive

/-- The records that a pass leaves of those it starts with. -/
def passed (now : Int) (records : List Record) : List Record := pauseOthers (settle now records)

theorem passed_spec (hone : OneActive records) :
    List.Forall₂ (Kept now) records (passed now records) ∧ Synced now (passed now records) := by
  obtain ⟨hkept, hsettled⟩ := @settle_spec now _ hone
  obtain ⟨hkept', hsynced⟩ := pauseOthers_spec hsettled
  exact ⟨forall₂_comp (R := Kept now) (S := Kept now) (fun _ _ _ => Kept.trans) hkept hkept',
    hsynced⟩

theorem chosen_passed {i : Nat} (hone : OneActive records)
    (hat : (passed now records)[i]? = some r') (hactive : r'.status = .active) :
    Chosen now records i r' :=
  chosen_settle hone (pauseOthers_active hat hactive) hactive

theorem passed_active_iff {i : Nat} (hone : OneActive records)
    (hat : (passed now records)[i]? = some r') :
    r'.status = .active ↔ highest now records = some i := by
  refine ⟨fun hactive => (chosen_passed hone hat hactive).highest, fun hhighest => ?_⟩
  obtain ⟨hkept, hsynced⟩ := @passed_spec now _ hone
  obtain ⟨r, hr, heligible, -⟩ := highest_eq_some hhighest
  obtain ⟨a, ha, hsame⟩ := forall₂_getElem? hkept hat
  obtain rfl : r = a := Option.some.inj (hr.symm.trans ha)
  obtain ⟨b, hb, hactive⟩ :=
    hsynced.some ⟨r', List.mem_of_getElem? hat, hsame.eligible.trans heligible⟩
  obtain ⟨j, hj⟩ := List.mem_iff_getElem?.mp hb
  have hji : j = i :=
    Option.some.inj ((chosen_passed hone hj hactive).highest.symm.trans hhighest)
  rw [hji] at hj
  obtain rfl : r' = b := Option.some.inj (hat.symm.trans hj)
  exact hactive

/-! ### Later times -/

theorem remainingAt_antitone (h : t₁ ≤ t₂) (r : Record) : r.remainingAt t₂ ≤ r.remainingAt t₁ := by
  simp only [Record.remainingAt]
  split
  · exact le_refl _
  · split
    next activatedAt _ =>
      have hlater : secondsBetween activatedAt t₁ ≤ secondsBetween activatedAt t₂ := by
        have hdiff : ((t₁ - activatedAt : Int) : Rat) ≤ ((t₂ - activatedAt : Int) : Rat) := by
          exact_mod_cast sub_le_sub_right h activatedAt
        exact div_le_div_of_nonneg_right hdiff (by decide)
      exact max_le_max (le_refl 0) (sub_le_sub_left (max_le_max (le_refl 0) hlater) _)
    · exact le_refl _

theorem remainingAt_zero_later (h : t₁ ≤ t₂) (hout : r.remainingAt t₁ = 0) :
    r.remainingAt t₂ = 0 :=
  le_antisymm ((remainingAt_antitone h r).trans hout.le) (remainingAt_nonneg t₂ r)

theorem remainingAt_idle (hidle : r.status ≠ .active) (t₁ t₂ : Int) :
    r.remainingAt t₁ = r.remainingAt t₂ := by
  rw [remainingAt_of_not_active hidle, remainingAt_of_not_active hidle]

/-- The pass activates no record. -/
def ActivatesNone (now : Int) (records : List Record) : Prop :=
  ∀ i, highest now records = some i → ∃ r, records[i]? = some r ∧ r.status = .active

/-- A pass that activates no record changes no later time. -/
theorem passed_remaining_later (h : t₁ ≤ t₂) (hone : OneActive records)
    (hnone : ActivatesNone t₁ records) {i : Nat} (hr : records[i]? = some r)
    (hr' : (passed t₁ records)[i]? = some r') : r'.remainingAt t₂ = r.remainingAt t₂ := by
  obtain ⟨hkept, hsynced⟩ := @passed_spec t₁ _ hone
  obtain ⟨a, ha, hsame⟩ := forall₂_getElem? hkept hr'
  obtain rfl : r = a := Option.some.inj (hr.symm.trans ha)
  by_cases hactive' : r'.status = .active
  · obtain ⟨hhighest, b, hb, hrecord⟩ := chosen_passed hone hr' hactive'
    obtain rfl : r = b := Option.some.inj (hr.symm.trans hb)
    obtain ⟨c, hc, hactive⟩ := hnone i hhighest
    obtain rfl : r = c := Option.some.inj (hr.symm.trans hc)
    rcases hrecord with ⟨-, rfl⟩ | ⟨hidle, -⟩
    · rfl
    · exact absurd hactive hidle
  · by_cases hactive : r.status = .active
    · -- It has run out: otherwise a record would be active, and that would be this one.
      have hout : r.remainingAt t₁ = 0 := by
        by_contra hleft
        have hpos : 0 < r.remainingAt t₁ :=
          lt_of_le_of_ne (remainingAt_nonneg t₁ r) (Ne.symm hleft)
        have heligible : r.eligible t₁ = true := by
          rw [eligible_of_unexpired (by rw [hactive]; decide)]
          exact decide_eq_true hpos
        cases hhighest : highest t₁ records with
        | none =>
          have hnot := highest_eq_none hhighest r (List.mem_of_getElem? hr)
          exact absurd (heligible.symm.trans hnot) (by decide)
        | some j =>
          obtain ⟨b, hb, hbactive⟩ := hnone j hhighest
          obtain rfl := hone i j r b hr hb hactive hbactive
          exact hactive' ((passed_active_iff hone hr').mpr hhighest)
      rw [remainingAt_zero_later h hout, remainingAt_zero_later h (hsame.remaining.trans hout)]
    · rw [remainingAt_idle hactive' t₂ t₁, hsame.remaining, remainingAt_idle hactive t₁ t₂]

/-- A record that a pass activates has less time left later than one that waits. -/
theorem activate_remaining_later (h : t₁ < t₂) (hidle : r.status ≠ .active)
    (heligible : r.eligible t₁ = true) :
    (activate t₁ r).remainingAt t₂ < r.remainingAt t₂ := by
  have hleft : 0 < r.remainingAt t₁ := by
    rw [eligible_of_unexpired (unexpired_of_eligible heligible)] at heligible
    exact of_decide_eq_true heligible
  have hspent : 0 < secondsBetween t₁ t₂ := by
    have hdiff : (0 : Rat) < ((t₂ - t₁ : Int) : Rat) := by exact_mod_cast Int.sub_pos.mpr h
    exact div_pos hdiff (by decide)
  rw [remainingAt_of_not_active hidle] at hleft ⊢
  show max 0 (max 0 r.remainingSeconds - max 0 (secondsBetween t₁ t₂)) < _
  rw [max_eq_right hspent.le]
  exact max_lt hleft (sub_lt_self _ hspent)

/-! ### The terms of a record -/

/-- A part of a record that the pass leaves alone. -/
def Untouched {β : Type} (f : Record → β) : Prop :=
  ∀ (r : Record) (remainingSeconds : Rat) (status : RecordStatus) (activatedAt : Option Int),
    f { r with remainingSeconds, status, activatedAt } = f r

section Untouched

variable {β : Type} {f : Record → β}

theorem map_modify {g : Record → Record} (hg : ∀ r, f (g r) = f r) (i : Nat) :
    (records.modify i g).map f = records.map f := by
  refine List.ext_getElem? fun k => ?_
  rw [List.getElem?_map, List.getElem?_map, List.getElem?_modify]
  split
  · rw [Option.map_eq_map, Option.map_map]
    exact congrArg (fun g => Option.map g records[k]?) (funext hg)
  · rw [Option.map_eq_map, Option.map_id_fun', id]

variable (hf : Untouched f)

include hf

theorem map_choose (active : Option Nat) : (choose now active records).map f = records.map f := by
  have hpause : ∀ r : Record, f (pause now r) = f r := fun r => hf r _ _ _
  have hactivate : ∀ r : Record, f (activate now r) = f r := fun r => hf r r.remainingSeconds _ _
  unfold choose
  split
  · rfl
  · split
    · rfl
    · cases active with
      | none => exact map_modify hactivate _
      | some i => exact (map_modify hactivate _).trans (map_modify hpause i)

theorem map_settle : (settle now records).map f = records.map f := by
  fun_induction settle now records with
  | case1 records r k hfirst hout ih =>
    have hexpire : ∀ r : Record, f (expire r) = f r := fun r => hf r _ _ _
    exact ih.trans (map_modify hexpire k)
  | case2 records r k hfirst hleft => exact map_choose hf _
  | case3 records hfirst => exact map_choose hf _

theorem map_pauseOthers : (pauseOthers records).map f = records.map f := by
  refine List.ext_getElem? fun k => ?_
  rw [List.getElem?_map, List.getElem?_map, pauseOthers, List.getElem?_mapIdx, Option.map_map]
  refine congrArg (fun g => Option.map g _) (funext fun r => ?_)
  dsimp only [Function.comp]
  split
  · rfl
  · exact hf r r.remainingSeconds _ _

theorem map_passed : (passed now records).map f = records.map f :=
  (map_pauseOthers hf).trans (map_settle hf)

end Untouched

/-- What no pass changes of a record, and its rank comes from. -/
def Record.terms (r : Record) : Points × Option Int × String :=
  (r.pointsCost, r.pointsCostUnits, r.purchasedAt)

theorem map_terms_passed : (passed now records).map Record.terms = records.map Record.terms :=
  map_passed fun _ _ _ _ => rfl

/-- The price as `_normalize_membership_record` stores it. -/
def normalCost (cost : Points) : Points :=
  ((pointsToUnits cost.orTenth).map unitsToPoints).getD (.number 0)

theorem pointsToUnits_pos {p : Points} {units : Int} (h : pointsToUnits p = some units) :
    0 < units := by
  cases p with
  | missing => cases h
  | invalid => cases h
  | number q =>
    rw [pointsToUnits] at h
    split at h
    next => cases h
    next hrange =>
      obtain rfl := Option.some.inj h
      have hq : 0 < q := not_le.mp fun hle => hrange (.inl hle)
      exact Rat.num_pos.mpr (mul_pos hq (by decide))

theorem pointsToUnits_tenths {units : Int} (h : 0 < units) :
    pointsToUnits (.number (units / pointScale)) = some units := by
  have hpos : (0 : Rat) < units / pointScale :=
    div_pos (by exact_mod_cast h) (by decide)
  have hscale : (units : Rat) / pointScale * pointScale = units :=
    div_mul_cancel₀ _ (by decide)
  rw [pointsToUnits, hscale, if_neg]
  · rfl
  · rintro (hle | hden)
    · exact absurd hle (not_le.mpr hpos)
    · exact hden rfl

theorem orTenth_number {q : Rat} (h : q ≠ 0) : (Points.number q).orTenth = .number q := if_neg h

theorem pointsToUnits_unitsToPoints {units : Int} (h : 0 < units) :
    pointsToUnits (unitsToPoints units).orTenth = some units := by
  have hunits : (units : Rat) / pointScale ≠ 0 :=
    (div_pos (by exact_mod_cast h) (by decide)).ne'
  rw [unitsToPoints, max_eq_right h.le, orTenth_number hunits, pointsToUnits_tenths h]

/-- Stored once more, a price stays what it is worth. -/
theorem pointsToUnits_normalCost (cost : Points) :
    ∃ units, 0 < units ∧ pointsToUnits (normalCost cost).orTenth = some units ∧
      pointsToUnits (normalCost (normalCost cost)).orTenth = some units := by
  have hstored : ∃ units, pointsToUnits (normalCost cost).orTenth = some units := by
    rw [normalCost]
    cases hunits : pointsToUnits cost.orTenth with
    | none => exact ⟨1, pointsToUnits_tenths (by decide)⟩
    | some units => exact ⟨units, pointsToUnits_unitsToPoints (pointsToUnits_pos hunits)⟩
  obtain ⟨units, hunits⟩ := hstored
  have hpos := pointsToUnits_pos hunits
  refine ⟨units, hpos, hunits, ?_⟩
  rw [normalCost, hunits]
  exact pointsToUnits_unitsToPoints hpos

theorem pointsCost_normalize (d : Defaults) (r : Record) :
    (normalize d r).pointsCost =
      normalCost (r.pointsCostUnits.elim r.pointsCost fun units => unitsToPoints (max 0 units)) := by
  unfold normalize normalCost
  cases r.pointsCostUnits with
  | none => rfl
  | some units => rfl

/-- A record that is normalized again keeps its rank. -/
theorem rank_normalize_again {d d' : Defaults} (hnow : d.now ≠ "")
    (hterms : r'.terms = (normalize d r).terms) :
    (normalize d' r').rank = (normalize d r).rank := by
  rw [Record.terms, Record.terms, Prod.mk.injEq, Prod.mk.injEq] at hterms
  obtain ⟨hcost, hunits, hpurchased⟩ := hterms
  have hdate : (normalize d r).purchasedAt ≠ "" := by
    show (if r.purchasedAt = "" then d.now else r.purchasedAt) ≠ ""
    split
    next => exact hnow
    next hr => exact hr
  have hsame : (normalize d' r').purchasedAt = (normalize d r).purchasedAt := by
    rw [← hpurchased] at hdate ⊢
    exact if_neg hdate
  have hagain : (normalize d' r').pointsCost = normalCost r'.pointsCost := by
    have hnone : r'.pointsCostUnits = none := hunits
    rw [pointsCost_normalize, hnone]
    rfl
  obtain ⟨units, -, honce, htwice⟩ := pointsToUnits_normalCost
    (r.pointsCostUnits.elim r.pointsCost fun units => unitsToPoints (max 0 units))
  have hprice : pointsToUnits (normalize d' r').pointsCost.orTenth =
      pointsToUnits (normalize d r).pointsCost.orTenth := by
    rw [hagain, hcost, pointsCost_normalize]
    exact htwice.trans honce.symm
  rw [Record.rank, Record.rank, hprice, hsame]

theorem status_normalize {d : Defaults} (h : r.status ≠ .other) :
    (normalize d r).status = r.status := if_neg h

theorem remainingAt_normalize (d : Defaults) (now : Int) (r : Record) :
    (normalize d r).remainingAt now = r.remainingAt now := (normalize_timeKept d now r).remaining

theorem eligible_eq (now : Int) (r : Record) :
    r.eligible now = (r.status != .expired && decide (0 < r.remainingAt now)) := rfl

/-! ### What a pass starts with -/

variable {d d₁ d₂ d₃ : Nat → Defaults} {e : Entry}

/-- Every record that a pass starts with is normalized. -/
theorem startRecords_normalized {i : Nat} (h : (startRecords d now e)[i]? = some r) :
    ∃ raw, ∃ j, r = normalize (d j) raw := by
  by_cases hempty : e.memberships = []
  · rw [startRecords_of_legacy hempty] at h
    obtain ⟨legacy, -, hlegacy⟩ :=
      Option.map_eq_some_iff.mp (Option.mem_toList.mp (List.mem_of_getElem? h))
    exact ⟨_, 0, hlegacy.symm⟩
  · rw [startRecords_of_records hempty, List.getElem?_mapIdx] at h
    obtain ⟨raw, -, rfl⟩ := Option.map_eq_some_iff.mp h
    exact ⟨raw, i, rfl⟩

theorem startRecords_sync (d d' : Nat → Defaults) (now now' : Int) (e : Entry) :
    startRecords d' now' (syncMembershipState d now e) =
      (passed now (startRecords d now e)).mapIdx fun i r => normalize (d' i) r := by
  by_cases hempty : (syncMembershipState d now e).memberships = []
  · have hpassed : passed now (startRecords d now e) = [] := hempty
    rw [startRecords_of_legacy hempty, hpassed]
    show ((((firstActive (passed now (startRecords d now e))).map fun p => publish now _ p.1)).map
      _).toList = _
    rw [hpassed]
    rfl
  · rw [startRecords_of_records hempty]
    rfl

theorem secondsBetween_sub (a b c : Int) :
    secondsBetween a b - secondsBetween a c = secondsBetween c b := by
  rw [secondsBetween, secondsBetween, secondsBetween, ← sub_div, ← Int.cast_sub]
  congr 2
  omega

theorem secondsBetween_nonneg (h : t₁ ≤ t₂) : 0 ≤ secondsBetween t₁ t₂ := by
  have hdiff : (0 : Rat) ≤ ((t₂ - t₁ : Int) : Rat) := by exact_mod_cast Int.sub_nonneg.mpr h
  exact div_nonneg hdiff (by decide)

/-- The time that a migrated membership has left later does not depend on when it is migrated. -/
theorem migrate_remaining_later (h : t₁ ≤ t₂) (d : Defaults) (legacy : Membership) :
    (migrate d t₁ legacy).remainingAt t₂ = legacy.legacyRemaining t₂ := by
  rw [migrate, remainingAt_normalize]
  show Record.remainingAt t₂
    { legacy.toRecord with
      remainingSeconds := legacy.legacyRemaining t₁
      durationDays := _
      status := if 0 < legacy.legacyRemaining t₁ then .active else .expired
      activatedAt := if 0 < legacy.legacyRemaining t₁ then some t₁ else none } = _
  cases hexpires : legacy.expiresAt with
  | none => simp [Record.remainingAt, Membership.legacyRemaining, hexpires]
  | some expiresAt =>
    have hnow : ∀ t, legacy.legacyRemaining t = max 0 (secondsBetween t expiresAt) := by
      intro t
      rw [Membership.legacyRemaining, hexpires]
    have hspent := secondsBetween_nonneg h
    have hsplit := secondsBetween_sub t₁ expiresAt t₂
    rw [hnow t₂, ← hsplit]
    by_cases hleft : 0 < legacy.legacyRemaining t₁
    · have hpos : 0 < secondsBetween t₁ expiresAt := by
        rw [hnow t₁] at hleft
        exact (lt_max_iff.mp hleft).resolve_left (lt_irrefl 0)
      have hsame : legacy.legacyRemaining t₁ = secondsBetween t₁ expiresAt := by
        rw [hnow t₁, max_eq_right hpos.le]
      rw [if_pos hleft, if_pos hleft, hsame]
      show max 0 (max 0 _ - max 0 (secondsBetween t₁ t₂)) = _
      rw [max_eq_right hpos.le, max_eq_right hspent]
    · have hzero : legacy.legacyRemaining t₁ = 0 := by
        rw [hnow t₁] at hleft ⊢
        exact le_antisymm (not_lt.mp hleft) (le_max_left _ _)
      have hout : secondsBetween t₁ expiresAt ≤ 0 := by
        rw [← hzero, hnow t₁]
        exact le_max_right _ _
      rw [if_neg hleft, remainingAt_of_not_active (show RecordStatus.expired ≠ .active by decide), hzero, max_self]
      exact (max_eq_left ((sub_nonpos_of_le (hout.trans hspent)))).symm

theorem startRecords_remaining_later (h : t₁ ≤ t₂) (d d' : Nat → Defaults) (e : Entry) :
    (startRecords d t₁ e).map (Record.remainingAt t₂) =
      (startRecords d' t₂ e).map (Record.remainingAt t₂) := by
  by_cases hempty : e.memberships = []
  · rw [startRecords_of_legacy hempty, startRecords_of_legacy hempty]
    cases e.membership with
    | none => rfl
    | some legacy =>
      simp only [Option.map_some, Option.toList_some, List.map_cons, List.map_nil,
        migrate_remaining_later h, migrate_remaining_later (le_refl t₂)]
  · rw [startRecords_of_records hempty, startRecords_of_records hempty]
    refine List.ext_getElem? fun i => ?_
    simp only [List.getElem?_map, List.getElem?_mapIdx, Option.map_map, Function.comp_def,
      remainingAt_normalize]

/-! ### One pass or two -/

/-- Of every record, whether it is active and the seconds it has left. -/
def Entry.timesAt (now : Int) (e : Entry) : List (Bool × Rat) :=
  e.memberships.map fun r => (r.isActive, r.remainingAt now)

/-- What a pass leaves, read off what it starts with. -/
theorem timesAt_sync (hone : OneActive (startRecords d now e)) :
    (syncMembershipState d now e).timesAt now =
      (startRecords d now e).mapIdx fun i r =>
        (decide (highest now (startRecords d now e) = some i), r.remainingAt now) := by
  obtain ⟨hkept, -⟩ := @passed_spec now _ hone
  have hmemberships : (syncMembershipState d now e).memberships =
      passed now (startRecords d now e) := rfl
  refine List.ext_getElem? fun i => ?_
  rw [Entry.timesAt, hmemberships, List.getElem?_map, List.getElem?_mapIdx]
  cases hr' : (passed now (startRecords d now e))[i]? with
  | none =>
    rw [List.getElem?_eq_none_iff, ← hkept.length_eq, ← List.getElem?_eq_none_iff] at hr'
    rw [hr']
    rfl
  | some r' =>
    obtain ⟨r, hr, hsame⟩ := forall₂_getElem? hkept hr'
    have hactive : r'.isActive = decide (highest now (startRecords d now e) = some i) := by
      rw [Bool.eq_iff_iff, isActive_iff, passed_active_iff hone hr', decide_eq_true_iff]
    rw [hr, Option.map_some, Option.map_some, hactive, hsame.remaining]

theorem mapIdx_marked_eq_iff {α β : Type} {l l' : List α} {place place' : Option Nat} {f : α → β}
    (hlength : l.length = l'.length) (hplace : ∀ i, place = some i → i < l.length)
    (hplace' : ∀ i, place' = some i → i < l'.length) :
    l.mapIdx (fun i a => (decide (place = some i), f a)) =
        l'.mapIdx (fun i a => (decide (place' = some i), f a)) ↔
      place = place' ∧ l.map f = l'.map f := by
  constructor
  · intro h
    have hmarks : ∀ i, i < l.length → (place = some i ↔ place' = some i) := by
      intro i hi
      have hat := congrArg (fun rows => rows[i]?) h
      simp only [List.getElem?_mapIdx, List.getElem?_eq_getElem hi,
        List.getElem?_eq_getElem (hlength ▸ hi), Option.map_some, Option.some.injEq,
        Prod.mk.injEq, decide_eq_decide] at hat
      exact hat.1
    refine ⟨?_, ?_⟩
    · cases hp : place with
      | some i => exact ((hmarks i (hplace i hp)).mp hp).symm
      | none =>
        cases hp' : place' with
        | none => rfl
        | some i =>
          have hback := (hmarks i (hlength ▸ hplace' i hp')).mpr hp'
          rw [hp] at hback
          cases hback
    · refine List.ext_getElem? fun i => ?_
      have hat := congrArg (fun rows => Option.map Prod.snd rows[i]?) h
      simpa only [List.getElem?_mapIdx, List.getElem?_map, Option.map_map, Function.comp_def]
        using hat
  · rintro ⟨rfl, hvalues⟩
    refine List.ext_getElem? fun i => ?_
    have hat := congrArg
      (fun values => Option.map (fun value => (decide (place = some i), value)) values[i]?) hvalues
    simpa only [List.getElem?_mapIdx, List.getElem?_map, Option.map_map, Function.comp_def]
      using hat

theorem highest_lt {i : Nat} (h : highest now records = some i) : i < records.length := by
  obtain ⟨r, hr, -⟩ := highest_eq_some h
  exact (List.getElem?_eq_some_iff.mp hr).1

/-- The times that a pass leaves for later are those it finds exactly when it activates no
record. -/
theorem passed_later_iff (h : t₁ ≤ t₂) (hone : OneActive records) :
    (passed t₁ records).map (Record.remainingAt t₂) = records.map (Record.remainingAt t₂) ↔
      t₁ = t₂ ∨ ActivatesNone t₁ records := by
  obtain ⟨hkept, -⟩ := @passed_spec t₁ _ hone
  constructor
  · intro htimes
    refine or_iff_not_imp_left.mpr fun hne i hhighest => ?_
    obtain ⟨r, hr, heligible, -⟩ := highest_eq_some hhighest
    refine ⟨r, hr, ?_⟩
    by_contra hidle
    have hi : i < (passed t₁ records).length := hkept.length_eq ▸ highest_lt hhighest
    have hr' := List.getElem?_eq_getElem hi
    obtain ⟨-, b, hb, hrecord⟩ :=
      chosen_passed hone hr' ((passed_active_iff hone hr').mpr hhighest)
    obtain rfl : r = b := Option.some.inj (hr.symm.trans hb)
    rcases hrecord with ⟨hactive, -⟩ | ⟨-, hactivated⟩
    · exact hidle hactive
    · have hat := congrArg (fun times => times[i]?) htimes
      simp only [List.getElem?_map, hr, hr', Option.map_some, Option.some.injEq, hactivated] at hat
      exact absurd hat (activate_remaining_later (lt_of_le_of_ne h hne) hidle heligible).ne
  · rintro (rfl | hnone)
    · exact forall₂_map_eq (fun _ _ hsame => hsame.remaining) hkept
    · refine List.ext_getElem? fun i => ?_
      rw [List.getElem?_map, List.getElem?_map]
      cases hr' : (passed t₁ records)[i]? with
      | none =>
        rw [List.getElem?_eq_none_iff, ← hkept.length_eq, ← List.getElem?_eq_none_iff] at hr'
        rw [hr']
      | some r' =>
        obtain ⟨r, hr, -⟩ := forall₂_getElem? hkept hr'
        rw [hr, Option.map_some, Option.map_some, passed_remaining_later h hone hnone hr hr']

/-- A record that waits for the second pass is as eligible then as it would be without the
first. -/
theorem eligible_later (h : t₁ ≤ t₂) (hkept : Kept t₁ r r')
    (htimes : r'.remainingAt t₂ = r.remainingAt t₂) : r'.eligible t₂ = r.eligible t₂ := by
  by_cases hexpired : r.status = .expired
  · rw [hkept.expired hexpired]
  · by_cases hexpired' : r'.status = .expired
    · have hnot : r.eligible t₁ = false := by
        rw [← hkept.eligible, eligible_eq, hexpired']
        rfl
      rw [eligible_of_unexpired hexpired, decide_eq_false_iff_not] at hnot
      have hzero := remainingAt_zero_later h
        (le_antisymm (not_lt.mp hnot) (remainingAt_nonneg t₁ r))
      rw [eligible_eq, eligible_eq, htimes, hzero]
      simp
    · rw [eligible_of_unexpired hexpired, eligible_of_unexpired hexpired', htimes]

/-- The second pass chooses as a pass over the first records would. -/
theorem highest_second (h : t₁ ≤ t₂) (hone : OneActive (startRecords d₁ t₁ e))
    (hnow : ∀ i, (d₁ i).now ≠ "")
    (htimes : (passed t₁ (startRecords d₁ t₁ e)).map (Record.remainingAt t₂) =
      (startRecords d₁ t₁ e).map (Record.remainingAt t₂)) :
    highest t₂ (startRecords d₂ t₂ (syncMembershipState d₁ t₁ e)) =
      highest t₂ (startRecords d₁ t₁ e) := by
  obtain ⟨hkept, hsynced⟩ := @passed_spec t₁ _ hone
  rw [startRecords_sync]
  refine highest_congr (List.ext_getElem? fun i => ?_)
  rw [List.getElem?_map, List.getElem?_map, List.getElem?_mapIdx, Option.map_map]
  cases hr' : (passed t₁ (startRecords d₁ t₁ e))[i]? with
  | none =>
    rw [List.getElem?_eq_none_iff, ← hkept.length_eq, ← List.getElem?_eq_none_iff] at hr'
    rw [hr']
    rfl
  | some r' =>
    obtain ⟨r, hr, hsame⟩ := forall₂_getElem? hkept hr'
    have hterms := congrArg (fun terms => terms[i]?)
      (@map_terms_passed t₁ (startRecords d₁ t₁ e))
    have htime := congrArg (fun times => times[i]?) htimes
    simp only [List.getElem?_map, hr, hr', Option.map_some, Option.some.injEq] at hterms htime
    obtain ⟨raw, j, rfl⟩ := startRecords_normalized hr
    have hstatus : (normalize (d₂ i) r').status = r'.status := by
      refine status_normalize fun hother => ?_
      have hthree := hsynced.paused r' (List.mem_of_getElem? hr')
      rw [hother] at hthree
      exact absurd hthree (by decide)
    have heligible : (normalize (d₂ i) r').eligible t₂ = r'.eligible t₂ := by
      rw [eligible_eq, eligible_eq, hstatus, remainingAt_normalize]
    rw [hr, Option.map_some, Option.map_some]
    refine congrArg some (Prod.ext ?_ (rank_normalize_again (hnow j) hterms))
    exact heligible.trans (eligible_later h hsame htime)

/-- The second pass starts with the times that the first one leaves. -/
theorem startRecords_sync_remaining (d₁ d₂ : Nat → Defaults) (t₁ t₂ : Int) (e : Entry) :
    (startRecords d₂ t₂ (syncMembershipState d₁ t₁ e)).map (Record.remainingAt t₂) =
      (passed t₁ (startRecords d₁ t₁ e)).map (Record.remainingAt t₂) := by
  rw [startRecords_sync]
  refine List.ext_getElem? fun i => ?_
  simp only [List.getElem?_map, List.getElem?_mapIdx, Option.map_map, Function.comp_def,
    remainingAt_normalize]

/-- Both passes together leave what the later one leaves: the choice is the same, and so are
the times after the first. -/
theorem two_passes_marked_iff (h : t₁ ≤ t₂) (hone : OneActive e.memberships) :
    (syncMembershipState d₂ t₂ (syncMembershipState d₁ t₁ e)).timesAt t₂ =
        (syncMembershipState d₃ t₂ e).timesAt t₂ ↔
      highest t₂ (startRecords d₂ t₂ (syncMembershipState d₁ t₁ e)) =
          highest t₂ (startRecords d₃ t₂ e) ∧
        (passed t₁ (startRecords d₁ t₁ e)).map (Record.remainingAt t₂) =
          (startRecords d₁ t₁ e).map (Record.remainingAt t₂) := by
  have hone₁ := startRecords_oneActive d₁ t₁ hone
  have hone₃ := startRecords_oneActive d₃ t₂ hone
  obtain ⟨hkept, hsynced⟩ := @passed_spec t₁ _ hone₁
  have hone₂ := startRecords_oneActive (e := syncMembershipState d₁ t₁ e) d₂ t₂ hsynced.one
  have hfirst := startRecords_sync_remaining d₁ d₂ t₁ t₂ e
  have hthird := startRecords_remaining_later h d₁ d₃ e
  have hlength : (startRecords d₂ t₂ (syncMembershipState d₁ t₁ e)).length =
      (startRecords d₃ t₂ e).length := by
    have hlengths := congrArg List.length hfirst
    have hlengths' := congrArg List.length hthird
    simp only [List.length_map] at hlengths hlengths'
    rw [hlengths, ← hkept.length_eq, hlengths']
  rw [timesAt_sync hone₂, timesAt_sync hone₃,
    mapIdx_marked_eq_iff hlength (fun _ => highest_lt) (fun _ => highest_lt), hfirst, ← hthird]

/-- A pass at one time and one at a later time leave what the later pass alone leaves exactly
when the first activates no record, or at the later time, and when the dates of purchase that
it fills in make no other choice. -/
theorem two_passes_iff (d₁ d₂ d₃ : Nat → Defaults) (t₁ t₂ : Int) (e : Entry) (h : t₁ ≤ t₂)
    (hone : OneActive e.memberships) (hnow : ∀ i, (d₁ i).now ≠ "") :
    (syncMembershipState d₂ t₂ (syncMembershipState d₁ t₁ e)).timesAt t₂ =
        (syncMembershipState d₃ t₂ e).timesAt t₂ ↔
      (t₁ = t₂ ∨ ActivatesNone t₁ (startRecords d₁ t₁ e)) ∧
        highest t₂ (startRecords d₁ t₁ e) = highest t₂ (startRecords d₃ t₂ e) := by
  have hone₁ := startRecords_oneActive d₁ t₁ hone
  rw [two_passes_marked_iff h hone, ← passed_later_iff h hone₁]
  refine and_comm.trans (and_congr_right fun htimes => ?_)
  rw [highest_second h hone₁ hnow htimes]

/-- The clock of the place and the token that the tests below are run with. -/
def sampleDefaults : Nat → Defaults := fun _ => ⟨"token", "2025-02-01"⟩

theorem sampleDefaults_dated : "2025-02-01" ≠ "" := by decide

theorem two_passes_iff_upgrade :
    (0 : Int) ≤ 86400000000 ∧ OneActive sampleEntry.memberships ∧
      (∀ i, (sampleDefaults i).now ≠ "") ∧
      ((syncMembershipState sampleDefaults 86400000000
          (syncMembershipState sampleDefaults 0 sampleEntry)).timesAt 86400000000 =
        (syncMembershipState sampleDefaults 86400000000 sampleEntry).timesAt 86400000000 ↔
      ((0 : Int) = 86400000000 ∨ ActivatesNone 0 (startRecords sampleDefaults 0 sampleEntry)) ∧
        highest 86400000000 (startRecords sampleDefaults 0 sampleEntry) =
          highest 86400000000 (startRecords sampleDefaults 86400000000 sampleEntry)) :=
  have hnow : ∀ i, (sampleDefaults i).now ≠ "" := fun _ => sampleDefaults_dated
  ⟨by decide, sampleEntry_oneActive, hnow, two_passes_iff sampleDefaults sampleDefaults
    sampleDefaults 0 86400000000 sampleEntry (by decide) sampleEntry_oneActive hnow⟩

/-- On the thirty-first day the first month has run out, and the second one waits. -/
theorem sample_thirty_first : ∃ first second : Record,
    startRecords sampleDefaults 2678400000000 sampleEntry = [first, second] ∧
      first.eligible 2678400000000 = false ∧ second.status ≠ .active ∧
      second.eligible 2678400000000 = true := by
  refine ⟨normalize (sampleDefaults 0) _, normalize (sampleDefaults 1) _,
    startRecords_of_records (by decide), ?_, by decide, ?_⟩
  · have hout : secondsBetween 0 2678400000000 = 2678400 := by
      norm_num [secondsBetween, microseconds]
    rw [eligible_eq, remainingAt_normalize, status_normalize (by decide)]
    norm_num [Record.remainingAt, hout]
  · rw [eligible_eq, remainingAt_normalize, status_normalize (by decide)]
    norm_num [Record.remainingAt]
    decide

/-- The first month has run out on the thirty-first day. A pass on that day starts the second
one, and a day later it has a day less than where nobody has looked before. -/
theorem look_starts_clock :
    ¬ ∀ (d₁ d₂ d₃ : Nat → Defaults) (t₁ t₂ : Int) (e : Entry), t₁ ≤ t₂ →
      OneActive e.memberships → e.memberships.Pairwise (fun r r' => r.id ≠ r'.id) →
        (syncMembershipState d₂ t₂ (syncMembershipState d₁ t₁ e)).timesAt t₂ =
          (syncMembershipState d₃ t₂ e).timesAt t₂ := by
  intro hclaim
  have hsame := hclaim sampleDefaults sampleDefaults sampleDefaults 2678400000000 2764800000000
    sampleEntry (by decide) sampleEntry_oneActive (by decide)
  have htimes := ((two_passes_marked_iff (by decide) sampleEntry_oneActive).mp hsame).2
  have hone := startRecords_oneActive sampleDefaults 2678400000000 sampleEntry_oneActive
  have hnone := ((passed_later_iff (by decide) hone).mp htimes).resolve_left (by decide)
  obtain ⟨first, second, hstart, hout, hwaits, hleft⟩ := sample_thirty_first
  rw [hstart] at hnone
  cases hhighest : highest 2678400000000 [first, second] with
  | none => exact absurd (highest_eq_none hhighest second (by simp)) (by rw [hleft]; decide)
  | some i =>
    obtain ⟨r, hr, heligible, -⟩ := highest_eq_some hhighest
    obtain ⟨r', hr', hactive⟩ := hnone i hhighest
    obtain rfl : r = r' := Option.some.inj (hr.symm.trans hr')
    match i with
    | 0 =>
      obtain rfl : first = r := Option.some.inj hr
      exact absurd (hout.symm.trans heligible) (by decide)
    | 1 =>
      obtain rfl : second = r := Option.some.inj hr
      exact hwaits hactive
    | i + 2 => cases hr

end FetchTask.Memberships
