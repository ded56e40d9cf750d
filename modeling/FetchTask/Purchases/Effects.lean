import FetchTask.Purchases
import FetchTask.Rotation

/-!
What the calls do to the memberships of a user and to its entry.

A pass changes neither what was paid for a record nor the time that it has left
at the moment of the pass, and a change of concurrency changes nothing else. A
purchase looks for the package among what has time left, and adds one record of
it. When it takes the points, it takes the price and gives the video quota of the
package. All calls are of one of three kinds (`act_effect`).
-/

namespace FetchTask.Purchases

open Memberships Runs

variable {S : Setting} {now t : Int} {records records' : List Record} {e e' : Entry} {r : Record}

/-- No two records of one package have time left at an instant. -/
def Once (t : Int) (records : List Record) : Prop :=
  ∀ (i j : Nat) (a b : Record), records[i]? = some a → records[j]? = some b →
    a.packageId = b.packageId → a.eligible t = true → b.eligible t = true → i = j

theorem eligible_before (h : now ≤ t) (heligible : r.eligible t = true) : r.eligible now = true := by
  simp only [Record.eligible, Bool.and_eq_true, decide_eq_true_eq] at heligible ⊢
  exact ⟨heligible.1, heligible.2.trans_le (remainingAt_antitone h r)⟩

theorem Once.later (honce : Once now records) (h : now ≤ t) : Once t records :=
  fun i j a b ha hb hid hea heb =>
    honce i j a b ha hb hid (eligible_before h hea) (eligible_before h heb)

/-- Records that each come from one of the same package which has time left where they have. -/
theorem Once.of_getElem? (honce : Once now records)
    (h : ∀ (i : Nat) (b : Record), records'[i]? = some b → ∃ a : Record, records[i]? = some a ∧
      a.packageId = b.packageId ∧ (b.eligible now = true → a.eligible now = true)) :
    Once now records' := by
  intro i j b b' hb hb' hid heb heb'
  obtain ⟨a, ha, haid, hea⟩ := h i b hb
  obtain ⟨a', ha', haid', hea'⟩ := h j b' hb'
  exact honce i j a a' ha ha' (haid.trans (hid.trans haid'.symm)) (hea heb) (hea' heb')

/-- A record is added of a package that nothing with time left is of. -/
theorem Once.append (honce : Once now records)
    (hnew : ∀ a ∈ records, a.eligible now = true → a.packageId ≠ r.packageId) :
    Once now (records ++ [r]) := by
  have hat : ∀ (i : Nat) (a : Record), (records ++ [r])[i]? = some a →
      records[i]? = some a ∨ i = records.length ∧ r = a := by
    intro i a ha
    rw [List.getElem?_append] at ha
    split_ifs at ha with hi
    · exact .inl ha
    · rw [List.getElem?_singleton] at ha
      split_ifs at ha with hzero
      cases ha
      exact .inr ⟨by omega, rfl⟩
  intro i j a b ha hb hid hea heb
  obtain ha | ⟨hi, rfl⟩ := hat i a ha
  · obtain hb | ⟨hj, rfl⟩ := hat j b hb
    · exact honce i j a b ha hb hid hea heb
    · exact absurd hid (hnew a (List.mem_of_getElem? ha) hea)
  · obtain hb | ⟨hj, -⟩ := hat j b hb
    · exact absurd hid.symm (hnew b (List.mem_of_getElem? hb) heb)
    · rw [hi, hj]

/-! ### Records that were bought -/

/-- What is so of every record that a purchase has made. -/
structure Bought (r : Record) : Prop where
  status : r.status ≠ .other
  costUnits : r.pointsCostUnits = none
  cost : ∃ units, 0 < units ∧ r.pointsCost = unitsToPoints units
  bonus : 0 ≤ r.bonusFreeUses

/-- What was paid for a record. -/
def payment (r : Record) : Payment :=
  ⟨r.packageId, (pointsToUnits r.pointsCost.orTenth).getD 0, r.bonusFreeUses * TempAccess.pointScale⟩

/-- The memberships of a user who has bought all of them. -/
structure Sound (e : Entry) : Prop where
  bought : ∀ r ∈ e.memberships, Bought r
  one : OneActive e.memberships
  none : e.memberships = [] → e.membership = none

/-- What the passes and the changes of a concurrency leave of the memberships: what was paid for,
and that no package is owned twice. -/
structure Refreshed (now : Int) (e e' : Entry) : Prop where
  sound : Sound e'
  paid : e'.memberships.map payment = e.memberships.map payment
  once : Once now e.memberships → ∀ t, now ≤ t → Once t e'.memberships

theorem Refreshed.refl (h : Sound e) : Refreshed now e e := ⟨h, rfl, fun honce _ => honce.later⟩

theorem Refreshed.trans {e'' : Entry} (h : Refreshed now e e') (h' : Refreshed now e' e'') :
    Refreshed now e e'' where
  sound := h'.sound
  paid := h'.paid.trans h.paid
  once honce := h'.once (h.once honce now le_rfl)

theorem bought_package (package : Package) (id : String) : Bought (package.record S id now) where
  status := by
    show RecordStatus.paused ≠ .other
    decide
  costUnits := rfl
  cost := ⟨package.costUnits, package.costUnits_pos, rfl⟩
  bonus := package.bonusFreeUses_range.1

theorem normalCost_bought (h : Bought r) : normalCost r.pointsCost = r.pointsCost := by
  obtain ⟨units, hpos, hcost⟩ := h.cost
  rw [normalCost, hcost, pointsToUnits_unitsToPoints hpos]
  rfl

theorem normalize_bought (d : Defaults) (h : Bought r) :
    Bought (normalize d r) ∧ payment (normalize d r) = payment r := by
  have hcost : (normalize d r).pointsCost = r.pointsCost := by
    rw [pointsCost_normalize, h.costUnits]
    exact normalCost_bought h
  have hbonus : (normalize d r).bonusFreeUses = r.bonusFreeUses := max_eq_right h.bonus
  refine ⟨⟨?_, rfl, ?_, ?_⟩, ?_⟩
  · rw [status_normalize h.status]
    exact h.status
  · rw [hcost]
    exact h.cost
  · rw [hbonus]
    exact h.bonus
  · rw [payment, hcost, hbonus]
    rfl

theorem eligible_normalize (d : Defaults) (h : Bought r) :
    (normalize d r).eligible now = r.eligible now := by
  rw [eligible_eq, eligible_eq, status_normalize h.status, remainingAt_normalize]

/-! ### The pass -/

theorem startRecords_sound (d : Nat → Defaults) (h : Sound e) :
    startRecords d now e = e.memberships.mapIdx fun i r => normalize (d i) r := by
  by_cases hempty : e.memberships = []
  · rw [startRecords_of_legacy hempty, h.none hempty, hempty]
    rfl
  · exact startRecords_of_records hempty

/-- The record at a place, before the pass and after it. -/
theorem sync_getElem? (d : Nat → Defaults) (h : Sound e) {i : Nat} {b : Record}
    (hb : (syncMembershipState d now e).memberships[i]? = some b) :
    ∃ a, e.memberships[i]? = some a ∧ Bought b ∧ payment b = payment a ∧
      b.eligible now = a.eligible now := by
  have hone := startRecords_oneActive d now h.one
  obtain ⟨hkept, hsynced⟩ := @passed_spec now _ hone
  obtain ⟨c, hc, hcb⟩ := forall₂_getElem? hkept hb
  have hstart := hc
  rw [startRecords_sound d h, List.getElem?_mapIdx] at hstart
  obtain ⟨a, ha, rfl⟩ := Option.map_eq_some_iff.mp hstart
  have hbought := h.bought a (List.mem_of_getElem? ha)
  obtain ⟨hnormal, hpaid⟩ := normalize_bought (d i) hbought
  -- the terms of the record are those from before the pass
  have hterms : (b.pointsCost, b.pointsCostUnits, b.bonusFreeUses, b.packageId) =
      ((normalize (d i) a).pointsCost, (normalize (d i) a).pointsCostUnits,
        (normalize (d i) a).bonusFreeUses, (normalize (d i) a).packageId) := by
    have hmap := congrArg (·[i]?) (@map_passed now (startRecords d now e) _
      (fun r => (r.pointsCost, r.pointsCostUnits, r.bonusFreeUses, r.packageId))
      fun _ _ _ _ => rfl)
    simp only [List.getElem?_map, hc] at hmap
    rw [show (passed now (startRecords d now e))[i]? = some b from hb] at hmap
    exact Option.some.inj hmap
  simp only [Prod.mk.injEq] at hterms
  obtain ⟨hcost, hunits, hbonus, hid⟩ := hterms
  refine ⟨a, ha, ⟨?_, ?_, ?_, ?_⟩, ?_, hcb.eligible.trans (eligible_normalize _ hbought)⟩
  · intro hother
    have hstatus := hsynced.paused b (List.mem_of_getElem? hb)
    rw [hother] at hstatus
    simp at hstatus
  · rw [hunits, hnormal.costUnits]
  · rw [hcost]
    exact hnormal.cost
  · rw [hbonus]
    exact hnormal.bonus
  · rw [← hpaid, payment, payment, hcost, hbonus, hid]

theorem length_sync (d : Nat → Defaults) (h : Sound e) :
    (syncMembershipState d now e).memberships.length = e.memberships.length := by
  have hmap := congrArg List.length (@map_passed now (startRecords d now e) _ Record.id
    fun _ _ _ _ => rfl)
  simp only [List.length_map] at hmap
  rw [show (syncMembershipState d now e).memberships.length = _ from hmap, startRecords_sound d h,
    List.length_mapIdx]

theorem refreshed_sync (now : Int) (d : Nat → Defaults) (h : Sound e) :
    Refreshed now e (syncMembershipState d now e) where
  sound := by
    have hone := startRecords_oneActive d now h.one
    refine ⟨fun b hmem => ?_, (@passed_spec now _ hone).2.one, fun hempty => ?_⟩
    · obtain ⟨i, hb⟩ := List.mem_iff_getElem?.mp hmem
      obtain ⟨-, -, hbought, -⟩ := sync_getElem? d h hb
      exact hbought
    · have hfirst : firstActive (syncMembershipState d now e).memberships = none := by
        rw [hempty]
        rfl
      exact Option.map_eq_none_iff.mpr hfirst
  paid := by
    refine List.ext_getElem? fun i => ?_
    rw [List.getElem?_map, List.getElem?_map]
    cases hb : (syncMembershipState d now e).memberships[i]? with
    | some b =>
      obtain ⟨a, ha, -, hpaid, -⟩ := sync_getElem? d h hb
      rw [ha, Option.map_some, Option.map_some, hpaid]
    | none =>
      have hlength := List.getElem?_eq_none_iff.mp hb
      rw [length_sync d h] at hlength
      rw [List.getElem?_eq_none hlength]
  once honce t ht := by
    have hnow : Once now (syncMembershipState d now e).memberships := by
      refine honce.of_getElem? fun i b hb => ?_
      obtain ⟨a, ha, -, hpaid, heligible⟩ := sync_getElem? d h hb
      exact ⟨a, ha, congrArg Payment.packageId hpaid.symm, fun heb => heligible.symm.trans heb⟩
    exact hnow.later ht

/-! ### Changes of a concurrency -/

/-- Two lists that differ in the concurrencies of their records. -/
def SameTerms (records records' : List Record) : Prop :=
  List.Forall₂ (fun r r' => ∃ concurrency, r' = { r with concurrency }) records records'

theorem refreshed_concurrency (now : Int) (h : Sound e) (hsame : SameTerms e.memberships records') :
    Refreshed now e { e with memberships := records' } where
  sound := by
    refine ⟨fun b hb => ?_, fun i j a b ha hb hactive hactive' => ?_, fun hempty => ?_⟩
    · obtain ⟨i, hi⟩ := List.mem_iff_getElem?.mp hb
      obtain ⟨a, ha, concurrency, rfl⟩ := forall₂_getElem? hsame hi
      have hbought := h.bought a (List.mem_of_getElem? ha)
      exact ⟨hbought.status, hbought.costUnits, hbought.cost, hbought.bonus⟩
    · obtain ⟨a', ha', _, rfl⟩ := forall₂_getElem? hsame ha
      obtain ⟨b', hb', _, rfl⟩ := forall₂_getElem? hsame hb
      exact h.one i j a' b' ha' hb' hactive hactive'
    · have hlength := hsame.length_eq
      rw [show records' = [] from hempty] at hlength
      exact h.none (List.length_eq_zero_iff.mp hlength)
  paid := by
    refine forall₂_map_eq (fun a b hab => ?_) hsame
    obtain ⟨_, rfl⟩ := hab
    rfl
  once honce t ht := by
    have hnow : Once now records' := by
      refine honce.of_getElem? fun i b hb => ?_
      obtain ⟨a, ha, _, rfl⟩ := forall₂_getElem? hsame hb
      exact ⟨a, ha, rfl, id⟩
    exact hnow.later ht

theorem sameTerms_refl (records : List Record) : SameTerms records records :=
  forall₂_refl (fun r => ⟨r.concurrency, rfl⟩) records

theorem refreshed_reconcile (now : Int) (packages : List Package) {member : Member} (h : Sound member.toEntry) :
    Refreshed now member.toEntry (reconcileMembershipConcurrency packages member).toEntry := by
  rw [reconcileMembershipConcurrency]
  split
  · exact .refl h
  · refine refreshed_concurrency now h (List.forall₂_map_right_iff.mpr (List.forall₂_same.mpr ?_))
    intro r _
    split
    · exact ⟨r.concurrency, rfl⟩
    · exact ⟨_, rfl⟩

theorem sameTerms_setConcurrencyOf (id : String) (concurrency : Int) (records : List Record) :
    SameTerms records (setConcurrencyOf id concurrency records) := by
  induction records with
  | nil => exact .nil
  | cons r rest ih =>
    rw [setConcurrencyOf]
    split
    · exact .cons ⟨concurrency, rfl⟩ (sameTerms_refl rest)
    · exact .cons ⟨r.concurrency, rfl⟩ ih

theorem refreshed_withConcurrency (now : Int) (concurrency : Int) (d d' : Nat → Defaults) {member : Member}
    (h : Sound member.toEntry) :
    Refreshed now member.toEntry (withConcurrency concurrency d d' now member).1.toEntry := by
  have hfirst : Refreshed now member.toEntry (member.sync d now).toEntry := refreshed_sync now d h
  simp only [withConcurrency]
  cases hactive : (member.sync d now).membership with
  | none => exact hfirst
  | some active =>
    have hset := refreshed_concurrency now hfirst.sound
      (sameTerms_setConcurrencyOf active.id (max 1 (min 100 concurrency)) _)
    rw [hactive] at hset
    exact (hfirst.trans hset).trans (refreshed_sync now d' hset.sound)

theorem refreshed_synced (now : Int) (known : List Package) (d : Nat → Defaults) (concurrency : Int)
    (text : String) {member : Member} (h : Sound member.toEntry) :
    Refreshed now member.toEntry (synced known d now concurrency text member).1.toEntry := by
  have hreconciled := refreshed_reconcile now known h
  exact hreconciled.trans (refreshed_sync now d hreconciled.sound)

/-! ### Purchases -/

/-- What is paid for a package. -/
def Package.payment (package : Package) : Payment :=
  ⟨package.id, package.costUnits, package.bonusFreeUses * TempAccess.pointScale⟩

theorem payment_record (S : Setting) (now : Int) (package : Package) (id : String) :
    payment (package.record S id now) = package.payment := by
  rw [payment, show (package.record S id now).pointsCost = unitsToPoints package.costUnits from rfl,
    pointsToUnits_unitsToPoints package.costUnits_pos]
  rfl

theorem sound_append (h : Sound e) (hbought : Bought r) (hidle : r.status ≠ .active) :
    Sound { e with memberships := e.memberships ++ [r] } where
  bought a ha := by
    obtain ha | ha := List.mem_append.mp ha
    · exact h.bought a ha
    · rw [List.mem_singleton.mp ha]
      exact hbought
  one i j a b ha hb hactive hactive' := by
    have hold : ∀ (k : Nat) (c : Record), (e.memberships ++ [r])[k]? = some c →
        c.status = .active → e.memberships[k]? = some c := by
      intro k c hc hstatus
      rw [List.getElem?_append] at hc
      split_ifs at hc
      · exact hc
      · have hmem := List.mem_singleton.mp (List.mem_of_getElem? hc)
        exact absurd (hmem ▸ hstatus) hidle
    exact h.one i j a b (hold i a ha hactive) (hold j b hb hactive') hactive hactive'
  none hempty := absurd hempty (List.append_ne_nil_of_right_ne_nil _ (List.cons_ne_nil _ _))

/-- A sale adds one membership, which is the only one of its package with time left. -/
structure Sold (now : Int) (package : Package) (e e' : Entry) : Prop where
  sound : Sound e'
  paid : e'.memberships.map payment = e.memberships.map payment ++ [package.payment]
  once : Once now e.memberships → ∀ t, now ≤ t → Once t e'.memberships

/-- Nothing with time left is of the package. -/
def Wanted (now : Int) (package : Package) (records : List Record) : Prop :=
  ∀ a ∈ records, a.eligible now = true → a.packageId ≠ package.id

theorem sold_withMembership (package : Package) (reads : Readings) (base : Int) {member : Member}
    (h : Sound member.toEntry) (hwanted : Wanted now package member.memberships) :
    Sold now package member.toEntry (member.withMembership S package reads now base).toEntry := by
  have happend : Sound { member.toEntry with
      memberships := member.memberships ++ [package.record S reads.id now] } :=
    sound_append h (bought_package package reads.id)
      (by show RecordStatus.paused ≠ .active; decide)
  have hsync := refreshed_sync now reads.second happend
  refine ⟨hsync.sound, ?_, fun honce => hsync.once (honce.append hwanted)⟩
  rw [← payment_record S now package reads.id]
  exact hsync.paid.trans List.map_append

theorem refusal_none {package : Package} {catalog : List Package}
    (h : refusal now package catalog records = none) : Wanted now package records := by
  intro a ha heligible heq
  simp only [refusal] at h
  split_ifs at h with hany
  exact hany (List.any_eq_true.mpr ⟨a, List.mem_filter.mpr ⟨ha, heligible⟩, by simp [heq]⟩)

theorem accepted_spec {package : Package} {reads : Readings} {s : State} {member : Member} {base : Int}
    (h : accepted S package reads now s = some (member, base)) (hs : Sound s.member.toEntry) :
    Refreshed now s.member.toEntry member.toEntry ∧ Wanted now package member.memberships := by
  simp only [accepted] at h
  split at h
  · rename_i known catalog _ _ _
    split_ifs at h with hrefusal
    simp only [Option.some.injEq, Prod.mk.injEq] at h
    obtain ⟨rfl, -⟩ := h
    have hreconciled := refreshed_reconcile now known hs
    exact ⟨hreconciled.trans (refreshed_sync now reads.first hreconciled.sound),
      refusal_none (Option.isNone_iff_eq_none.mp hrefusal)⟩
  · cases h

theorem Sold.of_refreshed {package : Package} {e'' : Entry} (h : Refreshed now e e')
    (h' : Sold now package e' e'') : Sold now package e e'' where
  sound := h'.sound
  paid := by rw [h'.paid, h.paid]
  once honce := h'.once (h.once honce now le_rfl)

/-! ### The entry of the token -/

section Tokens

open TempAccess

variable {package : Package} {reads : Readings} {member : Member} {tokens tokens' : Tokens}

theorem migrateEntry_version {entry entry' : TempAccess.Entry} {freeLimit : Int}
    (h : migrateEntry entry freeLimit = .ok entry') : 3 ≤ entry'.billingVersion := by
  rw [migrateEntry] at h
  split at h
  · rename_i hversion
    cases h
    exact hversion
  · simp only at h
    split at h
    · cases h
    · cases h
      exact le_refl 3

/-- What an entry holds after a purchase. -/
theorem purchased_held {freeLimit units bonusFreeUses concurrency : Int} {text : String}
    {entry entry' : TempAccess.Entry} (hbonus : 0 ≤ bonusFreeUses)
    (h : purchased freeLimit units bonusFreeUses concurrency text entry = .ok entry') :
    ∃ before, migrateEntry entry freeLimit = .ok before ∧ migrateEntry entry' freeLimit = .ok entry' ∧
      entry'.creditUnits = before.creditUnits - units ∧
      entryVideoQuotaUnits entry' = entryVideoQuotaUnits before + bonusFreeUses * TempAccess.pointScale := by
  rw [purchased] at h
  split at h
  · cases h
  · rename_i before hbefore
    split_ifs at h
    have hversion := migrateEntry_version hbefore
    have hquota := entryVideoQuotaUnits_nonneg before
    have hscale : 0 ≤ bonusFreeUses * TempAccess.pointScale := mul_nonneg hbonus (by decide)
    cases h
    refine ⟨before, hbefore, if_pos hversion, rfl, ?_⟩
    show max 0 (max 0 (max 0 (max 0
      (entryVideoQuotaUnits before + max 0 bonusFreeUses * TempAccess.pointScale)))) = _
    rw [max_eq_right hbonus]
    omega

/-- When the points are taken, it is the price, and the quota of the package is given for it. The
entry is there, and its view can be made. -/
theorem takePoints_ok {view : PublicToken}
    (h : takePoints S package reads member tokens = (.ok view, tokens')) :
    paymentOf S package member tokens tokens' = package.payment ∧
      ∃ entry, tokens' (normalizeHash S.chars member.tokenHash) = some entry ∧
        publicToken S.chars (normalizeHash S.chars member.tokenHash) entry = .ok view := by
  have hunits : TempAccess.pointsToUnits (.tenths package.costUnits) = .ok package.costUnits :=
    if_neg (not_le.mpr package.costUnits_pos)
  simp only [takePoints, purchaseTempMembership, hunits, changeToken] at h
  split at h
  · cases h
  · rename_i entry hentry
    split at h
    · cases h
    · rename_i entry' hpurchased
      obtain ⟨before, hbefore, hafter, hcredit, hquota⟩ :=
        purchased_held package.bonusFreeUses_range.1 hpurchased
      cases hview : publicToken S.chars (normalizeHash S.chars member.tokenHash) entry' with
      | error e => simp [answer, hview] at h
      | ok view' =>
        simp only [answer, hview, Prod.mk.injEq, Except.ok.injEq] at h
        obtain ⟨rfl, rfl⟩ := h
        refine ⟨?_, entry', Function.update_self .., hview⟩
        simp only [paymentOf, held, hentry, Function.update_self, Option.map_some, hbefore, hafter,
          hcredit, hquota, Package.payment, Payment.mk.injEq, true_and]
        constructor <;> omega

/-- Then the concurrency can be written too. -/
theorem updateTempToken_isOk {tokenHash : String} (text : String) (concurrency : Int)
    {view : PublicToken} {entry : TempAccess.Entry} (hentry : tokens (normalizeHash S.chars tokenHash) = some entry)
    (hview : publicToken S.chars (normalizeHash S.chars tokenHash) entry = .ok view) :
    ∃ view' tokens', updateTempToken S.chars S.backend tokenHash
      { concurrency := some concurrency } text tokens = (.ok view', tokens') := by
  have hpriority : (normalizeBillingPriority S.chars entry.billingPriority).isOk = true := by
    rw [← Rotation.publicToken_isOk S.chars _ entry, hview]
    rfl
  obtain ⟨entry', hchanged, hsame⟩ : ∃ entry', updateEntry S.chars
      { concurrency := some concurrency } text entry = .ok entry' ∧
        entry'.billingPriority = entry.billingPriority := ⟨_, rfl, rfl⟩
  simp only [updateTempToken, hentry, hchanged]
  cases hview' : publicToken S.chars (normalizeHash S.chars tokenHash) entry' with
  | error e =>
    have hnot := Rotation.publicToken_isOk S.chars (normalizeHash S.chars tokenHash) entry'
    rw [hview', hsame, hpriority] at hnot
    cases hnot
  | ok view' => exact ⟨view', _, rfl⟩

end Tokens

/-! ### The three kinds of calls -/

/-- Nothing is paid for, and the memberships are refreshed or stay. -/
structure Free (now : Int) (s s' : State) : Prop where
  payments : s'.payments = s.payments
  member : Refreshed now s.member.toEntry s'.member.toEntry

/-- What a call does: nothing is paid for, a package is sold, or it is paid for and not given. -/
inductive Effect (now : Int) (s s' : State) : Prop
  | free (h : Free now s s')
  | sold (package : Package) (hpaid : s'.payments = s.payments ++ [package.payment])
      (hmember : Sold now package s.member.toEntry s'.member.toEntry)
  | lost (package : Package) (hpaid : s'.payments = s.payments ++ [package.payment])
      (hmember : s'.member = s.member)

variable {s : State} {faults : Faults}

theorem free_of_eq {s' : State} (h : Sound s.member.toEntry) (hpaid : s'.payments = s.payments)
    (hmember : s'.member = s.member) : Free now s s' :=
  ⟨hpaid, by rw [hmember]; exact .refl h⟩

/-- A purchase gets past its checks and takes the points. -/
def Taken (S : Setting) (package : Package) (reads : Readings) (now : Int) (faults : Faults)
    (s : State) : Prop :=
  ∃ item ∈ accepted S package reads now s, faults.tokenWrite = false ∧
    (takePoints S package reads item.1 s.tokens).1.isOk = true

/-- A purchase that takes no points changes no memberships. -/
theorem purchase_not_taken {package : Package} {reads : Readings}
    (h : ¬ Taken S package reads now faults s) :
    (purchaseUserMembership S package reads now faults s).payments = s.payments ∧
      (purchaseUserMembership S package reads now faults s).member = s.member := by
  rw [purchaseUserMembership]
  split
  · exact ⟨rfl, rfl⟩
  · rename_i member base haccepted
    cases htoken : faults.tokenWrite with
    | true => exact ⟨rfl, rfl⟩
    | false =>
      simp only [Bool.false_eq_true, if_false]
      split
      · exact ⟨rfl, rfl⟩
      · rename_i htaken
        exact absurd ⟨(member, base), haccepted, htoken, by rw [htaken]; rfl⟩ h

/-- A purchase that has taken the points gives the membership when nothing fails from then on. -/
theorem purchase_taken {package : Package} {reads : Readings} (hs : Sound s.member.toEntry)
    (h : Taken S package reads now faults s) :
    (purchaseUserMembership S package reads now faults s).payments = s.payments ++ [package.payment] ∧
      (if faults.concurrencyWrite = false ∧ faults.userWrite = false then
        Sold now package s.member.toEntry
          (purchaseUserMembership S package reads now faults s).member.toEntry
      else (purchaseUserMembership S package reads now faults s).member = s.member) := by
  obtain ⟨⟨member, base⟩, haccepted, htoken, htaken⟩ := h
  obtain ⟨hrefreshed, hwanted⟩ := accepted_spec haccepted hs
  have hsold := (sold_withMembership (S := S) package reads base hrefreshed.sound hwanted).of_refreshed
    hrefreshed
  simp only [purchaseUserMembership, show accepted S package reads now s = some (member, base) from
    haccepted, htoken, Bool.false_eq_true, if_false]
  cases hresult : takePoints S package reads member s.tokens with
  | mk result tokens =>
    cases result with
    | error e =>
      rw [hresult] at htaken
      cases htaken
    | ok view =>
      obtain ⟨hpaid, entry, hentry, hview⟩ := takePoints_ok hresult
      have hhash : (member.withMembership S package reads now base).tokenHash = member.tokenHash := rfl
      obtain ⟨view', tokens', hupdate⟩ := updateTempToken_isOk reads.now
        ((member.withMembership S package reads now base).effective base) hentry hview
      simp only [hpaid, hhash, hupdate]
      cases hconcurrency : faults.concurrencyWrite with
      | true => simp
      | false =>
        cases huser : faults.userWrite with
        | true => simp
        | false => simpa using hsold

theorem purchase_effect (package : Package) (reads : Readings) (hs : Sound s.member.toEntry) :
    Effect now s (purchaseUserMembership S package reads now faults s) := by
  by_cases htaken : Taken S package reads now faults s
  · obtain ⟨hpaid, hmember⟩ := purchase_taken hs htaken
    split_ifs at hmember
    · exact .sold package hpaid hmember
    · exact .lost package hpaid hmember
  · obtain ⟨hpaid, hmember⟩ := purchase_not_taken htaken
    exact .free (free_of_eq hs hpaid hmember)

theorem sync_free (known : List RawPackage) (draws : Defaults) (d : Nat → Defaults) (text : String)
    (hs : Sound s.member.toEntry) :
    Free now s (syncUserMembership S known draws d text now faults s) := by
  simp only [syncUserMembership]
  split
  · rename_i concurrency packages _ _
    have hsynced := refreshed_synced now packages d (max 1 concurrency) text hs
    have hsame : ∀ tokens, Free now s { s with tokens } := fun _ => free_of_eq hs rfl rfl
    split
    · exact hsame s.tokens
    · cases S.backend with
      | postgres =>
        simp only
        split
        · exact hsame s.tokens
        · split
          · exact ⟨rfl, hsynced⟩
          · exact ⟨rfl, hsynced⟩
      | jsonFile =>
        simp only
        split
        · exact hsame s.tokens
        · split
          · exact hsame _
          · split
            · exact hsame _
            · exact ⟨rfl, hsynced⟩
  · exact free_of_eq hs rfl rfl

theorem look_free (writes : Bool) (d : Nat → Defaults) (hs : Sound s.member.toEntry) :
    Free now s (look writes d now s) := by
  rw [look]
  split
  · exact ⟨rfl, refreshed_sync now d hs⟩
  · exact free_of_eq hs rfl rfl

theorem setConcurrency_free (concurrency : Int) (d d' : Nat → Defaults) (text : String)
    (hs : Sound s.member.toEntry) :
    Free now s (setUserConcurrency S concurrency d d' text now faults s) := by
  have hset := refreshed_withConcurrency now concurrency d d' hs
  simp only [setUserConcurrency]
  split
  · exact free_of_eq hs rfl rfl
  · split
    · exact free_of_eq hs rfl rfl
    · split
      · exact free_of_eq hs rfl rfl
      · exact ⟨rfl, hset⟩

theorem act_effect (e : Event) (hs : Sound s.member.toEntry) : Effect now s (act S now e s) := by
  cases e with
  | purchase wait packageId reads faults =>
    rw [act]
    split
    · exact .free (free_of_eq hs rfl rfl)
    · exact purchase_effect _ reads hs
  | sync wait known draws d text faults => exact .free (sync_free known draws d text hs)
  | look wait writes d => exact .free (look_free writes d hs)
  | setConcurrency wait concurrency d d' text faults =>
    exact .free (setConcurrency_free concurrency d d' text hs)
  | tokens wait tokens => exact .free (free_of_eq hs rfl rfl)

end FetchTask.Purchases
