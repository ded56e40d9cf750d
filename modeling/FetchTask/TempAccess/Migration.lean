import FetchTask.Billing
import FetchTask.TempAccess

/-!
What a user keeps of an entry from before version 3.

`migrateEntry` takes `free_remaining` over exactly. The program reads it with
`nonnegative_points_to_units`, whose product is rounded to 28 digits; as long as the
quota has no more digits than that, the two agree, and the balances of a migrated
entry add up to the limit less what was used, whichever operation touches it first.
-/

namespace FetchTask.TempAccess

open Billing (PointsError HasDigits)

/-- The digits up to which a whole number is turned into a text. -/
def maxStrDigits : Nat := 4300

/-- The number of tenths as `str` writes it and `Decimal` reads it: a whole number without a
fraction, another number with one digit behind the point. -/
def storedNumeral (tenths : Nat) : Numeral :=
  if tenths % 10 = 0 then ⟨false, tenths / 10, 0⟩ else ⟨false, tenths, -1⟩

/-- `nonnegative_points_to_units(entry.get("free_remaining") or 0)`. -/
def unitsOfStored (tenths : Nat) : Except PointsError Int :=
  if 10 ^ maxStrDigits ≤ tenths / 10 then .error (.valueError "积分格式无效")
  else
    Billing.unitsOf (·.lt (Billing.decimalOfNat 0)) "积分必须大于等于 0 且精确到 0.1"
      (.finite (storedNumeral tenths))

/-- `_migrate_entry`, with `free_remaining` read as the program reads it; `freeLimit` is in
tenths. -/
def migrateStored (entry : Entry) (freeLimit : Int) : Except PointsError Entry :=
  if 3 ≤ entry.billingVersion then .ok entry
  else
    let entry := if entry.billingVersion < 2 then migrateToSecond entry freeLimit else entry
    match entry.freeRemaining with
    | none => .error (.valueError "积分必须大于等于 0 且精确到 0.1")
    | some tenths =>
      match unitsOfStored tenths with
      | .error e => .error e
      | .ok units =>
        .ok (syncLegacyFields { setEntryVideoQuotaUnits entry units with billingVersion := 3 })

/-- `video_quota_units + credit_units`. -/
def quotaTotal (entry : Entry) : Int := entry.videoQuotaUnits.getD 0 + entry.creditUnits

/-- `int(free_limit)`. -/
def wholeLimit (freeLimit : Int) : Int := freeLimit.tdiv pointScale

/-- A number of tenths that is read as it is stored. -/
def ReadsBack (tenths : Nat) : Prop := tenths / 10 < 10 ^ maxStrDigits ∧ HasDigits tenths

section Stored

variable {tenths : Nat}

theorem magnitude_storedNumeral (tenths : Nat) :
    (Billing.tenfold (storedNumeral tenths)).magnitude = tenths := by
  rw [storedNumeral]
  split
  next h =>
    have hten : tenths / 10 * 10 = tenths := by omega
    rw [Numeral.magnitude_of_nonneg (n := Billing.tenfold ⟨false, tenths / 10, 0⟩) le_rfl]
    simp [Billing.tenfold, hten]
  next h =>
    simp [Billing.tenfold, Numeral.magnitude]

theorem unitsOfStored_iff : unitsOfStored tenths = .ok (tenths : Int) ↔ ReadsBack tenths := by
  rw [unitsOfStored, ReadsBack]
  split
  next hlong =>
    exact iff_of_false (fun h => nomatch h) fun h => absurd hlong h.1.not_ge
  next hlong =>
    have hsign : (storedNumeral tenths).negative = false := by
      rw [storedNumeral]
      split <;> rfl
    have hnonneg : 0 ≤ (storedNumeral tenths).value := by
      rw [Numeral.value, hsign]
      exact (storedNumeral tenths).magnitude_nonneg
    have hbelow : (tenths : Rat) < Decimal.bound Billing.defaultContext := by
      have hless : tenths < 10 ^ (maxStrDigits + 1) := by
        rw [Nat.pow_succ]
        omega
      refine lt_of_lt_of_le ?_ (Decimal.pow_emax_le_bound Billing.defaultContext)
      calc (tenths : Rat) < (10 : Rat) ^ (maxStrDigits + 1) := by exact_mod_cast hless
        _ = (10 : Rat) ^ ((maxStrDigits + 1 : Nat) : Int) := (zpow_natCast ..).symm
        _ ≤ (10 : Rat) ^ Billing.defaultContext.emax :=
          zpow_le_zpow_right₀ (by norm_num) (by decide)
    rw [Billing.unitsOf_eq_iff Billing.compares_lt (magnitude_storedNumeral tenths) hsign hnonneg
      hbelow, and_iff_right (not_le.mp hlong)]

theorem readsBack_zero : ReadsBack 0 := ⟨by positivity, 0, 0, rfl, by decide⟩

/-- A quota that is read at all is read as it is stored when the video quota comes out right. -/
theorem readsBack_of_units {units : Int} (hread : unitsOfStored tenths = .ok units)
    (hunits : max 0 units = tenths) : ReadsBack tenths := by
  by_cases hzero : tenths = 0
  · rw [hzero]
    exact readsBack_zero
  · have heq : units = tenths := by omega
    exact unitsOfStored_iff.mp (heq ▸ hread)

end Stored

section Migrated

variable {entry : Entry} {freeLimit units : Int} {tenths : Nat}

/-- The entry that the last steps of the migration leave. -/
def migrated (entry : Entry) (units : Int) : Entry :=
  syncLegacyFields { setEntryVideoQuotaUnits entry units with billingVersion := 3 }

@[simp] theorem migrated_videoQuotaUnits :
    (migrated entry units).videoQuotaUnits = some (max 0 units) := by
  simp [migrated, syncLegacyFields, setEntryVideoQuotaUnits, entryVideoQuotaUnits]

@[simp] theorem migrated_creditUnits : (migrated entry units).creditUnits = entry.creditUnits := rfl

@[simp] theorem migrated_billingVersion : (migrated entry units).billingVersion = 3 := rfl

/-- A migrated entry stays as it is. -/
theorem migrateStored_migrated (freeLimit : Int) :
    migrateStored (migrated entry units) freeLimit = .ok (migrated entry units) :=
  if_pos le_rfl

theorem migrateStored_of_read (hversion : entry.billingVersion < 3)
    (hfree : (if entry.billingVersion < 2 then migrateToSecond entry freeLimit
      else entry).freeRemaining = some tenths) :
    migrateStored entry freeLimit = (unitsOfStored tenths).map
      (migrated (if entry.billingVersion < 2 then migrateToSecond entry freeLimit else entry)) := by
  rw [migrateStored, if_neg (not_le.mpr hversion)]
  simp only [hfree]
  cases unitsOfStored tenths <;> rfl

/-- The part of the limit that was not used is split between the two balances. -/
theorem split_balances (hlimit : 0 < entry.limit) (hused : 0 ≤ entry.used) (freeLimit : Int) :
    max 0 (max 0 (wholeLimit freeLimit) - entry.used) * pointScale +
        (migrateToSecond entry freeLimit).creditUnits =
      pointScale * max 0 (max (wholeLimit freeLimit) entry.limit - entry.used) := by
  simp only [migrateToSecond, wholeLimit, orDefault, if_neg hlimit.ne', pointScale]
  omega

/-- The quota that a legacy entry keeps as free, in tenths. -/
def keptFree (entry : Entry) (freeLimit : Int) : Nat :=
  (max 0 (max 0 (wholeLimit freeLimit) - entry.used) * pointScale).toNat

/-- The migration of an entry from before version 2 keeps the part of the limit that was not used,
and is made once. -/
structure KeepsQuota (entry : Entry) (freeLimit : Int) : Prop where
  total : ∃ entry', migrateStored entry freeLimit = .ok entry' ∧
    quotaTotal entry' = pointScale * max 0 (max (wholeLimit freeLimit) entry.limit - entry.used)
  once : ∀ entry', migrateStored entry freeLimit = .ok entry' →
    ∀ freeLimit', migrateStored entry' freeLimit' = .ok entry'

theorem migrateStored_legacy (hversion : entry.billingVersion < 2) (hused : 0 ≤ entry.used)
    (freeLimit : Int) :
    migrateStored entry freeLimit = (unitsOfStored (keptFree entry freeLimit)).map
      (migrated (migrateToSecond entry freeLimit)) := by
  have hfree : (if entry.billingVersion < 2 then migrateToSecond entry freeLimit
      else entry).freeRemaining = some (keptFree entry freeLimit) := by
    rw [if_pos hversion, migrateToSecond, keptFree, wholeLimit, max_eq_right hused]
  rw [migrateStored_of_read (by omega) hfree, if_pos hversion]

theorem once_of_map {e : Entry} {result : Except PointsError Int}
    (h : migrateStored entry freeLimit = result.map (migrated e)) (entry' : Entry)
    (hmigrated : migrateStored entry freeLimit = .ok entry') (freeLimit' : Int) :
    migrateStored entry' freeLimit' = .ok entry' := by
  rw [h] at hmigrated
  cases result with
  | error e => cases hmigrated
  | ok units =>
    cases hmigrated
    exact migrateStored_migrated freeLimit'

theorem keepsQuota_iff (hversion : entry.billingVersion < 2) (hlimit : 0 < entry.limit)
    (hused : 0 ≤ entry.used) :
    KeepsQuota entry freeLimit ↔ ReadsBack (keptFree entry freeLimit) := by
  have hlegacy := migrateStored_legacy hversion hused freeLimit
  have hsplit := split_balances hlimit hused freeLimit
  have hfree : (keptFree entry freeLimit : Int) =
      max 0 (max 0 (wholeLimit freeLimit) - entry.used) * pointScale := by
    rw [keptFree, pointScale]
    omega
  rw [← hfree] at hsplit
  constructor
  · rintro ⟨⟨entry', hmigrated, htotal⟩, -⟩
    rw [hlegacy] at hmigrated
    cases hread : unitsOfStored (keptFree entry freeLimit) with
    | error e =>
      rw [hread] at hmigrated
      cases hmigrated
    | ok units =>
      rw [hread] at hmigrated
      cases hmigrated
      rw [quotaTotal, migrated_videoQuotaUnits, migrated_creditUnits, Option.getD_some] at htotal
      exact readsBack_of_units hread (by omega)
  · intro hback
    refine ⟨⟨migrated (migrateToSecond entry freeLimit) (keptFree entry freeLimit), ?_, ?_⟩,
      once_of_map hlegacy⟩
    · rw [hlegacy, unitsOfStored_iff.mpr hback]
      rfl
    · rw [quotaTotal, migrated_videoQuotaUnits, migrated_creditUnits, Option.getD_some, ← hsplit]
      omega

/-- An entry of version 2 keeps its points, and its free quota as video quota. -/
def KeepsSecond (entry : Entry) (tenths : Nat) : Prop :=
  ∀ freeLimit, ∃ entry', migrateStored entry freeLimit = .ok entry' ∧
    entry'.creditUnits = entry.creditUnits ∧ entry'.videoQuotaUnits = some (tenths : Int)

theorem keepsSecond_iff (hversion : entry.billingVersion = 2)
    (hfree : entry.freeRemaining = some tenths) : KeepsSecond entry tenths ↔ ReadsBack tenths := by
  have hnot : ¬entry.billingVersion < 2 := by omega
  have hsecond : ∀ freeLimit,
      migrateStored entry freeLimit = (unitsOfStored tenths).map (migrated entry) := by
    intro freeLimit
    have hread := @migrateStored_of_read entry freeLimit tenths (by omega)
      (by rw [if_neg hnot, hfree])
    rwa [if_neg hnot] at hread
  constructor
  · intro h
    obtain ⟨entry', hmigrated, -, hvideo⟩ := h 0
    rw [hsecond] at hmigrated
    cases hread : unitsOfStored tenths with
    | error e =>
      rw [hread] at hmigrated
      cases hmigrated
    | ok units =>
      rw [hread] at hmigrated
      cases hmigrated
      rw [migrated_videoQuotaUnits, Option.some.injEq] at hvideo
      exact readsBack_of_units hread hvideo
  · intro hback freeLimit
    refine ⟨migrated entry tenths, ?_, rfl, ?_⟩
    · rw [hsecond, unitsOfStored_iff.mpr hback]
      rfl
    · rw [migrated_videoQuotaUnits, max_eq_right (Int.natCast_nonneg tenths)]

/-- Within the digits, the migration is the one that reads the quota exactly. -/
theorem migrateStored_eq (hread : ∀ tenths, (if entry.billingVersion < 2 then
      migrateToSecond entry freeLimit else entry).freeRemaining = some tenths → ReadsBack tenths) :
    (migrateStored entry freeLimit).toOption = (migrateEntry entry freeLimit).toOption := by
  rw [migrateStored, migrateEntry]
  split
  · rfl
  · dsimp only
    cases hfree : (if entry.billingVersion < 2 then migrateToSecond entry freeLimit
      else entry).freeRemaining with
    | none => rfl
    | some tenths =>
      simp only [unitsOfStored_iff.mpr (hread tenths hfree)]
      rfl

end Migrated

/-- The migration keeps the quota of an entry exactly when the free part has no more digits than
are read back; then it does not matter which free limit within the limit comes first. -/
theorem quota_kept_iff (entry : Entry) (freeLimit : Int) :
    (entry.billingVersion < 2 → 0 < entry.limit → 0 ≤ entry.used →
      (KeepsQuota entry freeLimit ↔ ReadsBack (keptFree entry freeLimit))) ∧
    (∀ entry', entry.billingVersion < 2 → 0 < entry.limit → 0 ≤ entry.used →
      wholeLimit freeLimit ≤ entry.limit → ReadsBack (keptFree entry freeLimit) →
      migrateStored entry freeLimit = .ok entry' →
      quotaTotal entry' = pointScale * max 0 (entry.limit - entry.used)) ∧
    ∀ tenths, entry.billingVersion = 2 → entry.freeRemaining = some tenths →
      (KeepsSecond entry tenths ↔ ReadsBack tenths) := by
  refine ⟨keepsQuota_iff, ?_, fun tenths => keepsSecond_iff⟩
  intro entry' hversion hlimit hused hwithin hback hmigrated
  obtain ⟨entry'', hmigrated', htotal⟩ := ((keepsQuota_iff hversion hlimit hused).mpr hback).total
  rw [hmigrated, Except.ok.injEq] at hmigrated'
  rw [hmigrated', htotal, max_eq_right hwithin]

/-- An entry from before version 2 of which one use is left. -/
def firstEntry : Entry where
  token := ""
  remark := ""
  note := ""
  billingVersion := 0
  creditUnits := 0
  videoQuotaUnits := none
  freeRemaining := some 0
  limit := 1
  used := 0
  concurrency := 1
  remoteGenerationLimit := 1
  taskRetentionDays := 7
  billingPriority := ""
  reservations := .empty
  quotaRefundIds := []
  createdAt := ""
  updatedAt := ""

/-- A free limit of 29 digits loses the last of them. -/
theorem quota_rounded :
    ¬∀ entry freeLimit, entry.billingVersion < 2 → 0 < entry.limit → 0 ≤ entry.used →
      KeepsQuota entry freeLimit := by
  intro h
  have hback := (keepsQuota_iff (by decide) (by decide) (by decide)).mp
    (h firstEntry (10 * (10 ^ 28 + 1)) (by decide) (by decide) (by decide))
  have hfree : keptFree firstEntry (10 * (10 ^ 28 + 1)) = 10 * (10 ^ 28 + 1) := by decide
  obtain ⟨c, e, heq, hless⟩ := (hfree ▸ hback).2
  rcases e with _ | _ | e
  · omega
  · omega
  · have hhundred : 100 ∣ 10 * (10 ^ 28 + 1) := by
      refine ⟨c * 10 ^ e, ?_⟩
      rw [heq, Nat.pow_succ, Nat.pow_succ]
      ring
    revert hhundred
    decide

end FetchTask.TempAccess
