import FetchTask.TempAccess

/-!
Conservation of the quota of a temporary token.

What a token holds in points is its balance and the units of its live point
reservations, and likewise for video quota. Reserving moves units from a
balance to a reservation, refunding moves them back, and pruning drops closed
reservations only. The law is stated for every sequence of calls on the table
of tokens and read at one token.
-/

namespace FetchTask.TempAccess

/-! ### What an entry holds -/

def Reservation.livePoints (r : Reservation) : Int :=
  if r.isLive && !r.free then r.units else 0

def Reservation.liveVideo (r : Reservation) : Int :=
  if r.isLive && r.free then r.refundVideoUnits else 0

def pointsHeld (entry : Entry) : Int :=
  entry.creditUnits + entry.reservations.total Reservation.livePoints

def videoHeld (entry : Entry) : Int :=
  entryVideoQuotaUnits entry + entry.reservations.total Reservation.liveVideo

/-- The two balances together. -/
def balance (entry : Entry) : Int := entry.creditUnits + entryVideoQuotaUnits entry

/-- Whether a task has a reservation that can still be refunded. -/
def holdsLive (entry : Entry) (taskId : String) : Bool :=
  (entry.reservations.get? taskId).any Reservation.isLive

structure NonNegative (entry : Entry) : Prop where
  credit : 0 ≤ entry.creditUnits
  video : ∀ units, entry.videoQuotaUnits = some units → 0 ≤ units

/-- What every call leaves alone. -/
structure Kept (entry entry' : Entry) : Prop where
  version : entry'.billingVersion = entry.billingVersion
  points : pointsHeld entry' = pointsHeld entry
  video : videoHeld entry' = videoHeld entry
  nonneg : NonNegative entry → NonNegative entry'

/-- Both balances and all reservations are the same. -/
structure SameHoldings (entry entry' : Entry) : Prop where
  credit : entry'.creditUnits = entry.creditUnits
  video : entryVideoQuotaUnits entry' = entryVideoQuotaUnits entry
  reservations : entry'.reservations = entry.reservations

theorem Kept.refl (entry : Entry) : Kept entry entry := ⟨rfl, rfl, rfl, id⟩

theorem Kept.trans {e₁ e₂ e₃ : Entry} (h₁ : Kept e₁ e₂) (h₂ : Kept e₂ e₃) : Kept e₁ e₃ :=
  ⟨h₂.version.trans h₁.version, h₂.points.trans h₁.points, h₂.video.trans h₁.video,
    fun h => h₂.nonneg (h₁.nonneg h)⟩

theorem SameHoldings.refl (entry : Entry) : SameHoldings entry entry := ⟨rfl, rfl, rfl⟩

/-! ### Pruning and syncing -/

theorem livePoints_closed {r : Reservation} (h : r.isLive = false) : r.livePoints = 0 := by
  simp [Reservation.livePoints, h]

theorem liveVideo_closed {r : Reservation} (h : r.isLive = false) : r.liveVideo = 0 := by
  simp [Reservation.liveVideo, h]

theorem closedReservations_closed {d : Dict String Reservation} {p : String × Reservation}
    (h : p ∈ closedReservations d) : p.2.isLive = false := by
  have hp := (List.mergeSort_perm _ _).mem_iff.mp h
  simpa using (List.mem_filter.mp hp).2

theorem sum_closed {f : Reservation → Int} (hf : ∀ r, r.isLive = false → f r = 0)
    {l : List (String × Reservation)} (hl : ∀ p ∈ l, p.2.isLive = false) :
    (l.map fun p => f p.2).sum = 0 := by
  induction l with
  | nil => rfl
  | cons p ps ih =>
    have hps := ih fun q hq => hl q (List.mem_cons_of_mem _ hq)
    simp [hf p.2 (hl p List.mem_cons_self), hps]

/-- Pruning does not change a sum over the live reservations. -/
theorem total_prunedReservations {f : Reservation → Int} (hf : ∀ r, r.isLive = false → f r = 0)
    (d : Dict String Reservation) : (prunedReservations d).total f = d.total f := by
  unfold prunedReservations
  split
  · rfl
  · have hclosed : ∀ p ∈ closedReservations d, p.2.isLive = false :=
      fun p hp => closedReservations_closed hp
    have htaken : ∀ p ∈ (closedReservations d).take maxClosed, p.2.isLive = false :=
      fun p hp => hclosed p (List.mem_of_mem_take hp)
    have hperm := ((active_closed_perm d).map fun p => f p.2).sum_eq
    rw [List.map_append, List.sum_append, sum_closed hf hclosed] at hperm
    rw [Dict.total, Dict.total, List.map_append, List.sum_append, sum_closed hf htaken, hperm]

/-- Pruning keeps every live reservation, and adds none. -/
theorem get?_prunedReservations {d : Dict String Reservation} {id : String} {r : Reservation}
    (hr : r.isLive = true) : (prunedReservations d).get? id = some r ↔ d.get? id = some r := by
  unfold prunedReservations
  split
  · rfl
  · rw [Dict.get?_eq_some_iff, Dict.get?_eq_some_iff]
    constructor
    · intro h
      exact (active_closed_perm d).subset ((pruned_sublist d).subset h)
    · intro h
      exact List.mem_append_left _ (List.mem_filter.mpr ⟨h, hr⟩)

@[simp] theorem entryVideoQuotaUnits_set (entry : Entry) (units : Int) :
    entryVideoQuotaUnits (setEntryVideoQuotaUnits entry units) = max 0 units := by
  simp [entryVideoQuotaUnits, setEntryVideoQuotaUnits]

theorem entryVideoQuotaUnits_nonneg (entry : Entry) : 0 ≤ entryVideoQuotaUnits entry := by
  unfold entryVideoQuotaUnits
  split <;> omega

/-- The end of both operations: prune, sync and stamp. -/
def settled (entry : Entry) (now : String) : Entry :=
  { syncLegacyFields (pruneReservations entry) with updatedAt := now }

section Settled

variable (entry : Entry) (now : String)

@[simp] theorem settled_version : (settled entry now).billingVersion = entry.billingVersion := rfl

@[simp] theorem settled_credit : (settled entry now).creditUnits = entry.creditUnits := rfl

@[simp] theorem settled_quota :
    entryVideoQuotaUnits (settled entry now) = entryVideoQuotaUnits entry := by
  have h := entryVideoQuotaUnits_nonneg entry
  change max 0 (max 0 (entryVideoQuotaUnits entry)) = _
  omega

@[simp] theorem pointsHeld_settled : pointsHeld (settled entry now) = pointsHeld entry :=
  congrArg (entry.creditUnits + ·)
    (total_prunedReservations (fun _ h => livePoints_closed h) entry.reservations)

@[simp] theorem videoHeld_settled : videoHeld (settled entry now) = videoHeld entry := by
  have htotal := total_prunedReservations (fun _ h => liveVideo_closed h) entry.reservations
  rw [videoHeld, settled_quota, videoHeld]
  exact congrArg (entryVideoQuotaUnits entry + ·) htotal

@[simp] theorem holdsLive_settled (id : String) :
    holdsLive (settled entry now) id = holdsLive entry id := by
  rw [Bool.eq_iff_iff, holdsLive, holdsLive, Option.any_eq_true, Option.any_eq_true]
  constructor
  · rintro ⟨r, hget, hr⟩
    exact ⟨r, (get?_prunedReservations hr).mp hget, hr⟩
  · rintro ⟨r, hget, hr⟩
    exact ⟨r, (get?_prunedReservations hr).mpr hget, hr⟩

theorem settled_nonneg (h : 0 ≤ entry.creditUnits) : NonNegative (settled entry now) := by
  refine ⟨h, fun units hunits => ?_⟩
  have : units = max 0 (entryVideoQuotaUnits entry) := (Option.some.inj hunits).symm
  omega

end Settled

/-! ### Moving units between a balance and a reservation -/

/-- The entry with `r` under `id`. -/
def recorded (entry : Entry) (id : String) (r : Reservation) : Entry :=
  { entry with reservations := entry.reservations.set id r }

section Recorded

variable (entry : Entry) (id : String) (r : Reservation)

@[simp] theorem recorded_credit : (recorded entry id r).creditUnits = entry.creditUnits := rfl

@[simp] theorem recorded_quota :
    entryVideoQuotaUnits (recorded entry id r) = entryVideoQuotaUnits entry := rfl

theorem pointsHeld_recorded :
    pointsHeld (recorded entry id r) + entry.reservations.weight Reservation.livePoints id =
      pointsHeld entry + r.livePoints := by
  have h := Dict.total_set Reservation.livePoints entry.reservations id r
  simp only [pointsHeld, recorded]
  omega

theorem videoHeld_recorded :
    videoHeld (recorded entry id r) + entry.reservations.weight Reservation.liveVideo id =
      videoHeld entry + r.liveVideo := by
  have h := Dict.total_set Reservation.liveVideo entry.reservations id r
  simp only [videoHeld, recorded_quota]
  simp only [recorded]
  omega

theorem holdsLive_recorded (j : String) :
    holdsLive (recorded entry id r) j = if id = j then r.isLive else holdsLive entry j := by
  by_cases h : id = j
  · subst h
    simp [holdsLive, recorded]
  · simp [holdsLive, recorded, h]

end Recorded

/-- `video` units of quota and `points` units of points are added to the balances. -/
structure Credited (entry entry' : Entry) (points video : Int) : Prop where
  version : entry'.billingVersion = entry.billingVersion
  credit : entry'.creditUnits = entry.creditUnits + points
  quota : entryVideoQuotaUnits entry' = entryVideoQuotaUnits entry + video
  reservations : entry'.reservations = entry.reservations

theorem Credited.pointsHeld {entry entry' : Entry} {points video : Int}
    (h : Credited entry entry' points video) : pointsHeld entry' = pointsHeld entry + points := by
  rw [TempAccess.pointsHeld, TempAccess.pointsHeld, h.credit, h.reservations]
  omega

theorem Credited.videoHeld {entry entry' : Entry} {points video : Int}
    (h : Credited entry entry' points video) : videoHeld entry' = videoHeld entry + video := by
  rw [TempAccess.videoHeld, TempAccess.videoHeld, h.quota, h.reservations]
  omega

/-- Replacing the reservation under `id` by `r` while the balances change by the
difference of what the two are worth keeps everything that is held. -/
theorem settled_recorded_kept {entry credited : Entry} {points video : Int} {id : String}
    {r : Reservation} (now : String) (h : Credited entry credited points video)
    (hpoints : entry.reservations.weight Reservation.livePoints id = r.livePoints + points)
    (hvideo : entry.reservations.weight Reservation.liveVideo id = r.liveVideo + video)
    (hnonneg : 0 ≤ entry.creditUnits → 0 ≤ entry.creditUnits + points) :
    Kept entry (settled (recorded credited id r) now) := by
  have hp := pointsHeld_recorded credited id r
  have hv := videoHeld_recorded credited id r
  rw [h.reservations, h.pointsHeld] at hp
  rw [h.reservations, h.videoHeld] at hv
  refine ⟨h.version, ?_, ?_, fun hn => ?_⟩
  · rw [pointsHeld_settled]
    omega
  · rw [videoHeld_settled]
    omega
  · apply settled_nonneg
    rw [recorded_credit, h.credit]
    exact hnonneg hn.credit

/-! ### One charge -/

/-- The entry after payment, before the reservation is recorded. -/
def spent (entry : Entry) (free : Bool) (requiredUnits requiredVideoUnits : Int) : Entry :=
  if free then setEntryVideoQuotaUnits entry (entryVideoQuotaUnits entry - requiredVideoUnits)
  else { entry with creditUnits := entry.creditUnits - requiredUnits }

/-- The reservation that a charge records. -/
def chargedReservation (userId now : String) (free : Bool) (requiredUnits requiredVideoUnits : Int) :
    Reservation where
  status := .reserved
  free := free
  units := if free then 0 else requiredUnits.toNat
  videoUnits := some (if free then requiredVideoUnits.toNat else 0)
  userId := userId
  createdAt := now
  refundedAt := ""

/-- A charge is within the means of the entry. -/
structure Affordable (entry : Entry) (free : Bool) (requiredUnits requiredVideoUnits : Int) :
    Prop where
  units : 1 ≤ requiredUnits
  videoUnits : 1 ≤ requiredVideoUnits
  quota : free = true → requiredVideoUnits ≤ entryVideoQuotaUnits entry
  credit : free = false → requiredUnits ≤ entry.creditUnits

section Charge

variable {entry : Entry} {taskId : String} (userId now : String) {free : Bool}
  {requiredUnits requiredVideoUnits : Int}

theorem charge_eq (hid : taskId ≠ "") :
    charge entry taskId userId now free requiredUnits requiredVideoUnits =
      settled (recorded (spent entry free requiredUnits requiredVideoUnits) taskId
        (chargedReservation userId now free requiredUnits requiredVideoUnits)) now := by
  simp only [charge, if_neg hid]
  rfl

theorem spent_credited (h : Affordable entry free requiredUnits requiredVideoUnits) :
    Credited entry (spent entry free requiredUnits requiredVideoUnits)
      (if free then 0 else -requiredUnits) (if free then -requiredVideoUnits else 0) := by
  cases free with
  | true =>
    refine ⟨rfl, (Int.add_zero _).symm, ?_, rfl⟩
    have hq := h.quota rfl
    simp only [spent, if_true, entryVideoQuotaUnits_set]
    omega
  | false => exact ⟨rfl, Int.sub_eq_add_neg, (Int.add_zero _).symm, rfl⟩

theorem chargedReservation_livePoints (h : 1 ≤ requiredUnits) :
    (chargedReservation userId now free requiredUnits requiredVideoUnits).livePoints =
      if free then 0 else requiredUnits := by
  cases free with
  | true => rfl
  | false => exact Int.toNat_of_nonneg (by omega)

theorem chargedReservation_liveVideo (h : 1 ≤ requiredVideoUnits) :
    (chargedReservation userId now free requiredUnits requiredVideoUnits).liveVideo =
      if free then requiredVideoUnits else 0 := by
  cases free with
  | true =>
    have hval : (requiredVideoUnits.toNat : Int) = requiredVideoUnits :=
      Int.toNat_of_nonneg (by omega)
    simp only [Reservation.liveVideo, Reservation.refundVideoUnits, chargedReservation,
      Reservation.isLive, beq_self_eq_true, Bool.and_self, if_true, Option.getD_some, hval,
      orDefault, if_neg (show requiredVideoUnits ≠ 0 by omega)]
    omega
  | false => rfl

/-- A charge moves units from one balance into the new reservation. -/
theorem charge_kept (hid : taskId ≠ "") (hnew : entry.reservations.get? taskId = none)
    (h : Affordable entry free requiredUnits requiredVideoUnits) :
    Kept entry (charge entry taskId userId now free requiredUnits requiredVideoUnits) := by
  rw [charge_eq userId now hid]
  have hweight (f : Reservation → Int) : entry.reservations.weight f taskId = 0 := by
    simp [Dict.weight, hnew]
  apply settled_recorded_kept now (spent_credited h)
  · rw [hweight, chargedReservation_livePoints userId now h.units]
    split <;> omega
  · rw [hweight, chargedReservation_liveVideo userId now h.videoUnits]
    split <;> omega
  · intro hn
    cases free with
    | true => simpa using hn
    | false =>
      have := h.credit rfl
      simp only [Bool.false_eq_true, if_false]
      omega

theorem holdsLive_charge (hid : taskId ≠ "") (id : String) :
    holdsLive (charge entry taskId userId now free requiredUnits requiredVideoUnits) id =
      if taskId = id then true else holdsLive entry id := by
  rw [charge_eq userId now hid, holdsLive_settled, holdsLive_recorded]
  cases free <;> rfl

/-- A charge takes something. -/
theorem balance_charge_lt (hid : taskId ≠ "")
    (h : Affordable entry free requiredUnits requiredVideoUnits) :
    balance (charge entry taskId userId now free requiredUnits requiredVideoUnits) <
      balance entry := by
  have hs := spent_credited h
  have hunits := h.units
  have hvideo := h.videoUnits
  rw [charge_eq userId now hid, balance, balance, settled_credit, settled_quota, recorded_credit,
    recorded_quota, hs.credit, hs.quota]
  cases free <;> simp <;> omega

end Charge

/-! ### One refund -/

theorem creditBack_credited (entry : Entry) (r : Reservation) :
    Credited entry (creditBack entry r) (if r.free then 0 else r.units)
      (if r.free then r.refundVideoUnits else 0) := by
  cases hf : r.free with
  | true =>
    have hq := entryVideoQuotaUnits_nonneg entry
    have hu : 1 ≤ r.refundVideoUnits := le_max_left _ _
    simp only [creditBack, hf, if_true]
    refine ⟨rfl, (Int.add_zero _).symm, ?_, rfl⟩
    rw [entryVideoQuotaUnits_set]
    omega
  | false =>
    simp only [creditBack, hf, Bool.false_eq_true, if_false]
    exact ⟨rfl, rfl, (Int.add_zero _).symm, rfl⟩

/-- The entry once the live reservation `r` of `id` is given back. -/
def givenBack (entry : Entry) (id : String) (r : Reservation) (now : String) : Entry :=
  settled (recorded (creditBack entry r) id { r with status := .refunded, refundedAt := now }) now

theorem givenBack_kept {entry : Entry} {id : String} {r : Reservation} (now : String)
    (hget : entry.reservations.get? id = some r) (hlive : r.isLive = true) :
    Kept entry (givenBack entry id r now) := by
  have hweight (f : Reservation → Int) : entry.reservations.weight f id = f r := by
    simp [Dict.weight, hget]
  have hclosed : Reservation.isLive { r with status := .refunded, refundedAt := now } = false := rfl
  apply settled_recorded_kept now (creditBack_credited entry r)
  · rw [hweight, livePoints_closed hclosed, Reservation.livePoints, hlive]
    cases r.free <;> simp
  · rw [hweight, liveVideo_closed hclosed, Reservation.liveVideo, hlive]
    cases r.free <;> simp
  · intro hn
    split <;> omega

theorem holdsLive_givenBack (entry : Entry) (id : String) (r : Reservation) (now j : String) :
    holdsLive (givenBack entry id r now) j = if id = j then false else holdsLive entry j := by
  rw [givenBack, holdsLive_settled, holdsLive_recorded]
  split
  · rfl
  · simp only [creditBack]
    split <;> rfl

/-! ### Calls on the table -/

/-- Task ids that are not empty. -/
abbrev TaskId := { id : String // id ≠ "" }

inductive Call
  | reserve (access : AccessContext) (taskId : TaskId) (costUnits : Int) (userId : String)
      (videoCostUnits : Int) (now : String)
  | refund (tokenHash : String) (refundId : TaskId) (now : String)
  | setBillingPriority (tokenHash priority now : String)
  | update (tokenHash : String) (changes : TokenUpdate) (now : String)

inductive Answer
  | context (access : AccessContext)
  | refunded (done : Bool)
  | token (token : PublicToken)

section Calls

variable (u : Chars) (b : Backend)

def Call.apply (tokens : Tokens) : Call → Except BillingError Answer × Tokens
  | .reserve access taskId costUnits userId videoCostUnits now =>
    let result := reserveTempQuota u b access taskId costUnits userId videoCostUnits now tokens
    (result.1.map .context, result.2)
  | .refund tokenHash refundId now =>
    let result := refundTempQuotaHash u tokenHash refundId now tokens
    (.ok (.refunded result.1), result.2.2)
  | .setBillingPriority tokenHash priority now =>
    let result := setTempBillingPriority u b tokenHash priority now tokens
    (result.1.map .token, result.2)
  | .update tokenHash changes now =>
    let result := updateTempToken u b tokenHash changes now tokens
    (result.1.map .token, result.2)

/-- The table after a sequence of calls. -/
def run : List Call → Tokens → Tokens
  | [], tokens => tokens
  | call :: calls, tokens => run calls (call.apply u b tokens).2

/-- A reserve of `id` on the token `hash` that lowered its balances. -/
def Call.takes (hash id : String) (before after : Option Entry) : Call → Bool
  | .reserve access taskId .. => access.tokenHash == hash && taskId.val == id &&
      match before, after with
      | some entry, some entry' => decide (balance entry' < balance entry)
      | _, _ => false
  | _ => false

/-- A refund of `id` on the token `hash` that reported success. -/
def Call.givesBack (hash id : String) (answer : Except BillingError Answer) : Call → Bool
  | .refund tokenHash refundId _ => normalizeHash u tokenHash == hash && refundId.val == id &&
      match answer with
      | .ok (.refunded done) => done
      | _ => false
  | _ => false

/-- How often `id` was charged, and how often it was given back. -/
def charges (hash id : String) : List Call → Tokens → Nat × Nat
  | [], _ => (0, 0)
  | call :: calls, tokens =>
    let result := call.apply u b tokens
    let rest := charges hash id calls result.2
    (rest.1 + (call.takes hash id (tokens hash) (result.2 hash)).toNat,
      rest.2 + (call.givesBack u hash id result.1).toNat)

variable {u b}

/-- The entry changed in nothing that the billing reads. -/
structure Unmoved (entry entry' : Entry) : Prop extends SameHoldings entry entry' where
  version : entry'.billingVersion = entry.billingVersion
  stored : entry'.videoQuotaUnits = entry.videoQuotaUnits

theorem Unmoved.refl (entry : Entry) : Unmoved entry entry := ⟨.refl entry, rfl, rfl⟩

theorem Unmoved.kept {entry entry' : Entry} (h : Unmoved entry entry') : Kept entry entry' where
  version := h.version
  points := by rw [pointsHeld, pointsHeld, h.credit, h.reservations]
  video := by rw [videoHeld, videoHeld, h.video, h.reservations]
  nonneg hn := ⟨h.credit ▸ hn.credit, fun units hunits => hn.video units (h.stored ▸ hunits)⟩

theorem Unmoved.balance {entry entry' : Entry} (h : Unmoved entry entry') :
    balance entry' = balance entry := by
  rw [TempAccess.balance, TempAccess.balance, h.credit, h.video]

theorem Unmoved.holdsLive {entry entry' : Entry} (h : Unmoved entry entry') (id : String) :
    holdsLive entry' id = holdsLive entry id := by
  rw [TempAccess.holdsLive, TempAccess.holdsLive, h.reservations]

theorem normalizeBillingPriority_error {value : String} {e : BillingError}
    (h : normalizeBillingPriority u value = .error e) : e = .valueError "扣费优先级无效" := by
  simp only [normalizeBillingPriority] at h
  split_ifs at h
  exact (Except.error.inj h).symm

theorem freeUsed_quota {entry : Entry} {requiredUnits requiredVideoUnits : Int}
    (h : freeUsed u entry requiredUnits requiredVideoUnits = .ok true) :
    requiredVideoUnits ≤ entryVideoQuotaUnits entry := by
  by_contra hlt
  simp [freeUsed, hlt] at h

/-- The two normal ways out of the body of `reserve_temp_quota`. -/
theorem chargeTempQuota_cases {access : AccessContext} {taskId : TaskId} {costUnits : Int}
    {userId : String} {videoCostUnits : Int} {now : String} {entry entry' : Entry}
    {outcome : Reserved} (hv : 3 ≤ entry.billingVersion)
    (h : chargeTempQuota u access taskId costUnits userId videoCostUnits now entry =
      .ok (outcome, entry')) :
    (outcome = .repeated ∧ entry' = entry) ∨
      (outcome = .charged ∧ entry.reservations.get? taskId = none ∧
        ∃ free, Affordable entry free (max 1 costUnits) (max 1 videoCostUnits) ∧
          entry' = charge entry taskId userId now free (max 1 costUnits) (max 1 videoCostUnits)) := by
  simp only [chargeTempQuota, migrateEntry, if_pos hv, if_neg taskId.property] at h
  cases hget : entry.reservations.get? taskId with
  | some r =>
    rw [hget] at h
    cases hlive : r.isLive with
    | true =>
      simp only [hlive, if_true, Except.ok.injEq, Prod.mk.injEq] at h
      exact .inl ⟨h.1.symm, h.2.symm⟩
    | false => simp [hlive] at h
  | none =>
    rw [hget] at h
    cases hfree : freeUsed u entry (max 1 costUnits) (max 1 videoCostUnits) with
    | error e => simp [hfree] at h
    | ok free =>
      simp only [hfree] at h
      split at h
      · cases h
      · rename_i hcredit
        simp only [Except.ok.injEq, Prod.mk.injEq] at h
        refine .inr ⟨h.1.symm, rfl, free, ⟨le_max_left _ _, le_max_left _ _, ?_, ?_⟩, h.2.symm⟩
        · rintro rfl
          exact freeUsed_quota hfree
        · rintro rfl
          simpa using hcredit

/-- The two ways out of the closure of `refund_temp_quota_hash`. -/
theorem refundEntry_cases (refundId : TaskId) (now : String) {entry : Entry}
    (hversion : 2 ≤ entry.billingVersion) :
    refundEntry refundId now entry = (false, none, entry) ∨
      ∃ r, entry.reservations.get? refundId = some r ∧ r.isLive = true ∧
        refundEntry refundId now entry =
          (true, some (refundTransaction (creditBack entry r) r),
            givenBack entry refundId r now) := by
  unfold refundEntry
  rw [if_pos ⟨hversion, refundId.property⟩]
  cases hget : entry.reservations.get? refundId with
  | none => exact .inl rfl
  | some r =>
    cases hlive : r.isLive with
    | false => exact .inl (by simp [hlive])
    | true => exact .inr ⟨r, rfl, hlive, by simp only [hlive, if_true]; rfl⟩

theorem updateEntry_unmoved {changes : TokenUpdate} {now : String} {entry entry' : Entry}
    (h : updateEntry u changes now entry = .ok entry') : Unmoved entry entry' := by
  simp only [updateEntry] at h
  split at h
  · cases h
    exact ⟨⟨rfl, rfl, rfl⟩, rfl, rfl⟩
  · split at h <;> cases h
    exact ⟨⟨rfl, rfl, rfl⟩, rfl, rfl⟩

theorem answer_snd {α : Type} (tokens : Tokens) (hash : String) (entry : Entry)
    (view : Except BillingError α) :
    (answer b tokens hash entry view).2 = tokens ∨
      (answer b tokens hash entry view).2 = Function.update tokens hash (some entry) := by
  unfold answer
  split
  · exact .inl rfl
  · exact .inr rfl

theorem answer_fst {α : Type} (tokens : Tokens) (hash : String) (entry : Entry)
    (view : Except BillingError α) : (answer b tokens hash entry view).1 = view := by
  unfold answer
  split <;> rfl

theorem updateTempToken_cases {hash tokenHash : String} {changes : TokenUpdate} {now : String}
    {tokens : Tokens} {entry : Entry} (he : tokens hash = some entry) :
    ∃ entry', (updateTempToken u b tokenHash changes now tokens).2 hash = some entry' ∧
      Unmoved entry entry' := by
  simp only [updateTempToken]
  split
  · exact ⟨entry, he, .refl entry⟩
  · rename_i stored hstored
    split
    · exact ⟨entry, he, .refl entry⟩
    · rename_i changed hchanged
      rcases answer_snd (b := b) tokens (normalizeHash u tokenHash) changed
        (publicToken u (normalizeHash u tokenHash) changed) with hsnd | hsnd <;> rw [hsnd]
      · exact ⟨entry, he, .refl entry⟩
      · by_cases hhash : normalizeHash u tokenHash = hash
        · subst hhash
          obtain rfl : stored = entry := Option.some.inj (hstored.symm.trans he)
          exact ⟨changed, by simp, updateEntry_unmoved hchanged⟩
        · exact ⟨entry, by rw [Function.update_of_ne (Ne.symm hhash), he], .refl entry⟩

/-- Building the answer can fail, but not for lack of quota. -/
theorem context_ne_quotaExceeded (hash : String) (entry : Entry) (message : String) :
    (getTempContextFromEntry u hash entry).map Answer.context ≠
      .error (.quotaExceeded message) := by
  intro h
  unfold getTempContextFromEntry at h
  split at h
  · rename_i e hpriority
    rw [normalizeBillingPriority_error hpriority] at h
    cases h
  · cases h

/-- What a call can do to the entry under `hash`, with the answer it gives. -/
inductive Effect (u : Chars) (hash : String) (entry : Entry) :
    Call → Except BillingError Answer → Entry → Prop
  | unmoved {call answer entry'} (same : Unmoved entry entry')
      (kept : ∀ id, call.givesBack u hash id answer = false) : Effect u hash entry call answer entry'
  | charged {access taskId costUnits userId videoCostUnits now answer} (free : Bool)
      (token : access.tokenHash = hash) (fresh : entry.reservations.get? taskId.val = none)
      (affordable : Affordable entry free (max 1 costUnits) (max 1 videoCostUnits))
      (accepted : ∀ message, answer ≠ .error (.quotaExceeded message)) :
      Effect u hash entry (.reserve access taskId costUnits userId videoCostUnits now) answer
        (charge entry taskId userId now free (max 1 costUnits) (max 1 videoCostUnits))
  | refunded {tokenHash refundId now} (r : Reservation) (token : normalizeHash u tokenHash = hash)
      (found : entry.reservations.get? refundId.val = some r) (live : r.isLive = true) :
      Effect u hash entry (.refund tokenHash refundId now) (.ok (.refunded true))
        (givenBack entry refundId r now)

theorem reserve_effect {access : AccessContext} {taskId : TaskId} {costUnits : Int}
    {userId : String} {videoCostUnits : Int} {now hash : String} {tokens : Tokens} {entry : Entry}
    (he : tokens hash = some entry) (hv : 3 ≤ entry.billingVersion) :
    let call := Call.reserve access taskId costUnits userId videoCostUnits now
    ∃ entry', (call.apply u b tokens).2 hash = some entry' ∧
      Effect u hash entry call (call.apply u b tokens).1 entry' := by
  intro call
  have stay (answer : Except BillingError Answer) : Effect u hash entry call answer entry :=
    .unmoved (.refl entry) fun _ => rfl
  simp only [call, Call.apply, reserveTempQuota]
  split
  · exact ⟨entry, he, stay _⟩
  split
  · exact ⟨entry, he, stay _⟩
  rename_i stored hstored
  split
  · exact ⟨entry, he, stay _⟩
  rename_i outcome changed hcharge
  by_cases hhash : access.tokenHash = hash
  · subst hhash
    obtain rfl : stored = entry := Option.some.inj (hstored.symm.trans he)
    rcases chargeTempQuota_cases hv hcharge with ⟨rfl, rfl⟩ | ⟨rfl, hnew, free, hcan, rfl⟩
    · refine ⟨changed, ?_, stay _⟩
      cases b with
      | jsonFile => exact he
      | postgres =>
        rcases answer_snd (b := .postgres) tokens access.tokenHash changed
          (getTempContextFromEntry u access.tokenHash changed) with hsnd | hsnd
        · simp only [hsnd, he]
        · simp only [hsnd, Function.update_self]
    · simp only
      rcases answer_snd (b := b) tokens access.tokenHash _
        (getTempContextFromEntry u access.tokenHash _) with hsnd | hsnd
      · rw [hsnd]
        exact ⟨stored, he, stay _⟩
      · rw [hsnd, answer_fst]
        exact ⟨_, Function.update_self .., .charged free rfl hnew hcan
          (context_ne_quotaExceeded _ _)⟩
  · refine ⟨entry, ?_, stay _⟩
    have hother : ∀ changed' : Entry,
        Function.update tokens access.tokenHash (some changed') hash = some entry :=
      fun _ => by rw [Function.update_of_ne (Ne.symm hhash), he]
    split
    · exact he
    · rcases answer_snd (b := b) tokens access.tokenHash changed
        (getTempContextFromEntry u access.tokenHash changed) with hsnd | hsnd
      · rw [hsnd, he]
      · rw [hsnd, hother]

theorem refund_effect {tokenHash : String} {refundId : TaskId} {now hash : String}
    {tokens : Tokens} {entry : Entry} (he : tokens hash = some entry)
    (hv : 3 ≤ entry.billingVersion) :
    let call := Call.refund tokenHash refundId now
    ∃ entry', (call.apply u b tokens).2 hash = some entry' ∧
      Effect u hash entry call (call.apply u b tokens).1 entry' := by
  intro call
  have stay : Effect u hash entry call (.ok (.refunded false)) entry :=
    .unmoved (.refl entry) fun _ => by simp [call, Call.givesBack]
  simp only [call, Call.apply, refundTempQuotaHash]
  split
  · exact ⟨entry, he, stay⟩
  split
  · exact ⟨entry, he, stay⟩
  rename_i stored hstored
  by_cases hhash : normalizeHash u tokenHash = hash
  · subst hhash
    obtain rfl : stored = entry := Option.some.inj (hstored.symm.trans he)
    rcases refundEntry_cases refundId now (le_trans (by decide) hv) with
      hsame | ⟨r, hget, hlive, hback⟩
    · rw [hsame]
      exact ⟨stored, he, stay⟩
    · rw [hback]
      exact ⟨_, Function.update_self .., .refunded r rfl hget hlive⟩
  · have hgives : ∀ answer id, call.givesBack u hash id answer = false := fun answer id => by
      simp [call, Call.givesBack, hhash]
    split
    · exact ⟨entry, he, .unmoved (.refl entry) (hgives _)⟩
    · exact ⟨entry, (Function.update_of_ne (Ne.symm hhash) _ _).trans he,
        .unmoved (.refl entry) (hgives _)⟩

/-- Every call has one of the three effects on the entry under `hash`. -/
theorem apply_effect (call : Call) {hash : String} {tokens : Tokens} {entry : Entry}
    (he : tokens hash = some entry) (hv : 3 ≤ entry.billingVersion) :
    ∃ entry', (call.apply u b tokens).2 hash = some entry' ∧
      Effect u hash entry call (call.apply u b tokens).1 entry' := by
  cases call with
  | reserve access taskId costUnits userId videoCostUnits now => exact reserve_effect he hv
  | refund tokenHash refundId now => exact refund_effect he hv
  | setBillingPriority tokenHash priority now =>
    simp only [Call.apply, setTempBillingPriority]
    split
    · exact ⟨entry, he, .unmoved (.refl entry) fun _ => rfl⟩
    · obtain ⟨entry', he', hsame⟩ := updateTempToken_cases (u := u) (b := b) he
      exact ⟨entry', he', .unmoved hsame fun _ => rfl⟩
  | update tokenHash changes now =>
    obtain ⟨entry', he', hsame⟩ := updateTempToken_cases (u := u) (b := b) he
    exact ⟨entry', he', .unmoved hsame fun _ => rfl⟩

section Effects

variable {hash : String} {entry entry' : Entry} {call : Call} {result : Except BillingError Answer}

theorem Effect.kept (h : Effect u hash entry call result entry') : Kept entry entry' := by
  cases h with
  | unmoved same _ => exact same.kept
  | @charged _ taskId _ _ _ _ _ _ _ fresh affordable _ =>
    exact charge_kept _ _ taskId.property fresh affordable
  | refunded r _ found live => exact givenBack_kept _ found live

theorem Effect.refused {message : String}
    (h : Effect u hash entry call (.error (.quotaExceeded message)) entry') :
    SameHoldings entry entry' := by
  cases h with
  | unmoved same _ => exact same.toSameHoldings
  | charged _ _ _ _ accepted => exact absurd rfl (accepted message)

theorem Effect.repeated {access : AccessContext} {taskId : TaskId} {costUnits : Int}
    {userId : String} {videoCostUnits : Int} {now : String}
    (h : Effect u hash entry (.reserve access taskId costUnits userId videoCostUnits now) result
      entry') (hlive : holdsLive entry taskId = true) : SameHoldings entry entry' := by
  cases h with
  | unmoved same _ => exact same.toSameHoldings
  | charged _ _ fresh _ _ => simp [holdsLive, fresh] at hlive

/-- A charge makes a reservation live, giving it back closes it. -/
theorem Effect.counted (h : Effect u hash entry call result entry') (id : String) :
    (call.givesBack u hash id result).toNat + (holdsLive entry' id).toNat =
      (call.takes hash id (some entry) (some entry')).toNat + (holdsLive entry id).toNat := by
  cases h with
  | unmoved same kept =>
    have htakes : call.takes hash id (some entry) (some entry') = false := by
      cases call <;> simp [Call.takes, same.balance]
    rw [kept id, htakes, same.holdsLive]
  | @charged access taskId _ userId _ now _ free token fresh affordable _ =>
    have hlt := balance_charge_lt userId now taskId.property affordable
    rw [holdsLive_charge _ _ taskId.property]
    by_cases hid : taskId.val = id
    · subst hid
      simp [Call.givesBack, Call.takes, token, hlt, holdsLive, fresh]
    · simp [Call.givesBack, Call.takes, hid]
  | @refunded _ refundId _ r token found live =>
    rw [holdsLive_givenBack]
    by_cases hid : refundId.val = id
    · subst hid
      simp [Call.givesBack, Call.takes, token, holdsLive, found, live]
    · simp [Call.givesBack, Call.takes, hid]

end Effects

/-! ### The law -/

/-- Conservation of the quota of the token `hash` over a sequence of calls that starts
at `entry`, and what the next call does to it. -/
structure QuotaConserved (u : Chars) (b : Backend) (hash : String) (tokens : Tokens)
    (entry : Entry) (calls : List Call) (entry' : Entry) : Prop where
  stored : run u b calls tokens hash = some entry'
  points : pointsHeld entry' = pointsHeld entry
  video : videoHeld entry' = videoHeld entry
  nonneg : NonNegative entry'
  /-- A reserve that raises `QuotaExceeded` changes neither balances nor reservations. -/
  refused : ∀ call message, (Call.apply u b (run u b calls tokens) call).1 =
      .error (.quotaExceeded message) →
    ∃ entry'', (Call.apply u b (run u b calls tokens) call).2 hash = some entry'' ∧
      SameHoldings entry' entry''
  /-- A repeated reserve of a live id charges nothing. -/
  repeated : ∀ access taskId costUnits userId videoCostUnits now,
    holdsLive entry' taskId.val = true →
    ∃ entry'', (Call.apply u b (run u b calls tokens)
        (.reserve access taskId costUnits userId videoCostUnits now)).2 hash = some entry'' ∧
      SameHoldings entry' entry''
  /-- Every reservation, of the start or charged since, is given back once or still live. -/
  givenBackOnce : ∀ id,
    (charges u b hash id calls tokens).2 + (holdsLive entry' id).toNat =
      (charges u b hash id calls tokens).1 + (holdsLive entry id).toNat

theorem run_kept (calls : List Call) {hash : String} {tokens : Tokens} {entry : Entry}
    (he : tokens hash = some entry) (hv : 3 ≤ entry.billingVersion) :
    ∃ entry', run u b calls tokens hash = some entry' ∧ Kept entry entry' ∧
      ∀ id, (charges u b hash id calls tokens).2 + (holdsLive entry' id).toNat =
        (charges u b hash id calls tokens).1 + (holdsLive entry id).toNat := by
  induction calls generalizing tokens entry with
  | nil => exact ⟨entry, he, .refl entry, fun _ => rfl⟩
  | cons call calls ih =>
    obtain ⟨middle, hmiddle, heffect⟩ := apply_effect (u := u) (b := b) call he hv
    have hkept := heffect.kept
    obtain ⟨entry', he', hrest, hcount⟩ := ih hmiddle (by rw [hkept.version]; exact hv)
    refine ⟨entry', he', hkept.trans hrest, fun id => ?_⟩
    have hstep := heffect.counted id
    have htail := hcount id
    simp only [charges, he, hmiddle]
    omega

/-- The quota of a token of version 3 is conserved by every sequence of calls. -/
theorem quota_conserved (calls : List Call) {hash : String} {tokens : Tokens} {entry : Entry}
    (he : tokens hash = some entry) (hv : entry.billingVersion = 3) (hn : NonNegative entry) :
    ∃ entry', QuotaConserved u b hash tokens entry calls entry' := by
  obtain ⟨entry', he', hkept, hcount⟩ := run_kept (u := u) (b := b) calls he (by omega)
  have hv' : 3 ≤ entry'.billingVersion := by rw [hkept.version]; omega
  refine ⟨entry', he', hkept.points, hkept.video, hkept.nonneg hn, ?_, ?_, hcount⟩
  · intro call message hrefused
    obtain ⟨entry'', he'', heffect⟩ := apply_effect (u := u) (b := b) call he' hv'
    rw [hrefused] at heffect
    exact ⟨entry'', he'', heffect.refused⟩
  · intro access taskId costUnits userId videoCostUnits now hlive
    obtain ⟨entry'', he'', heffect⟩ := apply_effect (u := u) (b := b)
      (.reserve access taskId costUnits userId videoCostUnits now) he' hv'
    exact ⟨entry'', he'', heffect.repeated hlive⟩

end Calls

/-! ### A token with both currencies -/

section Sample

def sampleEntry : Entry where
  token := "tmp_a"
  remark := ""
  note := ""
  billingVersion := 3
  creditUnits := 25
  videoQuotaUnits := some 10
  freeRemaining := some 10
  limit := 4
  used := 0
  concurrency := 1
  remoteGenerationLimit := 0
  taskRetentionDays := 7
  billingPriority := "video_first"
  reservations := .empty
  quotaRefundIds := []
  createdAt := "2025-01-01"
  updatedAt := ""

def sampleTokens : Tokens := Function.update (fun _ => none) "a" (some sampleEntry)

def sampleAccess : AccessContext :=
  ⟨"a", false, true, 4, 0, 4, 1, 1, 7, 10, 10, 25, "video_first"⟩

/-- One video from the quota, one from the points, a priority change and a repeated refund. -/
def sampleCalls : List Call :=
  [.reserve sampleAccess ⟨"t1", by decide⟩ 10 "user" 10 "2025-01-02",
    .reserve sampleAccess ⟨"t2", by decide⟩ 8 "user" 10 "2025-01-03",
    .setBillingPriority "a" "points_first" "2025-01-04",
    .refund "a" ⟨"t1", by decide⟩ "2025-01-05",
    .refund "a" ⟨"t1", by decide⟩ "2025-01-06"]

theorem quota_conserved_sample :
    ∃ entry', QuotaConserved .ascii .postgres "a" sampleTokens sampleEntry sampleCalls entry' :=
  quota_conserved sampleCalls (by rfl) (by rfl) ⟨by decide, fun units h => by
    cases h
    decide⟩

example : (run .ascii .postgres sampleCalls sampleTokens "a").map
    (fun entry => (entry.creditUnits, entryVideoQuotaUnits entry)) = some (17, 10) := by
  decide +kernel

end Sample

end FetchTask.TempAccess
