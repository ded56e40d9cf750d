import FetchTask.Lib.Dict
import FetchTask.Runtime
import Mathlib.Algebra.Order.Group.Int
import Mathlib.Algebra.Ring.Int.Defs
import Mathlib.Data.List.Sort

/-!
Temporary tokens and their billing (`app/temp_access.py`, `app/billing.py`).

A token entry has two balances, points and video quota, both in tenths, and a
reservation for each task that was charged. `reserveTempQuota` charges a task,
`refundTempQuotaHash` gives the charge back and closes the reservation, and old
closed reservations are pruned. Entries live in a table by token hash, either a
Postgres table with one transaction for each call or a JSON file that is
written at a point inside the call.

Amounts of points and of video quota are in tenths throughout, also where the
source keeps the number of points (`free_remaining`); time stamps are the
strings the source compares.
-/

namespace FetchTask.TempAccess

/-- Exceptions of the module, with their texts. -/
inductive BillingError
  | quotaExceeded (message : String)
  | valueError (message : String)
  | keyError (message : String)
  deriving DecidableEq

def pointScale : Int := 10
def tempTokenLimit : Int := 100
def tempTokenConcurrency : Int := 1
def maxTempTokenConcurrency : Int := 100
def maxRemoteGenerationLimit : Int := 999
def defaultTaskRetentionDays : Int := 7
def minTaskRetentionDays : Int := 1
def maxTaskRetentionDays : Int := 15
def videoFirst : String := "video_first"
def pointsFirst : String := "points_first"

inductive ReservationStatus
  | reserved
  | refunded
  deriving DecidableEq

structure Reservation where
  status : ReservationStatus
  free : Bool
  units : Nat
  /-- Missing on the reservations made before version 3. -/
  videoUnits : Option Nat
  userId : String
  createdAt : String
  refundedAt : String
  deriving DecidableEq

/-- A token entry. A number that is missing is `0` here, since the source reads it with `or`. -/
structure Entry where
  token : String
  remark : String
  note : String
  billingVersion : Int
  creditUnits : Int
  videoQuotaUnits : Option Int
  /-- In tenths; `none` stands for a stored value that is no nonnegative multiple of 0.1. -/
  freeRemaining : Option Nat
  limit : Int
  used : Int
  concurrency : Int
  remoteGenerationLimit : Int
  taskRetentionDays : Int
  billingPriority : String
  reservations : Dict String Reservation
  quotaRefundIds : List String
  createdAt : String
  updatedAt : String

structure AccessContext where
  tokenHash : String
  isAdmin : Bool
  isTemp : Bool
  limit : Int
  used : Int
  remaining : Int
  concurrency : Int
  remoteGenerationLimit : Int
  taskRetentionDays : Int
  /-- In tenths. -/
  freeRemaining : Int
  videoQuotaUnits : Int
  creditUnits : Int
  billingPriority : String

structure PublicToken where
  id : String
  token : String
  remark : String
  limit : Int
  used : Int
  remaining : Int
  freeRemaining : Int
  videoQuotaUnits : Int
  creditUnits : Int
  points : Int
  billingPriority : String
  concurrency : Int
  remoteGenerationLimit : Int
  taskRetentionDays : Int
  createdAt : String
  updatedAt : String

section Views

variable (u : Chars)

def normalizeBillingPriority (value : String) : Except BillingError String :=
  let priority := u.lower (u.strip (textOr value videoFirst))
  if priority = videoFirst ∨ priority = pointsFirst then .ok priority
  else .error (.valueError "扣费优先级无效")

def normalizeRetentionDays (value : Int) : Int :=
  max minTaskRetentionDays (min maxTaskRetentionDays (orDefault value defaultTaskRetentionDays))

def normalizeConcurrency (value : Int) : Int :=
  max 1 (min maxTempTokenConcurrency (orDefault value tempTokenConcurrency))

def normalizeRemoteGenerationLimit (entry : Entry) : Int :=
  if entry.remoteGenerationLimit = 0 then normalizeConcurrency entry.concurrency
  else max 1 (min maxRemoteGenerationLimit entry.remoteGenerationLimit)

def entryVideoQuotaUnits (entry : Entry) : Int :=
  match entry.videoQuotaUnits with
  | some units => max 0 units
  | none => (entry.freeRemaining.getD 0 : Nat)

def setEntryVideoQuotaUnits (entry : Entry) (units : Int) : Entry :=
  { entry with videoQuotaUnits := some (max 0 units), freeRemaining := some units.toNat }

/-- `(video_quota_units + credit_units + POINT_SCALE - 1) // POINT_SCALE`. -/
def combinedLimit (entry : Entry) : Int :=
  (entryVideoQuotaUnits entry + max 0 entry.creditUnits + pointScale - 1) / pointScale

def getTempContextFromEntry (tokenHash : String) (entry : Entry) :
    Except BillingError AccessContext :=
  match normalizeBillingPriority u entry.billingPriority with
  | .error e => .error e
  | .ok billingPriority => .ok
    { tokenHash, isAdmin := false, isTemp := true
      limit := combinedLimit entry
      used := 0
      remaining := combinedLimit entry
      concurrency := normalizeConcurrency entry.concurrency
      remoteGenerationLimit := normalizeRemoteGenerationLimit entry
      taskRetentionDays := normalizeRetentionDays entry.taskRetentionDays
      freeRemaining := entryVideoQuotaUnits entry
      videoQuotaUnits := entryVideoQuotaUnits entry
      creditUnits := max 0 entry.creditUnits
      billingPriority }

def publicToken (tokenHash : String) (entry : Entry) : Except BillingError PublicToken :=
  let limit := max 0 (orDefault entry.limit tempTokenLimit)
  let used := max 0 entry.used
  match normalizeBillingPriority u entry.billingPriority with
  | .error e => .error e
  | .ok billingPriority => .ok
    { id := tokenHash
      token := entry.token
      remark := takeText 100 (textOr entry.remark entry.note)
      limit, used
      remaining := max 0 (limit - used)
      freeRemaining := entryVideoQuotaUnits entry
      videoQuotaUnits := entryVideoQuotaUnits entry
      creditUnits := max 0 entry.creditUnits
      points := max 0 entry.creditUnits
      billingPriority
      concurrency := normalizeConcurrency entry.concurrency
      remoteGenerationLimit := normalizeRemoteGenerationLimit entry
      taskRetentionDays := normalizeRetentionDays entry.taskRetentionDays
      createdAt := entry.createdAt
      updatedAt := entry.updatedAt }

end Views

section EntryChanges

def syncLegacyFields (entry : Entry) : Entry :=
  let synced := setEntryVideoQuotaUnits entry (entryVideoQuotaUnits entry)
  { synced with limit := combinedLimit entry, used := 0 }

/-- The part of `_migrate_entry` for entries from before version 2; `freeLimit` is in tenths. -/
def migrateToSecond (entry : Entry) (freeLimit : Int) : Entry :=
  let normalizedLimit := max 0 (freeLimit.tdiv pointScale)
  let limit := max normalizedLimit (orDefault entry.limit normalizedLimit)
  let used := max 0 entry.used
  { entry with
    freeRemaining := some (max 0 (normalizedLimit - used) * pointScale).toNat
    creditUnits := max 0 (limit - max used normalizedLimit) * pointScale
    reservations := .empty }

def migrateEntry (entry : Entry) (freeLimit : Int) : Except BillingError Entry :=
  if 3 ≤ entry.billingVersion then .ok entry
  else
    let entry := if entry.billingVersion < 2 then migrateToSecond entry freeLimit else entry
    match entry.freeRemaining with
    | none => .error (.valueError "积分必须大于等于 0 且精确到 0.1")
    | some units =>
      .ok (syncLegacyFields { setEntryVideoQuotaUnits entry units with billingVersion := 3 })

def maxClosed : Nat := 1000

def Reservation.isLive (r : Reservation) : Bool := r.status == .reserved

/-- The sort key of a closed reservation. -/
def Reservation.closedAt (r : Reservation) : String :=
  textOr r.refundedAt r.createdAt

/-- The closed reservations, latest first; the sort is stable. -/
def closedReservations (reservations : Dict String Reservation) : List (String × Reservation) :=
  (reservations.items.filter fun p => !p.2.isLive).mergeSort
    fun p q => decide (q.2.closedAt ≤ p.2.closedAt)

theorem active_closed_perm (reservations : Dict String Reservation) :
    (reservations.items.filter (fun p => p.2.isLive) ++ closedReservations reservations).Perm
      reservations.items :=
  ((List.mergeSort_perm _ _).append_left _).trans (List.filter_append_perm _ _)

theorem pruned_sublist (reservations : Dict String Reservation) :
    (reservations.items.filter (fun p => p.2.isLive) ++
      (closedReservations reservations).take maxClosed).Sublist
      (reservations.items.filter (fun p => p.2.isLive) ++ closedReservations reservations) :=
  (List.take_sublist _ _).append_left _

/-- `_prune_reservations` on the dictionary of an entry. -/
def prunedReservations (reservations : Dict String Reservation) : Dict String Reservation :=
  if reservations.size ≤ maxClosed then reservations
  else
    { items := reservations.items.filter (fun p => p.2.isLive) ++
        (closedReservations reservations).take maxClosed
      nodup := ((pruned_sublist reservations).map Prod.fst).nodup
        (((active_closed_perm reservations).map Prod.fst).nodup_iff.mpr reservations.nodup) }

def pruneReservations (entry : Entry) : Entry :=
  { entry with reservations := prunedReservations entry.reservations }

end EntryChanges

/-! ### Reserving -/

section Reserve

variable (u : Chars)

/-- Whether the closure of `reserve_temp_quota` found the reservation or made it. -/
inductive Reserved
  | repeated
  | charged
  deriving DecidableEq

/-- `free_used`: the priority is looked at only when the video quota suffices. -/
def freeUsed (entry : Entry) (requiredUnits requiredVideoUnits : Int) : Except BillingError Bool :=
  if requiredVideoUnits ≤ entryVideoQuotaUnits entry then
    match normalizeBillingPriority u entry.billingPriority with
    | .error e => .error e
    | .ok priority => .ok !(priority == pointsFirst && decide (requiredUnits ≤ entry.creditUnits))
  else .ok false

/-- The entry once `requiredUnits` points or `requiredVideoUnits` of quota are taken from it. -/
def charge (entry : Entry) (taskId userId now : String) (free : Bool)
    (requiredUnits requiredVideoUnits : Int) : Entry :=
  let paid := if free then setEntryVideoQuotaUnits entry (entryVideoQuotaUnits entry - requiredVideoUnits)
    else { entry with creditUnits := entry.creditUnits - requiredUnits }
  let reservation : Reservation :=
    { status := .reserved, free
      units := if free then 0 else requiredUnits.toNat
      videoUnits := some (if free then requiredVideoUnits.toNat else 0)
      userId, createdAt := now, refundedAt := "" }
  let recorded := if taskId = "" then paid
    else { paid with reservations := paid.reservations.set taskId reservation }
  { syncLegacyFields (pruneReservations recorded) with updatedAt := now }

/-- The body of `reserve_temp_quota` on the entry, up to where the answer is built. -/
def chargeTempQuota (access : AccessContext) (taskId : String) (costUnits : Int) (userId : String)
    (videoCostUnits : Int) (now : String) (entry : Entry) :
    Except BillingError (Reserved × Entry) :=
  match migrateEntry entry access.freeRemaining with
  | .error e => .error e
  | .ok entry =>
    match if taskId = "" then none else entry.reservations.get? taskId with
    | some reservation =>
      if reservation.isLive then .ok (.repeated, entry)
      else .error (.quotaExceeded "task quota reservation is closed")
    | none =>
      let requiredUnits := max 1 costUnits
      let requiredVideoUnits := max 1 videoCostUnits
      match freeUsed u entry requiredUnits requiredVideoUnits with
      | .error e => .error e
      | .ok free =>
        if !free && decide (entry.creditUnits < requiredUnits) then
          .error (.quotaExceeded "temporary token quota exhausted")
        else .ok (.charged, charge entry taskId userId now free requiredUnits requiredVideoUnits)

end Reserve

/-! ### Refunding -/

/-- What `_record_reservation_refund` is given. -/
structure RefundTransaction where
  userId : String
  units : Int
  balanceUnits : Int
  videoQuotaChange : Int
  videoQuotaBalance : Int
  deriving DecidableEq

/-- The video quota a free reservation gives back: one video when it does not say. -/
def Reservation.refundVideoUnits (r : Reservation) : Int :=
  max 1 (orDefault (r.videoUnits.getD 0 : Nat) pointScale)

/-- Give a live reservation back to the balance it was taken from. -/
def creditBack (entry : Entry) (reservation : Reservation) : Entry :=
  if reservation.free then
    setEntryVideoQuotaUnits entry (entryVideoQuotaUnits entry + reservation.refundVideoUnits)
  else { entry with creditUnits := entry.creditUnits + reservation.units }

def refundTransaction (credited : Entry) (reservation : Reservation) : RefundTransaction where
  userId := reservation.userId
  units := if reservation.free then 0 else reservation.units
  balanceUnits := credited.creditUnits
  videoQuotaChange := if reservation.free then reservation.refundVideoUnits else 0
  videoQuotaBalance := entryVideoQuotaUnits credited

/-- The closure of `refund_temp_quota_hash`: whether it refunded, the transaction and the entry. -/
def refundEntry (refundId now : String) (entry : Entry) :
    Bool × Option RefundTransaction × Entry :=
  if 2 ≤ entry.billingVersion ∧ refundId ≠ "" then
    match entry.reservations.get? refundId with
    | none => (false, none, entry)
    | some reservation =>
      if reservation.isLive then
        let credited := creditBack entry reservation
        let refunded : Reservation := { reservation with status := .refunded, refundedAt := now }
        let closed :=
          { credited with reservations := credited.reservations.set refundId refunded }
        (true, some (refundTransaction credited reservation),
          { syncLegacyFields (pruneReservations closed) with updatedAt := now })
      else (false, none, entry)
  else
    -- Entries of version 1 only count uses.
    let refunded := entry.quotaRefundIds.filter (· ≠ "")
    if refundId ≠ "" ∧ refundId ∈ refunded then (false, none, entry)
    else
      let ids := refunded ++ [refundId]
      (true, none,
        { entry with
          used := max 0 (max 0 entry.used - 1)
          quotaRefundIds := if refundId = "" then entry.quotaRefundIds
            else ids.drop (ids.length - 1000)
          updatedAt := now })

/-! ### The table of tokens -/

/-- The token entries by hash. -/
abbrev Tokens := String → Option Entry

section Table

variable (u : Chars) (b : Backend)

/-- `str(token_hash or "").strip().lower()`. -/
def normalizeHash (tokenHash : String) : String := u.lower (u.strip tokenHash)

/-- Build the answer from the changed entry. Postgres keeps the change only when that
works too; the file has been written before. -/
def answer {α : Type} (tokens : Tokens) (tokenHash : String) (entry : Entry)
    (view : Except BillingError α) : Except BillingError α × Tokens :=
  match view, b with
  | .error e, .postgres => (.error e, tokens)
  | view, _ => (view, Function.update tokens tokenHash (some entry))

def reserveTempQuota (access : AccessContext) (taskId : String) (costUnits : Int)
    (userId : String) (videoCostUnits : Int) (now : String) (tokens : Tokens) :
    Except BillingError AccessContext × Tokens :=
  if !access.isTemp then (.ok access, tokens)
  else match tokens access.tokenHash with
  | none => (.error (.quotaExceeded "temporary token is invalid"), tokens)
  | some entry =>
    match chargeTempQuota u access taskId costUnits userId videoCostUnits now entry with
    | .error e => (.error e, tokens)
    | .ok (outcome, entry') =>
      let view := getTempContextFromEntry u access.tokenHash entry'
      match outcome, b with
      -- The file is not written for a reservation that is there already.
      | .repeated, .jsonFile => (view, tokens)
      | _, b => answer b tokens access.tokenHash entry' view

/-- Both backends write the entry back exactly when it was refunded. -/
def refundTempQuotaHash (tokenHash refundId now : String) (tokens : Tokens) :
    Bool × Option RefundTransaction × Tokens :=
  let tokenHash := normalizeHash u tokenHash
  if tokenHash = "" then (false, none, tokens)
  else match tokens tokenHash with
  | none => (false, none, tokens)
  | some entry =>
    match refundEntry refundId now entry with
    | (false, transaction, _) => (false, transaction, tokens)
    | (true, transaction, entry') =>
      (true, transaction, Function.update tokens tokenHash (some entry'))

/-- The keyword arguments of `update_temp_token`. -/
structure TokenUpdate where
  limit : Option Int := none
  concurrency : Option Int := none
  remoteGenerationLimit : Option Int := none
  remark : Option String := none
  taskRetentionDays : Option Int := none
  billingPriority : Option String := none

/-- The closure of `update_temp_token`, up to where the answer is built. -/
def updateEntry (changes : TokenUpdate) (now : String) (entry : Entry) :
    Except BillingError Entry :=
  let entry := { entry with
    limit := (changes.limit.map fun v => max 1 (min 100000 v)).getD entry.limit
    concurrency := (changes.concurrency.map fun v =>
      max 1 (min maxTempTokenConcurrency v)).getD entry.concurrency
    remoteGenerationLimit := (changes.remoteGenerationLimit.map fun v =>
      max 1 (min maxRemoteGenerationLimit v)).getD entry.remoteGenerationLimit
    taskRetentionDays :=
      (changes.taskRetentionDays.map normalizeRetentionDays).getD entry.taskRetentionDays
    remark := (changes.remark.map (takeText 100)).getD entry.remark
    updatedAt := now }
  match changes.billingPriority with
  | none => .ok entry
  | some value =>
    match normalizeBillingPriority u value with
    | .error e => .error e
    | .ok priority => .ok { entry with billingPriority := priority }

def updateTempToken (tokenHash : String) (changes : TokenUpdate) (now : String)
    (tokens : Tokens) : Except BillingError PublicToken × Tokens :=
  let tokenHash := normalizeHash u tokenHash
  match tokens tokenHash with
  | none => (.error (.keyError "token not found"), tokens)
  | some entry =>
    match updateEntry u changes now entry with
    | .error e => (.error e, tokens)
    | .ok entry' => answer b tokens tokenHash entry' (publicToken u tokenHash entry')

def setTempBillingPriority (tokenHash priority now : String) (tokens : Tokens) :
    Except BillingError PublicToken × Tokens :=
  match normalizeBillingPriority u priority with
  | .error e => (.error e, tokens)
  | .ok billingPriority =>
    updateTempToken u b tokenHash { billingPriority := some billingPriority } now tokens

/-- The closure of `add_temp_credit_units`, up to where the answer is built. -/
def addedCredit (units : Int) (now : String) (entry : Entry) : Except BillingError Entry :=
  match migrateEntry entry 0 with
  | .error e => .error e
  | .ok entry =>
    let entry := syncLegacyFields { entry with creditUnits := entry.creditUnits + units }
    .ok { entry with updatedAt := now }

def addTempCreditUnits (tokenHash : String) (units : Int) (now : String) (tokens : Tokens) :
    Except BillingError PublicToken × Tokens :=
  if units ≤ 0 then (.error (.valueError "积分必须大于0"), tokens)
  else
    let tokenHash := normalizeHash u tokenHash
    match tokens tokenHash with
    | none => (.error (.keyError "token not found"), tokens)
    | some entry =>
      match addedCredit units now entry with
      | .error e => (.error e, tokens)
      | .ok entry' => answer b tokens tokenHash entry' (publicToken u tokenHash entry')

end Table

end FetchTask.TempAccess
