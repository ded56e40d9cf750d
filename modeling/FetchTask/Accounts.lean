import FetchTask.Runtime
import Mathlib.Algebra.BigOperators.Group.List.Basic
import Mathlib.Algebra.Order.Group.Int
import Mathlib.Algebra.Ring.Int.Defs
import Mathlib.Data.List.Basic

/-!
Platform accounts and their quota ledgers (`app/accounts.py`).

An account has a default ledger, and a second one for AI Studio generations
whose charge ids start with `studio:`. A ledger caches the quota used; its base
and its list of charges say what that number should be, and
`reconcileAccountQuotas` repairs the cache. The two ledgers are kept under
different keys by copies of the same functions, which here are one function on
`Ledger` each.

The operations are the closures of the source applied to the first account with
the given id. They are the same on both backends, except that a file is not
written back when nothing was repaired (which differs for a negative stored
total only). Times and random tokens are arguments, and which account
`_select_account` picks is one too.
-/

namespace FetchTask.Accounts

def studioQuotaBucket : String := "qianwen_ai_studio"
def studioChargePrefix : String := "studio:"
def defaultStudioQuotaLimit : Int := 60
def defaultPlatform : String := "dola"
def supportedPlatforms : List String := ["dola", "doubao", "qianwen"]

def normalizePlatform (u : Chars) (value : String) : Except String String :=
  let platform := u.lower (u.strip (textOr value defaultPlatform))
  if platform ∈ supportedPlatforms then .ok platform else .error "invalid platform"

/-- A charge id; items without one are no charges, and nothing writes such items. -/
abbrev ChargeId := { id : String // id ≠ "" }

inductive ChargeStatus
  | charged
  | settled
  | refunded
  deriving DecidableEq

/-- An item of `quota_charges`; a missing number is `0` and a missing text is empty. -/
structure Charge where
  chargeId : ChargeId
  taskId : String := ""
  units : Int := 0
  status : ChargeStatus
  chargedAt : String := ""
  settledAt : String := ""
  settleReason : String := ""
  refundedAt : String := ""
  refundReason : String := ""
  source : String := ""
  deriving DecidableEq

structure Ledger where
  used : Int
  base : Int
  initialized : Bool
  charges : List Charge
  deriving DecidableEq

/-! ### Ledgers -/

def Charge.weight (c : Charge) : Int := max 1 (orDefault c.units 1)

/-- The status is `charged` or `settled`. -/
def Charge.isActive (c : Charge) : Bool := c.status != .refunded

/-- A charge with this id that can still be settled or refunded. -/
def Charge.isOpen (chargeId : String) (c : Charge) : Bool :=
  c.chargeId.val == chargeId && c.status == .charged

def activeUnits (charges : List Charge) : Int :=
  ((charges.filter Charge.isActive).map Charge.weight).sum

/-- `_reconciled_quota_used` and `_studio_reconciled_quota_used`. -/
def Ledger.reconciledQuotaUsed (l : Ledger) : Int := max 0 l.base + activeUnits l.charges

/-- `_initialize_quota_ledger` and `_initialize_studio_quota_ledger`. -/
def Ledger.initialize (l : Ledger) : Ledger :=
  if l.initialized then l else { l with base := max 0 l.used, initialized := true }

/-- The cached total, computed again. -/
def Ledger.recount (l : Ledger) : Ledger := { l with used := l.reconciledQuotaUsed }

/-- `_reconcile_account` on one ledger: whether it changed, and the ledger. -/
def Ledger.reconcile (l : Ledger) : Bool × Ledger :=
  if l.initialized then (decide (max 0 l.used ≠ l.reconciledQuotaUsed), l.recount) else (false, l)

/-- The ledger after a reset. -/
def Ledger.cleared : Ledger := { used := 0, base := 0, initialized := true, charges := [] }

def Ledger.addCharge (l : Ledger) (c : Charge) : Ledger :=
  let l := l.initialize
  { l with charges := l.charges ++ [c] }.recount

/-- Change the first open charge with this id. -/
def changeOpen (chargeId : String) (f : Charge → Charge) (charges : List Charge) : List Charge :=
  charges.replaceF fun c => if c.isOpen chargeId then some (f c) else none

/-- Change the first open charge with this id and recount; `none` when there is none. -/
def Ledger.close (l : Ledger) (chargeId : String) (f : Charge → Charge) : Option Ledger :=
  if l.charges.any (Charge.isOpen chargeId) then
    some { l with charges := changeOpen chargeId f l.charges }.recount
  else none

def Charge.refund (now : String) (c : Charge) : Charge :=
  { c with status := .refunded, refundedAt := now }

def Charge.settle (now : String) (c : Charge) : Charge :=
  { c with status := .settled, settledAt := now }

def Charge.refundInsufficient (now : String) (c : Charge) : Charge :=
  { c with status := .refunded, refundedAt := now, refundReason := "quota_insufficient" }

def Charge.settleTimedOut (now : String) (c : Charge) : Charge :=
  { c with
    status := .settled, settledAt := now, settleReason := "result_timeout"
    refundedAt := "", refundReason := "" }

/-- The charge with this id is settled whatever its status, and added when it is unknown. -/
def timedOutCharges (charges : List Charge) (chargeId : ChargeId) (now : String) : List Charge :=
  if charges.any (·.chargeId == chargeId) then
    charges.replaceF fun c => if c.chargeId = chargeId then some (c.settleTimedOut now) else none
  else charges ++ [{ chargeId, status := .settled, settledAt := now, settleReason := "result_timeout" }]

/-- The first charge with this id is refunded if it is open, and a refunded one is
added when the id is unknown (AI Studio only). -/
def insufficientCharges (charges : List Charge) (chargeId : ChargeId) (now : String) :
    List Charge :=
  if charges.any (·.chargeId == chargeId) then
    charges.replaceF fun c => if c.chargeId = chargeId then
      some (if c.status = .charged then c.refundInsufficient now else c) else none
  else charges ++ [{ chargeId, status := .refunded }]

/-- The base moves so that the active charges and it reach the limit. -/
def Ledger.fillUp (l : Ledger) (quotaLimit : Int) : Ledger :=
  let l := { l with base := max 0 (quotaLimit - activeUnits l.charges) }
  { l with used := max quotaLimit l.reconciledQuotaUsed }

/-! ### Accounts -/

structure Account where
  id : String
  name : String := ""
  /-- As stored; an empty text stands for `dola`. -/
  platform : String
  quotaLimit : Int
  quota : Ledger
  quotaExhaustedDate : String
  quotaResetDate : String
  quotaRefundIds : List String
  /-- `none` when the key is missing. -/
  studioQuotaLimit : Option Int
  studio : Ledger
  studioQuotaExhaustedDate : String
  studioQuotaResetDate : String
  creditSyncDate : String
  creditSyncedAt : String
  creditAvailableAtSync : Int
  creditUsedAtSync : Int
  creditSignIn : Int
  lastUsedWorkerId : String
  lastUsedAt : String
  currentTaskId : String
  currentWorkerId : String
  currentStartedAt : String
  currentQuotaChargeId : String
  updatedAt : String
  deriving DecidableEq

def Account.isQianwen (a : Account) : Bool :=
  textOr a.platform defaultPlatform == "qianwen"

def isStudioCharge (chargeId : String) : Bool := studioChargePrefix.toList.isPrefixOf chargeId.toList

def reconcileAccount (a : Account) : Bool × Account :=
  let (changed, quota) := a.quota.reconcile
  (changed, { a with quota })

def reconcileStudioQuota (a : Account) : Bool × Account :=
  if a.isQianwen then
    let (changed, studio) := a.studio.reconcile
    (changed, { a with studio })
  else (false, a)

/-- `_reconcile_account(account) or _reconcile_studio_quota(account)`, then the time stamp:
the second ledger is looked at only when the first needed no repair. -/
def reconcileBoth (now : String) (a : Account) : Bool × Account :=
  let (changed, a) := reconcileAccount a
  let (changed, a) := if changed then (true, a) else reconcileStudioQuota a
  (changed, if changed then { a with updatedAt := now } else a)

abbrev Table := List Account

section Operations

/-- Apply a closure to the first account with this id; `none` when there is none. -/
def mutateAccount {α : Type} (accountId : String) (f : Account → α × Account)
    (accounts : Table) : Option α × Table :=
  ((accounts.find? (·.id == accountId)).map fun a => (f a).1,
    accounts.replaceF fun a => if a.id = accountId then some (f a).2 else none)

structure Reconciled where
  checked : Nat
  repaired : Nat
  deriving DecidableEq

def reconcileAccountQuotas (now : String) (accounts : Table) : Reconciled × Table :=
  let results := accounts.map (reconcileBoth now)
  ({ checked := accounts.length, repaired := results.countP (·.1) }, results.map (·.2))

/-- What `claim_account_for_worker` adds to the account it returns. -/
structure Claimed where
  accountId : String
  quotaChargeId : String
  quotaCost : Int
  deriving DecidableEq

theorem append_ne_empty (a b c : String) (h : b ≠ "") : a ++ b ++ c ≠ "" := by
  simp [String.append_eq_empty_iff, h]

/-- The id of a new charge; `token` is the drawn `secrets.token_hex(8)`. -/
def newChargeId (studioQuota : Bool) (taskId token : String) : ChargeId :=
  ⟨(if studioQuota then studioChargePrefix else "") ++ (taskId ++ ":") ++ token,
    append_ne_empty _ _ _ (by simp [String.append_eq_empty_iff])⟩

structure ClaimRequest where
  workerId : String
  taskId : String
  platform : String
  quotaCost : Int
  quotaBucket : String

/-- The changes a claim makes to the account that was selected. -/
def chargeAccount (request : ClaimRequest) (studioQuota : Bool) (token now : String)
    (a : Account) : Claimed × Account :=
  let quotaCost := max 1 (orDefault request.quotaCost 1)
  let chargeId := newChargeId studioQuota request.taskId token
  let charge : Charge :=
    { chargeId, taskId := request.taskId, units := quotaCost, status := .charged, chargedAt := now }
  let a := if studioQuota then { a with studio := a.studio.addCharge charge }
    else { a with quota := a.quota.addCharge charge }
  ({ accountId := a.id, quotaChargeId := chargeId, quotaCost },
    { a with
      lastUsedWorkerId := request.workerId, lastUsedAt := now
      currentTaskId := request.taskId, currentWorkerId := request.workerId
      currentStartedAt := now, currentQuotaChargeId := chargeId, updatedAt := now })

/-- `selected` is the account that `_select_account` picks. -/
def claimAccountForWorker (u : Chars) (request : ClaimRequest) (selected : Option String)
    (token now : String) (accounts : Table) : Except String (Option Claimed) × Table :=
  match normalizePlatform u request.platform with
  | .error e => (.error e, accounts)
  | .ok platform =>
    let studioQuota := platform == "qianwen" && request.quotaBucket == studioQuotaBucket
    match selected with
    | none => (.ok none, accounts)
    | some accountId =>
      let (claimed, accounts) :=
        mutateAccount accountId (chargeAccount request studioQuota token now) accounts
      (.ok claimed, accounts)

def markAccountUsed (accountId workerId taskId now : String) (accounts : Table) : Table :=
  if accountId = "" then accounts
  else (mutateAccount accountId (fun a => ((),
    { a with
      lastUsedWorkerId := workerId, lastUsedAt := now, currentTaskId := taskId
      currentWorkerId := workerId, currentStartedAt := now
      quota := { a.quota with used := max 0 a.quota.used + 1 }, updatedAt := now })) accounts).2

/-- The closure of `refund_account_quota`. -/
def refundQuota (refundId now : String) (a : Account) : Bool × Account :=
  if isStudioCharge refundId then
    if a.studio.initialized then
      match a.studio.close refundId (Charge.refund now) with
      | some studio => (true, { a with studio, updatedAt := now })
      | none => (false, a)
    else (false, a)
  else if a.quota.initialized then
    match a.quota.close refundId (Charge.refund now) with
    | some quota => (true, { a with quota, updatedAt := now })
    | none => (false, a)
  else
    -- Before the ledger an account only counted its uses.
    let refunded := a.quotaRefundIds.filter (· ≠ "")
    if refundId ≠ "" ∧ refundId ∈ refunded then (false, a)
    else
      let ids := refunded ++ [refundId]
      (true,
        { a with
          quota := { a.quota with used := max 0 (a.quota.used - 1) }
          quotaRefundIds := if refundId = "" then a.quotaRefundIds else ids.drop (ids.length - 1000)
          updatedAt := now })

def refundAccountQuota (accountId refundId now : String) (accounts : Table) : Bool × Table :=
  if accountId = "" then (false, accounts)
  else
    let (result, accounts) := mutateAccount accountId (refundQuota refundId now) accounts
    (result.getD false, accounts)

/-- The closure of `settle_account_quota`. -/
def settleQuota (chargeId now : String) (a : Account) : Bool × Account :=
  if isStudioCharge chargeId then
    match a.studio.close chargeId (Charge.settle now) with
    | some studio => (true, { a with studio, updatedAt := now })
    | none => (false, a)
  else
    match a.quota.close chargeId (Charge.settle now) with
    | some quota => (true, { a with quota, updatedAt := now })
    | none => (false, a)

def settleAccountQuota (accountId chargeId now : String) (accounts : Table) : Bool × Table :=
  if accountId = "" ∨ chargeId = "" then (false, accounts)
  else
    let (result, accounts) := mutateAccount accountId (settleQuota chargeId now) accounts
    (result.getD false, accounts)

def Account.studioLimit (a : Account) : Int :=
  max 1 (orDefault (a.studioQuotaLimit.getD defaultStudioQuotaLimit) 1)

/-- The closure of `_exhaust_studio_account_quota` with `timed_out=True`. -/
def exhaustStudioTimedOut (chargeId : ChargeId) (now today : String) (a : Account) :
    Bool × Account :=
  let studio := a.studio.initialize
  let studio := { studio with charges := timedOutCharges studio.charges chargeId now }
  (true,
    { a with
      studioQuotaLimit := some a.studioLimit
      studio := { studio with used := max 1 studio.reconciledQuotaUsed }
      studioQuotaExhaustedDate := today, updatedAt := now })

/-- The closure of `_exhaust_studio_account_quota` with `timed_out=False`. -/
def exhaustStudioQuota (chargeId : ChargeId) (now today : String) (a : Account) : Bool × Account :=
  let studio := a.studio.initialize
  let studio := { studio with charges := insufficientCharges studio.charges chargeId now }
  (true,
    { a with
      studioQuotaLimit := some a.studioLimit
      studio := studio.fillUp a.studioLimit
      studioQuotaExhaustedDate := today, updatedAt := now })

/-- The closure of `exhaust_timed_out_account`. -/
def exhaustTimedOut (chargeId now today : String) (a : Account) : Bool × Account :=
  let quota := if h : chargeId = "" then { a.quota with used := max 1 a.quota.used }
    else
      let quota := a.quota.initialize
      { quota with charges := timedOutCharges quota.charges ⟨chargeId, h⟩ now }.recount
  (true, { a with quota, quotaExhaustedDate := today, updatedAt := now })

def exhaustTimedOutAccount (accountId chargeId now today : String) (accounts : Table) :
    Bool × Table :=
  if accountId = "" then (false, accounts)
  else if h : chargeId ≠ "" ∧ isStudioCharge chargeId then
    let (result, accounts) :=
      mutateAccount accountId (exhaustStudioTimedOut ⟨chargeId, h.1⟩ now today) accounts
    (result.getD false, accounts)
  else
    let (result, accounts) := mutateAccount accountId (exhaustTimedOut chargeId now today) accounts
    (result.getD false, accounts)

def Account.limit (a : Account) : Int := max 1 (orDefault a.quotaLimit 1)

/-- The closure of `exhaust_account_quota`. -/
def exhaustQuota (chargeId now today : String) (a : Account) : Bool × Account :=
  let quota := if chargeId ≠ "" ∧ a.quota.initialized then
      let charges := changeOpen chargeId (Charge.refundInsufficient now) a.quota.charges
      { a.quota with charges }.fillUp a.limit
    else { a.quota with used := max a.limit a.quota.used }
  (true, { a with quotaLimit := a.limit, quota, quotaExhaustedDate := today, updatedAt := now })

def exhaustAccountQuota (accountId chargeId now today : String) (accounts : Table) :
    Bool × Table :=
  if accountId = "" then (false, accounts)
  else if h : chargeId ≠ "" ∧ isStudioCharge chargeId then
    let (result, accounts) :=
      mutateAccount accountId (exhaustStudioQuota ⟨chargeId, h.1⟩ now today) accounts
    (result.getD false, accounts)
  else
    let (result, accounts) := mutateAccount accountId (exhaustQuota chargeId now today) accounts
    (result.getD false, accounts)

def clearAccountCurrentTask (accountId taskId now : String) (accounts : Table) : Table :=
  if accountId = "" then accounts
  else (mutateAccount accountId (fun a => ((),
    if taskId ≠ "" ∧ a.currentTaskId ≠ taskId then a
    else { a with
      currentTaskId := "", currentWorkerId := "", currentStartedAt := ""
      currentQuotaChargeId := "", updatedAt := now })) accounts).2

/-- The changes of `reset_account_quota`. -/
def resetQuota (now : String) (a : Account) : Account :=
  { a with
    quota := .cleared, quotaExhaustedDate := ""
    studio := if a.isQianwen then .cleared else a.studio
    studioQuotaExhaustedDate := if a.isQianwen then "" else a.studioQuotaExhaustedDate
    updatedAt := now }

def resetAccountQuota (u : Chars) (accountId now : String) (accounts : Table) :
    Except String Account × Table :=
  let accountId := u.lower (u.strip accountId)
  let (result, accounts) :=
    mutateAccount accountId (fun a => (resetQuota now a, resetQuota now a)) accounts
  (result.elim (.error "account not found") .ok, accounts)

/-- The loop body of `reset_daily_account_quotas_if_needed`. -/
def resetDaily (now today : String) (a : Account) : Bool × Account :=
  if a.quotaResetDate = today then reconcileBoth now a
  else (true,
    { resetQuota now a with
      quotaResetDate := today
      studioQuotaResetDate := if a.isQianwen then today else a.studioQuotaResetDate })

def resetDailyAccountQuotasIfNeeded (now today : String) (accounts : Table) : Bool × Table :=
  let results := accounts.map (resetDaily now today)
  (results.any (·.1), results.map (·.2))

/-- What is still charged under the id of the first charge that has it. -/
def pendingUnits (charges : List Charge) (chargeId : String) : Int :=
  match charges.find? (·.chargeId.val == chargeId) with
  | some c => if c.status = .charged then c.weight else 0
  | none => 0

/-- The closure of `sync_qianwen_ai_studio_credit` on a qianwen account. -/
def syncCredit (totalAmount signInAmount : Int) (pendingChargeId now today : String)
    (a : Account) : Account :=
  let available := max 0 totalAmount
  let studio := a.studio.initialize
  let pending := pendingUnits studio.charges pendingChargeId
  let usedBeforePending := max 0 (studio.reconciledQuotaUsed - pending)
  { a with
    studioQuotaLimit := some (usedBeforePending + available)
    studio := studio.recount
    creditSyncDate := today
    creditSyncedAt := now
    creditAvailableAtSync := available
    creditUsedAtSync := usedBeforePending
    creditSignIn := max 0 signInAmount
    studioQuotaExhaustedDate := if pending ≤ available then "" else a.studioQuotaExhaustedDate
    updatedAt := now }

def syncQianwenAiStudioCredit (u : Chars) (accountId : String) (totalAmount signInAmount : Int)
    (pendingChargeId now today : String) (accounts : Table) :
    Except String Account × Table :=
  let accountId := u.lower (u.strip accountId)
  let (result, accounts) := mutateAccount accountId (fun a =>
    if a.isQianwen then
      let a := syncCredit totalAmount signInAmount pendingChargeId now today a
      (Except.ok a, a)
    else (.error "AI Studio credit is only available for qianwen accounts", a)) accounts
  (result.getD (.error "account not found"), accounts)

end Operations

end FetchTask.Accounts
