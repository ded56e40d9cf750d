import Mathlib.Data.Prod.Lex
import FetchTask.Lib.Runs
import FetchTask.Memberships.TwoPasses
import FetchTask.TempAccess.Writers

/-!
Buying memberships (`app/users.py`, `app/membership_catalog.py`).

A purchase takes the points from the entry of the user's token, and adds the
video quota to it, before it writes the record of the user; it also writes the
number of concurrent tasks to the entry. These are separate writes, and each of
them can fail. What else works on the memberships of a user brings them up to
the time, and may write the number of concurrent tasks too.

All this runs under one lock. A purchase reads the time just before it takes the
lock, here it reads it when it has it, as the other calls do. One user is
followed, with its entry among the tokens; other calls change the tokens in
between.
-/

namespace FetchTask.Purchases

open Memberships Runs
open TempAccess (Amount BillingError Tokens)

/-! ### The catalog -/

/-- A package as it is stored. -/
structure RawPackage where
  id : String
  name : String
  pointsCost : Points
  price : Points
  durationDays : Int
  concurrency : Int
  bonusFreeUses : Int
  taskDiscountPoints : Points
  enabled : Bool
  sortOrder : Int
  createdAt : String

/-- A package that passed the checks of `_normalize`; points are in tenths. -/
structure Package where
  id : String
  name : String
  costUnits : Int
  durationDays : Int
  concurrency : Int
  bonusFreeUses : Int
  taskDiscountUnits : Int
  enabled : Bool
  sortOrder : Int
  createdAt : String
  costUnits_pos : 0 < costUnits
  durationDays_range : 1 ≤ durationDays ∧ durationDays ≤ 3650
  concurrency_range : 1 ≤ concurrency ∧ concurrency ≤ 100
  bonusFreeUses_range : 0 ≤ bonusFreeUses ∧ bonusFreeUses ≤ 1000000

def nameEmpty : String := "会员套餐名称不能为空"
def pointsMalformed : String := "积分必须为正数且精确到0.1"
def discountMalformed : String := "积分必须大于等于 0 且精确到 0.1"
def termInvalid : String := "会员积分或有效期无效"
def concurrencyInvalid : String := "会员并发数量需为 1-100"
def bonusInvalid : String := "赠送视频额度需为 0-1000000"

structure Setting where
  chars : Chars
  backend : Backend
  /-- `datetime.isoformat()` of an instant in microseconds. -/
  isoformat : Int → String

variable (S : Setting)

theorem between_of_not {least most x : Int} (h : ¬(x < least ∨ x > most)) : least ≤ x ∧ x ≤ most := by
  omega

/-- `_normalize`; `token` and `now` are what a package without an id or a date is given. -/
def normalizePackage (token now : String) (item : RawPackage) : Except String Package :=
  let name := takeText 80 (S.chars.strip item.name)
  let rawPointsCost := if item.pointsCost = .missing then
      (if item.price = .missing ∨ item.price = .number 0 then .number 1 else item.price)
    else item.pointsCost
  let rawTaskDiscount := if item.taskDiscountPoints = .missing then .number (1 / 10)
    else item.taskDiscountPoints
  let concurrency := orDefault item.concurrency 1
  if name = "" then .error nameEmpty
  else match h : pointsToUnits rawPointsCost with
  | none => .error pointsMalformed
  | some costUnits =>
    match nonnegativePointsToUnits rawTaskDiscount with
    | none => .error discountMalformed
    | some taskDiscountUnits =>
      if hdays : ¬(item.durationDays < 1 ∨ item.durationDays > 3650) then
        if hconcurrency : ¬(concurrency < 1 ∨ concurrency > 100) then
          if hbonus : ¬(item.bonusFreeUses < 0 ∨ item.bonusFreeUses > 1000000) then
            .ok
              { id := textOr item.id token, name, costUnits
                durationDays := item.durationDays, concurrency
                bonusFreeUses := item.bonusFreeUses, taskDiscountUnits
                enabled := item.enabled, sortOrder := item.sortOrder
                createdAt := textOr item.createdAt now
                costUnits_pos := pointsToUnits_pos h
                durationDays_range := between_of_not hdays
                concurrency_range := between_of_not hconcurrency
                bonusFreeUses_range := between_of_not hbonus }
          else .error bonusInvalid
        else .error concurrencyInvalid
      else .error termInvalid

/-- `list_memberships`; `draws` are given to packages without an id or a date. -/
def listMemberships (includeDisabled : Bool) (draws : Defaults) (rows : List RawPackage) :
    Except String (List Package) :=
  (rows.mapM (normalizePackage S draws.token draws.now)).map fun packages =>
    (packages.filter fun item => includeDisabled || item.enabled).mergeSort fun p q =>
      decide (p.sortOrder < q.sortOrder ∨ p.sortOrder = q.sortOrder ∧ p.createdAt ≤ q.createdAt)

def getMembership (packageId : String) (draws : Defaults) (rows : List RawPackage) :
    Option Package :=
  match listMemberships S false draws rows with
  | .ok packages => packages.find? (·.id == packageId)
  | .error _ => none

/-! ### The user -/

/-- The record of a user, as far as memberships go. -/
structure Member extends Entry where
  tokenHash : String
  freeLimit : Int
  baseConcurrency : Int
  effectiveConcurrency : Int
  /-- Whether `membership_concurrency_mode` is set. -/
  reconciled : Bool
  updatedAt : String

/-- What a purchase takes and gives: tenths of points and of video quota. -/
structure Payment where
  packageId : String
  units : Int
  quotaUnits : Int
  deriving DecidableEq

structure State where
  member : Member
  tokens : Tokens
  clock : Int
  /-- What the purchases have taken from the entry and added to it, in turn. -/
  payments : List Payment

/-- `_reconcile_membership_concurrency`; of packages with one id the last counts. -/
def reconcileMembershipConcurrency (packages : List Package) (member : Member) : Member :=
  if member.reconciled then member
  else
    let known := packages.foldl (fun d p => d.set p.id p) (Dict.empty : Dict String Package)
    { member with
      memberships := member.memberships.map fun r =>
        match known.get? r.packageId with
        | none => r
        | some package => { r with concurrency := max 1 (min 100 (orDefault package.concurrency 1)) }
      reconciled := true }

/-- `_sync_membership_state` on the record of the user. -/
def Member.sync (d : Nat → Defaults) (now : Int) (member : Member) : Member :=
  { member with toEntry := syncMembershipState d now member.toEntry }

/-- The concurrency of the entry, as the functions here read it. -/
def tokenConcurrency (tokenHash : String) (tokens : Tokens) : Except BillingError Int :=
  match S.backend with
  | .postgres => (TempAccess.getTempContextByHash S.chars tokenHash tokens).map fun context =>
    (context.map (·.concurrency)).getD 1
  | .jsonFile =>
    match tokens tokenHash with
    | none => .ok 1
    | some entry => (TempAccess.publicToken S.chars tokenHash entry).map fun token =>
      max 1 (orDefault token.concurrency 1)

/-- `int(entry.get("base_concurrency") or token_concurrency or 1)`, at least 1. -/
def Member.base (member : Member) (tokenConcurrency : Int) : Int :=
  max 1 (orDefault (orDefault member.baseConcurrency tokenConcurrency) 1)

/-- The effective concurrency of a record that has been brought up to the time. -/
def Member.effective (member : Member) (base : Int) : Int :=
  (member.membership.map fun active => membershipConcurrency active.toRecord).getD base

/-! ### A purchase -/

def boughtAlready : String := "当前会员有效期内，该会员套餐只能购买一次"
def highestOwned : String := "最高级会员有效期内不能购买其他会员套餐"

/-- `max(…, default=0)` of numbers that are not negative. -/
def greatest (values : List Int) : Int := values.foldl max 0

/-- Why a package is not sold to a user with these records. -/
def refusal (now : Int) (package : Package) (catalog : List Package) (records : List Record) :
    Option String :=
  let activeRecords := records.filter (Record.eligible now)
  let highestPrice := greatest (catalog.map Package.costUnits)
  let owned := greatest (activeRecords.map fun r => (pointsToUnits r.pointsCost.orTenth).getD 0)
  if activeRecords.any (·.packageId == package.id) then some boughtAlready
  else if !activeRecords.isEmpty && decide (highestPrice ≤ owned) && decide (0 < highestPrice) then
    some highestOwned
  else none

/-- The record that is added. -/
def Package.record (package : Package) (id : String) (now : Int) : Record where
  id := id
  packageId := package.id
  name := textOr package.name "会员"
  pointsCost := unitsToPoints package.costUnits
  durationDays := orDefault package.durationDays 1
  remainingSeconds := orDefault package.durationDays 1 * 86400
  status := .paused
  concurrency := max 1 (min 100 (orDefault package.concurrency 1))
  bonusFreeUses := package.bonusFreeUses
  taskDiscountPoints := unitsToPoints package.taskDiscountUnits
  purchasedAt := S.isoformat now

/-- Where a storage operation raises. -/
structure Faults where
  tokenWrite : Bool := false
  concurrencyWrite : Bool := false
  userWrite : Bool := false

/-- What a purchase reads and draws: the catalog at its three readings, the id of the new record,
what records without an id or a date are given in the two passes, and the time at the writes. -/
structure Readings where
  shown : List RawPackage
  known : List RawPackage
  catalog : List RawPackage
  draws : Defaults
  id : String
  first : Nat → Defaults
  second : Nat → Defaults
  now : String

/-- Tenths of points in an entry, and of video quota, once it is migrated. -/
def held (tokenHash : String) (freeLimit : Int) (tokens : Tokens) : Int × Int :=
  match (tokens (TempAccess.normalizeHash S.chars tokenHash)).map
      fun entry => TempAccess.migrateEntry entry freeLimit with
  | some (.ok entry) => (entry.creditUnits, TempAccess.entryVideoQuotaUnits entry)
  | _ => (0, 0)

/-- The payment that leads from some tokens to others. -/
def paymentOf (package : Package) (member : Member) (tokens tokens' : Tokens) : Payment :=
  let before := held S member.tokenHash (max 1 (orDefault member.freeLimit 1)) tokens
  let after := held S member.tokenHash (max 1 (orDefault member.freeLimit 1)) tokens'
  ⟨package.id, before.1 - after.1, after.2 - before.2⟩

/-- The record of the user with the new membership, before its concurrency is written. -/
def Member.withMembership (package : Package) (reads : Readings) (now base : Int)
    (member : Member) : Member :=
  Member.sync reads.second now
    { member with
      memberships := member.memberships ++ [package.record S reads.id now]
      reconciled := true
      baseConcurrency := base }

/-- The part of a purchase that works on the entry: `purchase_temp_membership`. -/
def takePoints (package : Package) (reads : Readings) (member : Member) (tokens : Tokens) :
    Except BillingError TempAccess.PublicToken × Tokens :=
  TempAccess.purchaseTempMembership S.chars member.tokenHash (max 1 (orDefault member.freeLimit 1))
    (.tenths package.costUnits) package.bonusFreeUses
    (max 1 (min 100 (orDefault package.concurrency 1))) reads.now tokens

/-- The user up to the time, and the base concurrency, when the package is sold. -/
def accepted (package : Package) (reads : Readings) (now : Int) (s : State) : Option (Member × Int) :=
  match tokenConcurrency S s.member.tokenHash s.tokens, listMemberships S true reads.draws reads.known,
      listMemberships S false reads.draws reads.catalog with
  | .ok concurrency, .ok known, .ok catalog =>
    let base := s.member.base concurrency
    let member := (reconcileMembershipConcurrency known s.member).sync reads.first now
    if (refusal now package catalog member.memberships).isNone then some (member, base) else none
  | _, _, _ => none

/-- `purchase_user_membership` of a package that is on offer. A call that raises leaves the record
of the user as it was, but not the tokens. -/
def purchaseUserMembership (package : Package) (reads : Readings) (now : Int) (faults : Faults)
    (s : State) : State :=
  match accepted S package reads now s with
  | none => s
  | some (member, base) =>
    if faults.tokenWrite then s
    else
      match takePoints S package reads member s.tokens with
      | (.error _, tokens) => { s with tokens }
      | (.ok _, tokens) =>
        let paid := { s with
          tokens, payments := s.payments ++ [paymentOf S package member s.tokens tokens] }
        let member := member.withMembership S package reads now base
        let effective := member.effective base
        if faults.concurrencyWrite then paid
        else
          match TempAccess.updateTempToken S.chars S.backend member.tokenHash
              { concurrency := some effective } reads.now tokens with
          | (.error _, tokens) => { paid with tokens }
          | (.ok _, tokens) =>
            if faults.userWrite then { paid with tokens }
            else { paid with
              tokens
              member := { member with effectiveConcurrency := effective, updatedAt := reads.now } }

/-! ### The other calls -/

/-- What `sync_user_membership_by_token_hash` would write: the record, and whether it is written. -/
def synced (known : List Package) (d : Nat → Defaults) (now : Int) (concurrency : Int) (text : String)
    (member : Member) : Member × Bool :=
  let member' := (reconcileMembershipConcurrency known member).sync d now
  let base := member'.base concurrency
  let effective := member'.effective base
  let same := member.reconciled && decide (member'.toEntry = member.toEntry) &&
    decide (member.effectiveConcurrency = effective) && decide (concurrency = effective) &&
    decide (member.baseConcurrency ≠ 0)
  ({ member' with effectiveConcurrency := effective, baseConcurrency := base, updatedAt := text }, !same)

/-- A database writes the record and then the entry, where files are written the other way. -/
def syncUserMembership (known : List RawPackage) (draws : Defaults) (d : Nat → Defaults)
    (text : String) (now : Int) (faults : Faults) (s : State) : State :=
  match tokenConcurrency S s.member.tokenHash s.tokens, listMemberships S true draws known with
  | .ok concurrency, .ok known =>
    let concurrency := max 1 concurrency
    let (member, changed) := synced known d now concurrency text s.member
    let update := TempAccess.updateTempToken S.chars S.backend s.member.tokenHash
      { concurrency := some member.effectiveConcurrency } text s.tokens
    if !changed then s
    else
      match S.backend with
      | .postgres =>
        if faults.userWrite then s
        else if concurrency = member.effectiveConcurrency ∨ faults.concurrencyWrite = true then
          { s with member }
        else { s with member, tokens := update.2 }
      | .jsonFile =>
        if faults.concurrencyWrite then s
        else match update with
        | (.error _, tokens) => { s with tokens }
        | (.ok _, tokens) => if faults.userWrite then { s with tokens } else { s with member, tokens }
  | _, _ => s

/-- A reader that brings the memberships up to the time, and may write them when they changed:
`membership_task_discount_units_by_token_hash` (files only) and `list_users`. -/
def look (writes : Bool) (d : Nat → Defaults) (now : Int) (s : State) : State :=
  if writes then { s with member := s.member.sync d now } else s

/-- Give the first membership with an id this concurrency. -/
def setConcurrencyOf (id : String) (concurrency : Int) : List Record → List Record
  | [] => []
  | r :: rest =>
    if r.id = id then { r with concurrency } :: rest else r :: setConcurrencyOf id concurrency rest

/-- The record of the user in `_set_effective_concurrency`, and the effective concurrency. -/
def withConcurrency (concurrency : Int) (d d' : Nat → Defaults) (now : Int) (member : Member) :
    Member × Int :=
  let requested := max 1 (min 100 concurrency)
  let member := member.sync d now
  match member.membership with
  | some active =>
    let member := Member.sync d' now
      { member with memberships := setConcurrencyOf active.id requested member.memberships }
    (member, member.effective 1)
  | none => ({ member with baseConcurrency := requested }, requested)

/-- `set_user_concurrency` and `set_user_concurrency_by_token_hash`. -/
def setUserConcurrency (concurrency : Int) (d d' : Nat → Defaults) (text : String) (now : Int)
    (faults : Faults) (s : State) : State :=
  let (member, effective) := withConcurrency concurrency d d' now s.member
  if faults.concurrencyWrite then s
  else
    match TempAccess.updateTempToken S.chars S.backend member.tokenHash
        { concurrency := some effective } text s.tokens with
    | (.error _, tokens) => { s with tokens }
    | (.ok _, tokens) =>
      if faults.userWrite then { s with tokens }
      else { s with
        tokens, member := { member with effectiveConcurrency := effective, updatedAt := text } }

/-! ### Runs -/

/-- Each call comes some microseconds after the one before it. -/
inductive Event
  | purchase (wait : Nat) (packageId : String) (reads : Readings) (faults : Faults)
  | sync (wait : Nat) (known : List RawPackage) (draws : Defaults) (d : Nat → Defaults)
    (text : String) (faults : Faults)
  | look (wait : Nat) (writes : Bool) (d : Nat → Defaults)
  | setConcurrency (wait : Nat) (concurrency : Int) (d d' : Nat → Defaults) (text : String)
    (faults : Faults)
  | tokens (wait : Nat) (tokens : Tokens)

def Event.wait : Event → Nat
  | .purchase wait .. | .sync wait .. | .look wait .. | .setConcurrency wait .. | .tokens wait _ => wait

/-- What a call does at the time it reads. -/
def act (now : Int) : Event → State → State
  | .purchase _ packageId reads faults, s =>
    match getMembership S packageId reads.draws reads.shown with
    | none => s
    | some package => purchaseUserMembership S package reads now faults s
  | .sync _ known draws d text faults, s => syncUserMembership S known draws d text now faults s
  | .look _ writes d, s => look writes d now s
  | .setConcurrency _ concurrency d d' text faults, s =>
    setUserConcurrency S concurrency d d' text now faults s
  | .tokens _ tokens, s => { s with tokens }

def step (e : Event) (s : State) : State :=
  let now := s.clock + e.wait
  { act S now e s with clock := now }

/-- A user who has bought nothing. -/
def start (tokenHash : String) (freeLimit baseConcurrency effectiveConcurrency : Int)
    (tokens : Tokens) (clock : Int) : State where
  member :=
    { tokenHash, freeLimit, baseConcurrency, effectiveConcurrency
      reconciled := false, updatedAt := "" }
  tokens := tokens
  clock := clock
  payments := []

end FetchTask.Purchases
