import Mathlib.Algebra.Order.Ring.Unbundled.Rat
import Mathlib.Data.List.MinMax
import Mathlib.Data.Prod.Lex
import Mathlib.Data.String.Basic

/-!
The membership records of a user (`app/users.py`).

A user may own several memberships. At most one is active and its time runs from
the stamp `activated_at`; the others are paused and keep the seconds they have
left. `_sync_membership_state` brings the records of a user up to a time: it
expires what has run out, activates the record of the highest rank and writes the
field `membership`, which the rest of the program reads.

Instants are in microseconds, `none` where the stored text is empty or no date;
seconds are exact. A field that is missing is empty or `0`, as the source reads
it with `or`.
-/

namespace FetchTask.Memberships

/-! ### Points -/

/-- An amount of points as it is stored. -/
inductive Points
  | missing
  | number (q : Rat)
  | invalid
  deriving DecidableEq

def pointScale : Rat := 10

/-- `points_to_units`; `none` is its error. -/
def pointsToUnits : Points → Option Int
  | .number q => if q ≤ 0 ∨ (q * pointScale).den ≠ 1 then none else some (q * pointScale).num
  | _ => none

/-- `nonnegative_points_to_units`. -/
def nonnegativePointsToUnits : Points → Option Int
  | .number q => if q < 0 ∨ (q * pointScale).den ≠ 1 then none else some (q * pointScale).num
  | _ => none

/-- `units_to_points`. -/
def unitsToPoints (units : Int) : Points := .number (max 0 units / pointScale)

/-- `points or 0.1`. -/
def Points.orTenth : Points → Points
  | .missing => .number (1 / 10)
  | .number q => if q = 0 then .number (1 / 10) else .number q
  | .invalid => .invalid

/-! ### Records -/

/-- The texts of `status`; `other` stands for every other text, and for none. -/
inductive RecordStatus
  | active
  | paused
  | expired
  | other
  deriving DecidableEq

structure Record where
  id : String := ""
  packageId : String := ""
  name : String := ""
  pointsCost : Points := .missing
  pointsCostUnits : Option Int := none
  durationDays : Int := 0
  remainingSeconds : Rat := 0
  status : RecordStatus := .other
  activatedAt : Option Int := none
  purchasedAt : String := ""
  concurrency : Int := 0
  concurrencyBonus : Int := 0
  bonusFreeUses : Int := 0
  taskDiscountPoints : Points := .missing
  deriving DecidableEq

/-- The field `membership` of a user. -/
structure Membership extends Record where
  expiresAt : Option Int := none
  effectiveConcurrency : Int := 0
  purchasedPackageIds : List String := []
  deriving DecidableEq

structure Entry where
  memberships : List Record := []
  membership : Option Membership := none
  deriving DecidableEq

def microseconds : Rat := 1000000

/-- `(end - start).total_seconds()`. -/
def secondsBetween (start finish : Int) : Rat := ((finish - start : Int) : Rat) / microseconds

def Record.isActive (r : Record) : Bool := r.status == .active

/-- `_membership_remaining_seconds`. -/
def Record.remainingAt (now : Int) (r : Record) : Rat :=
  let remaining := max 0 r.remainingSeconds
  if r.status ≠ .active then remaining
  else
    match r.activatedAt with
    | some activatedAt => max 0 (remaining - max 0 (secondsBetween activatedAt now))
    | none => remaining

/-- `_membership_rank`: dearer first, then bought later. -/
def Record.rank (r : Record) : Lex (Int × String) :=
  toLex ((pointsToUnits r.pointsCost.orTenth).getD 0, r.purchasedAt)

/-- What a record without an id or a date of purchase is given. -/
structure Defaults where
  token : String
  now : String

/-- `_normalize_membership_record`. -/
def normalize (d : Defaults) (r : Record) : Record :=
  let cost := match r.pointsCostUnits with
    | some units => unitsToPoints (max 0 units)
    | none => r.pointsCost
  { id := if r.id = "" then d.token else r.id
    packageId := r.packageId
    name := if r.name = "" then "会员" else r.name
    pointsCost := ((pointsToUnits cost.orTenth).map unitsToPoints).getD (.number 0)
    durationDays := max 1 r.durationDays
    remainingSeconds := max 0 r.remainingSeconds
    status := if r.status = .other then .paused else r.status
    activatedAt := r.activatedAt
    purchasedAt := if r.purchasedAt = "" then d.now else r.purchasedAt
    concurrency := max 0 (if r.concurrency = 0 then r.concurrencyBonus else r.concurrency)
    bonusFreeUses := max 0 r.bonusFreeUses
    taskDiscountPoints :=
      let discount := if r.taskDiscountPoints = .missing then .number (1 / 10)
        else r.taskDiscountPoints
      ((nonnegativePointsToUnits discount).map unitsToPoints).getD (.number 0) }

/-- `round` of the language: a half goes to the even number. -/
def roundHalfEven (q : Rat) : Int :=
  let below := q.floor
  let part := q - below
  if part < 1 / 2 then below
  else if 1 / 2 < part then below + 1
  else if below % 2 = 0 then below else below + 1

/-- The record of a user from before there were records. -/
def migrate (d : Defaults) (now : Int) (legacy : Membership) : Record :=
  let remaining := match legacy.expiresAt with
    | some expiresAt => max 0 (secondsBetween now expiresAt)
    | none => 0
  let days := max 1 (roundHalfEven (remaining / 86400))
  normalize d
    { legacy.toRecord with
      remainingSeconds := remaining
      durationDays := max 1 (if legacy.durationDays = 0 then days else legacy.durationDays)
      status := if 0 < remaining then .active else .expired
      activatedAt := if 0 < remaining then some now else none }

/-- The records that the pass starts with. -/
def startRecords (d : Nat → Defaults) (now : Int) (e : Entry) : List Record :=
  match e.memberships.mapIdx fun i r => normalize (d i) r with
  | [] => (e.membership.map (migrate (d 0) now)).toList
  | records => records

/-! ### The pass -/

/-- The first active record, with its place. -/
def firstActive (records : List Record) : Option (Record × Nat) :=
  records.zipIdx.find? fun p => p.1.isActive

def expire (r : Record) : Record :=
  { r with remainingSeconds := 0, status := .expired, activatedAt := none }

def pause (now : Int) (r : Record) : Record :=
  { r with remainingSeconds := r.remainingAt now, status := .paused, activatedAt := none }

def activate (now : Int) (r : Record) : Record :=
  { r with status := .active, activatedAt := some now }

def Record.eligible (now : Int) (r : Record) : Bool :=
  r.status != .expired && decide (0 < r.remainingAt now)

/-- The order of the numbers, as it is computed. -/
local instance (priority := 2000) preorderInt : Preorder Int :=
  Int.instLinearOrder.toPartialOrder.toPreorder

/-- The place of the first eligible record of the highest rank. -/
def highest (now : Int) (records : List Record) : Option Nat :=
  ((records.zipIdx.filter fun p => p.1.eligible now).argmax fun p => p.1.rank).map Prod.snd

/-- The loop once the active record, if there is one, has time left. -/
def choose (now : Int) (active : Option Nat) (records : List Record) : List Record :=
  match highest now records with
  | none => records
  | some j =>
    if active = some j then records
    else
      let records := match active with
        | some i => records.modify i (pause now)
        | none => records
      records.modify j (activate now)

theorem getElem?_of_firstActive {records : List Record} {r : Record} {i : Nat}
    (h : firstActive records = some (r, i)) : records[i]? = some r ∧ r.isActive = true := by
  have hmem : (r, i) ∈ records.zipIdx := List.mem_of_find?_eq_some h
  have hactive := List.find?_some (p := fun p : Record × Nat => p.1.isActive) h
  exact ⟨List.mk_mem_zipIdx_iff_getElem?.mp hmem, hactive⟩

/-- Expiring an active record leaves one active record less. -/
theorem countP_expire {records : List Record} {r : Record} {i : Nat}
    (h : firstActive records = some (r, i)) :
    (records.modify i expire).countP Record.isActive < records.countP Record.isActive := by
  obtain ⟨hat, hactive⟩ := getElem?_of_firstActive h
  obtain ⟨hlt, hget⟩ := List.getElem?_eq_some_iff.mp hat
  have hsplit : records.take i ++ records[i] :: records.drop (i + 1) = records := by simp
  rw [List.modify_eq_take_cons_drop hlt]
  conv_rhs => rw [← hsplit]
  have hexpired : (expire r).isActive = false := rfl
  simp only [List.countP_append, List.countP_cons, hget, hactive, hexpired]
  simp

/-- The loop: while the active record has run out, it is expired and the loop goes on. -/
def settle (now : Int) (records : List Record) : List Record :=
  match _h : firstActive records with
  | some (active, i) =>
    if active.remainingAt now ≤ 0 then settle now (records.modify i expire)
    else choose now (some i) records
  | none => choose now none records
termination_by records.countP Record.isActive
decreasing_by exact countP_expire _h

/-- After the loop everything unexpired but the active record is paused. -/
def pauseOthers (records : List Record) : List Record :=
  let active := (firstActive records).map Prod.snd
  records.mapIdx fun i r =>
    if active = some i ∨ r.status = .expired then r
    else { r with status := .paused, activatedAt := none }

/-- `_membership_concurrency`. -/
def membershipConcurrency (r : Record) : Int :=
  let own := if r.concurrency = 0 then r.concurrencyBonus else r.concurrency
  max 1 (min 100 (if own = 0 then 1 else own))

/-- What is written to the field `membership`. -/
def publish (now : Int) (records : List Record) (active : Record) : Membership :=
  { active with
    expiresAt :=
      some (active.activatedAt.getD now + roundHalfEven (active.remainingSeconds * microseconds))
    effectiveConcurrency := membershipConcurrency active
    purchasedPackageIds :=
      (records.filter fun r => r.status != .expired && r.packageId != "").map Record.packageId }

/-- `_sync_membership_state`: the entry that it leaves; it returns the field `membership`. -/
def syncMembershipState (d : Nat → Defaults) (now : Int) (e : Entry) : Entry :=
  let records := pauseOthers (settle now (startRecords d now e))
  { memberships := records
    membership := (firstActive records).map fun p => publish now records p.1 }

end FetchTask.Memberships
