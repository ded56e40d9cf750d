import FetchTask.Lib.Counts
import FetchTask.Runtime
import Mathlib.Algebra.GroupWithZero.Nat
import Mathlib.Data.List.Sort
import Mathlib.Data.String.Basic

/-!
The daily cleanup of flagged accounts and the history of what it deletes
(`cleanup_flagged_accounts`, `app/accounts.py`).

Dates are the texts of `isoformat`, which are compared as texts. What a time
stamp says of the local date is a parameter, and so are the character tables.
The counts of the history are never negative, since nothing else writes them.
-/

namespace FetchTask.AccountCleanup

open Counts

def defaultPlatform : String := "dola"
def platforms : List String := ["dola", "doubao", "qianwen"]

/-- `AUTO_DELETE_ACCOUNT_STATUSES`, sorted. -/
def autoDeleteStatuses : List String := ["abnormal", "slider_verification"]
def doubaoAutoDeleteStatuses : List String := ["abnormal", "region_restricted"]
def doubaoAutoResetStatuses : List String := ["slider_verification"]

/-- What the cleanup reads and writes of an account; `none` is a missing key. -/
structure Account where
  id : String
  platform : String := ""
  enabled : Bool := true
  accountStatus : String := ""
  statusReason : String := ""
  disabledReason : Option String := none
  accountStatusMarkedAt : Option String := none
  sliderVerificationDate : Option String := none
  sliderVerificationStreak : Option Int := none
  cooldownUntil : Option String := none
  cooldownReason : Option String := none
  currentTaskId : String := ""
  currentWorkerId : String := ""
  currentStartedAt : String := ""
  updatedAt : String := ""
  deriving DecidableEq

/-- The local time of a run. -/
structure Moment where
  today : String
  dayBefore : String
  hour : Nat
  runAt : String

def Moment.cutoffDate (m : Moment) : String := if 23 ≤ m.hour then m.today else m.dayBefore

/-- The tables of the language: the character methods, `\d`, and the local date of a time stamp,
`none` where `fromisoformat` refuses it. -/
structure Texts where
  chars : Chars
  isDecimal : Char → Bool
  localDate : String → Option String

section Fate

variable (u : Texts)

/-- `\d{4}-\d{2}-\d{2}`. -/
def isDateText (text : String) : Bool :=
  match text.toList with
  | [y₁, y₂, y₃, y₄, '-', m₁, m₂, '-', d₁, d₂] =>
    [y₁, y₂, y₃, y₄, m₁, m₂, d₁, d₂].all u.isDecimal
  | _ => false

/-- `raw.replace("Z", "+00:00")`. -/
def spellOutZone (raw : String) : String :=
  String.ofList (raw.toList.flatMap fun c => if c = 'Z' then "+00:00".toList else [c])

/-- `_account_status_marked_date`. -/
def statusMarkedDate (a : Account) : String :=
  let sliderDate := u.chars.strip (a.sliderVerificationDate.getD "")
  if isDateText u sliderDate then sliderDate
  else
    let raw := u.chars.strip (a.accountStatusMarkedAt.getD "")
    if raw = "" then "" else (u.localDate (spellOutZone raw)).getD ""

/-- What a run does with an account. -/
inductive Fate
  | kept
  | held
  | restored
  | removed
  deriving DecidableEq

def fate (m : Moment) (a : Account) : Fate :=
  let status := textOr a.accountStatus "normal"
  let platform := textOr a.platform defaultPlatform
  let deleteStatuses := if platform = "doubao" then doubaoAutoDeleteStatuses else autoDeleteStatuses
  let resetStatuses := if platform = "doubao" then doubaoAutoResetStatuses else []
  if status ∉ deleteStatuses ∧ status ∉ resetStatuses then .kept
  else
    let markedDate := statusMarkedDate u a
    if ¬ (markedDate ≠ "" ∧ markedDate ≤ m.cutoffDate ∨ markedDate = "" ∧ 23 ≤ m.hour) then .kept
    else if a.currentTaskId ≠ "" then .held
    else if status ∈ resetStatuses then .restored
    else .removed

/-- The account as a reset leaves it. -/
def Account.restore (runAt : String) (a : Account) : Account :=
  { a with
    enabled := true, accountStatus := "normal", statusReason := ""
    currentTaskId := "", currentWorkerId := "", currentStartedAt := "", updatedAt := runAt
    disabledReason := none, accountStatusMarkedAt := none, sliderVerificationDate := none
    sliderVerificationStreak := none, cooldownUntil := none, cooldownReason := none }

/-- The accounts of one fate, in order. -/
def ofFate (m : Moment) (f : Fate) (accounts : List Account) : List Account :=
  accounts.filter fun a => fate u m a = f

/-- The accounts after a run. -/
def remaining (m : Moment) (accounts : List Account) : List Account :=
  (accounts.filter fun a => fate u m a ≠ .removed).map fun a =>
    if fate u m a = .restored then a.restore m.runAt else a

end Fate

/-! ### The history -/

structure DayEntry where
  date : String
  total : Nat := 0
  byStatus : Dict String Nat
  byPlatform : Dict String Nat
  runs : Nat := 0
  skippedActive : Nat := 0
  lastRunAt : String := ""

def DayEntry.fresh (date : String) : DayEntry :=
  { date, byStatus := zeros autoDeleteStatuses, byPlatform := zeros platforms }

def keptDays : Nat := 180

/-- The statuses that a run counts, and the platforms. -/
def runStatuses (removed : List Account) : Dict String Nat :=
  countBy autoDeleteStatuses (removed.map fun a => textOr a.accountStatus "abnormal")

def runPlatforms (removed : List Account) : Dict String Nat :=
  countBy platforms (removed.map fun a => textOr a.platform defaultPlatform)

/-- The entry of a day after one more run. -/
def DayEntry.record (removed : List Account) (skippedActive : Nat) (runAt : String)
    (entry : DayEntry) : DayEntry :=
  { date := entry.date
    total := entry.total + removed.length
    byStatus := addTo entry.byStatus (runStatuses removed)
    byPlatform := addTo entry.byPlatform (runPlatforms removed)
    runs := entry.runs + 1
    skippedActive
    lastRunAt := runAt }

def DayEntry.newer (a b : DayEntry) : Prop := b.date ≤ a.date

instance : DecidableRel DayEntry.newer := fun a b => inferInstanceAs (Decidable (b.date ≤ a.date))

/-- `sorted(days, key=date, reverse=True)[:180]`. -/
def latestDays (days : List DayEntry) : List DayEntry :=
  (days.insertionSort DayEntry.newer).take keptDays

/-- `_record_account_deletion_history`: the entry of the day and the history. -/
def recordAccountDeletionHistory (cleanupDate : String) (removed : List Account)
    (skippedActive : Nat) (runAt : String) (days : List DayEntry) : DayEntry × List DayEntry :=
  let entry := (days.find? (·.date == cleanupDate)).getD (.fresh cleanupDate)
  let recorded := entry.record removed skippedActive runAt
  let days := if days.any (·.date == cleanupDate) then
      days.replaceF fun day => if day.date = cleanupDate then some recorded else none
    else days ++ [recorded]
  (recorded, latestDays days)

/-! ### A run -/

structure Report where
  date : String
  removed : Nat
  removedIds : List String
  byStatus : List (String × Nat)
  restored : Nat
  restoredIds : List String
  skippedActive : Nat
  history : Option DayEntry

/-- Whether a run is recorded. -/
def shouldRecord (u : Texts) (m : Moment) (accounts : List Account) : Bool :=
  decide (23 ≤ m.hour) || !(ofFate u m .removed accounts).isEmpty

/-- `cleanup_flagged_accounts`: what it reports, the accounts and the history. -/
def cleanupFlaggedAccounts (u : Texts) (m : Moment) (accounts : List Account)
    (days : List DayEntry) : Report × List Account × List DayEntry :=
  let removed := ofFate u m .removed accounts
  let restored := ofFate u m .restored accounts
  let skippedActive := (ofFate u m .held accounts).length
  let recorded := if shouldRecord u m accounts then
      let (entry, days) := recordAccountDeletionHistory m.today removed skippedActive m.runAt days
      (some entry, days)
    else (none, days)
  let statuses := autoDeleteStatuses ++ removed.map fun a => textOr a.accountStatus "abnormal"
  ({ date := m.today
     removed := removed.length
     removedIds := removed.map Account.id
     byStatus := (statuses.dedup.insertionSort (· ≤ ·)).map fun status =>
       (status, removed.countP fun a => a.accountStatus == status)
     restored := restored.length
     restoredIds := restored.map Account.id
     skippedActive
     history := recorded.1 },
    remaining u m accounts, recorded.2)

/-! ### Runs -/

/-- A run, at any time and over any accounts. -/
structure Run where
  moment : Moment
  accounts : List Account

/-- The history, and every account that was removed with the date of its run. -/
structure World where
  days : List DayEntry := []
  removed : List (String × Account) := []

def step (u : Texts) (r : Run) (w : World) : World where
  days := (cleanupFlaggedAccounts u r.moment r.accounts w.days).2.2
  removed := w.removed ++
    (ofFate u r.moment .removed r.accounts).map fun a => (r.moment.today, a)

end FetchTask.AccountCleanup
