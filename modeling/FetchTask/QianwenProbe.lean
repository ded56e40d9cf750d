import FetchTask.Accounts.Credit
import FetchTask.Lib.Offload

/-!
The probe of the Qianwen accounts (`app/qianwen_probe.py`).

`_run_once` lists the accounts and goes through them: it claims an account for
maintenance, probes it, and clears the current task of the account in the end. The
calls on the accounts run in helper threads, and `stop_now` cancels the run
wherever it waits. What `_probe_account` does to accounts it does through calls
that others make too, so here a probe is a wait for its result; whether it
collects credit makes no difference. The times of the status are left out.
-/

namespace FetchTask.QianwenProbe

open Accounts

/-! ### Accounts, and what others do to them -/

def probeWorkerId : String := "qianwen-probe"

/-- The task that stands in an account claimed by `workerId` for maintenance. -/
def maintenanceTask (workerId : String) : String := "maintenance:" ++ workerId

/-- `maintenance_id` of `_run_once`. -/
def maintenanceId : String := "maintenance:qianwen-probe"

/-- The accounts; their ids are drawn at random. -/
structure Store where
  accounts : Table
  distinct : (accounts.map (·.id)).Nodup

/-- The account is leased by the probe. -/
def Store.Leased (s : Store) (accountId : String) : Prop :=
  ∃ a ∈ s.accounts, a.id = accountId ∧ a.currentTaskId = maintenanceId

instance Store.Leased.decidable (s : Store) (accountId : String) : Decidable (s.Leased accountId) :=
  inferInstanceAs (Decidable (∃ a ∈ s.accounts, a.id = accountId ∧ a.currentTaskId = maintenanceId))

theorem mutateAccount_ids {α : Type} {f : Account → α × Account} (hid : ∀ a, (f a).2.id = a.id)
    (accountId : String) (accounts : Table) :
    (mutateAccount accountId f accounts).2.map (·.id) = accounts.map (·.id) := by
  unfold mutateAccount
  induction accounts with
  | nil => rfl
  | cons a accounts ih =>
    by_cases ha : a.id = accountId
    · simp [ha, hid a]
    · simpa [ha] using ih

def Store.mutate {α : Type} (accountId : String) (f : Account → α × Account)
    (hid : ∀ a, (f a).2.id = a.id) (s : Store) : Option α × Store :=
  ((mutateAccount accountId f s.accounts).1,
    ⟨(mutateAccount accountId f s.accounts).2, by
      rw [mutateAccount_ids hid]
      exact s.distinct⟩)

/-- Something that others do to the accounts: the probe's task is not one of theirs. -/
structure Operation where
  apply : Store → Store
  leaves : ∀ s accountId, (apply s).Leased accountId → s.Leased accountId

/-! ### The calls of the probe -/

/-- What a call on the accounts finds besides what the model's accounts have. -/
structure Circumstances where
  now : String
  today : String
  /-- The account is enabled, and its status is `normal`. -/
  normal : Account → Bool
  /-- The account has cookies and is not cooling down. -/
  usable : Account → Bool
  /-- Which account comes first for `_select_account`. -/
  pick : Nat
  /-- The call raises before it has written anything. -/
  failure : Option String

/-- An account of `list_accounts`, as far as the probe reads it. -/
structure Row where
  id : String
  name : String
  normal : Bool
  deriving DecidableEq

def listAccounts (u : Chars) (platform : String) (c : Circumstances) (accounts : Table) :
    Except String (List Row) := do
  let targetPlatform ← normalizePlatform u platform
  let accounts := accounts.filter fun a => textOr a.platform defaultPlatform == targetPlatform
  pure (accounts.map fun a => { id := a.id, name := a.name, normal := c.normal a })

/-- `_select_account` with its defaults for the cost, the duration, the mode and the bucket. -/
def selectAccount (u : Chars) (workerId platform preferredId : String) (excludeIds : List String)
    (c : Circumstances) (accounts : Table) : Except String (Option Account) := do
  let targetPlatform ← normalizePlatform u platform
  let preferredId := u.lower (u.strip preferredId)
  let request : ClaimRequest :=
    { workerId, taskId := maintenanceTask workerId, platform, quotaCost := 1, quotaBucket := "default" }
  let enabledAccounts := accounts.filter fun a =>
    c.normal a && a.id ∉ excludeIds && (preferredId == "" || a.id == preferredId) &&
      c.usable a && selectable targetPlatform request c.today a
  pure enabledAccounts[c.pick % enabledAccounts.length]?

/-- The changes that `claim_account_for_maintenance` makes to the account that was selected. -/
def leaseAccount (workerId now : String) (a : Account) : Account :=
  { a with
    currentTaskId := maintenanceTask workerId, currentWorkerId := workerId
    currentStartedAt := now, updatedAt := now }

/-- The id of the account that was claimed, and the accounts. -/
def claimAccountForMaintenance (u : Chars) (workerId platform preferredId : String)
    (excludeIds : List String) (c : Circumstances) (s : Store) :
    Except String (Option String) × Store :=
  match selectAccount u workerId platform preferredId excludeIds c s.accounts with
  | .error e => (.error e, s)
  | .ok none => (.ok none, s)
  | .ok (some selected) =>
    (.ok (some selected.id),
      (s.mutate selected.id (fun a => ((), leaseAccount workerId c.now a)) fun _ => rfl).2)

/-- `clear_account_current_task` keeps the ids. -/
theorem clearAccountCurrentTask_ids (accountId taskId now : String) (accounts : Table) :
    (clearAccountCurrentTask accountId taskId now accounts).map (·.id) = accounts.map (·.id) := by
  unfold clearAccountCurrentTask
  split
  · rfl
  · refine mutateAccount_ids (fun a => ?_) accountId accounts
    dsimp only
    split <;> rfl

def clearCurrentTask (accountId taskId now : String) (s : Store) : Store :=
  ⟨clearAccountCurrentTask accountId taskId now s.accounts, by
    rw [clearAccountCurrentTask_ids]
    exact s.distinct⟩

inductive Call
  | list
  | claim (accountId : String) (excludeIds : List String)
  | clear (accountId taskId : String)

abbrev sig : Sig where
  Op := Call
  Res
    | .list => Except String (List Row)
    | .claim .. => Except String (Option String)
    | .clear .. => Except String Unit

/-- A call raises before it has written anything, or gives its result. -/
def Circumstances.attempt {α : Type} (c : Circumstances) (s : Store)
    (result : Except String α × Store) : Except String α × Store :=
  match c.failure with
  | some e => (.error e, s)
  | none => result

def handle (u : Chars) : Handler sig Store Circumstances
  | c, .list, s => c.attempt s (listAccounts u "qianwen" c s.accounts, s)
  | c, .claim accountId excludeIds, s =>
    c.attempt s (claimAccountForMaintenance u probeWorkerId "qianwen" accountId excludeIds c s)
  | c, .clear accountId taskId, s => c.attempt s (.ok (), clearCurrentTask accountId taskId c.now s)

/-! ### A run -/

/-- The status that the manager shows. -/
structure Status where
  running : Bool := false
  total : Nat := 0
  completed : Nat := 0
  success : Nat := 0
  failed : Nat := 0
  creditFailed : Nat := 0
  skipped : Nat := 0
  currentAccountId : String := ""
  currentAccountName : String := ""
  currentState : String := ""
  lastReason : String := ""

structure ProbeResult where
  ok : Bool
  creditOk : Option Bool
  reason : String

/-- The update at the start of a run over `total` accounts. -/
def Status.started (total : Nat) (_ : Status) : Status :=
  { running := true, total, currentState := "准备测活" }

def Status.checking (item : Row) (s : Status) : Status :=
  { s with
    currentAccountId := item.id, currentAccountName := textOr item.name item.id
    currentState := "检查登录状态" }

def Status.skip (s : Status) : Status :=
  { s with skipped := s.skipped + 1, completed := s.completed + 1 }

/-- What a probe returned, or the text of the exception that it raised. -/
def Status.count (result : Except String ProbeResult) (s : Status) : Status :=
  match result with
  | .ok result =>
    if result.ok then
      let s := { s with success := s.success + 1 }
      if result.creditOk = some false then
        { s with
          creditFailed := s.creditFailed + 1
          lastReason := takeText 240 (textOr result.reason "积分同步失败") }
      else s
    else
      { s with failed := s.failed + 1, lastReason := takeText 240 (textOr result.reason "测活失败") }
  | .error text => { s with failed := s.failed + 1, lastReason := takeText 240 text }

def Status.complete (s : Status) : Status := { s with completed := s.completed + 1 }

/-- The outer `finally`. -/
def Status.finished (s : Status) : Status :=
  { s with
    running := false, currentAccountId := "", currentAccountName := ""
    currentState := if s.total ≤ s.completed then "已完成" else "已停止" }

/-- The outer `except asyncio.CancelledError`, and the `finally`. -/
def Status.stopped (s : Status) : Status := { s with lastReason := "管理员停止测活" }.finished

abbrev Routine := Coro sig (Except String ProbeResult) Status

/-- The run ends with an exception, or at the end of its accounts. -/
def finish : Routine := .tell .finished .ret

/-- The run ends because it was cancelled. -/
def stopped : Routine := .tell .stopped .ret

/-- The inner `finally`, and what comes after it. -/
def clearThen (accountId : String) (next : Routine) : Routine :=
  .offload (.clear accountId maintenanceId)
    (fun cleared : Except String Unit =>
      match cleared with
      | .error _ => finish
      | .ok () => next)
    stopped

/-- The loop of `_run_once`. -/
def probeAccounts : List Row → List String → Routine
  | [], _ => finish
  | item :: rest, processed =>
    if item.id = "" then probeAccounts rest processed
    else .tell (.checking item) <| .offload (.claim item.id processed)
      (fun account : Except String (Option String) =>
        match account with
        | .error _ => finish
        | .ok none => .tell .skip (probeAccounts rest (item.id :: processed))
        | .ok (some _) =>
          .wait
            (fun result => .tell (.count result) <|
              clearThen item.id (.tell .complete (probeAccounts rest (item.id :: processed))))
            -- `CancelledError` passes through the clean-up.
            (clearThen item.id stopped))
      stopped

def runOnce : Routine :=
  .offload .list
    (fun accountRows : Except String (List Row) =>
      match accountRows with
      | .error _ => .ret
      | .ok accountRows =>
        let accounts := accountRows.filter (·.normal)
        .tell (.started accounts.length) (probeAccounts accounts []))
    .ret

/-! ### The manager -/

/-- The accounts, the status, the run, and the helper threads of runs that were cancelled. -/
abbrev Manager := Host sig (Except String ProbeResult) Status Store

/-- `start` is `start_now`, and `cancel` is the cancellation of `stop_now`. -/
abbrev Step := Event Unit Circumstances (Except String ProbeResult) Operation

def Manager.new (s : Store) : Manager := { shared := s, notes := {}, task := .ended, left := [] }

def Manager.step (u : Chars) : Step → Manager → Manager :=
  Host.step (handle u) (fun _ => runOnce) Operation.apply

end FetchTask.QianwenProbe
