import FetchTask.Lifecycle.Query

/-!
The watchdog of a worker process (`app/worker.py`).

A pass looks at the submitted tasks and at the failed ones whose result may
still come, puts retries back into the queue, and ends runs that make no
progress. `watchRunningTasksOnce` is what a pass does with the one task.
-/

namespace FetchTask.Lifecycle

open Store

def runningWatchGraceSeconds : Int := 90
def resultWatchDeadlineMinutes : Int := 20
def doubaoResultWatchDeadlineMinutes : Int := 30
def qianwenResultWatchDeadlineMinutes : Int := 20
def resultLongWaitSeconds : Int := 8 * 60
def resultLowRateSeconds : Int := 15 * 60
def resultMaxTotalWatchSeconds : Int := 30 * 60
def resultLatePollIntervalSeconds : Int := 60
def resultPollBaseIntervalSeconds : Int := 20
def watchedPlatforms : List String := ["dola", "doubao", "qianwen"]

/-- `with suppress(FileNotFoundError)`. -/
def suppressNotFound (body : Run Unit) : Run Unit :=
  tryCatch body fun
    | .fileNotFound => pure ()
    | fault => throw fault

/-- `with suppress(Exception)`; a cancellation is no `Exception`. -/
def suppressed (body : Run Unit) : Run Unit :=
  tryCatch body fun
    | .cancelled => throw .cancelled
    | _ => pure ()

/-- `_late_result_watch_deadline`. -/
def lateResultWatchDeadline (m : Meta) : Option Int :=
  match m.lateResultWatchUntil, m.submittedAt with
  | none, _ => none
  | some storedUntil, some submitted =>
    some (min storedUntil (submitted + resultMaxTotalWatchSeconds * second))
  | some storedUntil, none => some storedUntil

/-- `_late_result_watch_active`. -/
def lateResultWatchActive (m : Meta) (now : Int) : Bool :=
  m.status == .failed && (lateResultWatchDeadline m).any fun until_ => decide (now < until_)

/-- The end of a late watch. -/
def closeLateWatch (m : Meta) : Run Unit :=
  updateMeta fun stored =>
    { stored with
      lateResultWatchUntil := none, executionPhase := "failed"
      statusReason := textOr m.error "generation timeout" }

def platformLabel (platform : String) : String :=
  if platform = "doubao" then "豆包" else if platform = "qianwen" then "千问" else "Dola"

section Watchdog

variable (S : Setting)

/-- The end of the deadline branch: the task fails, and may be watched on. -/
def failTimedOut (m : Meta) (platform timeoutReason : String) (submittedAt now : Int) :
    Run Unit := do
  markFailed .usual timeoutReason
  refundTempQuotaOnce m.ownerTokenHash
  let lateUntil := submittedAt + resultMaxTotalWatchSeconds * second
  if now < lateUntil then
    updateMeta fun stored =>
      { stored with
        lateResultWatchUntil := some lateUntil, executionPhase := "late_result_watch"
        statusReason := s!"已退款，后台继续观察{platformLabel platform}结果"
        nextResultPollAt := some (now + resultLatePollIntervalSeconds * second) }
  else
    updateMeta fun stored =>
      { stored with
        lateResultWatchUntil := none, executionPhase := "failed", statusReason := timeoutReason
        nextResultPollAt := none }

/-- The deadline branch of `_watch_unfinished_success_task`. -/
def resultWatchTimedOut (m : Meta) (r : TaskResult) (platform : String) (submittedAt now : Int) :
    Run Unit := do
  when (r.accountId ≠ "") do
    if platform ∈ ["doubao", "qianwen"] then
      refundAccountQuotaOnce S r.accountId r.accountQuotaChargeId
    else settleAccountQuota r.accountId r.accountQuotaChargeId
    clearAccountCurrentTask r.accountId
    when (platform = "qianwen") (recordFailedAccount r.accountId)
  let timeoutReason :=
    if platform = "qianwen" then "千问生成超过20分钟，已更换账号重试"
    else if platform = "doubao" then "生成超过30分钟，仍未返回结果"
    else "生成超过20分钟，仍未返回结果"
  if platform = "qianwen" then
    updateMeta fun stored => { stored with preferredAccountId := "" }
    let retryCount ← retrySubmittedTask S .beforeFailing timeoutReason S.retryLimit 5
    if retryCount ≤ S.retryLimit then
      clearTransientResult
    else failTimedOut m platform timeoutReason submittedAt now
  else failTimedOut m platform timeoutReason submittedAt now

/-- The seconds until the next query. -/
def pollInterval (platform : String) (lateWatch : Bool) (age missCount : Int) : Int :=
  if lateWatch then resultLatePollIntervalSeconds
  else if platform ∈ ["doubao", "qianwen"] then
    if age < 5 * 60 * second then 15 else if age < 15 * 60 * second then 30 else 60
  else if resultLowRateSeconds * second ≤ age then resultLatePollIntervalSeconds
  else min 45 (resultPollBaseIntervalSeconds + max 0 (missCount - 1) * 5)

/-- The rest of `_watch_unfinished_success_task`, where the deadline is not reached. -/
def pollResult (m : Meta) (r : TaskResult) (platform : String) (lateWatch : Bool) (age : Int) :
    Run Unit := do
  when (resultLongWaitSeconds * second ≤ age ∧ m.longResultWaitMarkedAt = none) do
    let marked ← clock
    updateMeta fun stored =>
      { stored with
        longResultWaitMarkedAt := some marked, executionPhase := "waiting_result_long"
        statusReason := s!"{platformLabel platform}生成时间较长，继续查询结果" }
  when (platform = "dola" ∧ resultLowRateSeconds * second ≤ age ∧ m.lateAccountReleasedAt = none) do
    when (r.accountId ≠ "") (clearAccountCurrentTask r.accountId)
    let released ← clock
    updateMeta fun stored =>
      { stored with
        lateAccountReleasedAt := some released, executionPhase := "waiting_result_low_rate"
        statusReason := "Dola生成较慢，已释放账号并继续低频观察" }
  let paced ← ask (.sleep 0)
  raised paced
  let outcome ← queryTask S lateWatch true
  if outcome.code = "2" then
    return
  let current ← getMeta
  if current.status ≠ .submitted ∧ lateWatch = false then
    return
  let missCount ← write .usual (.recordResultWatchMiss "生成结果未完成")
  let jitter ← ask (.randomBelow 5001)
  let interval := max (pollInterval platform lateWatch age missCount) (max 0 outcome.retryAfter)
  let now ← clock
  updateMeta fun stored =>
    { stored with nextResultPollAt := some (now + interval * second + jitter * 1000) }

/-- The body of `_watch_unfinished_success_task`. -/
def watchResult : Run Unit := do
  let r ← loadResult
  if r.decodedMainUrl ≠ "" then
    let m ← getMeta
    let now ← clock
    when (lateResultWatchActive m now = true) markLateResultSuccess
    return
  let m ← getMeta
  let platform := textOr m.platform "dola"
  if platform ∉ watchedPlatforms then
    return
  let now ← clock
  let lateWatch := lateResultWatchActive m now
  if m.status ≠ .submitted ∧ lateWatch = false then
    return
  let submittedAt := m.submittedAt <|> m.updatedAt
  let now ← clock
  let deadlineMinutes :=
    if platform = "doubao" then doubaoResultWatchDeadlineMinutes
    else if platform = "qianwen" then qianwenResultWatchDeadlineMinutes
    else resultWatchDeadlineMinutes
  if lateWatch = true ∧ (lateResultWatchDeadline m).any (fun until_ => decide (now < until_)) = false then
    closeLateWatch m
  else
    let age := (submittedAt.map fun submitted => max 0 (now - submitted)).getD 0
    match submittedAt with
    | some submitted =>
      if lateWatch = false ∧ deadlineMinutes * minute ≤ now - submitted then
        resultWatchTimedOut S m r platform submitted now
      else pollResult S m r platform lateWatch age
    | none => pollResult S m r platform lateWatch age

/-- `_watch_unfinished_success_task`. -/
def watchUnfinishedSuccessTask : Run Unit :=
  tryCatch (watchResult S) fun
    | .fileNotFound => pure ()
    | .cancelled => throw .cancelled
    | .error _ => suppressed do
      let current ← getMeta
      let now ← clock
      when (current.status = .submitted ∨ lateResultWatchActive current now = true) do
        let now ← clock
        updateMeta fun stored => { stored with nextResultPollAt := some (now + 30 * second) }

/-- `_reconcile_pending_retries` on the task. -/
def reconcilePendingRetries : Run Unit := do
  let now ← clock
  let listed ← op .getMeta
  match listed with
  | none => return
  | some m =>
    if m.status ≠ .pending ∨ (max 0 m.retryCount < 1 ∧ max 0 m.infrastructureRetryCount < 1) then
      return
    let expired ← expireTaskIfTimeout
    if expired = true ∨ m.nextAttemptAt.any (fun next => decide (now < next)) then
      return
    suppressed do
      let _ ← write .usual .markRetryQueueVerified

/-- An infrastructure retry by the watchdog. -/
def recordStalledRun (m : Meta) (reason : String) : Run Unit := do
  let retryCount ← write .usual (.recordInfrastructureRetry reason)
  when (maxInfrastructureRetries < retryCount) (refundTempQuotaOnce m.ownerTokenHash)

/-- What a pass does with a task that is listed as running. -/
def watchRunningTask : Run Unit := do
  let m ← getMeta
  if m.status ≠ .running then
    return
  let now ← clock
  let startedAt := m.startedAt <|> m.updatedAt
  if startedAt.any (fun started => decide (now - started < runningWatchGraceSeconds * second)) then
    return
  let runs ← ask (.workerRuns m.workerId)
  if m.workerId ≠ "" ∧ runs = true then
    let staleAfter ← ask .staleAfterSeconds
    if (m.phaseUpdatedAt <|> startedAt).any (fun since => decide (now - since < staleAfter * second)) then
      return
    -- The worker is then cancelled.
    recordStalledRun m ("execution phase timed out: " ++ textOr m.executionPhase "unknown")
  else recordStalledRun m "worker execution heartbeat missing"

/-- Whether a list of rows that are due has the task. -/
def dueBefore (m : Meta) (now : Int) : Bool :=
  (m.nextResultPollAt <|> m.submittedAt <|> m.updatedAt).all fun due => decide (due ≤ now)

/-- What a pass does with the rows of the task among the submitted and the late ones. -/
def watchRows (submitted : Bool) (late : Option Meta) : Run Unit := do
  match late with
  | none => when (submitted = true) (watchUnfinishedSuccessTask S)
  | some m =>
    let now ← clock
    if lateResultWatchActive m now then watchUnfinishedSuccessTask S
    else
      closeLateWatch m
      when (submitted = true) (watchUnfinishedSuccessTask S)

/-- `_watch_running_tasks_once` on the task. -/
def watchRunningTasksOnce : Run Unit := do
  let now ← clock
  let submittedRow ← op .getMeta
  let submitted := submittedRow.any fun m =>
    m.status == .submitted && decide (textOr m.platform "dola" ∈ watchedPlatforms) && dueBefore m now
  let lateRow ← op .getMeta
  let late := lateRow.filter fun m =>
    m.status == .failed && decide (textOr m.platform "dola" ∈ watchedPlatforms) && dueBefore m now &&
      m.executionPhase == "late_result_watch"
  watchRows S submitted late
  let due ← ask .reconcileDue
  when (due = true) reconcilePendingRetries
  let runningRow ← op .getMeta
  when (runningRow.any (fun m => m.status == .running) = true) (suppressNotFound watchRunningTask)

end Watchdog

end FetchTask.Lifecycle
