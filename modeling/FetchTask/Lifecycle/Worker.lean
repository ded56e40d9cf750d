import FetchTask.Lifecycle.Watchdog

/-!
An iteration of the worker loop (`app/worker.py`), cancellation by a request
(`app/main.py`), and all the calls that work on the task.

The iteration has a part before it claims an account and a part after it; an
exception is handled the same way in both, with the account if there is one.
-/

namespace FetchTask.Lifecycle

open Store

section Worker

variable (S : Setting)

/-- `is_qianwen_ai_studio_task`. -/
def isQianwenAiStudioTask (m : Meta) : Bool :=
  textOr m.platform "dola" == "qianwen" && textOr m.taskType "video" == "video" &&
    decide (m.imageCount = 0) && S.isAiStudioModel m.model

def deferTask (reason category : String) (delaySeconds : Int) : Run Unit := do
  let _ ← write .usual (.deferTask reason category delaySeconds)

/-- `can_run_task`. -/
def canRunTask (workerId : String) : Run Bool := do
  let m ← getMeta
  return m.status == .running && m.workerId == workerId && !m.cancelRequested

/-- `is_task_canceled`. -/
def isTaskCanceled : Run Bool := do
  let read ← op .getMeta
  return read.all fun m => m.status == .canceled || m.cancelRequested

def sleep (seconds : Int) : Run Unit := do
  let slept ← ask (.sleep seconds)
  raised slept

/-- `mark_failed` and the refund to the owner in the record that was read before. -/
def failAndRefund (m : Meta) (reason : String) : Run Unit := do
  markFailed .usual reason
  refundTempQuotaOnce m.ownerTokenHash

/-- `_retry_account_wait_expired`. -/
def retryAccountWaitExpired (m : Meta) (now : Int) : Bool :=
  decide (1 ≤ max 0 m.resultTimeoutRetryCount) &&
    (m.retryQueuedAt <|> m.nextAttemptAt).any fun queued => decide (5 * minute ≤ now - queued)

/-- `_handle_unavailable_account`. -/
def handleUnavailableAccount (m : Meta) (platform : String) : Run Bool := do
  let now ← clock
  if retryAccountWaitExpired m now then
    failAndRefund m "重试等待可用账号超时，请重新提交"
    return true
  let jitter ← ask (.randomBelow 6)
  deferTask s!"等待可用{platform}账号" "account_wait" (5 + jitter)
  return false

/-! ### The outcome of the automation -/

/-- `normalize_qianwen_retry_outcome`. -/
def normalizeQianwenRetryOutcome (platform : String) (outcome : Outcome) : Outcome :=
  if platform ≠ "qianwen" ∨ outcome.accountQuotaInsufficient = false then outcome
  else { outcome with
    deferOnly := true, deferReason := "千问账号额度不足，正在更换账号"
    deferCategory := "account_quota", retryAfter := 1 }

/-- `should_consume_retry_account_quota`. -/
def shouldConsumeRetryAccountQuota (outcome : Outcome) : Bool :=
  outcome.retryable && !outcome.infrastructureFault

/-- `defer_non_counting_retry`: whether the task was deferred. -/
def deferNonCountingRetry (outcome : Outcome) : Run Bool := do
  if outcome.deferOnly = false then
    return false
  deferTask (textOr outcome.deferReason "生成节点冷却中，任务已自动排队")
    (textOr outcome.deferCategory "proxy_cooldown") (max 1 (orDefault outcome.retryAfter 5))
  return true

/-- `release_account_after_retryable_failure`, from the faults of the account on. -/
def releaseFaultyAccount (account : Accounts.Claimed) (platform : String) (outcome : Outcome) :
    Run Unit := do
  let id := account.accountId
  let refund := refundAccountQuotaOnce S id account.quotaChargeId
  if outcome.accountLoginInvalid then
    flagAccount id (.loginInvalid s!"{platformLabel platform} 登录状态失效")
    refund
  else if outcome.accountSliderVerification then
    flagAccount id .sliderVerification
    refund
  else if outcome.accountTextOnly then
    flagAccount id .textOnly
    refund
  else if outcome.accountRegionRestricted then
    flagAccount id .regionRestricted
    refund
  else if outcome.accountQuotaInsufficient then
    exhaustAccountQuota id account.quotaChargeId
  else
    if outcome.infrastructureFault then refund
    else when (outcome.accountFault = true ∧ outcome.qianwenTextOnly = false) (recordFailedAccount id)
    when (shouldConsumeRetryAccountQuota outcome = true)
      (consumeFailedAccountQuota S platform id account.quotaChargeId)

def releaseAccountAfterRetryableFailure (account : Accounts.Claimed) (platform : String)
    (outcome : Outcome) : Run Unit := do
  let id := account.accountId
  clearAccountCurrentTask id
  when (outcome.switchAccount = true) do
    when (outcome.qianwenTextOnly = false) (recordFailedAccount id)
    updateMeta fun m => { m with preferredAccountId := "" }
  let cooldownSeconds := max 0 outcome.accountCooldownSeconds
  when (cooldownSeconds ≠ 0) (flagAccount id
    (.cooldown cooldownSeconds (textOr outcome.reason "qianwen account cooldown")))
  releaseFaultyAccount S account platform outcome

/-- Count a failed execution, and refund the owner when the limit is exceeded. -/
def recordFailedExecution (infrastructureFault : Bool) (reason : String) : Run Unit := do
  let retryCount ← write .usual fun now =>
    if infrastructureFault then .recordInfrastructureRetry reason now
    else .recordRetry S.retryLimit reason now
  let retryLimit := if infrastructureFault then maxInfrastructureRetries else S.retryLimit
  when (retryLimit < retryCount) do
    let m ← getMeta
    refundTempQuotaOnce m.ownerTokenHash

/-- The text of a failure that says nothing itself. -/
def failureReason (platform : String) (outcome : Outcome) : Run String := do
  let reason := takeText 500 (S.chars.strip outcome.reason)
  if reason ≠ "" then
    return reason
  let m ← getMeta
  return platform ++ " automation returned no failure detail (phase: " ++
      textOr m.executionPhase "unknown" ++ ")"

/-- What the iteration does after the automation has returned. -/
def finishRun (platform : String) (account : Accounts.Claimed) (outcome : Outcome) : Run Unit := do
  let id := account.accountId
  if outcome.success then
    when (outcome.confirmationPending = false) (settleAccountQuota id account.quotaChargeId)
    when (outcome.keepAccountClaimed = false) (clearAccountCurrentTask id)
  else if outcome.submitted then
    when (outcome.keepAccountClaimed = false) (clearAccountCurrentTask id)
    let _ ← write .usual (.markSubmitted 15)
    sleep 20
  else if outcome.retryable then
    releaseAccountAfterRetryableFailure S account platform outcome
    let reason ← failureReason S platform outcome
    let deferred ← deferNonCountingRetry outcome
    when (deferred = false) (recordFailedExecution S outcome.infrastructureFault reason)
    sleep 2
  else
    clearAccountCurrentTask id
    markFailed .usual (takeText 500 outcome.reason)
    let m ← getMeta
    refundTempQuotaOnce m.ownerTokenHash
    consumeFailedAccountQuota S platform id account.quotaChargeId
    sleep 2

/-! ### The iteration -/

/-- The `except` clauses of the iteration; `account` is the account that it has claimed. -/
def handleFault (platform : String) (account : Option Accounts.Claimed) : Fault → Run Unit
  | .fileNotFound => pure ()
  | .cancelled => do
    match account with
    | none => throw .cancelled
    | some a =>
      clearAccountCurrentTask a.accountId
      suppressNotFound do
        let m ← getMeta
        if m.status = .canceled then
          refundAccountQuotaOnce S a.accountId a.quotaChargeId
        else
          let stopping ← ask .stopping
          when (stopping = false) do
            let _ ← write .usual (.markPending "worker canceled")
            refundAccountQuotaOnce S a.accountId a.quotaChargeId
      throw .cancelled
  | .error reason => do
    let infrastructureFault := S.rules.isInfrastructureFailure reason
    suppressNotFound (recordFailedExecution S infrastructureFault reason)
    match account with
    | none => sleep 2
    | some a =>
      clearAccountCurrentTask a.accountId
      if infrastructureFault then
        refundAccountQuotaOnce S a.accountId a.quotaChargeId
      else
        when (platform = "dola" ∨ S.rules.isFinalGenerationFailure reason = false) do
          recordFailedAccount a.accountId
          consumeFailedAccountQuota S platform a.accountId a.quotaChargeId
      sleep 2

/-- Claim an account for the task, or say in the record that none is free. -/
def claimAccount (workerId : String) (m : Meta) (platform preferredAccountId : String)
    (duration : Int) : Run (Option Accounts.Claimed) := do
  let studio := isQianwenAiStudioTask S m
  let claimed ← op (.claimAccount workerId platform (S.accountQuotaCost platform m.model duration) studio)
  match claimed with
  | some account => return some account
  | none =>
    if preferredAccountId ≠ "" then
      deferTask "等待原账号更换代理重试" "preferred_account" 3
      return none
    let failed ← handleUnavailableAccount m platform
    when (failed = false) (sleep 3)
    return none

/-- The preferred account, which is forgotten when it does not support the duration. -/
def preferredAccount (m : Meta) (platform : String) (duration : Int) : Run String := do
  let preferred := normalized S m.preferredAccountId
  if preferred = "" then
    return preferred
  let supported ← ask (.accountSupportsDuration preferred platform duration)
  if supported then
    return preferred
  updateMeta fun m => { m with preferredAccountId := "", queueReason := "", queueCategory := "" }
  return ""

/-- The part before the claim, with the record that it read. -/
def prepareRun (workerId : String) : Run (Option (Meta × Accounts.Claimed)) := do
  let m ← getMeta
  let expired ← expireTaskIfTimeout
  if expired then
    return none
  let canceled ← isTaskCanceled
  if canceled then
    return none
  let platform := textOr m.platform "dola"
  if platform = "qianwen" ∧ textOr m.taskType "video" = "video" ∧ m.imageCount = 0 ∧
      isQianwenAiStudioTask S m = false then
    failAndRefund m ("千问 " ++ textOr m.model "当前模型" ++ " 需要上传参考图")
    return none
  let duration := orDefault m.duration 10
  let preferred ← preferredAccount S m platform duration
  if platform ∉ watchedPlatforms then
    -- Only here the worker fails a task and refunds nothing to its owner.
    markFailed .platformUnsupported "该平台网页自动化暂未接入"
    return none
  let runs ← canRunTask workerId
  if runs = false then
    return none
  if platform = "dola" then
    let admission ← ask .admitDolaPreparation
    let retryAfter ← raised admission
    if 0 < retryAfter then
      deferTask "等待接近提交时段" "submit_admission" retryAfter
      return none
    else
      setExecutionPhase "preparing_submission_slot" "正在准备生成资源"
      let account ← claimAccount S workerId m platform preferred duration
      return account.map (m, ·)
  else
    let account ← claimAccount S workerId m platform preferred duration
    return account.map (m, ·)

/-- The platform guard lets a dola task through. -/
def platformAdmission (platform : String) : Run (Bool × Int) :=
  if platform = "dola" then pure (true, 0) else ask (.admitPlatform platform)

/-- The part after the claim. -/
def runTask (workerId : String) (m : Meta) (platform : String) (account : Accounts.Claimed) :
    Run Unit := do
  let id := account.accountId
  when (m.retryQueuedAt.isSome = true) (updateMeta fun m => { m with retryQueuedAt := none })
  let admission ← platformAdmission platform
  if admission.1 = false then
    clearAccountCurrentTask id
    refundAccountQuotaOnce S id account.quotaChargeId
    deferTask "平台服务繁忙，任务已自动排队" "platform_guard" (max 1 admission.2)
  else
    let runs ← canRunTask workerId
    if runs = false then
      clearAccountCurrentTask id
      refundAccountQuotaOnce S id account.quotaChargeId
    else
      when (platform = "qianwen") (setExecutionPhase "submitting_request" "正在提交生成请求")
      let answer ← ask (.automation id account.quotaChargeId)
      let outcome ← raised answer
      finishRun S platform account (normalizeQianwenRetryOutcome platform outcome)

/-- The `try` statement of the iteration. -/
def executeTask (workerId : String) : Run Unit := do
  let prepared ← tryCatch (prepareRun S workerId) fun fault => do
    handleFault S "" none fault
    return none
  match prepared with
  | none => return
  | some (m, account) =>
    let platform := textOr m.platform "dola"
    tryCatch (runTask S workerId m platform account) (handleFault S platform (some account))

/-- One iteration of `_worker_loop` that claims the task, if it does. -/
def workerIteration (workerId : String) : Run Unit := do
  let now ← clock
  let claimed ← op (.claimTask workerId now)
  if claimed ≠ some true then
    return
  let _ ← getMeta
  let limit ← ask .resourceLimit
  match limit with
  | some (reason, category, delaySeconds) => deferTask reason category delaySeconds
  | none => executeTask S workerId

/-! ### Cancellation -/

/-- `_refund_canceled_task`. -/
def refundCanceledTask (m : Meta) : Run Unit := do
  let r ← loadResult
  let current ← op .accountForCurrentTask
  let (currentId, currentChargeId) := current.getD ("", "")
  let accountId := textOr r.accountId currentId
  when (accountId ≠ "") do
    clearAccountCurrentTask accountId
    refundAccountQuotaOnce S accountId (textOr r.accountQuotaChargeId currentChargeId)
  refundTempQuotaOnce m.ownerTokenHash

/-- The route `DELETE /tasks/<id>`, as far as it cancels. -/
def removeTask (isAdmin : Bool) : Run Unit := do
  let m ← getMeta
  if isAdmin = false ∧ (m.status = .submitted ∨ m.submitPhase ∈ ["committing", "submitted"]) then
    return
  if m.status ∉ [.pending, .running, .submitted] then
    return
  let now ← clock
  let reason := if isAdmin then "管理员取消生成" else "用户取消生成"
  let answer ← op (.requestCancel reason isAdmin now)
  let (canceled, canceledMeta) ← found answer
  when (canceled = true) (refundCanceledTask S canceledMeta)

end Worker

/-! ### All calls -/

/-- A change of the record that leaves its life alone. -/
structure MetaEdit where
  edit : Meta → Meta
  status : ∀ m, (edit m).status = m.status
  ownerTokenHash : ∀ m, (edit m).ownerTokenHash = m.ownerTokenHash
  lateResultWatchUntil : ∀ m, (edit m).lateResultWatchUntil = m.lateResultWatchUntil

/-- What an automation writes while it runs. -/
inductive AutomationWrite
  | pending (reason : String)
  | submitted (resultPollDelaySeconds : Int)
  | success
  | record (e : MetaEdit)
  | result (f : TaskResult → TaskResult)

def AutomationWrite.run : AutomationWrite → Run Unit
  | .pending reason => do let _ ← write .usual (.markPending reason)
  | .submitted delay => do let _ ← write .usual (.markSubmitted delay)
  | .success => markSuccess
  | .record e => updateMeta e.edit
  | .result f => saveResult f

inductive Call
  | workerIteration (workerId : String)
  | watchRunningTasksOnce
  | queryTask
  | expireTaskIfTimeout
  | removeTask (isAdmin : Bool)
  | automation (o : AutomationWrite)
  | deleteTask

def Call.run (S : Setting) : Call → Run Unit
  | .workerIteration workerId => Lifecycle.workerIteration S workerId
  | .watchRunningTasksOnce => Lifecycle.watchRunningTasksOnce S
  | .queryTask => do let _ ← Lifecycle.queryTask S false false
  | .expireTaskIfTimeout => do let _ ← Lifecycle.expireTaskIfTimeout
  | .removeTask isAdmin => Lifecycle.removeTask S isAdmin
  | .automation o => o.run
  | .deleteTask => op .deleteTask

/-- A call ends when its program does, with or without an exception. -/
def Call.prog (S : Setting) (call : Call) : Prog LifeSig Unit := do
  let _ ← (call.run S).run
  return ()

end FetchTask.Lifecycle
