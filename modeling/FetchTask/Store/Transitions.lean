import FetchTask.Store.Meta

/-!
The operations of the store on one task record (`app/store.py`).

Each definition is the closure that the operation runs in its transaction on
Postgres, as a function from the stored record to the result and the record it
leaves. Arguments that the operation reads elsewhere (the clock, the configured
retry limit, whether the result has a video, whether the owner is at the
concurrency limit) are parameters.
-/

namespace FetchTask.Store

/-! ### Creation -/

/-- The check of `finalize_task_creation` on the record that it read. -/
def finalizeRead (m : Meta) : Except String Meta :=
  if m.status = .initializing then .ok m else .error "task is not initializing"

/-- The record that `finalize_task_creation` writes, from the one it read before. -/
def finalized (now : Int) (m : Meta) : Meta :=
  { m with status := .pending, queuedAt := some now, updatedAt := some now }

/-- `fail_initializing_tasks` on one task. -/
def failInitializing (reason : String) (now : Int) : Mutation (Option Meta) :=
  updateMetaIf [.initializing] now fun m =>
    { m with status := .failed, workerId := "", finishedAt := some now, error := reason }

/-! ### The plain transitions -/

/-- `claim_task`; `atLimit` says that the owner has as many running tasks as allowed. -/
def claimTask (workerId : String) (atLimit : Bool) (now : Int) : Mutation Bool := fun m =>
  if m.status ≠ .pending ∨ m.cancelRequested then (false, m)
  else if atLimit then (false, m)
  else
    (true,
      { m with
        status := .running, workerId, startedAt := some now, claimedAt := some now
        attempt := max 0 m.attempt + 1, error := "", queueReason := "", queueCategory := ""
        executionMissCount := 0, executionPhase := "waiting_account"
        statusReason := "正在分配生成资源", phaseUpdatedAt := some now
        retryQueueVerifiedAt := none, submitPhase := "", submitStartedAt := none
        retryAttemptStartedAt := if 0 < max 0 m.retryCount then some now else none
        updatedAt := some now })

theorem claimTask_admitted {workerId : String} {now : Int} {m : Meta} (hpending : m.status = .pending)
    (hcancel : m.cancelRequested = false) : (claimTask workerId false now m).1 = true := by
  simp [claimTask, hpending, hcancel]

/-- A refusal leaves the record alone. -/
theorem claimTask_refused {workerId : String} {atLimit : Bool} {now : Int} {m : Meta}
    (h : (claimTask workerId atLimit now m).1 = false) : (claimTask workerId atLimit now m).2 = m := by
  unfold claimTask at h ⊢
  split
  · rfl
  · split
    · rfl
    · rename_i hguard hlimit
      simp [hguard, hlimit] at h

/-- `mark_running`. -/
def markRunning (paused : Bool) (workerId : String) (atLimit : Bool) (now : Int) :
    Mutation Bool := fun m =>
  if paused then (false, m) else claimTask workerId atLimit now m

def markPending (reason : String) (now : Int) : Mutation (Option Meta) :=
  updateMetaIf [.pending, .running] now fun m =>
    { m with
      status := .pending, workerId := "", queuedAt := some now, error := reason
      executionPhase := "queued", statusReason := "正在重新排队", phaseUpdatedAt := some now }

def deferTask (reason category : String) (delaySeconds : Int) (now : Int) :
    Mutation (Option Meta) :=
  updateMetaIf [.pending, .running] now fun m =>
    { m with
      status := .pending, workerId := "", error := ""
      queueReason := takeText 200 (textOr reason "任务排队中")
      queueCategory := takeText 40 (textOr category "queue")
      nextAttemptAt := some (now + max 1 delaySeconds * second) }

def markFailed (u : Chars) (reason : String) (now : Int) : Mutation Bool := fun m =>
  if m.status ∉ [.initializing, .pending, .running, .submitted, .failed] then (false, m)
  else
    let normalizedReason := m.normalizedFailureReason u reason
    let m := m.appendAttemptHistory u now normalizedReason "terminal"
    (true,
      { m with
        status := .failed, workerId := "", finishedAt := some now, error := normalizedReason
        executionPhase := "failed", statusReason := normalizedReason, phaseUpdatedAt := some now
        updatedAt := some now })

def markCanceled (reason : String) (now : Int) : Mutation (Option Meta) :=
  updateMetaIf [.pending, .running] now fun m =>
    { m with status := .canceled, workerId := "", finishedAt := some now, error := reason }

/-- `cancelable_statuses`. -/
def cancelableStatuses (allowSubmitted : Bool) : List Status :=
  if allowSubmitted then [.pending, .running, .submitted] else [.pending, .running]

/-- `request_task_cancel`: whether it was applied, with the record. -/
def requestTaskCancel (reason : String) (allowSubmitted : Bool) (now : Int) :
    Mutation (Bool × Meta) := fun m =>
  if m.status ∉ cancelableStatuses allowSubmitted ∨
      (!allowSubmitted && m.submitPhase == "committing") then ((false, m), m)
  else
    let m := { m with
      status := .canceled, workerId := "", finishedAt := some now, error := reason
      cancelRequested := true, executionPhase := "canceled", statusReason := reason
      phaseUpdatedAt := some now, updatedAt := some now }
    ((true, m), m)

/-! ### Retries -/

/-- The texts that `record_retry` puts in place of two internal reasons. -/
def retryReason (u : Chars) (m : Meta) (reason : String) : String :=
  if reason = "browser timeout" then "浏览器超时"
  else if reason = "region restricted" then "Dola 当前地区不可用"
  else m.normalizedFailureReason u reason

def recordRetry (u : Chars) (retryLimit : Int) (reason : String) (now : Int) :
    Mutation Int := fun m =>
  if m.status ∈ [.success, .submitted, .failed, .canceled] then (max 0 m.retryCount, m)
  else
    let count := max 0 m.retryCount + 1
    let normalizedReason := retryReason u m reason
    let m := m.appendAttemptHistory u now normalizedReason "execution_retry"
    let m := { m with
      retryCount := count, workerId := "", error := normalizedReason
      executionPhase := "retry_queued", statusReason := "正在重试中，请稍等！"
      phaseUpdatedAt := some now, retryStartedAt := some (m.retryStartedAt.getD now) }
    let m := if retryLimit < count then m.setRetryTerminal now normalizedReason
      else { m with
        status := .pending, finishedAt := none
        nextAttemptAt := some (now + 10 * 3 ^ (count - 1).toNat * second) }
    (count, { m with updatedAt := some now })

def recordInfrastructureRetry (u : Chars) (reason : String) (now : Int) : Mutation Int := fun m =>
  if m.status ∈ [.success, .submitted, .failed, .canceled] then
    (max 0 m.infrastructureRetryCount, m)
  else
    let count := max 0 m.infrastructureRetryCount + 1
    let normalizedReason := m.normalizedFailureReason u reason
    let m := m.appendAttemptHistory u now normalizedReason "infrastructure_retry"
    let m := { m with
      infrastructureRetryCount := count, infrastructureError := normalizedReason, workerId := ""
      error := "", executionPhase := "retry_queued", statusReason := "正在重试中，请稍等！"
      phaseUpdatedAt := some now, updatedAt := some now
      infrastructureRetryStartedAt := some (m.infrastructureRetryStartedAt.getD now) }
    if maxInfrastructureRetries < count then
      (count, m.setRetryTerminal now "可用节点连续连接失败，请稍后重新提交")
    else
      (count,
        { m with
          status := .pending, finishedAt := none, queueReason := "服务连接异常，正在恢复"
          queueCategory := "infrastructure"
          nextAttemptAt := some (now + min 120 (10 * 2 ^ (count - 1).toNat) * second) })

def retrySubmittedTask (u : Chars) (maxRetries : Int) (reason : String) (delaySeconds : Int)
    (now : Int) : Mutation Int := fun m =>
  if m.status ≠ .submitted then (max 0 m.retryCount, m)
  else
    let count := max 0 m.retryCount + 1
    let m := m.appendAttemptHistory u now reason "result_retry"
    let m := { m with
      retryCount := count, workerId := "", error := reason, resultWatchMissCount := 0
      executionPhase := "retry_queued", statusReason := "正在重试中，请稍等！"
      phaseUpdatedAt := some now, retryStartedAt := some (m.retryStartedAt.getD now) }
    let m := if maxRetries < count then m.setRetryTerminal now reason
      else { m with
        status := .pending, finishedAt := none
        nextAttemptAt := some (now + delaySeconds * count * second) }
    (count, { m with updatedAt := some now })

/-- `accountId` and `proxyNodeId` are already normalized. -/
def retryAmbiguousProxyTask (u : Chars) (reason accountId proxyNodeId : String)
    (delaySeconds : Int) (now : Int) : Mutation Int := fun m =>
  if m.status ≠ .submitted then (max 0 m.ambiguousProxyRetryCount, m)
  else
    let count := max 0 m.ambiguousProxyRetryCount + 1
    let known := m.ambiguousProxyAvoidNodeIds.filter (· ≠ "")
    let avoided := if proxyNodeId ≠ "" ∧ proxyNodeId ∉ known then known ++ [proxyNodeId] else known
    let m := m.appendAttemptHistory u now reason "proxy_refresh"
    (count,
      { m with
        status := .pending, workerId := "", finishedAt := none, error := "", submitPhase := ""
        submitStartedAt := none, resultWatchMissCount := 0, executionPhase := "retry_queued"
        statusReason := "正在刷新API代理，任务已自动排队"
        queueReason := "正在刷新API代理，任务已自动排队", queueCategory := "proxy_refresh"
        nextAttemptAt := some (now + max 1 delaySeconds * second)
        preferredAccountId := accountId, ambiguousProxyRetryCount := count
        ambiguousProxyAvoidNodeIds := avoided.drop (avoided.length - 12)
        proxyRetryAvoidNodeId := proxyNodeId, phaseUpdatedAt := some now, updatedAt := some now })

def retryAmbiguousSubmittedTask (u : Chars) (maxRetries : Int) (reason : String)
    (delaySeconds : Int) (now : Int) : Mutation Int := fun m =>
  if m.status ≠ .submitted then (max 0 m.infrastructureRetryCount, m)
  else
    let count := max 0 m.infrastructureRetryCount + 1
    let m := m.appendAttemptHistory u now reason "infrastructure_retry"
    let m := { m with
      infrastructureRetryCount := count, infrastructureError := takeText 500 reason, workerId := ""
      submitPhase := "", submitStartedAt := none, resultWatchMissCount := 0
      executionPhase := "retry_queued", statusReason := "正在重试中，请稍等！"
      preferredAccountId := "", ambiguousProxyRetryCount := 0, ambiguousProxyAvoidNodeIds := []
      phaseUpdatedAt := some now, updatedAt := some now
      infrastructureRetryStartedAt := some (m.infrastructureRetryStartedAt.getD now) }
    if maxRetries < count then (count, m.setRetryTerminal now "生成失败，请重试！")
    else
      (count,
        { m with
          status := .pending, finishedAt := none, error := ""
          queueReason := "提交状态未确认，正在安全重试", queueCategory := "infrastructure"
          nextAttemptAt := some (now + max 1 delaySeconds * count * second) })

def retryTimedOutSubmittedTask (u : Chars) (maxRetries : Int) (reason : String)
    (delaySeconds : Int) (now : Int) : Mutation Int := fun m =>
  if m.status ≠ .submitted ∨ m.cancelRequested then (max 0 m.resultTimeoutRetryCount, m)
  else
    let previousTimeoutCount := max 0 m.resultTimeoutRetryCount
    let count := max (max 0 m.retryCount) previousTimeoutCount + 1
    let m := m.appendAttemptHistory u now reason "result_timeout"
    let m := { m with
      retryCount := count, resultTimeoutRetryCount := previousTimeoutCount + 1
      retryQueuedAt := some now, workerId := "", error := reason, resultWatchMissCount := 0
      executionPhase := "retry_queued", statusReason := "正在重试中，请稍等！"
      phaseUpdatedAt := some now, retryStartedAt := some (m.retryStartedAt.getD now) }
    let m := if maxRetries < count then m.setRetryTerminal now reason
      else { m with
        status := .pending, finishedAt := none
        nextAttemptAt := some (now + delaySeconds * count * second) }
    (count, { m with updatedAt := some now })

/-- The only retry operation that looks at no status. -/
def recordExecutionMiss (retryLimit : Int) (reason : String) (now : Int) : Mutation Int := fun m =>
  let missCount := max 0 m.executionMissCount + 1
  let count := max 0 m.retryCount + 1
  let m := { m with
    retryStartedAt := some (m.retryStartedAt.getD now), retryCount := count
    executionMissCount := missCount, workerId := "" }
  let m := if retryLimit < count then m.setRetryTerminal now "任务超时未执行"
    else { m with error := reason, status := .pending }
  (count, { m with updatedAt := some now })

def recordResultWatchMiss (reason : String) (now : Int) : Mutation Int := fun m =>
  let count := max 0 m.resultWatchMissCount + 1
  (count,
    { m with
      resultWatchMissCount := count, updatedAt := some now
      error := if m.status ∈ [.success, .failed, .canceled] then m.error else reason })

/-- After a task was put into a queue again. -/
def markRetryQueueVerified (now : Int) : Mutation (Option Meta) :=
  updateMetaIf [.pending] now fun m =>
    { m with
      executionPhase := "retry_queued", statusReason := "重试已入队，等待执行"
      retryQueueVerifiedAt := some now, phaseUpdatedAt := some now }

/-! ### Results -/

/-- `hasUrl` says that the stored result has a `decoded_main_url`. -/
def markSuccess (hasUrl : Bool) (now : Int) : Mutation (Option Meta) := fun m =>
  if !hasUrl then (none, m)
  else updateMetaIf [.running, .submitted] now (fun m =>
    { m with
      status := .success, workerId := "", finishedAt := some now, error := ""
      executionPhase := "completed", statusReason := "视频生成成功", phaseUpdatedAt := some now }) m

def markLateResultSuccess (hasUrl : Bool) (now : Int) : Mutation (Option Meta) := fun m =>
  if !hasUrl then (none, m)
  else updateMetaIf [.failed] now (fun m =>
    { m with
      status := .success, workerId := "", finishedAt := some now, error := ""
      executionPhase := "completed", statusReason := "视频生成成功", phaseUpdatedAt := some now
      lateResultWatchUntil := none }) m

def markSubmitted (resultPollDelaySeconds : Int) (now : Int) : Mutation (Option Meta) :=
  updateMetaIf [.running] now fun m =>
    { m with
      status := .submitted, workerId := "", submittedAt := some now
      nextResultPollAt := some (now + max 5 (min 120 (orDefault resultPollDelaySeconds 45)) * second)
      finishedAt := none, error := "等待生成结果", resultWatchMissCount := 0
      submitPhase := "submitted", executionPhase := "waiting_result"
      statusReason := "生成请求已提交，正在等待结果", phaseUpdatedAt := some now }

/-- `reset_running_tasks` on a task that it found running; `wasSubmitted` is what its
result says and `submittedAt` what the record said when it was read. -/
def resetRunning (wasSubmitted : Bool) (submittedAt : Option Int) (now : Int) :
    Mutation (Option Meta) :=
  if wasSubmitted then
    updateMetaIf [.running] now fun m =>
      { m with
        status := .submitted, workerId := "", submittedAt := some (submittedAt.getD now)
        nextResultPollAt := some (now + 15 * second), finishedAt := none, error := "等待生成结果" }
  else markPending "service restarted" now

end FetchTask.Store
