import FetchTask.Runtime
import Mathlib.Algebra.Order.Group.Int

/-!
The record of a task (`app/store.py`).

`Meta` holds the fields that the operations of the store, the queue and the
worker read or write. A number that is missing is `0` and a missing text is
empty, as the source reads them with `or`. Times are in microseconds, `none`
where the stored text is empty; an operation reads the clock once.
-/

namespace FetchTask.Store

inductive Status
  | initializing
  | pending
  | running
  | submitted
  | success
  | failed
  | canceled
  deriving DecidableEq

/-- An item of `attempt_history`. -/
structure AttemptEntry where
  time : Int
  kind : String
  reason : String
  phase : String
  workerId : String
  retryCount : Int
  infrastructureRetryCount : Int
  deriving DecidableEq

structure Meta where
  status : Status
  cancelRequested : Bool := false
  ownerTokenHash : String := ""
  platform : String := ""
  taskType : String := ""
  model : String := ""
  prompt : String := ""
  duration : Int := 0
  imageCount : Int := 0
  referenceIsRealPerson : Bool := false
  retryOfTaskId : String := ""
  workerId : String := ""
  error : String := ""
  clientError : String := ""
  executionPhase : String := ""
  statusReason : String := ""
  queueReason : String := ""
  queueCategory : String := ""
  submitPhase : String := ""
  infrastructureError : String := ""
  preferredAccountId : String := ""
  proxyRetryAvoidNodeId : String := ""
  ambiguousProxyAvoidNodeIds : List String := []
  failedAccountIds : List String := []
  attempt : Int := 0
  retryCount : Int := 0
  infrastructureRetryCount : Int := 0
  executionMissCount : Int := 0
  resultWatchMissCount : Int := 0
  resultTimeoutRetryCount : Int := 0
  ambiguousProxyRetryCount : Int := 0
  portraitProtectionRetryCount : Int := 0
  qianwenTextOnlyRetryUsed : Bool := false
  doubaoFreshConversationRetryUsed : Bool := false
  createdAt : Option Int := none
  queuedAt : Option Int := none
  queuePriorityAt : Option Int := none
  claimedAt : Option Int := none
  startedAt : Option Int := none
  submittedAt : Option Int := none
  submitStartedAt : Option Int := none
  finishedAt : Option Int := none
  updatedAt : Option Int := none
  phaseUpdatedAt : Option Int := none
  nextAttemptAt : Option Int := none
  nextResultPollAt : Option Int := none
  retryStartedAt : Option Int := none
  infrastructureRetryStartedAt : Option Int := none
  retryAttemptStartedAt : Option Int := none
  retryQueuedAt : Option Int := none
  retryQueueVerifiedAt : Option Int := none
  lateResultWatchUntil : Option Int := none
  longResultWaitMarkedAt : Option Int := none
  lateAccountReleasedAt : Option Int := none
  attemptHistory : List AttemptEntry := []
  lastAttemptError : String := ""
  lastAttemptKind : String := ""
  lastAttemptAt : Option Int := none
  deriving DecidableEq

/-- What the source reads of `result.json`; `sseText` is the first of the stored responses. -/
structure TaskResult where
  conversationId : String := ""
  submissionAmbiguous : Bool := false
  submissionAmbiguousAt : Option Int := none
  submitConfirmationState : String := ""
  submissionCollectionId : String := ""
  localConversationId : String := ""
  submissionUniqueKey : String := ""
  sseText : String := ""
  cookieString : String := ""
  accountId : String := ""
  accountQuotaChargeId : String := ""
  accountQuotaRefunded : Bool := false
  accountQuotaRefundedIds : List String := []
  tempQuotaRefunded : Bool := false
  proxySource : String := ""
  proxyNodeId : String := ""
  confirmedQueryProxyRefreshAttemptedAt : Option Int := none
  doubaoSubmitConfirmed : Bool := false
  doubaoConversationId : String := ""
  doubaoResultMode : String := ""
  doubaoResultSource : String := ""
  doubaoVideoDetectionSource : String := ""
  doubaoWatermarkStatus : String := ""
  qianwenSubmitConfirmed : Bool := false
  qianwenRemoteTaskIds : List String := []
  qianwenResultChain : String := ""
  qianwenAiStudioRecordId : String := ""
  qianwenAiStudioScene : String := ""
  qianwenSessionId : String := ""
  qianwenReqId : String := ""
  decodedMainUrl : String := ""
  deriving DecidableEq

/-- Whether the generation request of a running task had been submitted. -/
def TaskResult.wasSubmitted (r : TaskResult) : Bool :=
  r.conversationId != "" || r.submissionAmbiguous ||
    r.submitConfirmationState == "awaiting_conversation" || r.doubaoSubmitConfirmed ||
    r.qianwenSubmitConfirmed || !r.qianwenRemoteTaskIds.isEmpty

def second : Int := 1000000
def minute : Int := 60 * second
def hour : Int := 60 * minute

def taskTimeoutHours : Int := 3
def taskRetryTimeoutMinutes : Int := 30
def maxTaskRetries : Int := 10
def defaultTaskRetryLimit : Int := 2
def maxInfrastructureRetries : Int := 6
def maxAttemptHistory : Nat := 20

/-- `task_retry_limit`; `setting` is `none` when the settings cannot be read. -/
def taskRetryLimit (setting : Option Int) : Int :=
  setting.elim defaultTaskRetryLimit fun n => max 0 (min maxTaskRetries n)

/-- What the retry operations do with their argument `max_retries`. -/
def clampRetries (configuredLimit : Int) (maxRetries : Option Int) : Int :=
  maxRetries.elim configuredLimit fun n => max 0 (min configuredLimit n)

/-- `_append_attempt_history`. -/
def Meta.appendAttemptHistory (u : Chars) (now : Int) (reason kind : String) (m : Meta) : Meta :=
  let normalized := takeText 1000 (u.strip reason)
  if normalized = "" then m
  else
    let entry : AttemptEntry :=
      { time := now, kind := takeText 40 (textOr kind "failure"), reason := normalized
        phase := takeText 80 (textOr m.executionPhase m.submitPhase)
        workerId := takeText 120 m.workerId
        retryCount := max 0 m.retryCount
        infrastructureRetryCount := max 0 m.infrastructureRetryCount }
    let history := m.attemptHistory ++ [entry]
    { m with
      attemptHistory := history.drop (history.length - maxAttemptHistory)
      lastAttemptError := normalized, lastAttemptKind := entry.kind, lastAttemptAt := some now }

/-- `_normalized_failure_reason`. -/
def Meta.normalizedFailureReason (u : Chars) (m : Meta) (reason : String) : String :=
  let normalized := takeText 500 (u.strip reason)
  if normalized ≠ "" then normalized
  else
    let phase := textOr (takeText 80 (u.strip (textOr (textOr m.executionPhase m.submitPhase) "unknown")))
      "unknown"
    s!"任务执行失败但未返回错误详情（阶段：{phase}）"

/-- `_set_retry_terminal`. -/
def Meta.setRetryTerminal (now : Int) (reason : String) (m : Meta) : Meta :=
  let terminalReason := takeText 500 (textOr (textOr reason m.error) "生成失败，请重试！")
  { m with
    status := .failed, finishedAt := some now, error := terminalReason
    executionPhase := "failed", statusReason := terminalReason, phaseUpdatedAt := some now
    queueReason := "", queueCategory := "" }

/-- `is_task_expired`. -/
def Meta.isTaskExpired (m : Meta) (now : Int) : Bool :=
  if m.status ∈ [.success, .failed, .canceled] then false
  else if 0 < max 0 m.retryCount ∧ m.status ∈ [.running, .submitted] then
    match m.retryAttemptStartedAt <|> m.claimedAt <|> m.retryStartedAt <|> m.createdAt with
    | some origin => decide (taskRetryTimeoutMinutes * minute ≤ now - origin)
    | none => false
  else
    match m.createdAt with
    | some created => decide (taskTimeoutHours * hour ≤ now - created)
    | none => false

/-! A closure that one transaction runs on the record: its result and the record it leaves. -/

abbrev Mutation (α : Type) := Meta → α × Meta

/-- `update_meta`. -/
def updateMeta (now : Int) (updates : Meta → Meta) : Mutation Meta := fun m =>
  let m := { updates m with updatedAt := some now }
  (m, m)

/-- `update_meta_if`: the updates are made only in an expected status. -/
def updateMetaIf (expected : List Status) (now : Int) (updates : Meta → Meta) :
    Mutation (Option Meta) := fun m =>
  if m.status ∈ expected then
    let m := { updates m with updatedAt := some now }
    (some m, m)
  else (none, m)

theorem updateMetaIf_of_mem {expected : List Status} {now : Int} {updates : Meta → Meta} {m : Meta}
    (h : m.status ∈ expected) :
    updateMetaIf expected now updates m =
      (some { updates m with updatedAt := some now }, { updates m with updatedAt := some now }) :=
  if_pos h

theorem updateMetaIf_of_not_mem {expected : List Status} {now : Int} {updates : Meta → Meta}
    {m : Meta} (h : m.status ∉ expected) : updateMetaIf expected now updates m = (none, m) :=
  if_neg h

@[simp] theorem appendAttemptHistory_status (u : Chars) (now : Int) (reason kind : String)
    (m : Meta) : (m.appendAttemptHistory u now reason kind).status = m.status := by
  simp only [Meta.appendAttemptHistory]
  split <;> rfl

@[simp] theorem setRetryTerminal_status (now : Int) (reason : String) (m : Meta) :
    (m.setRetryTerminal now reason).status = .failed := rfl

end FetchTask.Store
