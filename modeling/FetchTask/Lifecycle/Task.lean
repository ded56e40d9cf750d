import FetchTask.Accounts
import FetchTask.Lib.Prog
import FetchTask.Store.StatusMachine
import FetchTask.TempAccess

/-!
The life of one task: what its worker, the watchdog and the requests work on.

The state is the record of the task and its result, the table of tokens with the
reservation that paid for the task, and the table of accounts. An operation is
one transaction on one of these, or a question to what lies outside (a platform,
a clock, an event loop). A call of the program is a tree of operations that may
end with an exception (`Run`); the programs follow the source line by line. The
queue is not part of this state.
-/

namespace FetchTask.Lifecycle

open Store

/-! ### What lies outside -/

/-- Exceptions, as far as the source tells them apart. -/
inductive Fault
  | fileNotFound
  | cancelled
  | error (reason : String)

/-- What the source reads out of the texts of the platforms and of errors. -/
structure TextRules where
  isTenSecondGenerationLimit : String → Bool
  isPortraitProtectionRejection : String → Bool
  isMissingReferenceImageRequest : String → Bool
  isAccountQuotaInsufficient : String → Bool
  isSuspectedPolicyFalsePositive : String → Bool
  isGenerationFailureText : String → Bool
  isAccountLoginInvalid : String → Bool
  isFinalGenerationFailure : String → Bool
  isInfrastructureFailure : String → Bool
  isQianwenAccountQuotaInsufficient : String → Bool
  isQianwenContentRejection : String → Bool
  isQianwenTextOnlyResponse : String → Bool

/-- The task, the settings and the pure functions that are not spelled out. -/
structure Setting where
  chars : Chars
  taskId : String
  taskId_ne_empty : taskId ≠ ""
  /-- The setting that `task_retry_limit` reads. -/
  retrySetting : Option Int
  rules : TextRules
  /-- `qianwen_ai_studio_model(model) is not None`. -/
  isAiStudioModel : String → Bool
  /-- `extract_conversation_id_from_sse`. -/
  extractConversationId : String → String
  /-- `dola_same_account_retry_prompt`. -/
  sameAccountRetryPrompt : String → String
  /-- `ambiguous_retry_reason`. -/
  ambiguousRetryReason : String → TaskResult → String
  /-- The quota cost of a generation. -/
  accountQuotaCost : (platform model : String) → (duration : Int) → Int

/-- `task_retry_limit()`. -/
def Setting.retryLimit (S : Setting) : Int := taskRetryLimit S.retrySetting

/-- What `run` of an automation returns; a key that is missing is falsy. -/
structure Outcome where
  success : Bool := false
  confirmationPending : Bool := false
  keepAccountClaimed : Bool := false
  submitted : Bool := false
  retryable : Bool := false
  reason : String := ""
  switchAccount : Bool := false
  qianwenTextOnly : Bool := false
  accountCooldownSeconds : Int := 0
  accountLoginInvalid : Bool := false
  accountSliderVerification : Bool := false
  accountTextOnly : Bool := false
  accountRegionRestricted : Bool := false
  accountQuotaInsufficient : Bool := false
  infrastructureFault : Bool := false
  accountFault : Bool := false
  deferOnly : Bool := false
  deferReason : String := ""
  deferCategory : String := ""
  retryAfter : Int := 0

/-- What a query at a platform returns. -/
structure Reply where
  state : String := ""
  text : String := ""
  videoUrl : String := ""
  /-- Doubao: `doubao_video_candidate_is_acceptable`. -/
  acceptable : Bool := false
  source : String := ""

/-- What `fetch_single_chain` returns, decoded. -/
structure ChainReply where
  decodedMainUrl : String := ""
  ttsContent : String := ""

/-- Questions to what lies outside. -/
inductive Question
  | automation (accountId chargeId : String)
  | sleep (seconds : Int)
  | admitDolaPreparation
  | admitPlatform (platform : String)
  | accountSupportsDuration (accountId platform : String) (duration : Int)
  | stopping
  | randomBelow (bound : Int)
  | fetchDoubao
  | fetchQianwen (aiStudio : Bool)
  | fetchRecentConversation
  | fetchSingleChain
  | refreshQueryProxy
  | workerRuns (workerId : String)
  | staleAfterSeconds
  | reconcileDue
  | resourceLimit

/-- An `await` may be cancelled; a query may fail. A failed Doubao query says its HTTP status,
and a limit on the resources of a worker says the reason, the category and the delay. -/
abbrev Question.Answer : Question → Type
  | .automation .. => Except Fault Outcome
  | .sleep _ => Except Fault Unit
  | .admitDolaPreparation => Except Fault Int
  | .admitPlatform _ => Bool × Int
  | .accountSupportsDuration .. => Bool
  | .stopping => Bool
  | .randomBelow _ => Int
  | .fetchDoubao => Except (Option Nat) Reply
  | .fetchQianwen _ => Option Reply
  | .fetchRecentConversation => Option String
  | .fetchSingleChain => Option ChainReply
  | .refreshQueryProxy => Bool
  | .workerRuns _ => Bool
  | .staleAfterSeconds => Int
  | .reconcileDue => Bool
  | .resourceLimit => Option (String × String × Int)

/-- What the surroundings contribute to a step. -/
structure Env where
  now : Int
  stamp : String := ""
  today : String := ""
  token : String := ""
  /-- Whether the execution of tasks is paused, and whether the owner has enough running tasks. -/
  paused : Bool := false
  atLimit : Bool := false
  /-- The account that `_select_account` picks. -/
  selected : Option String := none
  answer : (q : Question) → q.Answer

/-! ### Operations -/

structure World where
  /-- `none` when the task has been deleted. -/
  task : Option Meta
  result : TaskResult
  tokens : TempAccess.Tokens
  accounts : Accounts.Table
  /-- The charges whose automation asked to keep the account. -/
  kept : List String := []

/-- Where in the source a transition is made, as far as it must be told apart. -/
inductive Site
  | usual
  /-- A retry after which `mark_failed` follows when the count is over the limit. -/
  | beforeFailing
  /-- The retry with the literal limit 1. -/
  | policyRetry
  /-- The failure after HTTP 401 of a Doubao query. -/
  | doubaoUnauthorized
  /-- The failure of a task of an unknown platform. -/
  | platformUnsupported
  deriving DecidableEq

/-- Flags that the source puts on an account besides its quota. -/
inductive AccountFlag
  | loginInvalid (reason : String)
  | sliderVerification
  | textOnly
  | regionRestricted
  | tenSecondLimit
  | cooldown (seconds : Int) (reason : String)

inductive Op
  | now
  | ask (q : Question)
  | getMeta
  | loadResult
  | claimTask (workerId : String) (now : Int)
  | write (site : Site) (o : StoreOp)
  | requestCancel (reason : String) (allowSubmitted : Bool) (now : Int)
  | updateMeta (now : Int) (f : Meta → Meta)
  | updateMetaIf (expected : List Status) (now : Int) (f : Meta → Meta)
  | saveResult (f : TaskResult → TaskResult)
  | refundTempQuota (owner : String)
  | markTempQuotaRefunded
  | claimAccount (workerId platform : String) (quotaCost : Int) (studio : Bool)
  | accountForCurrentTask
  | clearAccount (accountId : String)
  | refundAccount (accountId refundId : String)
  | settleAccount (accountId chargeId : String)
  | exhaustAccount (accountId chargeId : String)
  | exhaustTimedOutAccount (accountId chargeId : String)
  | flagAccount (accountId : String) (flag : AccountFlag)
  | deleteTask

/-- A write to a missing record is told by `none` or `false`. -/
abbrev Op.Res : Op → Type
  | .now => Int
  | .ask q => q.Answer
  | .getMeta => Option Meta
  | .loadResult => TaskResult
  | .claimTask .. => Option Bool
  | .write .. => Option Int
  | .requestCancel .. => Option (Bool × Meta)
  | .updateMeta .. => Bool
  | .updateMetaIf .. => Option Bool
  | .refundTempQuota _ => Bool
  | .markTempQuotaRefunded => Bool
  | .claimAccount .. => Option Accounts.Claimed
  | .accountForCurrentTask => Option (String × String)
  | .refundAccount .. => Bool
  | _ => Unit

abbrev LifeSig : Sig := ⟨Op, Op.Res⟩

/-- An automation that asks to keep its account is remembered. -/
def World.hears (w : World) : (q : Question) → q.Answer → World
  | .automation _ chargeId, .ok outcome =>
    if outcome.keepAccountClaimed then { w with kept := chargeId :: w.kept } else w
  | _, _ => w

@[simp] theorem World.hears_task (w : World) (q : Question) (answer : q.Answer) :
    (w.hears q answer).task = w.task := by
  unfold World.hears
  split
  · split <;> rfl
  · rfl

@[simp] theorem World.hears_tokens (w : World) (q : Question) (answer : q.Answer) :
    (w.hears q answer).tokens = w.tokens := by
  unfold World.hears
  split
  · split <;> rfl
  · rfl

def studioBucket (studio : Bool) : String := if studio then Accounts.studioQuotaBucket else "default"

/-- One operation. -/
def handle (S : Setting) (e : Env) : (o : Op) → World → o.Res × World
  | .now, w => (e.now, w)
  | .ask q, w => (e.answer q, w.hears q (e.answer q))
  | .getMeta, w => (w.task, w)
  | .loadResult, w => (w.result, w)
  | .claimTask workerId now, w =>
    match w.task with
    | none => (none, w)
    | some m =>
      let result := markRunning e.paused workerId e.atLimit now m
      (some result.1, { w with task := some result.2 })
  | .write _ o, w =>
    match w.task with
    | none => (none, w)
    | some m => (some (o.count S.chars m), { w with task := some (o.apply S.chars m) })
  | .requestCancel reason allowSubmitted now, w =>
    match w.task with
    | none => (none, w)
    | some m =>
      let result := requestTaskCancel reason allowSubmitted now m
      (some result.1, { w with task := some result.2 })
  | .updateMeta now f, w =>
    match w.task with
    | none => (false, w)
    | some m => (true, { w with task := some (Store.updateMeta now f m).2 })
  | .updateMetaIf expected now f, w =>
    match w.task with
    | none => (none, w)
    | some m =>
      let result := Store.updateMetaIf expected now f m
      (some result.1.isSome, { w with task := some result.2 })
  | .saveResult f, w =>
    -- Nothing is saved for a task that is gone.
    ((), if w.task.isSome then { w with result := f w.result } else w)
  | .refundTempQuota owner, w =>
    let result := TempAccess.refundTempQuotaHash S.chars owner S.taskId e.stamp w.tokens
    (result.1, { w with tokens := result.2.2 })
  | .markTempQuotaRefunded, w =>
    if w.task.isSome then (true, { w with result := { w.result with tempQuotaRefunded := true } })
    else (false, w)
  | .claimAccount workerId platform quotaCost studio, w =>
    let result := Accounts.claimAccountForWorker S.chars
      { workerId, taskId := S.taskId, platform, quotaCost, quotaBucket := studioBucket studio }
      e.selected e.token e.stamp w.accounts
    (result.1.toOption.join, { w with accounts := result.2 })
  | .accountForCurrentTask, w =>
    ((w.accounts.find? (·.currentTaskId == S.taskId)).map fun a => (a.id, a.currentQuotaChargeId), w)
  | .clearAccount accountId, w =>
    ((), { w with accounts := Accounts.clearAccountCurrentTask accountId S.taskId e.stamp w.accounts })
  | .refundAccount accountId refundId, w =>
    let result := Accounts.refundAccountQuota accountId refundId e.stamp w.accounts
    (result.1, { w with accounts := result.2 })
  | .settleAccount accountId chargeId, w =>
    ((), { w with accounts := (Accounts.settleAccountQuota accountId chargeId e.stamp w.accounts).2 })
  | .exhaustAccount accountId chargeId, w =>
    ((), { w with
      accounts := (Accounts.exhaustAccountQuota accountId chargeId e.stamp e.today w.accounts).2 })
  | .exhaustTimedOutAccount accountId chargeId, w =>
    ((), { w with
      accounts := (Accounts.exhaustTimedOutAccount accountId chargeId e.stamp e.today w.accounts).2 })
  | .flagAccount .., w => ((), w)
  | .deleteTask, w => ((), { w with task := none, result := {} })

/-! ### Calls -/

/-- A call: a program of operations that may end with an exception. -/
abbrev Run (α : Type) := ExceptT Fault (Prog LifeSig) α

section Calls

variable {α : Type}

def op (o : Op) : Run o.Res := (Prog.act o fun r => .ret (.ok r) : Prog LifeSig (Except Fault o.Res))

/-- Every access to the record of a task that is gone raises `FileNotFoundError`. -/
def found : Option α → Run α
  | some a => pure a
  | none => throw .fileNotFound

def existing (present : Bool) : Run Unit := if present then pure () else throw .fileNotFound

/-- The answer of an `await`. -/
def raised : Except Fault α → Run α
  | .ok a => pure a
  | .error e => throw e

/-- An `if` without an `else`. -/
def when (c : Prop) [Decidable c] (action : Run Unit) : Run Unit := if c then action else pure ()

def clock : Run Int := op .now

def ask (q : Question) : Run q.Answer := op (.ask q)

def getMeta : Run Meta := op .getMeta >>= found

def loadResult : Run TaskResult := op .loadResult

/-- A transition of the record, at the time of the clock. -/
def write (site : Site) (o : Int → StoreOp) : Run Int := do
  let now ← clock
  let count ← op (.write site (o now))
  found count

def updateMeta (f : Meta → Meta) : Run Unit := do
  let now ← clock
  let written ← op (.updateMeta now f)
  existing written

def saveResult (f : TaskResult → TaskResult) : Run Unit := op (.saveResult f)

/-- `clear_transient_result`: the fields of `TRANSIENT_RESULT_FIELDS`. -/
def clearTransientResult : Run Unit :=
  saveResult fun r =>
    { r with
      sseText := "", submissionAmbiguous := false, submissionAmbiguousAt := none
      submitConfirmationState := "", conversationId := "", cookieString := ""
      decodedMainUrl := "", doubaoWatermarkStatus := "", proxySource := ""
      accountId := "", accountQuotaChargeId := "", accountQuotaRefunded := false }

def recordFailedAccount (accountId : String) : Run Unit :=
  when (accountId ≠ "") (updateMeta fun m =>
    { m with
      failedAccountIds :=
        let failed := m.failedAccountIds.filter (· ≠ "")
        if accountId ∈ failed then failed else failed ++ [accountId] })

/-- `set_execution_phase`. -/
def setExecutionPhase (phase statusReason : String) : Run Unit := do
  let now ← clock
  let updated ← op (.updateMetaIf [.running] now fun m =>
    { m with
      executionPhase := takeText 80 phase, statusReason := takeText 200 statusReason
      phaseUpdatedAt := some now })
  let _ ← found updated

def markFailed (site : Site) (reason : String) : Run Unit := do
  let _ ← write site (.markFailed reason)

def markSuccess : Run Unit := do
  let result ← loadResult
  when (result.decodedMainUrl ≠ "") do
    let _ ← write .usual (.markSuccess true)

def markLateResultSuccess : Run Unit := do
  let result ← loadResult
  when (result.decodedMainUrl ≠ "") do
    let _ ← write .usual (.markLateResultSuccess true)

def refundTempQuotaOnce (ownerHash : String) : Run Unit :=
  when (ownerHash ≠ "") do
    let refunded ← op (.refundTempQuota ownerHash)
    when (refunded = true) do
      let marked ← op .markTempQuotaRefunded
      existing marked

def clearAccountCurrentTask (accountId : String) : Run Unit := op (.clearAccount accountId)

def settleAccountQuota (accountId chargeId : String) : Run Unit := op (.settleAccount accountId chargeId)

def exhaustAccountQuota (accountId chargeId : String) : Run Unit :=
  op (.exhaustAccount accountId chargeId)

def flagAccount (accountId : String) (flag : AccountFlag) : Run Unit :=
  op (.flagAccount accountId flag)

/-- `requeue_pending_task`; the queue itself is not part of this state. -/
def requeuePendingTask : Run Unit := do
  let m ← getMeta
  when (m.status = .pending ∧ m.cancelRequested = false) do
    let _ ← write .usual .markRetryQueueVerified

variable (S : Setting)

def refundAccountQuotaOnce (accountId chargeId : String) : Run Unit :=
  when (accountId ≠ "") do
    let refunded ← op (.refundAccount accountId (textOr chargeId S.taskId))
    -- `mark_account_refund_once`.
    when (refunded = true) (saveResult fun r =>
      if accountId ∈ r.accountQuotaRefundedIds then r
      else
        { r with
          accountQuotaRefundedIds := r.accountQuotaRefundedIds.filter (· ≠ "") ++ [accountId]
          accountQuotaRefunded := true })

/-- `consume_failed_account_quota`. -/
def consumeFailedAccountQuota (platform accountId chargeId : String) : Run Unit :=
  if platform = "dola" then settleAccountQuota accountId chargeId
  else refundAccountQuotaOnce S accountId chargeId

def retrySubmittedTask (site : Site) (reason : String) (maxRetries delaySeconds : Int) : Run Int := do
  let limit := clampRetries S.retryLimit (some maxRetries)
  let count ← write site (.retrySubmittedTask limit reason delaySeconds)
  when (count ≤ limit) requeuePendingTask
  return count

def retryAmbiguousProxyTask (reason accountId proxyNodeId : String) (delaySeconds : Int) :
    Run Unit := do
  let _ ← write .usual
    (.retryAmbiguousProxyTask reason (S.chars.lower (S.chars.strip accountId))
      (S.chars.strip proxyNodeId) delaySeconds)
  requeuePendingTask

def retryAmbiguousSubmittedTask (reason : String) (maxRetries delaySeconds : Int) : Run Int := do
  let limit := clampRetries S.retryLimit (some maxRetries)
  let count ← write .usual (.retryAmbiguousSubmittedTask limit reason delaySeconds)
  when (count ≤ limit) requeuePendingTask
  return count

/-- `expire_task_if_timeout`. -/
def expireTaskIfTimeout : Run Bool := do
  let m ← getMeta
  let now ← clock
  if m.isTaskExpired now = false then
    return false
  let result ← loadResult
  if result.decodedMainUrl ≠ "" then
    return false
  let retryExpired := 0 < max 0 m.retryCount ∧ m.status ∈ [.running, .submitted]
  when (result.accountId ≠ "") do
    op (.exhaustTimedOutAccount result.accountId result.accountQuotaChargeId)
    clearAccountCurrentTask result.accountId
  markFailed .usual (if retryExpired then "重试超过30分钟，生成失败" else "超时生成失败")
  refundTempQuotaOnce m.ownerTokenHash
  return true

end Calls

end FetchTask.Lifecycle
