import FetchTask.Lifecycle.Task

/-!
The evaluation of a task's state (`app/query.py`).

`queryTask` asks the platform of a submitted task for its result and decides
whether the task has succeeded, has failed, or is tried again. The three
platforms have a path each. What a call only writes for diagnosis is left out.
-/

namespace FetchTask.Lifecycle

open Store

structure QueryResponse where
  code : String
  text : String
  url : String := ""
  retryAfter : Int := 0
  deriving DecidableEq

def generatingText : String :=
  "正在为您生成视频，请稍候...本次使用 Seedance 2.0生成，预计等待 3~8 分钟。"
def ambiguousSubmissionRecoverySeconds : Int := 120
def confirmedQueryProxyRefreshSeconds : Int := 12 * 60
def ambiguousProxyRetriesPerAccount : Int := 3
def retryGeneratingText : String := "视频生成中请稍后..."
def successText : String := "已成功"
def policyRetryText : String := "你的输入可能包含违规内容请重试！"
def policyRetryingText : String := "检测到内容异常，正在自动重试..."
def accountQuotaRetryText : String := "当前账号额度不足，正在切换账号重试"
def referenceImageRequiredText : String := "未收到可用参考图，请重新上传参考图后再提交"
def referenceImageRetryText : String := "参考图识别异常，正在更换账号重新上传"
def referenceImageInvalidText : String := "参考图异常，请重试！"
def referenceRealPersonRequiredText : String := "请选择勾选真人按钮并重试"
def portraitProtectionRetryText : String := "参考图触发肖像保护，正在更换账号重试"
def tenSecondLimitText : String :=
  "Currently generating videos longer than 10 seconds is not supported, do you want to continue generating for you?"
def dolaSameAccountRetryText : String := "视频生成失败，生成额度未扣除。"

def doubaoWebDirectResultSources : List String :=
  ["video_current_src", "source_src", "download_link", "media_response"]
def doubaoUnwatermarkedResultSources : List String :=
  ["fallback_unwatermarked", "single_chain_explicit_unwatermarked", "network_explicit_unwatermarked"]

section Query

variable (S : Setting)

def normalized (s : String) : String := S.chars.lower (S.chars.strip s)

/-- `_doubao_cached_web_video_url`. -/
def doubaoCachedWebVideoUrl (r : TaskResult) : String :=
  if normalized S (textOr r.doubaoResultSource r.doubaoVideoDetectionSource) ∈
      doubaoWebDirectResultSources then S.chars.strip r.decodedMainUrl
  else ""

/-- `_doubao_cached_unwatermarked_video_url`. -/
def doubaoCachedUnwatermarkedVideoUrl (r : TaskResult) : String :=
  if normalized S (textOr r.doubaoResultSource r.doubaoVideoDetectionSource) ∈
      doubaoUnwatermarkedResultSources ∧ normalized S r.doubaoWatermarkStatus = "original" then
    S.chars.strip r.decodedMainUrl
  else ""

/-! ### Endings that several branches share -/

/-- A retry whose count is compared with the limit: `again` within it, `otherwise` beyond. -/
def retryOr (site : Site) (reason : String) (maxRetries delaySeconds compared : Int)
    (again : QueryResponse) (otherwise : Run QueryResponse) : Run QueryResponse := do
  let retryCount ← retrySubmittedTask S site reason maxRetries delaySeconds
  if retryCount ≤ compared then
    clearTransientResult
    return again
  otherwise

/-- Refund the owner of the record as it is now. -/
def refundOwner (answer : QueryResponse) : Run QueryResponse := do
  let m ← getMeta
  refundTempQuotaOnce m.ownerTokenHash
  return answer

/-- `mark_late_result_success` in a late watch, `mark_success` otherwise. -/
def markResult (lateWatch : Bool) : Run Unit :=
  if lateWatch then markLateResultSuccess else markSuccess

/-- `meta = get_meta(...)`, `mark_failed`, refund. -/
def failAndRefundOwner (reason : String) (answer : QueryResponse) : Run QueryResponse := do
  let m ← getMeta
  markFailed .usual reason
  refundTempQuotaOnce m.ownerTokenHash
  return answer

/-- `mark_failed`, `meta = get_meta(...)`, refund. -/
def failThenRefundOwner (reason : String) (answer : QueryResponse) : Run QueryResponse := do
  markFailed .usual reason
  refundOwner answer

/-! ### Qianwen -/

def retryQianwenTextOnlyResult (m : Meta) (r : TaskResult) (diagnostic : String) :
    Run QueryResponse := do
  let retryUsed := m.qianwenTextOnlyRetryUsed
  when (r.accountId ≠ "") do
    clearAccountCurrentTask r.accountId
    refundAccountQuotaOnce S r.accountId r.accountQuotaChargeId
  updateMeta fun m =>
    { m with
      preferredAccountId := if retryUsed then "" else r.accountId
      qianwenTextOnlyRetryUsed := !retryUsed }
  retryOr S .usual (textOr diagnostic "千问仅返回文本，未提交视频生成") S.retryLimit 10 S.retryLimit
    { code := "1", text := "正在重试中，请稍等！", retryAfter := 10 } do
      refundTempQuotaOnce m.ownerTokenHash
      return { code := "0", text := "千问模型生成失败" }

def retryQianwenQuotaInsufficientResult (m : Meta) (r : TaskResult) (diagnostic : String) :
    Run QueryResponse := do
  when (r.accountId ≠ "") do
    exhaustAccountQuota r.accountId r.accountQuotaChargeId
    clearAccountCurrentTask r.accountId
  updateMeta fun m => { m with preferredAccountId := "" }
  retryOr S .usual (textOr diagnostic "千问账号额度不足") S.retryLimit 5 S.retryLimit
    { code := "1", text := "正在更换账号重试，请稍等！", retryAfter := 5 } do
      refundTempQuotaOnce m.ownerTokenHash
      return { code := "0", text := "千问模型生成失败" }

def failQianwenContentRejection (m : Meta) (r : TaskResult) (diagnostic : String) :
    Run QueryResponse := do
  when (r.accountId ≠ "") do
    clearAccountCurrentTask r.accountId
    refundAccountQuotaOnce S r.accountId r.accountQuotaChargeId
  let clientReason := if 0 < m.imageCount then "参考图内容违规" else "提示词输入违规"
  markFailed .usual (takeText 500 (textOr diagnostic "千问返回：当前内容无法生成，请修改后重试"))
  updateMeta fun m => { m with clientError := clientReason }
  refundTempQuotaOnce m.ownerTokenHash
  return { code := "0", text := clientReason }

/-- The texts in which the two chains of Qianwen differ. -/
structure QianwenTexts where
  missing : String
  querying : String
  failed : String

/-- What both chains do with the reply of the platform. -/
def qianwenReply (m : Meta) (r : TaskResult) (lateWatchActive : Bool) (texts : QianwenTexts)
    (reply : Reply) : Run QueryResponse := do
  let state := textOr reply.state "generating"
  let text := takeText 1000 reply.text
  if state = "quota_insufficient" ∨ S.rules.isQianwenAccountQuotaInsufficient text then
    retryQianwenQuotaInsufficientResult S m r text
  else if S.rules.isQianwenContentRejection text then
    failQianwenContentRejection S m r text
  else if S.rules.isQianwenTextOnlyResponse text then
    retryQianwenTextOnlyResult S m r text
  else if state = "succeeded" then
    let videoUrl := S.chars.strip reply.videoUrl
    if videoUrl = "" then
      return { code := "1", text := "千问视频已生成，正在获取无水印地址...", retryAfter := 30 }
    when (r.accountId ≠ "") do
      settleAccountQuota r.accountId r.accountQuotaChargeId
      clearAccountCurrentTask r.accountId
    saveResult fun r => { r with decodedMainUrl := videoUrl, cookieString := "" }
    markResult lateWatchActive
    return { code := "2", text := successText, url := videoUrl }
  else if state = "failed" then
    let reason := textOr text texts.failed
    when (r.accountId ≠ "") do
      clearAccountCurrentTask r.accountId
      refundAccountQuotaOnce S r.accountId r.accountQuotaChargeId
    markFailed .usual (takeText 500 reason)
    refundTempQuotaOnce m.ownerTokenHash
    return { code := "0", text := takeText 500 reason }
  else return { code := "1", text := texts.querying }

/-- The late watch of a failed task is still going on. -/
def lateWatchActive (lateWatch : Bool) (m : Meta) (now : Int) : Bool :=
  lateWatch && m.status == .failed && m.lateResultWatchUntil.any fun until_ => decide (now < until_)

def queryQianwen (m : Meta) (lateWatch backgroundPoll : Bool) : Run QueryResponse := do
  let r ← loadResult
  let cachedUrl := S.chars.strip r.decodedMainUrl
  if cachedUrl ≠ "" then
    markResult lateWatch
    return { code := "2", text := successText, url := cachedUrl }
  let now ← clock
  let active := lateWatchActive lateWatch m now
  if m.status ∉ [.submitted, .success] ∧ active = false then
    if m.status = .running then
      return { code := "1", text := textOr m.statusReason "正在提交千问生成请求" }
    if m.status = .failed then
      return { code := "0", text := textOr (textOr m.clientError m.error) "千问视频生成失败" }
    return { code := "1", text := textOr m.statusReason "千问任务正在排队" }
  if backgroundPoll = false then
    return { code := "1", text := "千问正在生成视频，请稍候..." }
  if r.qianwenResultChain = "ai_studio" then
    let texts : QianwenTexts :=
      { missing := "千问 AI Studio 正在恢复结果查询，请稍候..."
        querying := "千问 AI Studio 正在生成视频，请稍候..."
        failed := "千问 AI Studio 视频生成失败" }
    if r.cookieString = "" ∨ r.qianwenAiStudioRecordId = "" ∨ r.qianwenAiStudioScene = "" then
      return { code := "1", text := texts.missing, retryAfter := 30 }
    let answer ← ask (.fetchQianwen true)
    match answer with
    | none => return { code := "1", text := texts.querying, retryAfter := 30 }
    | some reply => qianwenReply S m r active texts reply
  else
    let texts : QianwenTexts :=
      { missing := "千问正在恢复结果查询，请稍候..."
        querying := "千问正在生成视频，请稍候..."
        failed := "千问视频生成失败" }
    if r.cookieString = "" ∨ r.qianwenSessionId = "" ∨ r.qianwenReqId = "" then
      return { code := "1", text := texts.missing, retryAfter := 30 }
    let answer ← ask (.fetchQianwen false)
    match answer with
    | none => return { code := "1", text := texts.querying, retryAfter := 30 }
    | some reply => qianwenReply S m r active texts reply

/-! ### Doubao -/

/-- What `_query_doubao_task_once` does with the reply of the platform. -/
def doubaoReply (m : Meta) (r : TaskResult) (lateWatch : Bool) (reply : Reply) :
    Run QueryResponse := do
  let state := textOr reply.state "generating"
  let text := takeText 1000 reply.text
  if state = "completed" then
    if reply.videoUrl = "" ∨ reply.acceptable = false then
      saveResult fun r => { r with doubaoWatermarkStatus := "watermarked_fallback" }
      let now ← clock
      updateMeta fun m => { m with nextResultPollAt := some (now + 30 * second) }
      return { code := "1", text := "豆包正在获取无水印视频地址，请稍候...", retryAfter := 30 }
    when (r.accountId ≠ "") do
      when (r.accountQuotaRefunded = false) (settleAccountQuota r.accountId r.accountQuotaChargeId)
      clearAccountCurrentTask r.accountId
    let source := normalized S (textOr reply.source "single_chain")
    let resultSource :=
      if source ∈ doubaoUnwatermarkedResultSources then source else "network_explicit_unwatermarked"
    saveResult fun r =>
      { r with
        decodedMainUrl := reply.videoUrl, doubaoVideoDetectionSource := resultSource
        doubaoResultSource := resultSource, doubaoWatermarkStatus := "original"
        doubaoResultMode := "interface_poll_completed", cookieString := "", conversationId := "" }
    markResult lateWatch
    return { code := "2", text := successText, url := reply.videoUrl }
  when (doubaoCachedWebVideoUrl S r ≠ "") (saveResult fun stored =>
    { stored with
      doubaoResultSource :=
        textOr (textOr r.doubaoResultSource r.doubaoVideoDetectionSource) "video_current_src" })
  if state = "awaiting_unwatermarked" then
    let now ← clock
    updateMeta fun m =>
      { m with
        executionPhase := "waiting_unwatermarked_result"
        statusReason := "豆包视频已生成，正在获取无水印地址"
        nextResultPollAt := some (now + 30 * second) }
    return { code := "1", text := "豆包视频已生成，正在获取无水印地址，请稍候...", retryAfter := 30 }
  else if state = "submission_unconfirmed" then
    let reason := "豆包未返回视频生成提交回执"
    let freshRetryUsed := m.doubaoFreshConversationRetryUsed
    when (r.accountId ≠ "") do
      clearAccountCurrentTask r.accountId
      refundAccountQuotaOnce S r.accountId r.accountQuotaChargeId
      if freshRetryUsed then
        recordFailedAccount r.accountId
        updateMeta fun m =>
          { m with preferredAccountId := "", doubaoFreshConversationRetryUsed := false }
      else
        updateMeta fun m =>
          { m with preferredAccountId := r.accountId, doubaoFreshConversationRetryUsed := true }
    retryOr S .usual reason S.retryLimit 10 S.retryLimit
      { code := "1", text := reason, retryAfter := 10 } do
        refundTempQuotaOnce m.ownerTokenHash
        return { code := "0", text := reason }
  else if state = "quota_insufficient" then
    let reason := textOr text "豆包账号额度不足或已耗尽"
    when (r.accountId ≠ "") do
      exhaustAccountQuota r.accountId r.accountQuotaChargeId
      clearAccountCurrentTask r.accountId
      recordFailedAccount r.accountId
    retryOr S .usual reason S.retryLimit 10 S.retryLimit { code := "1", text := reason }
      (refundOwner { code := "0", text := "多个豆包账号额度均不足，请稍后重试" })
  else if state ∈ ["failed", "login_invalid", "verification"] then
    when (r.accountId ≠ "") do
      when (state = "login_invalid")
        (flagAccount r.accountId (.loginInvalid "豆包接口查询确认登录状态失效"))
      when (state = "verification") (flagAccount r.accountId .sliderVerification)
      refundAccountQuotaOnce S r.accountId r.accountQuotaChargeId
      clearAccountCurrentTask r.accountId
    let reason := textOr text "豆包视频生成失败"
    markFailed .usual reason
    refundTempQuotaOnce m.ownerTokenHash
    return { code := "0", text := reason }
  else if state = "rate_limited" then
    let now ← clock
    updateMeta fun m => { m with nextResultPollAt := some (now + 120 * second) }
    return { code := "1", text := "豆包正在生成视频，请稍候...", retryAfter := 120 }
  else return { code := "1", text := textOr text "豆包正在生成视频，请稍候..." }

/-- A Doubao query that failed, with its HTTP status. -/
def doubaoQueryFailed (r : TaskResult) : Option Nat → Run QueryResponse
  | some 401 => do
    when (r.accountId ≠ "") do
      flagAccount r.accountId (.loginInvalid "豆包接口查询确认登录状态失效")
      refundAccountQuotaOnce S r.accountId r.accountQuotaChargeId
      clearAccountCurrentTask r.accountId
    -- Only here a failed query ends the task, and nothing is refunded to its owner.
    markFailed .doubaoUnauthorized "豆包登录状态失效"
    return { code := "0", text := "豆包登录状态失效" }
  | some status => do
    let retryAfter := if status = 403 ∨ status = 429 then 120 else 30
    let now ← clock
    updateMeta fun m => { m with nextResultPollAt := some (now + retryAfter * second) }
    return { code := "1", text := "豆包正在生成视频，请稍候...", retryAfter }
  | none => do
    let now ← clock
    updateMeta fun m => { m with nextResultPollAt := some (now + 30 * second) }
    return { code := "1", text := "豆包正在获取无水印视频地址，请稍候...", retryAfter := 30 }

/-- `_query_doubao_task_once`. -/
def queryDoubao (m : Meta) (r : TaskResult) (lateWatch : Bool) : Run QueryResponse := do
  if r.doubaoResultMode ≠ "interface_poll" ∧ doubaoCachedWebVideoUrl S r = "" then
    return { code := "1", text := "豆包正在浏览器中等待视频，请稍候..." }
  let now ← clock
  if m.nextResultPollAt.any (fun next => decide (now < next)) then
    return { code := "1", text := "豆包正在生成视频，请稍候..." }
  updateMeta fun m => { m with nextResultPollAt := some (now + 15 * second) }
  if S.chars.strip (textOr r.doubaoConversationId r.conversationId) = "" ∨
      S.chars.strip r.cookieString = "" then
    let now ← clock
    updateMeta fun m => { m with nextResultPollAt := some (now + 30 * second) }
    return { code := "1", text := "豆包正在获取无水印视频地址，请稍候...", retryAfter := 30 }
  let answer ← ask .fetchDoubao
  match answer with
  | .error status => doubaoQueryFailed S r status
  | .ok reply => doubaoReply S m r lateWatch reply

/-! ### Dola -/

/-- `_refresh_confirmed_query_proxy_if_due`: whether the result has to be read again. -/
def refreshConfirmedQueryProxyIfDue (r : TaskResult) (submittedAt : Option Int) : Run Bool := do
  let attempted := r.confirmedQueryProxyRefreshAttemptedAt.isSome
  let due (submitted now : Int) : Bool :=
    decide (confirmedQueryProxyRefreshSeconds * second ≤ now - submitted)
  if normalized S r.proxySource ≠ "api" ∨ S.chars.strip r.conversationId = "" then
    return attempted
  let now ← clock
  if submittedAt.any (due · now) = false ∨ attempted = true then
    return attempted
  let refreshed ← ask .refreshQueryProxy
  saveResult fun r => { r with confirmedQueryProxyRefreshAttemptedAt := some now }
  return refreshed

/-- What a task is told that is neither submitted nor successful nor watched late. -/
def queryInactive (m : Meta) : Run QueryResponse := do
  let failed := m.status = .failed
  if m.status = .running then
    return { code := "1", text := textOr m.statusReason "正在准备生成任务" }
  if failed ∧ m.error ∈ ["超时生成失败", "重试超过30分钟，生成失败"] then
    return { code := "0", text := textOr m.error "超时生成失败" }
  if m.status = .pending ∧
      (m.error = policyRetryingText ∨ S.rules.isSuspectedPolicyFalsePositive m.error) then
    return { code := "1", text := policyRetryingText }
  if failed ∧ S.rules.isSuspectedPolicyFalsePositive m.error then
    refundTempQuotaOnce m.ownerTokenHash
    return { code := "0", text := policyRetryText }
  if 0 < m.retryCount ∧ S.rules.isFinalGenerationFailure m.error then
    return { code := "1", text := retryGeneratingText }
  if failed ∧ m.error = "任务超时未执行" then
    return { code := "0", text := "任务超时未执行" }
  if failed ∧ m.error = "browser timeout" then
    return { code := "0", text := "浏览器超时" }
  if failed ∧ m.error = "region restricted" then
    return { code := "0", text := "Dola 当前地区不可用" }
  let failureDetail := S.chars.strip (textOr (textOr m.error m.lastAttemptError) m.infrastructureError)
  if failed ∧ failureDetail ≠ "" then
    return { code := "0", text := failureDetail }
  if failed ∧ S.retryLimit < m.retryCount then
    return { code := "0", text := "多次生成失败" }
  if failed then
    return { code := "0", text := "任务失败，服务器未保存原始错误详情" }
  if m.status = .pending ∧ (0 < m.retryCount ∨ 0 < m.infrastructureRetryCount) then
    return { code := "1", text := "正在重试中，请稍等！" }
  if m.status = .pending ∧ textOr m.statusReason m.queueReason ≠ "" then
    return { code := "1", text := textOr m.statusReason m.queueReason }
  return { code := "0", text := "" }

/-- A submission of which no conversation is known. -/
def queryWithoutConversation (m : Meta) (r : TaskResult) : Run QueryResponse := do
  let now ← clock
  let waitedLong := r.submissionAmbiguous &&
    r.submissionAmbiguousAt.any fun since =>
      decide (ambiguousSubmissionRecoverySeconds * second ≤ now - since)
  if waitedLong = false then
    return { code := "1", text := "没有文本" }
  refundAccountQuotaOnce S r.accountId r.accountQuotaChargeId
  let proxyNodeId := S.chars.strip r.proxyNodeId
  if r.accountId ≠ "" ∧ normalized S r.proxySource = "api" ∧
      max 0 m.ambiguousProxyRetryCount < ambiguousProxyRetriesPerAccount then
    retryAmbiguousProxyTask S
      (S.ambiguousRetryReason "提交后未取得有效会话，正在更换代理重试" r) r.accountId proxyNodeId 3
    clearTransientResult
    return { code := "1", text := "正在重试中，请稍等！" }
  when (r.accountId ≠ "") do
    clearAccountCurrentTask r.accountId
    recordFailedAccount r.accountId
  updateMeta fun m => { m with proxyRetryAvoidNodeId := proxyNodeId }
  let retryCount ← retryAmbiguousSubmittedTask S
    (S.ambiguousRetryReason "提交后未取得有效会话，正在安全重试" r) S.retryLimit 3
  if retryCount ≤ S.retryLimit then
    clearTransientResult
    return { code := "1", text := "正在重试中，请稍等！" }
  refundOwner { code := "0", text := "生成失败，请重试！" }

/-- The account of a submission whose answer is a failure: free it, give its charge back. -/
def freeAccount (r : TaskResult) (failed : Bool) : Run Unit :=
  when (r.accountId ≠ "") do
    clearAccountCurrentTask r.accountId
    refundAccountQuotaOnce S r.accountId r.accountQuotaChargeId
    when (failed = true) (recordFailedAccount r.accountId)

/-- What the text of a Dola conversation without a video means for the task. -/
def queryText (m : Meta) (r : TaskResult) (text : String) : Run QueryResponse := do
  let retry (reason : String) (again : QueryResponse) (site : Site) (otherwise : Run QueryResponse) :=
    retryOr S site reason S.retryLimit 10 S.retryLimit again otherwise
  if S.rules.isTenSecondGenerationLimit text then
    when (r.accountId ≠ "") (flagAccount r.accountId .tenSecondLimit)
    freeAccount S r true
    retry tenSecondLimitText { code := "1", text := tenSecondLimitText } .beforeFailing
      (failAndRefundOwner tenSecondLimitText { code := "0", text := tenSecondLimitText })
  else if S.rules.isPortraitProtectionRejection text then
    if m.referenceIsRealPerson = false then
      freeAccount S r false
      markFailed .usual referenceRealPersonRequiredText
      refundTempQuotaOnce m.ownerTokenHash
      return { code := "0", text := referenceRealPersonRequiredText }
    updateMeta id
    freeAccount S r true
    let portraitRetryCount := max 0 m.portraitProtectionRetryCount
    let invalid := failThenRefundOwner referenceImageInvalidText
      { code := "0", text := referenceImageInvalidText }
    if 0 < m.imageCount ∧ portraitRetryCount < 1 then
      updateMeta fun m => { m with portraitProtectionRetryCount := portraitRetryCount + 1 }
      retry portraitProtectionRetryText { code := "1", text := "正在重试中，请稍等！" } .beforeFailing
        invalid
    else invalid
  else if S.rules.isMissingReferenceImageRequest text then
    updateMeta id
    freeAccount S r (decide (0 < m.imageCount))
    let required := failThenRefundOwner referenceImageRequiredText
      { code := "0", text := referenceImageRequiredText }
    if 0 < m.imageCount then
      retry referenceImageRetryText { code := "1", text := referenceImageRetryText } .beforeFailing
        required
    else required
  else if S.rules.isAccountQuotaInsufficient text then
    when (r.accountId ≠ "") do
      clearAccountCurrentTask r.accountId
      if textOr m.platform "dola" = "dola" then
        op (.exhaustTimedOutAccount r.accountId r.accountQuotaChargeId)
      else exhaustAccountQuota r.accountId r.accountQuotaChargeId
      recordFailedAccount r.accountId
    retry accountQuotaRetryText { code := "1", text := accountQuotaRetryText } .usual
      (refundOwner { code := "0", text := "多个账号额度均不足，请稍后重试" })
  else if S.chars.strip text = dolaSameAccountRetryText then
    freeAccount S r false
    updateMeta fun stored =>
      { stored with prompt := S.sameAccountRetryPrompt m.prompt, preferredAccountId := r.accountId }
    retry dolaSameAccountRetryText { code := "1", text := retryGeneratingText } .beforeFailing
      (failAndRefundOwner "多次生成失败" { code := "0", text := "多次生成失败" })
  else if S.rules.isGenerationFailureText text then
    if S.rules.isSuspectedPolicyFalsePositive text then
      when (r.accountId ≠ "") do
        clearAccountCurrentTask r.accountId
        recordFailedAccount r.accountId
        consumeFailedAccountQuota S (textOr m.platform "dola") r.accountId r.accountQuotaChargeId
      -- The limit is a literal here, and the store clamps it to the configured one.
      retryOr S .policyRetry policyRetryingText 1 10 1 { code := "1", text := policyRetryingText }
        (failThenRefundOwner policyRetryText { code := "0", text := policyRetryText })
    else
      let loginInvalid := S.rules.isAccountLoginInvalid text
      when (r.accountId ≠ "") do
        clearAccountCurrentTask r.accountId
        recordFailedAccount r.accountId
        if loginInvalid then
          flagAccount r.accountId (.loginInvalid "Dola 登录状态失效（游客模式）")
          refundAccountQuotaOnce S r.accountId r.accountQuotaChargeId
        else
          consumeFailedAccountQuota S (textOr m.platform "dola") r.accountId r.accountQuotaChargeId
      retry (takeText 500 text) { code := "1", text := retryGeneratingText } .beforeFailing
        (failAndRefundOwner "多次生成失败" { code := "0", text := "多次生成失败" })
  else return { code := "1", text := generatingText }

/-- A conversation is known: ask it for the video. -/
def queryConversation (m : Meta) (r : TaskResult) (conversationId : String) (active : Bool) :
    Run QueryResponse := do
  saveResult fun r =>
    { r with
      conversationId, submissionAmbiguous := false, submissionAmbiguousAt := none
      submitConfirmationState := "confirmed" }
  when (m.preferredAccountId ≠ "" ∨ m.ambiguousProxyRetryCount ≠ 0 ∨
      m.ambiguousProxyAvoidNodeIds ≠ [])
    (updateMeta fun m =>
      { m with
        preferredAccountId := "", ambiguousProxyRetryCount := 0
        ambiguousProxyAvoidNodeIds := [], proxyRetryAvoidNodeId := "" })
  let answer ← ask .fetchSingleChain
  match answer with
  | none => return { code := "1", text := "没有文本" }
  | some chain =>
    if chain.decodedMainUrl ≠ "" then
      when (r.accountId ≠ "") do
        settleAccountQuota r.accountId r.accountQuotaChargeId
        clearAccountCurrentTask r.accountId
      saveResult fun r =>
        { r with decodedMainUrl := chain.decodedMainUrl, cookieString := "", conversationId := "" }
      markResult active
      return { code := "2", text := successText, url := chain.decodedMainUrl }
    if active then
      return { code := "1", text := "late result observation" }
    queryText S m r (textOr chain.ttsContent "没有文本")

/-- The end of `_query_task_once`: Dola, and whatever the other paths leave to it. -/
def queryDola (m : Meta) (lateWatch : Bool) : Run QueryResponse := do
  let now ← clock
  let active := lateWatchActive lateWatch m now
  if m.status ∉ [.submitted, .success] ∧ active = false then
    queryInactive S m
  else
    let r ← loadResult
    if r.decodedMainUrl ≠ "" then
      when (r.accountId ≠ "") (clearAccountCurrentTask r.accountId)
      markSuccess
      return { code := "2", text := successText, url := r.decodedMainUrl }
    let readAgain ← refreshConfirmedQueryProxyIfDue S r (m.submittedAt <|> m.updatedAt)
    let current ← loadResult
    let result := if readAgain then current else r
    if r.cookieString = "" then
      return { code := "1", text := "没有文本" }
    let fromSse := S.extractConversationId result.sseText
    let known := if fromSse ≠ "" then fromSse else result.conversationId
    if known ≠ "" then
      queryConversation S m result known active
    else if result.submissionCollectionId ≠ "" ∨ result.localConversationId ≠ "" ∨
        result.submissionUniqueKey ≠ "" then
      let recovered ← ask .fetchRecentConversation
      let conversationId := recovered.getD ""
      if conversationId ≠ "" then queryConversation S m result conversationId active
      else queryWithoutConversation S m result
    else queryWithoutConversation S m result

/-! ### All platforms -/

/-- `query_task`. -/
def queryTask (lateWatch backgroundPoll : Bool) : Run QueryResponse := do
  let _ ← expireTaskIfTimeout
  let m ← getMeta
  let platform := textOr m.platform "dola"
  if platform = "qianwen" then
    queryQianwen S m lateWatch backgroundPoll
  else if platform = "doubao" then
    let r ← loadResult
    let canUpgradeWebCache := doubaoCachedWebVideoUrl S r ≠ "" ∧
      S.chars.strip (textOr r.doubaoConversationId r.conversationId) ≠ "" ∧
      S.chars.strip r.cookieString ≠ ""
    if m.status ∈ [.submitted, .success] ∨ lateWatch = true ∨ canUpgradeWebCache then
      let url := doubaoCachedUnwatermarkedVideoUrl S r
      if url ≠ "" then
        markResult lateWatch
        return { code := "2", text := successText, url }
      else if backgroundPoll = false ∧ ¬ canUpgradeWebCache then
        return { code := "1", text := "豆包正在获取无水印视频地址，请稍候..." }
      else queryDoubao S m r lateWatch
    else queryDola S m lateWatch
  else queryDola S m lateWatch

end Query

end FetchTask.Lifecycle
