import FetchTask.Lifecycle.Wiping

/-!
Every call but the writes of an automation is steady, function by function in the
order of the source.
-/

namespace FetchTask.Lifecycle

open Store

variable {S : Setting} {α : Type} {k : Sight}

/-! ### The query -/

theorem steady_refundOwner (answer : QueryResponse) : Steady S k (refundOwner answer) :=
  steady_getMeta.bind fun _ => (steady_refundTempQuotaOnce _).bind fun _ => steady_pure _

theorem steady_refund_return (hash : String) (answer : α) :
    Steady S k (refundTempQuotaOnce hash >>= fun _ => pure answer) :=
  (steady_refundTempQuotaOnce hash).bind fun _ => steady_pure _

theorem steady_failAndRefundOwner (reason : String) (answer : QueryResponse) :
    Steady S k (failAndRefundOwner reason answer) :=
  steady_getMeta.bind fun _ => (steady_markFailed _ _).bind fun _ => steady_refund_return _ _

theorem steady_failThenRefundOwner (reason : String) (answer : QueryResponse) :
    Steady S k (failThenRefundOwner reason answer) :=
  (steady_markFailed _ _).bind fun _ => steady_refundOwner _

theorem steady_markResult (lateWatch : Bool) : Steady S k (markResult lateWatch) :=
  steady_ite steady_markLateResultSuccess steady_markSuccess

section Query

variable {m : Meta} {r : TaskResult}

theorem steady_retryQianwenTextOnlyResult (hunfinished : k.unfinished = true)
    (diagnostic : String) :
    Steady S k (retryQianwenTextOnlyResult S m r diagnostic) := by
  refine Steady.bind (steady_when ?_) fun _ => Steady.bind (steady_updateMeta fun _ => rfl) fun _ => ?_
  · exact (steady_clearAccountCurrentTask _).bind fun _ => steady_refundAccountQuotaOnce _ _
  · exact steady_retryOr hunfinished nofun (steady_refund_return _ _)

theorem steady_retryQianwenQuotaInsufficientResult (hunfinished : k.unfinished = true)
    (diagnostic : String) :
    Steady S k (retryQianwenQuotaInsufficientResult S m r diagnostic) := by
  refine Steady.bind (steady_when ?_) fun _ => Steady.bind (steady_updateMeta fun _ => rfl) fun _ => ?_
  · exact (steady_exhaustAccountQuota _ _).bind fun _ => steady_clearAccountCurrentTask _
  · exact steady_retryOr hunfinished nofun (steady_refund_return _ _)

theorem steady_failQianwenContentRejection (diagnostic : String) :
    Steady S k (failQianwenContentRejection S m r diagnostic) := by
  refine Steady.bind (steady_when ?_) fun _ => ?_
  · exact (steady_clearAccountCurrentTask _).bind fun _ => steady_refundAccountQuotaOnce _ _
  · refine (steady_markFailed _ _).bind fun _ => Steady.bind (steady_updateMeta fun _ => rfl) fun _ => ?_
    exact steady_refund_return _ _

theorem steady_qianwenReply (hunfinished : k.unfinished = true) (hcookie : k.cookie = true)
    (active : Bool) (texts : QianwenTexts) (reply : Reply) :
    Steady S k (qianwenReply S m r active texts reply) := by
  unfold qianwenReply
  dsimp only
  refine steady_ite (steady_retryQianwenQuotaInsufficientResult hunfinished _) ?_
  refine steady_ite (steady_failQianwenContentRejection _) ?_
  refine steady_ite (steady_retryQianwenTextOnlyResult hunfinished _) ?_
  split
  · split
    · exact steady_pure _
    · rename_i hurl
      refine Steady.bind (steady_when ?_) fun _ => ?_
      · exact (steady_settleAccountQuota _ _).bind fun _ => steady_clearAccountCurrentTask _
      · refine (steady_storeVideo hcookie fun _ => hurl).bind fun _ => ?_
        exact (steady_markResult active).bind fun _ => steady_pure _
  refine steady_ite (Steady.bind (steady_when ?_) fun _ => ?_) (steady_pure _)
  · exact (steady_clearAccountCurrentTask _).bind fun _ => steady_refundAccountQuotaOnce _ _
  · exact (steady_markFailed _ _).bind fun _ => steady_refund_return _ _

theorem steady_queryQianwen (lateWatch backgroundPoll : Bool) :
    Steady S k (queryQianwen S m lateWatch backgroundPoll) := by
  refine steady_loadResult_bind fun r => ?_
  dsimp only
  split
  · exact (steady_markResult lateWatch).bind fun _ => steady_pure _
  rename_i hurl
  have hunfinished : (k.loads S r).unfinished = true := Sight.unfinished_loads (not_not.mp hurl)
  refine steady_clock.bind fun now => ?_
  split
  · exact steady_ite (steady_pure _) (steady_ite (steady_pure _) (steady_pure _))
  split
  · exact steady_pure _
  split
  · split
    · exact steady_pure _
    · rename_i hmissing
      have hcookie : (k.loads S r).cookie = true :=
        Sight.cookie_loads fun h => hmissing (.inl h)
      refine (steady_ask _).bind fun answer => ?_
      cases answer with
      | none => exact steady_pure _
      | some reply => exact steady_qianwenReply hunfinished hcookie _ _ _
  · split
    · exact steady_pure _
    · rename_i hmissing
      have hcookie : (k.loads S r).cookie = true :=
        Sight.cookie_loads fun h => hmissing (.inl h)
      refine (steady_ask _).bind fun answer => ?_
      cases answer with
      | none => exact steady_pure _
      | some reply => exact steady_qianwenReply hunfinished hcookie _ _ _

theorem steady_doubaoReply (hcookie : k.cookie = true) (lateWatch : Bool) (reply : Reply)
    (hheard : reply.unsubmitted = true → k.unfinished = true) :
    Steady S k (doubaoReply S m r lateWatch reply) := by
  unfold doubaoReply
  dsimp only
  split
  · split
    · exact Steady.bind (steady_saveResult fun _ => rfl) fun _ => steady_clock.bind fun _ =>
        Steady.bind (steady_updateMeta fun _ => rfl) fun _ => steady_pure _
    · rename_i hurl
      have hvideo : reply.videoUrl ≠ "" := fun h => hurl (.inl h)
      refine Steady.bind (steady_when ?_) fun _ => ?_
      · exact (steady_when (steady_settleAccountQuota _ _)).bind fun _ =>
          steady_clearAccountCurrentTask _
      · refine (steady_storeVideo hcookie fun _ => hvideo).bind fun _ => ?_
        exact (steady_markResult lateWatch).bind fun _ => steady_pure _
  refine Steady.bind (steady_when (steady_saveResult fun _ => rfl)) fun _ => ?_
  refine steady_ite (steady_clock.bind fun _ =>
    Steady.bind (steady_updateMeta fun _ => rfl) fun _ => steady_pure _) ?_
  split
  · rename_i hstate
    have hunfinished := hheard (by simp [Reply.unsubmitted, hstate])
    refine Steady.bind (steady_when ?_) fun _ => steady_retryOr hunfinished nofun (steady_refund_return _ _)
    refine (steady_clearAccountCurrentTask _).bind fun _ => ?_
    refine (steady_refundAccountQuotaOnce _ _).bind fun _ => steady_ite ?_ (steady_updateMeta fun _ => rfl)
    exact (steady_recordFailedAccount _).bind fun _ => steady_updateMeta fun _ => rfl
  split
  · rename_i hstate
    have hunfinished := hheard (by simp [Reply.unsubmitted, hstate])
    refine Steady.bind (steady_when ?_) fun _ => steady_retryOr hunfinished nofun (steady_refundOwner _)
    exact (steady_exhaustAccountQuota _ _).bind fun _ =>
      (steady_clearAccountCurrentTask _).bind fun _ => steady_recordFailedAccount _
  refine steady_ite (Steady.bind (steady_when ?_) fun _ => ?_) ?_
  · refine (steady_when (steady_flagAccount _ _)).bind fun _ => ?_
    refine (steady_when (steady_flagAccount _ _)).bind fun _ => ?_
    exact (steady_refundAccountQuotaOnce _ _).bind fun _ => steady_clearAccountCurrentTask _
  · exact (steady_markFailed _ _).bind fun _ => steady_refund_return _ _
  refine steady_ite ?_ (steady_pure _)
  exact steady_clock.bind fun _ => Steady.bind (steady_updateMeta fun _ => rfl) fun _ => steady_pure _

theorem steady_doubaoQueryFailed (status : Option Nat) :
    Steady S k (doubaoQueryFailed S r status) := by
  unfold doubaoQueryFailed
  split
  · refine Steady.bind (steady_when ?_) fun _ => ?_
    · exact (steady_flagAccount _ _).bind fun _ => (steady_refundAccountQuotaOnce _ _).bind fun _ =>
        steady_clearAccountCurrentTask _
    · exact (steady_markFailed _ _).bind fun _ => steady_pure _
  · exact steady_clock.bind fun _ => Steady.bind (steady_updateMeta fun _ => rfl) fun _ => steady_pure _
  · exact steady_clock.bind fun _ => Steady.bind (steady_updateMeta fun _ => rfl) fun _ => steady_pure _

theorem steady_queryDoubao (hread : r.cookieString ≠ "" → k.cookie = true) (lateWatch : Bool) :
    Steady S k (queryDoubao S m r lateWatch) := by
  refine steady_ite (steady_pure _) (steady_clock.bind fun now => ?_)
  refine steady_ite (steady_pure _) (Steady.bind (steady_updateMeta fun _ => rfl) fun _ => ?_)
  split
  · exact steady_clock.bind fun _ => Steady.bind (steady_updateMeta fun _ => rfl) fun _ => steady_pure _
  rename_i hmissing
  have hcookie : k.cookie = true :=
    hread fun hempty => hmissing (.inr (hempty.symm ▸ Sight.strip_empty))
  refine steady_ask_bind fun answer => ?_
  cases answer with
  | error status => exact steady_doubaoQueryFailed status
  | ok reply =>
    have hheard : (k.hears .fetchDoubao (.ok reply)).cookie = true := (k.le_hears _ _).2 hcookie
    refine steady_doubaoReply hheard lateWatch reply fun hunsubmitted => ?_
    simp [Sight.hears, hunsubmitted]

theorem steady_refreshConfirmedQueryProxyIfDue (submittedAt : Option Int) :
    Steady S k (refreshConfirmedQueryProxyIfDue S r submittedAt) := by
  unfold refreshConfirmedQueryProxyIfDue
  dsimp only
  refine steady_ite (steady_pure _) (steady_clock.bind fun now => steady_ite (steady_pure _) ?_)
  exact (steady_ask _).bind fun _ => Steady.bind (steady_saveResult fun _ => rfl) fun _ => steady_pure _

theorem steady_queryInactive : Steady S k (queryInactive S m) := by
  unfold queryInactive
  dsimp only
  refine steady_ite (steady_pure _) (steady_ite (steady_pure _) (steady_ite (steady_pure _) ?_))
  refine steady_ite (steady_refund_return _ _) ?_
  repeat refine steady_ite (steady_pure _) ?_
  exact steady_pure _

theorem steady_freeAccount (failed : Bool) : Steady S k (freeAccount S r failed) :=
  steady_when <| (steady_clearAccountCurrentTask _).bind fun _ =>
    (steady_refundAccountQuotaOnce _ _).bind fun _ => steady_when (steady_recordFailedAccount _)

theorem steady_queryWithoutConversation (hunfinished : k.unfinished = true) :
    Steady S k (queryWithoutConversation S m r) := by
  refine steady_clock.bind fun now => ?_
  dsimp only
  refine steady_ite (steady_pure _) ((steady_refundAccountQuotaOnce _ _).bind fun _ => ?_)
  refine steady_ite (steady_retryAmbiguousProxyTask_bind hunfinished (steady_pure _)) ?_
  refine Steady.bind (steady_when ?_) fun _ => Steady.bind (steady_updateMeta fun _ => rfl) fun _ => ?_
  · exact (steady_clearAccountCurrentTask _).bind fun _ => steady_recordFailedAccount _
  · exact steady_retry hunfinished (fun _ _ => rfl) (fun _ _ => rfl) (steady_pure _) (steady_refundOwner _)

theorem steady_queryText (hunfinished : k.unfinished = true) (text : String) :
    Steady S k (queryText S m r text) := by
  unfold queryText
  dsimp only
  split
  · refine (steady_when (steady_flagAccount _ _)).bind fun _ => ?_
    exact (steady_freeAccount _).bind fun _ =>
      steady_retryOr hunfinished nofun (steady_failAndRefundOwner _ _)
  split
  · split
    · refine (steady_freeAccount _).bind fun _ => ?_
      exact (steady_markFailed _ _).bind fun _ => steady_refund_return _ _
    refine Steady.bind (steady_updateMeta fun _ => rfl) fun _ => (steady_freeAccount _).bind fun _ => ?_
    refine steady_ite (Steady.bind (steady_updateMeta fun _ => rfl) fun _ => ?_)
      (steady_failThenRefundOwner _ _)
    exact steady_retryOr hunfinished nofun (steady_failThenRefundOwner _ _)
  split
  · refine Steady.bind (steady_updateMeta fun _ => rfl) fun _ => (steady_freeAccount _).bind fun _ => ?_
    exact steady_ite (steady_retryOr hunfinished nofun (steady_failThenRefundOwner _ _))
      (steady_failThenRefundOwner _ _)
  split
  · refine Steady.bind (steady_when ?_) fun _ => steady_retryOr hunfinished nofun (steady_refundOwner _)
    refine (steady_clearAccountCurrentTask _).bind fun _ => steady_ite ?_ ?_
    · exact Steady.bind (steady_op fun _ => ⟨trivial, fun _ _ => rfl⟩) fun _ => steady_recordFailedAccount _
    · exact (steady_exhaustAccountQuota _ _).bind fun _ => steady_recordFailedAccount _
  split
  · refine (steady_freeAccount _).bind fun _ => Steady.bind (steady_updateMeta fun _ => rfl) fun _ => ?_
    exact steady_retryOr hunfinished nofun (steady_failAndRefundOwner _ _)
  split
  · split
    · refine (steady_when ?_).bind fun _ => steady_retryOr_policy hunfinished (steady_failThenRefundOwner _ _)
      exact (steady_clearAccountCurrentTask _).bind fun _ =>
        (steady_recordFailedAccount _).bind fun _ => steady_consumeFailedAccountQuota _ _ _
    · refine Steady.bind (steady_when ?_) fun _ =>
        steady_retryOr hunfinished nofun (steady_failAndRefundOwner _ _)
      refine (steady_clearAccountCurrentTask _).bind fun _ => ?_
      refine (steady_recordFailedAccount _).bind fun _ => steady_ite ?_ ?_
      · exact (steady_flagAccount _ _).bind fun _ => steady_refundAccountQuotaOnce _ _
      · exact steady_consumeFailedAccountQuota _ _ _
  · exact steady_pure _

theorem steady_queryConversation (hunfinished : k.unfinished = true) (hcookie : k.cookie = true)
    (conversationId : String) (active : Bool) :
    Steady S k (queryConversation S m r conversationId active) := by
  refine Steady.bind (steady_saveResult fun _ => rfl) fun _ => ?_
  refine Steady.bind (steady_when (steady_updateMeta fun _ => rfl)) fun _ =>
    (steady_ask _).bind fun answer => ?_
  cases answer with
  | none => exact steady_pure _
  | some chain =>
    dsimp only
    split
    · rename_i hurl
      refine Steady.bind (steady_when ?_) fun _ => ?_
      · exact (steady_settleAccountQuota _ _).bind fun _ => steady_clearAccountCurrentTask _
      · refine (steady_storeVideo hcookie fun _ => hurl).bind fun _ => ?_
        exact (steady_markResult active).bind fun _ => steady_pure _
    · exact steady_ite (steady_pure _) (steady_queryText hunfinished _)

theorem steady_queryDola (lateWatch : Bool) : Steady S k (queryDola S m lateWatch) := by
  refine steady_clock.bind fun now => steady_ite steady_queryInactive ?_
  refine steady_loadResult_bind fun r => ?_
  split
  · exact (steady_when (steady_clearAccountCurrentTask _)).bind fun _ =>
      steady_markSuccess.bind fun _ => steady_pure _
  rename_i hurl
  have hunfinished : (k.loads S r).unfinished = true :=
    Sight.unfinished_loads (by rw [not_not.mp hurl, Sight.strip_empty])
  refine (steady_refreshConfirmedQueryProxyIfDue _).bind fun readAgain => ?_
  refine steady_loadResult_bind' fun current => ?_
  dsimp only
  split
  · exact steady_pure _
  rename_i hmissing
  have hcookie : (k.loads S r).cookie = true := Sight.cookie_loads hmissing
  refine steady_ite (steady_queryConversation hunfinished hcookie _ _) ?_
  refine steady_ite ((steady_ask _).bind fun recovered => ?_)
    (steady_queryWithoutConversation hunfinished)
  exact steady_ite (steady_queryConversation hunfinished hcookie _ _)
    (steady_queryWithoutConversation hunfinished)

end Query

theorem steady_queryTask (lateWatch backgroundPoll : Bool) :
    Steady S k (queryTask S lateWatch backgroundPoll) := by
  refine steady_expireTaskIfTimeout.bind fun _ => steady_getMeta.bind fun m => ?_
  refine steady_ite (steady_queryQianwen _ _) (steady_ite ?_ (steady_queryDola _))
  refine steady_loadResult_bind fun r => steady_ite ?_ (steady_queryDola _)
  refine steady_ite ((steady_markResult _).bind fun _ => steady_pure _) ?_
  exact steady_ite (steady_pure _) (steady_queryDoubao Sight.cookie_loads _)

/-! ### The watchdog -/

theorem steady_suppressNotFound {body : Run Unit} (h : Steady S k body) :
    Steady S k (suppressNotFound body) := by
  refine h.tryCatch fun fault => ?_
  cases fault with
  | fileNotFound => exact steady_pure ()
  | cancelled => exact steady_throw _
  | error reason => exact steady_throw _

theorem steady_suppressed {body : Run Unit} (h : Steady S k body) : Steady S k (suppressed body) := by
  refine h.tryCatch fun fault => ?_
  cases fault with
  | cancelled => exact steady_throw _
  | fileNotFound => exact steady_pure ()
  | error reason => exact steady_pure ()

theorem steady_closeLateWatch (m : Meta) : Steady S k (closeLateWatch m) := steady_updateMeta fun _ => rfl

theorem steady_failTimedOut (m : Meta) (platform timeoutReason : String) (submittedAt now : Int) :
    Steady S k (failTimedOut m platform timeoutReason submittedAt now) := by
  refine (steady_markFailed _ _).bind fun _ => (steady_refundTempQuotaOnce _).bind fun _ => ?_
  exact steady_ite (steady_updateMeta fun _ => rfl) (steady_updateMeta fun _ => rfl)

theorem steady_resultWatchTimedOut {m : Meta} {r : TaskResult} {platform : String}
    {submittedAt now : Int} (hunfinished : k.unfinished = true) :
    Steady S k (resultWatchTimedOut S m r platform submittedAt now) := by
  refine Steady.bind (steady_when ?_) fun _ => ?_
  · have hrest : Steady S k (do
        clearAccountCurrentTask r.accountId
        when (platform = "qianwen") (recordFailedAccount r.accountId)) :=
      (steady_clearAccountCurrentTask _).bind fun _ => steady_when (steady_recordFailedAccount _)
    exact steady_ite ((steady_refundAccountQuotaOnce _ _).bind fun _ => hrest)
      ((steady_settleAccountQuota _ _).bind fun _ => hrest)
  refine steady_ite (Steady.bind (steady_updateMeta fun _ => rfl) fun _ => ?_) (steady_failTimedOut _ _ _ _ _)
  refine steady_retry hunfinished (fun _ _ => rfl) (fun now count => ?_) (steady_pure ())
    (steady_failTimedOut _ _ _ _ _)
  simp [wipesAfter, comparedLimit]

theorem steady_pollResult {m : Meta} {r : TaskResult} {platform : String} {lateWatch : Bool}
    {age : Int} : Steady S k (pollResult S m r platform lateWatch age) := by
  refine Steady.bind (steady_when ?_) fun _ => Steady.bind (steady_when ?_) fun _ => ?_
  · exact steady_clock.bind fun _ => steady_updateMeta fun _ => rfl
  · exact (steady_when (steady_clearAccountCurrentTask _)).bind fun _ =>
      steady_clock.bind fun _ => steady_updateMeta fun _ => rfl
  refine (steady_ask _).bind fun paced => (steady_raised paced).bind fun _ => ?_
  refine (steady_queryTask lateWatch true).bind fun outcome => steady_ite (steady_pure _) ?_
  refine steady_getMeta.bind fun current => steady_ite (steady_pure _) ?_
  refine Steady.bind (steady_write fun _ => ⟨fun _ => rfl, fun _ => rfl⟩) fun missCount =>
    (steady_ask _).bind fun jitter => ?_
  exact steady_clock.bind fun now => steady_updateMeta fun _ => rfl

theorem steady_watchResult : Steady S k (watchResult S) := by
  refine steady_loadResult_bind fun r => ?_
  split
  · refine steady_getMeta.bind fun m => steady_clock.bind fun now => ?_
    exact (steady_when steady_markLateResultSuccess).bind fun _ => steady_pure _
  rename_i hurl
  have hunfinished : (k.loads S r).unfinished = true :=
    Sight.unfinished_loads (by rw [not_not.mp hurl, Sight.strip_empty])
  refine steady_getMeta.bind fun m => ?_
  refine steady_ite (steady_pure _) (steady_clock.bind fun now => steady_ite (steady_pure _) ?_)
  refine steady_clock.bind fun now => steady_ite (steady_closeLateWatch m) ?_
  dsimp only
  cases m.submittedAt <|> m.updatedAt with
  | none => exact steady_pollResult
  | some submitted => exact steady_ite (steady_resultWatchTimedOut hunfinished) steady_pollResult

theorem steady_watchUnfinishedSuccessTask : Steady S k (watchUnfinishedSuccessTask S) := by
  refine steady_watchResult.tryCatch fun fault => ?_
  cases fault with
  | fileNotFound => exact steady_pure ()
  | cancelled => exact steady_throw _
  | error reason =>
    refine steady_suppressed (steady_getMeta.bind fun m => steady_clock.bind fun now => ?_)
    exact steady_when (steady_clock.bind fun _ => steady_updateMeta fun _ => rfl)

theorem steady_reconcilePendingRetries : Steady S k reconcilePendingRetries := by
  refine steady_clock.bind fun now => steady_readMeta.bind fun listed => ?_
  cases listed with
  | none => exact steady_pure ()
  | some m =>
    refine steady_ite (steady_pure _) (steady_expireTaskIfTimeout.bind fun expired => ?_)
    refine steady_ite (steady_pure _) (steady_suppressed ?_)
    exact Steady.bind (steady_write fun _ => ⟨fun _ => rfl, fun _ => rfl⟩) fun _ => steady_pure ()

theorem steady_recordStalledRun (m : Meta) (reason : String) :
    Steady S k (recordStalledRun m reason) :=
  Steady.bind (steady_write fun _ => ⟨fun _ => rfl, fun _ => rfl⟩) fun _ =>
    steady_when (steady_refundTempQuotaOnce _)

theorem steady_watchRunningTask : Steady S k watchRunningTask := by
  refine steady_getMeta.bind fun m => steady_ite (steady_pure _) (steady_clock.bind fun now => ?_)
  refine steady_ite (steady_pure _) ((steady_ask _).bind fun runs => steady_ite ?_ ?_)
  · exact (steady_ask _).bind fun _ => steady_ite (steady_pure _) (steady_recordStalledRun _ _)
  · exact steady_recordStalledRun _ _

theorem steady_watchRows (submitted : Bool) (late : Option Meta) :
    Steady S k (watchRows S submitted late) := by
  cases late with
  | none => exact steady_when steady_watchUnfinishedSuccessTask
  | some m =>
    refine steady_clock.bind fun now => steady_ite steady_watchUnfinishedSuccessTask ?_
    exact (steady_closeLateWatch m).bind fun _ => steady_when steady_watchUnfinishedSuccessTask

theorem steady_watchRunningTasksOnce : Steady S k (watchRunningTasksOnce S) := by
  refine steady_clock.bind fun now => steady_readMeta.bind fun submittedRow => ?_
  refine steady_readMeta.bind fun lateRow => (steady_watchRows _ _).bind fun _ => ?_
  refine (steady_ask _).bind fun due => (steady_when steady_reconcilePendingRetries).bind fun _ => ?_
  exact steady_readMeta.bind fun row => steady_when (steady_suppressNotFound steady_watchRunningTask)

/-! ### The worker -/

theorem steady_deferTask (reason category : String) (delay : Int) :
    Steady S k (deferTask reason category delay) :=
  Steady.bind (steady_write fun _ => ⟨fun _ => rfl, fun _ => rfl⟩) fun _ => steady_pure ()

theorem steady_canRunTask (workerId : String) : Steady S k (canRunTask workerId) :=
  steady_getMeta.bind fun _ => steady_pure _

theorem steady_sleep (seconds : Int) : Steady S k (sleep seconds) :=
  (steady_ask _).bind fun slept => steady_raised slept

theorem steady_failAndRefund (m : Meta) (reason : String) : Steady S k (failAndRefund m reason) :=
  (steady_markFailed _ _).bind fun _ => steady_refundTempQuotaOnce _

theorem steady_handleUnavailableAccount (m : Meta) (platform : String) :
    Steady S k (handleUnavailableAccount m platform) := by
  refine steady_clock.bind fun now => steady_ite ?_ ((steady_ask _).bind fun _ => ?_)
  · exact (steady_failAndRefund _ _).bind fun _ => steady_pure _
  · exact (steady_deferTask _ _ _).bind fun _ => steady_pure _

theorem steady_deferNonCountingRetry (outcome : Outcome) :
    Steady S k (deferNonCountingRetry outcome) :=
  steady_ite (steady_pure _) ((steady_deferTask _ _ _).bind fun _ => steady_pure _)

theorem steady_releaseFaultyAccount (account : Accounts.Claimed) (platform : String)
    (outcome : Outcome) : Steady S k (releaseFaultyAccount S account platform outcome) := by
  unfold releaseFaultyAccount
  have hrefund : Steady S k (refundAccountQuotaOnce S account.accountId account.quotaChargeId) :=
    steady_refundAccountQuotaOnce _ _
  dsimp only
  refine steady_ite ((steady_flagAccount _ _).bind fun _ => hrefund) ?_
  refine steady_ite ((steady_flagAccount _ _).bind fun _ => hrefund) ?_
  refine steady_ite ((steady_flagAccount _ _).bind fun _ => hrefund) ?_
  refine steady_ite ((steady_flagAccount _ _).bind fun _ => hrefund) ?_
  refine steady_ite (steady_exhaustAccountQuota _ _) ?_
  refine steady_ite (hrefund.bind fun _ => ?_)
    ((steady_when (steady_recordFailedAccount _)).bind fun _ => ?_)
  · exact steady_when (steady_consumeFailedAccountQuota _ _ _)
  · exact steady_when (steady_consumeFailedAccountQuota _ _ _)

theorem steady_releaseAccountAfterRetryableFailure (account : Accounts.Claimed) (platform : String)
    (outcome : Outcome) :
    Steady S k (releaseAccountAfterRetryableFailure S account platform outcome) := by
  refine (steady_clearAccountCurrentTask _).bind fun _ => Steady.bind (steady_when ?_) fun _ => ?_
  · exact (steady_when (steady_recordFailedAccount _)).bind fun _ => steady_updateMeta fun _ => rfl
  · exact (steady_when (steady_flagAccount _ _)).bind fun _ => steady_releaseFaultyAccount _ _ _

theorem steady_recordFailedExecution (infrastructureFault : Bool) (reason : String) :
    Steady S k (recordFailedExecution S infrastructureFault reason) := by
  refine Steady.bind (steady_write fun now => ?_) fun retryCount => steady_when ?_
  · split <;> exact ⟨fun _ => rfl, fun _ => rfl⟩
  · exact steady_getMeta.bind fun m => steady_refundTempQuotaOnce _

theorem steady_failureReason (platform : String) (outcome : Outcome) :
    Steady S k (failureReason S platform outcome) := by
  unfold failureReason
  exact steady_ite (steady_pure _) (steady_getMeta.bind fun _ => steady_pure _)

theorem steady_finishRun (platform : String) (account : Accounts.Claimed) (outcome : Outcome) :
    Steady S k (finishRun S platform account outcome) := by
  unfold finishRun
  dsimp only
  refine steady_ite ?_ (steady_ite ?_ (steady_ite ?_ ?_))
  · exact (steady_when (steady_settleAccountQuota _ _)).bind fun _ =>
      steady_when (steady_clearAccountCurrentTask _)
  · refine (steady_when (steady_clearAccountCurrentTask _)).bind fun _ => ?_
    exact Steady.bind (steady_write fun _ => ⟨fun _ => rfl, fun _ => rfl⟩) fun _ => steady_sleep _
  · refine (steady_releaseAccountAfterRetryableFailure account platform outcome).bind fun _ => ?_
    refine (steady_failureReason platform outcome).bind fun reason => ?_
    refine (steady_deferNonCountingRetry outcome).bind fun deferred => ?_
    exact (steady_when (steady_recordFailedExecution _ _)).bind fun _ => steady_sleep 2
  · refine (steady_clearAccountCurrentTask _).bind fun _ => (steady_markFailed _ _).bind fun _ => ?_
    refine steady_getMeta.bind fun m => (steady_refundTempQuotaOnce _).bind fun _ => ?_
    exact (steady_consumeFailedAccountQuota _ _ _).bind fun _ => steady_sleep _

theorem steady_handleFault (platform : String) (account : Option Accounts.Claimed) (fault : Fault) :
    Steady S k (handleFault S platform account fault) := by
  cases fault with
  | fileNotFound => exact steady_pure ()
  | cancelled =>
    cases account with
    | none => exact steady_throw _
    | some a =>
      refine (steady_clearAccountCurrentTask _).bind fun _ => ?_
      refine (steady_suppressNotFound (steady_getMeta.bind fun m => ?_)).bind fun _ =>
        steady_throw _
      refine steady_ite (steady_refundAccountQuotaOnce _ _) ((steady_ask _).bind fun stopping => ?_)
      exact steady_when (Steady.bind (steady_write fun _ => ⟨fun _ => rfl, fun _ => rfl⟩) fun _ =>
        steady_refundAccountQuotaOnce _ _)
  | error reason =>
    refine (steady_suppressNotFound (steady_recordFailedExecution _ _)).bind fun _ => ?_
    cases account with
    | none => exact steady_sleep _
    | some a =>
      refine (steady_clearAccountCurrentTask _).bind fun _ => steady_ite ?_ ?_
      · exact (steady_refundAccountQuotaOnce _ _).bind fun _ => steady_sleep _
      · refine Steady.bind (steady_when ?_) fun _ => steady_sleep _
        exact (steady_recordFailedAccount _).bind fun _ => steady_consumeFailedAccountQuota _ _ _

theorem steady_claimAccount (workerId : String) (m : Meta) (platform preferred : String)
    (duration : Int) : Steady S k (claimAccount S workerId m platform preferred duration) := by
  refine Steady.bind (steady_op fun _ => ⟨trivial, fun _ _ => rfl⟩) fun claimed => ?_
  cases claimed with
  | some account => exact steady_pure _
  | none =>
    refine steady_ite ((steady_deferTask _ _ _).bind fun _ => steady_pure _) ?_
    refine (steady_handleUnavailableAccount m platform).bind fun failed => ?_
    exact (steady_when (steady_sleep 3)).bind fun _ => steady_pure _

theorem steady_preferredAccount (m : Meta) (platform : String) (duration : Int) :
    Steady S k (preferredAccount S m platform duration) := by
  unfold preferredAccount
  refine steady_ite (steady_pure _) ((steady_ask _).bind fun supported => ?_)
  exact steady_ite (steady_pure _) (Steady.bind (steady_updateMeta fun _ => rfl) fun _ => steady_pure _)

theorem steady_prepareRun (workerId : String) : Steady S k (prepareRun S workerId) := by
  refine steady_getMeta.bind fun m => steady_expireTaskIfTimeout.bind fun expired => ?_
  refine steady_ite (steady_pure _) ((steady_readMeta.bind fun _ => steady_pure _).bind fun canceled => ?_)
  refine steady_ite (steady_pure _) ?_
  dsimp only
  refine steady_ite ((steady_failAndRefund _ _).bind fun _ => steady_pure _) ?_
  refine (steady_preferredAccount m _ _).bind fun preferred => ?_
  refine steady_ite ((steady_markFailed _ _).bind fun _ => steady_pure _) ?_
  refine (steady_canRunTask workerId).bind fun runs => steady_ite (steady_pure _) ?_
  have hclaim := steady_claimAccount (S := S) (k := k) workerId m (textOr m.platform "dola") preferred
    (orDefault m.duration 10)
  refine steady_ite ((steady_ask _).bind fun admission => ?_)
    (hclaim.bind fun _ => steady_pure _)
  refine (steady_raised admission).bind fun retryAfter => steady_ite ?_ ?_
  · exact (steady_deferTask _ _ _).bind fun _ => steady_pure _
  · exact (steady_setExecutionPhase _ _).bind fun _ => hclaim.bind fun _ => steady_pure _

theorem steady_platformAdmission (platform : String) : Steady S k (platformAdmission platform) :=
  steady_ite (steady_pure _) (steady_ask _)

theorem steady_runTask (workerId : String) (m : Meta) (platform : String)
    (account : Accounts.Claimed) : Steady S k (runTask S workerId m platform account) := by
  refine Steady.bind (steady_when (steady_updateMeta fun _ => rfl)) fun _ => ?_
  refine (steady_platformAdmission platform).bind fun admission => steady_ite ?_ ?_
  · refine (steady_clearAccountCurrentTask _).bind fun _ => ?_
    exact (steady_refundAccountQuotaOnce _ _).bind fun _ => steady_deferTask _ _ _
  refine (steady_canRunTask workerId).bind fun runs => steady_ite ?_ ?_
  · exact (steady_clearAccountCurrentTask _).bind fun _ => steady_refundAccountQuotaOnce _ _
  refine (steady_when (steady_setExecutionPhase _ _)).bind fun _ => ?_
  refine (steady_ask _).bind fun answer => (steady_raised answer).bind fun outcome => ?_
  exact steady_finishRun _ _ _

theorem steady_executeTask (workerId : String) : Steady S k (executeTask S workerId) := by
  refine Steady.bind ((steady_prepareRun workerId).tryCatch fun fault => ?_) fun prepared => ?_
  · exact (steady_handleFault _ _ fault).bind fun _ => steady_pure _
  · cases prepared with
    | none => exact steady_pure _
    | some prepared =>
      exact (steady_runTask workerId _ _ _).tryCatch fun fault => steady_handleFault _ _ fault

theorem steady_workerIteration (workerId : String) : Steady S k (workerIteration S workerId) := by
  refine steady_clock.bind fun now =>
    Steady.bind (steady_op fun _ => ⟨trivial, fun _ _ => rfl⟩) fun claimed => ?_
  refine steady_ite (steady_pure _) (steady_getMeta.bind fun _ => (steady_ask _).bind fun limit => ?_)
  cases limit with
  | some limit => exact steady_deferTask _ _ _
  | none => exact steady_executeTask workerId

/-! ### Cancellation, and all calls -/

theorem steady_refundCanceledTask (m : Meta) : Steady S k (refundCanceledTask S m) := by
  refine steady_loadResult_bind' fun r =>
    Steady.bind (steady_op fun _ => ⟨trivial, fun _ _ => rfl⟩) fun current => ?_
  refine Steady.bind (steady_when ?_) fun _ => steady_refundTempQuotaOnce _
  exact (steady_clearAccountCurrentTask _).bind fun _ => steady_refundAccountQuotaOnce _ _

theorem steady_removeTask (isAdmin : Bool) : Steady S k (removeTask S isAdmin) := by
  refine steady_getMeta.bind fun m => steady_ite (steady_pure _) (steady_ite (steady_pure _) ?_)
  refine steady_clock.bind fun now =>
    Steady.bind (steady_op fun _ => ⟨trivial, fun _ _ => rfl⟩) fun answer => ?_
  exact (steady_found answer).bind fun result => steady_when (steady_refundCanceledTask _)

/-- The calls that are no writes of an automation. -/
def Call.isAutomation : Call → Bool
  | .automation _ => true
  | _ => false

theorem steady_call {call : Call} (h : call.isAutomation = false) : Steady S k (call.run S) := by
  cases call with
  | workerIteration workerId => exact steady_workerIteration workerId
  | watchRunningTasksOnce => exact steady_watchRunningTasksOnce
  | queryTask => exact (steady_queryTask false false).bind fun _ => steady_pure ()
  | expireTaskIfTimeout => exact steady_expireTaskIfTimeout.bind fun _ => steady_pure ()
  | removeTask isAdmin => exact steady_removeTask isAdmin
  | automation o => cases h
  | deleteTask => exact steady_op fun _ => ⟨trivial, fun _ _ => rfl⟩

end FetchTask.Lifecycle
