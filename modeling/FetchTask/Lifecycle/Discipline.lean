import FetchTask.Lifecycle.Lawful

/-!
Every call keeps to what it knows, function by function in the order of the source.
-/

namespace FetchTask.Lifecycle

open Store Knowledge

variable {S : Setting} {O : Owners} {α β : Type} {k : Known}

/-! ### The query -/

/-- The refund at the end of a branch. -/
theorem pays_refund_return {hash : String} (hhash : O.mem hash) (hdoomed : k.doomed)
    (answer : α) : Pays O k (refundTempQuotaOnce hash >>= fun _ => pure answer) :=
  (pays_refund hhash hdoomed).bind fun _ => lawful_pure _

theorem pays_refundOwner {answer : QueryResponse} (hdoomed : k.doomed) :
    Pays O k (refundOwner answer) :=
  pays_getMeta_bind fun _ hm => pays_refund_return hm hdoomed answer

theorem pays_failAndRefundOwner {reason : String} {answer : QueryResponse} :
    Pays O k (failAndRefundOwner reason answer) :=
  pays_getMeta_bind fun _ hm => pays_markFailed_bind rfl (pays_refund_return hm trivial answer)

theorem pays_failThenRefundOwner {reason : String} {answer : QueryResponse} :
    Pays O k (failThenRefundOwner reason answer) :=
  pays_markFailed_bind rfl (pays_refundOwner trivial)

/-- The late watch that a query sees was begun by the watchdog. -/
theorem lawful_markResult {lateWatch : Bool} (hlate : lateWatch = true → k.closed) :
    Lawful O k (markResult lateWatch) := by
  unfold markResult
  split
  · rename_i h
    exact lawful_markLateResultSuccess (hlate h)
  · exact lawful_markSuccess

section Query

variable {m : Meta} {r : TaskResult} (hm : O.mem m.ownerTokenHash)

include hm

theorem lawful_retryQianwenTextOnlyResult (diagnostic : String) :
    Lawful O k (retryQianwenTextOnlyResult S m r diagnostic) := by
  refine Lawful.bind (lawful_when ?_) fun _ => ?_
  · exact (lawful_clearAccountCurrentTask _).bind fun _ => lawful_refundAccountQuotaOnce _ _
  · refine Lawful.bind (lawful_updateMeta fun _ => ⟨rfl, rfl, rfl⟩) fun _ => ?_
    exact lawful_retryOr_usual (pays_refund_return hm trivial _)

theorem lawful_retryQianwenQuotaInsufficientResult (diagnostic : String) :
    Lawful O k (retryQianwenQuotaInsufficientResult S m r diagnostic) := by
  refine Lawful.bind (lawful_when ?_) fun _ => ?_
  · exact (lawful_exhaustAccountQuota _ _).bind fun _ => lawful_clearAccountCurrentTask _
  · refine Lawful.bind (lawful_updateMeta fun _ => ⟨rfl, rfl, rfl⟩) fun _ => ?_
    exact lawful_retryOr_usual (pays_refund_return hm trivial _)

theorem lawful_failQianwenContentRejection (diagnostic : String) :
    Lawful O k (failQianwenContentRejection S m r diagnostic) := by
  refine Lawful.bind (lawful_when ?_) fun _ => ?_
  · exact (lawful_clearAccountCurrentTask _).bind fun _ => lawful_refundAccountQuotaOnce _ _
  · refine (pays_markFailed_bind rfl ?_).lawful
    exact pays_updateMeta_bind (fun _ => ⟨rfl, rfl, rfl⟩) (pays_refund_return hm trivial _)

theorem lawful_qianwenReply {active : Bool} (hactive : active = true → k.closed)
    (texts : QianwenTexts) (reply : Reply) :
    Lawful O k (qianwenReply S m r active texts reply) := by
  unfold qianwenReply
  dsimp only
  split
  · exact lawful_retryQianwenQuotaInsufficientResult hm _
  split
  · exact lawful_failQianwenContentRejection hm _
  split
  · exact lawful_retryQianwenTextOnlyResult hm _
  split
  · refine lawful_ite (lawful_pure _) ?_
    refine Lawful.bind (lawful_when ?_) fun _ => ?_
    · exact (lawful_settleAccountQuota _ _).bind fun _ => lawful_clearAccountCurrentTask _
    · exact (lawful_saveResult _).bind fun _ => (lawful_markResult hactive).bind fun _ =>
        lawful_pure _
  split
  · refine Lawful.bind (lawful_when ?_) fun _ => ?_
    · exact (lawful_clearAccountCurrentTask _).bind fun _ => lawful_refundAccountQuotaOnce _ _
    · exact (pays_markFailed_bind rfl (pays_refund_return hm trivial _)).lawful
  · exact lawful_pure _

omit hm in
theorem lateWatch_of_active {lateWatch : Bool} {now : Int}
    (h : lateWatchActive lateWatch m now = true) : lateWatch = true := by
  simp only [lateWatchActive, Bool.and_eq_true] at h
  exact h.1.1

theorem lawful_queryQianwen {lateWatch : Bool} (hlate : lateWatch = true → k.closed)
    (backgroundPoll : Bool) : Lawful O k (queryQianwen S m lateWatch backgroundPoll) := by
  refine lawful_loadResult.bind fun r => ?_
  dsimp only
  split
  · exact (lawful_markResult hlate).bind fun _ => lawful_pure _
  refine lawful_clock.bind fun now => ?_
  have hactive : lateWatchActive lateWatch m now = true → k.closed :=
    fun h => hlate (lateWatch_of_active h)
  split
  · exact lawful_ite (lawful_pure _) (lawful_ite (lawful_pure _) (lawful_pure _))
  split
  · exact lawful_pure _
  split
  · refine lawful_ite (lawful_pure _) ((lawful_ask _).bind fun answer => ?_)
    cases answer with
    | none => exact lawful_pure _
    | some reply => exact lawful_qianwenReply hm hactive _ _
  · refine lawful_ite (lawful_pure _) ((lawful_ask _).bind fun answer => ?_)
    cases answer with
    | none => exact lawful_pure _
    | some reply => exact lawful_qianwenReply hm hactive _ _

theorem lawful_doubaoReply {lateWatch : Bool} (hlate : lateWatch = true → k.closed) (reply : Reply) :
    Lawful O k (doubaoReply S m r lateWatch reply) := by
  unfold doubaoReply
  dsimp only
  split
  · split
    · exact (lawful_saveResult _).bind fun _ => lawful_clock.bind fun _ =>
        Lawful.bind (lawful_updateMeta fun _ => ⟨rfl, rfl, rfl⟩) fun _ => lawful_pure _
    refine Lawful.bind (lawful_when ?_) fun _ => ?_
    · exact (lawful_when (lawful_settleAccountQuota _ _)).bind fun _ =>
        lawful_clearAccountCurrentTask _
    · exact (lawful_saveResult _).bind fun _ => (lawful_markResult hlate).bind fun _ => lawful_pure _
  refine Lawful.bind (lawful_when (lawful_saveResult _)) fun _ => ?_
  split
  · exact lawful_clock.bind fun _ => Lawful.bind (lawful_updateMeta fun _ => ⟨rfl, rfl, rfl⟩) fun _ => lawful_pure _
  split
  · refine Lawful.bind (lawful_when ?_) fun _ => ?_
    · refine (lawful_clearAccountCurrentTask _).bind fun _ => ?_
      refine (lawful_refundAccountQuotaOnce _ _).bind fun _ => ?_
      split
      · exact (lawful_recordFailedAccount _).bind fun _ => lawful_updateMeta fun _ => ⟨rfl, rfl, rfl⟩
      · exact lawful_updateMeta fun _ => ⟨rfl, rfl, rfl⟩
    · exact lawful_retryOr_usual (pays_refund_return hm trivial _)
  split
  · refine Lawful.bind (lawful_when ?_) fun _ => lawful_retryOr_usual (pays_refundOwner trivial)
    exact (lawful_exhaustAccountQuota _ _).bind fun _ =>
      (lawful_clearAccountCurrentTask _).bind fun _ => lawful_recordFailedAccount _
  split
  · refine Lawful.bind (lawful_when ?_) fun _ => ?_
    · refine (lawful_when (lawful_flagAccount _ _)).bind fun _ => ?_
      refine (lawful_when (lawful_flagAccount _ _)).bind fun _ => ?_
      exact (lawful_refundAccountQuotaOnce _ _).bind fun _ => lawful_clearAccountCurrentTask _
    · exact (pays_markFailed_bind rfl (pays_refund_return hm trivial _)).lawful
  split
  · exact lawful_clock.bind fun _ => Lawful.bind (lawful_updateMeta fun _ => ⟨rfl, rfl, rfl⟩) fun _ => lawful_pure _
  · exact lawful_pure _

omit hm in
theorem lawful_doubaoQueryFailed (status : Option Nat) :
    Lawful O k (doubaoQueryFailed S r status) := by
  unfold doubaoQueryFailed
  split
  · refine Lawful.bind (lawful_when ?_) fun _ => ?_
    · exact (lawful_flagAccount _ _).bind fun _ => (lawful_refundAccountQuotaOnce _ _).bind fun _ =>
        lawful_clearAccountCurrentTask _
    · exact (lawful_markFailed rfl).bind fun _ => lawful_pure _
  · exact lawful_clock.bind fun _ => Lawful.bind (lawful_updateMeta fun _ => ⟨rfl, rfl, rfl⟩) fun _ => lawful_pure _
  · exact lawful_clock.bind fun _ => Lawful.bind (lawful_updateMeta fun _ => ⟨rfl, rfl, rfl⟩) fun _ => lawful_pure _

theorem lawful_queryDoubao {lateWatch : Bool} (hlate : lateWatch = true → k.closed) :
    Lawful O k (queryDoubao S m r lateWatch) := by
  refine lawful_ite (lawful_pure _) (lawful_clock.bind fun now => ?_)
  refine lawful_ite (lawful_pure _) (Lawful.bind (lawful_updateMeta fun _ => ⟨rfl, rfl, rfl⟩) fun _ => ?_)
  split
  · exact lawful_clock.bind fun _ => Lawful.bind (lawful_updateMeta fun _ => ⟨rfl, rfl, rfl⟩) fun _ => lawful_pure _
  refine (lawful_ask _).bind fun answer => ?_
  cases answer with
  | error status => exact lawful_doubaoQueryFailed status
  | ok reply => exact lawful_doubaoReply hm hlate reply

omit hm in
theorem lawful_refreshConfirmedQueryProxyIfDue (submittedAt : Option Int) :
    Lawful O k (refreshConfirmedQueryProxyIfDue S r submittedAt) := by
  unfold refreshConfirmedQueryProxyIfDue
  dsimp only
  refine lawful_ite (lawful_pure _) (lawful_clock.bind fun now => ?_)
  refine lawful_ite (lawful_pure _) ((lawful_ask _).bind fun refreshed => ?_)
  exact (lawful_saveResult _).bind fun _ => lawful_pure _

/-- Whoever is told that the task failed knows that it did. -/
theorem lawful_queryInactive (hfailed : m.status = .failed → k.doomed) :
    Lawful O k (queryInactive S m) := by
  unfold queryInactive
  dsimp only
  refine lawful_ite (lawful_pure _) (lawful_ite (lawful_pure _) (lawful_ite (lawful_pure _) ?_))
  split
  · rename_i h
    exact (pays_refund_return hm (hfailed h.1) _).lawful
  · repeat refine lawful_ite (lawful_pure _) ?_
    exact lawful_pure _

omit hm in
theorem lawful_freeAccount (failed : Bool) : Lawful O k (freeAccount S r failed) :=
  lawful_when <| (lawful_clearAccountCurrentTask _).bind fun _ =>
    (lawful_refundAccountQuotaOnce _ _).bind fun _ => lawful_when (lawful_recordFailedAccount _)

omit hm in
theorem lawful_queryWithoutConversation : Lawful O k (queryWithoutConversation S m r) := by
  refine lawful_clock.bind fun now => ?_
  dsimp only
  refine lawful_ite (lawful_pure _) ((lawful_refundAccountQuotaOnce _ _).bind fun _ => ?_)
  split
  · exact (lawful_retryAmbiguousProxyTask _ _ _ _).bind fun _ =>
      (lawful_saveResult _).bind fun _ => lawful_pure _
  refine Lawful.bind (lawful_when ?_) fun _ => Lawful.bind (lawful_updateMeta fun _ => ⟨rfl, rfl, rfl⟩) fun _ => ?_
  · exact (lawful_clearAccountCurrentTask _).bind fun _ => lawful_recordFailedAccount _
  refine .of_does fun k' hk hdebt => ?_
  refine Does.bind (does_retry hdebt fun _ => ⟨⟨rfl, rfl, rfl⟩, rfl, rfl⟩) fun count k'' hcounted => ?_
  rw [clampRetries_retryLimit] at hcounted
  split
  · rename_i hcount
    exact hcounted.lawful_bind hcount hk (Lawful.bind (lawful_saveResult _) fun _ => lawful_pure _)
  · rename_i hcount
    exact hcounted.doomed_bind (by omega) hk (pays_refundOwner trivial)

theorem lawful_queryText (text : String) : Lawful O k (queryText S m r text) := by
  unfold queryText
  dsimp only
  split
  · refine Lawful.bind (lawful_when (lawful_flagAccount _ _)) fun _ => ?_
    exact (lawful_freeAccount _).bind fun _ => lawful_retryOr_beforeFailing pays_failAndRefundOwner
  split
  · split
    · refine (lawful_freeAccount _).bind fun _ => ?_
      exact (pays_markFailed_bind rfl (pays_refund_return hm trivial _)).lawful
    refine Lawful.bind (lawful_updateMeta fun _ => ⟨rfl, rfl, rfl⟩) fun _ => (lawful_freeAccount _).bind fun _ => ?_
    split
    · refine Lawful.bind (lawful_updateMeta fun _ => ⟨rfl, rfl, rfl⟩) fun _ => ?_
      exact lawful_retryOr_beforeFailing pays_failThenRefundOwner
    · exact pays_failThenRefundOwner.lawful
  split
  · refine Lawful.bind (lawful_updateMeta fun _ => ⟨rfl, rfl, rfl⟩) fun _ => (lawful_freeAccount _).bind fun _ => ?_
    split
    · exact lawful_retryOr_beforeFailing pays_failThenRefundOwner
    · exact pays_failThenRefundOwner.lawful
  split
  · refine Lawful.bind (lawful_when ?_) fun _ => lawful_retryOr_usual (pays_refundOwner trivial)
    refine (lawful_clearAccountCurrentTask _).bind fun _ => ?_
    split
    · exact Lawful.bind (lawful_op nofun fun _ _ => trivial) fun _ => lawful_recordFailedAccount _
    · exact (lawful_exhaustAccountQuota _ _).bind fun _ => lawful_recordFailedAccount _
  split
  · refine (lawful_freeAccount _).bind fun _ => Lawful.bind (lawful_updateMeta fun _ => ⟨rfl, rfl, rfl⟩) fun _ => ?_
    exact lawful_retryOr_beforeFailing pays_failAndRefundOwner
  split
  · split
    · refine Lawful.bind (lawful_when ?_) fun _ => lawful_retryOr_policy pays_failThenRefundOwner
      exact (lawful_clearAccountCurrentTask _).bind fun _ =>
        (lawful_recordFailedAccount _).bind fun _ => lawful_consumeFailedAccountQuota _ _ _
    · refine Lawful.bind (lawful_when ?_) fun _ =>
        lawful_retryOr_beforeFailing pays_failAndRefundOwner
      refine (lawful_clearAccountCurrentTask _).bind fun _ => ?_
      refine (lawful_recordFailedAccount _).bind fun _ => ?_
      split
      · exact (lawful_flagAccount _ _).bind fun _ => lawful_refundAccountQuotaOnce _ _
      · exact lawful_consumeFailedAccountQuota _ _ _
  · exact lawful_pure _

theorem lawful_queryConversation (conversationId : String) {active : Bool}
    (hactive : active = true → k.closed) :
    Lawful O k (queryConversation S m r conversationId active) := by
  refine (lawful_saveResult _).bind fun _ => ?_
  refine Lawful.bind (lawful_when (lawful_updateMeta fun _ => ⟨rfl, rfl, rfl⟩)) fun _ => (lawful_ask _).bind fun answer => ?_
  cases answer with
  | none => exact lawful_pure _
  | some chain =>
    dsimp only
    split
    · refine Lawful.bind (lawful_when ?_) fun _ => ?_
      · exact (lawful_settleAccountQuota _ _).bind fun _ => lawful_clearAccountCurrentTask _
      · exact (lawful_saveResult _).bind fun _ => (lawful_markResult hactive).bind fun _ =>
          lawful_pure _
    · exact lawful_ite (lawful_pure _) (lawful_queryText hm _)

theorem lawful_queryDola {lateWatch : Bool} (hlate : lateWatch = true → k.closed)
    (hfailed : m.status = .failed → k.doomed) : Lawful O k (queryDola S m lateWatch) := by
  refine lawful_clock.bind fun now => ?_
  have hactive : lateWatchActive lateWatch m now = true → k.closed :=
    fun h => hlate (lateWatch_of_active h)
  dsimp only
  split
  · exact lawful_queryInactive hm hfailed
  refine lawful_loadResult.bind fun r => ?_
  split
  · exact (lawful_when (lawful_clearAccountCurrentTask _)).bind fun _ =>
      lawful_markSuccess.bind fun _ => lawful_pure _
  refine (lawful_refreshConfirmedQueryProxyIfDue _).bind fun readAgain => ?_
  refine lawful_loadResult.bind fun current => ?_
  refine lawful_ite (lawful_pure _) (lawful_ite (lawful_queryConversation hm _ hactive) ?_)
  refine lawful_ite ((lawful_ask _).bind fun recovered => ?_) lawful_queryWithoutConversation
  exact lawful_ite (lawful_queryConversation hm _ hactive) lawful_queryWithoutConversation

end Query

theorem lawful_queryTask {lateWatch : Bool} (hlate : lateWatch = true → k.closed)
    (backgroundPoll : Bool) : Lawful O k (queryTask S lateWatch backgroundPoll) := by
  refine lawful_expireTaskIfTimeout.bind fun _ => lawful_getMeta_bind fun m hm => ?_
  have hlate' : lateWatch = true → (k.sees m).closed := fun h => .inl (hlate h)
  have hfailed : m.status = .failed → (k.sees m).doomed := fun h => .inr (by simp [h])
  dsimp only
  split
  · exact lawful_queryQianwen hm hlate' backgroundPoll
  split
  · refine lawful_loadResult.bind fun r => ?_
    split
    · split
      · exact (lawful_markResult hlate').bind fun _ => lawful_pure _
      split
      · exact lawful_pure _
      · exact lawful_queryDoubao hm hlate'
    · exact lawful_queryDola hm hlate' hfailed
  · exact lawful_queryDola hm hlate' hfailed

/-! ### The watchdog -/

theorem lawful_suppressNotFound {body : Run Unit} (h : Lawful O k body) :
    Lawful O k (suppressNotFound body) := by
  refine h.tryCatch fun fault => ?_
  cases fault with
  | fileNotFound => exact lawful_pure ()
  | cancelled => exact lawful_throw _
  | error reason => exact lawful_throw _

theorem lawful_suppressed {body : Run Unit} (h : Lawful O k body) :
    Lawful O k (suppressed body) := by
  refine h.tryCatch fun fault => ?_
  cases fault with
  | cancelled => exact lawful_throw _
  | fileNotFound => exact lawful_pure ()
  | error reason => exact lawful_pure ()

/-- A late watch is begun after the refund only. -/
theorem closed_of_lateResultWatchActive {m : Meta} {now : Int}
    (h : lateResultWatchActive m now = true) : (k.sees m).closed := by
  refine .inr fun hnone => ?_
  simp [lateResultWatchActive, lateResultWatchDeadline, hnone] at h

theorem lawful_closeLateWatch (m : Meta) : Lawful O k (closeLateWatch m) :=
  lawful_updateMeta_of ⟨fun _ => rfl, fun _ => rfl, fun _ => .inr (.inl rfl)⟩

/-- The late watch is begun after the refund. -/
theorem pays_failTimedOut {m : Meta} {platform timeoutReason : String} {submittedAt now : Int}
    (hm : O.mem m.ownerTokenHash) (hempty : ¬ O.paid → k.closed) :
    Pays O k (failTimedOut m platform timeoutReason submittedAt now) := by
  refine pays_markFailed_bind rfl (pays_refund_bind hm trivial hempty ?_)
  dsimp only
  split
  · exact lawful_updateMeta_of ⟨fun _ => rfl, fun _ => rfl, fun _ => .inr (.inr trivial)⟩
  · exact lawful_updateMeta_of ⟨fun _ => rfl, fun _ => rfl, fun _ => .inr (.inl rfl)⟩

theorem lawful_resultWatchTimedOut {m : Meta} {r : TaskResult} {platform : String}
    {submittedAt now : Int} (hm : O.mem m.ownerTokenHash) (hempty : ¬ O.paid → k.closed) :
    Lawful O k (resultWatchTimedOut S m r platform submittedAt now) := by
  refine Lawful.bind (lawful_when ?_) fun _ => ?_
  · have hrest : Lawful O k (do
        clearAccountCurrentTask r.accountId
        when (platform = "qianwen") (recordFailedAccount r.accountId)) :=
      (lawful_clearAccountCurrentTask _).bind fun _ => lawful_when (lawful_recordFailedAccount _)
    dsimp only
    split
    · exact (lawful_refundAccountQuotaOnce _ _).bind fun _ => hrest
    · exact (lawful_settleAccountQuota _ _).bind fun _ => hrest
  dsimp only
  split
  · refine Lawful.bind (lawful_updateMeta fun _ => ⟨rfl, rfl, rfl⟩) fun _ => ?_
    refine .of_does fun k' hk hdebt => ?_
    refine Does.bind (does_retry hdebt fun _ => ⟨⟨rfl, rfl, rfl⟩, rfl, rfl⟩) fun count k'' hcounted => ?_
    rw [clampRetries_retryLimit] at hcounted
    split
    · rename_i hcount
      exact hcounted.lawful_bind hcount hk (lawful_saveResult _)
    · exact hcounted.pays_bind hk (pays_failTimedOut hm hempty)
  · exact (pays_failTimedOut hm hempty).lawful

theorem lawful_pollResult {m : Meta} {r : TaskResult} {platform : String} {lateWatch : Bool}
    {age : Int} (hlate : lateWatch = true → k.closed) :
    Lawful O k (pollResult S m r platform lateWatch age) := by
  refine Lawful.bind (lawful_when ?_) fun _ => Lawful.bind (lawful_when ?_) fun _ => ?_
  · exact lawful_clock.bind fun _ => lawful_updateMeta fun _ => ⟨rfl, rfl, rfl⟩
  · exact (lawful_when (lawful_clearAccountCurrentTask _)).bind fun _ =>
      lawful_clock.bind fun _ => lawful_updateMeta fun _ => ⟨rfl, rfl, rfl⟩
  refine (lawful_ask _).bind fun paced => (lawful_raised paced).bind fun _ => ?_
  refine (lawful_queryTask hlate true).bind fun outcome => ?_
  refine lawful_ite (lawful_pure _) (lawful_getMeta_bind' fun current _ => ?_)
  refine lawful_ite (lawful_pure _) (Lawful.bind (lawful_write (fun _ => ⟨rfl, rfl, rfl⟩) fun _ => ⟨rfl, rfl⟩) fun missCount => ?_)
  refine (lawful_ask _).bind fun jitter => lawful_clock.bind fun now => ?_
  exact lawful_updateMeta fun _ => ⟨rfl, rfl, rfl⟩

theorem lawful_watchResult (hempty : ¬ O.paid → k.closed) : Lawful O k (watchResult S) := by
  refine lawful_loadResult.bind fun r => ?_
  split
  · refine lawful_getMeta_bind fun m _ => lawful_clock.bind fun now => ?_
    unfold when
    split
    · rename_i h
      exact (lawful_markLateResultSuccess (closed_of_lateResultWatchActive h)).bind fun _ =>
        lawful_pure _
    · exact lawful_pure _
  refine lawful_getMeta_bind fun m hm => ?_
  dsimp only
  refine lawful_ite (lawful_pure _) (lawful_clock.bind fun now => lawful_ite (lawful_pure _) ?_)
  have hlate : lateResultWatchActive m now = true → (k.sees m).closed :=
    closed_of_lateResultWatchActive
  refine lawful_clock.bind fun now => ?_
  have hempty' : ¬ O.paid → (k.sees m).closed := (k.le_sees m).2 ∘ hempty
  split
  · exact lawful_closeLateWatch m
  cases m.submittedAt <|> m.updatedAt with
  | none => exact lawful_pollResult hlate
  | some submitted => exact lawful_ite (lawful_resultWatchTimedOut hm hempty') (lawful_pollResult hlate)

theorem lawful_watchUnfinishedSuccessTask (hempty : ¬ O.paid → k.closed) :
    Lawful O k (watchUnfinishedSuccessTask S) := by
  refine (lawful_watchResult hempty).tryCatch fun fault => ?_
  cases fault with
  | fileNotFound => exact lawful_pure ()
  | cancelled => exact lawful_throw _
  | error reason =>
    refine lawful_suppressed (lawful_getMeta_bind' fun m _ => lawful_clock.bind fun now => ?_)
    exact lawful_when (lawful_clock.bind fun _ => (lawful_updateMeta fun _ => ⟨rfl, rfl, rfl⟩))

theorem lawful_readMeta : Lawful O k (op .getMeta) := lawful_op nofun fun _ _ => trivial

theorem lawful_reconcilePendingRetries : Lawful O k reconcilePendingRetries := by
  refine lawful_clock.bind fun now => lawful_readMeta.bind fun listed => ?_
  cases listed with
  | none => exact lawful_pure ()
  | some m =>
    refine lawful_ite (lawful_pure _) (lawful_expireTaskIfTimeout.bind fun expired => ?_)
    refine lawful_ite (lawful_pure _) (lawful_suppressed ?_)
    exact Lawful.bind (lawful_write (fun _ => ⟨rfl, rfl, rfl⟩) fun _ => ⟨rfl, rfl⟩) fun _ => lawful_pure ()

theorem lawful_recordStalledRun {m : Meta} (hm : O.mem m.ownerTokenHash) (reason : String) :
    Lawful O k (recordStalledRun m reason) := by
  refine .of_does fun k' hk hdebt => ?_
  refine Does.bind (Q := Counted O _ maxInfrastructureRetries k') (does_counted hdebt fun _ => ⟨⟨rfl, rfl, rfl⟩, rfl, rfl⟩)
    fun count k'' hcounted => ?_
  unfold when
  split
  · rename_i hcount
    exact hcounted.doomed_bind hcount hk (pays_refund hm trivial)
  · rename_i hcount
    exact hcounted.lawful_bind (by omega) hk (lawful_pure ())

theorem lawful_watchRunningTask : Lawful O k watchRunningTask := by
  refine lawful_getMeta_bind' fun m hm => lawful_ite (lawful_pure _) ?_
  refine lawful_clock.bind fun now => lawful_ite (lawful_pure _) ?_
  refine (lawful_ask _).bind fun runs => ?_
  split
  · exact (lawful_ask _).bind fun _ => lawful_ite (lawful_pure _) (lawful_recordStalledRun hm _)
  · exact lawful_recordStalledRun hm _

theorem lawful_watchRows (hempty : ¬ O.paid → k.closed) (submitted : Bool) (late : Option Meta) :
    Lawful O k (watchRows S submitted late) := by
  have hwatch := lawful_watchUnfinishedSuccessTask (S := S) hempty
  cases late with
  | none => exact lawful_when hwatch
  | some m =>
    refine lawful_clock.bind fun now => lawful_ite hwatch ?_
    exact (lawful_closeLateWatch m).bind fun _ => lawful_when hwatch

theorem lawful_watchRunningTasksOnce (hempty : ¬ O.paid → k.closed) :
    Lawful O k (watchRunningTasksOnce S) := by
  refine lawful_clock.bind fun now => lawful_readMeta.bind fun submittedRow => ?_
  refine lawful_readMeta.bind fun lateRow => ?_
  refine (lawful_watchRows hempty _ _).bind fun _ => (lawful_ask _).bind fun due => ?_
  refine (lawful_when lawful_reconcilePendingRetries).bind fun _ => ?_
  exact lawful_readMeta.bind fun row => lawful_when (lawful_suppressNotFound lawful_watchRunningTask)

/-! ### The worker -/

theorem lawful_deferTask (reason category : String) (delay : Int) :
    Lawful O k (deferTask reason category delay) :=
  Lawful.bind (lawful_write (fun _ => ⟨rfl, rfl, rfl⟩) fun _ => ⟨rfl, rfl⟩) fun _ => lawful_pure ()

theorem lawful_canRunTask (workerId : String) : Lawful O k (canRunTask workerId) :=
  lawful_getMeta_bind' fun _ _ => lawful_pure _

theorem lawful_isTaskCanceled : Lawful O k isTaskCanceled :=
  lawful_readMeta.bind fun _ => lawful_pure _

theorem lawful_sleep (seconds : Int) : Lawful O k (sleep seconds) :=
  (lawful_ask _).bind fun slept => lawful_raised slept

theorem lawful_handleUnavailableAccount {m : Meta} (hm : O.mem m.ownerTokenHash)
    (platform : String) : Lawful O k (handleUnavailableAccount m platform) := by
  refine lawful_clock.bind fun now => lawful_ite ?_ ?_
  · exact (pays_failAndRefund hm).lawful.bind fun _ => lawful_pure _
  · exact (lawful_ask _).bind fun _ => (lawful_deferTask _ _ _).bind fun _ => lawful_pure _

theorem lawful_deferNonCountingRetry (outcome : Outcome) :
    Lawful O k (deferNonCountingRetry outcome) :=
  lawful_ite (lawful_pure _) ((lawful_deferTask _ _ _).bind fun _ => lawful_pure _)

theorem lawful_releaseFaultyAccount (account : Accounts.Claimed) (platform : String)
    (outcome : Outcome) : Lawful O k (releaseFaultyAccount S account platform outcome) := by
  unfold releaseFaultyAccount
  have hrefund :
      Lawful O k (refundAccountQuotaOnce S account.accountId account.quotaChargeId) :=
    lawful_refundAccountQuotaOnce _ _
  dsimp only
  refine lawful_ite ((lawful_flagAccount _ _).bind fun _ => hrefund) ?_
  refine lawful_ite ((lawful_flagAccount _ _).bind fun _ => hrefund) ?_
  refine lawful_ite ((lawful_flagAccount _ _).bind fun _ => hrefund) ?_
  refine lawful_ite ((lawful_flagAccount _ _).bind fun _ => hrefund) ?_
  refine lawful_ite (lawful_exhaustAccountQuota _ _) ?_
  refine lawful_ite (hrefund.bind fun _ => ?_)
    ((lawful_when (lawful_recordFailedAccount _)).bind fun _ => ?_)
  · exact lawful_when (lawful_consumeFailedAccountQuota _ _ _)
  · exact lawful_when (lawful_consumeFailedAccountQuota _ _ _)

theorem lawful_releaseAccountAfterRetryableFailure (account : Accounts.Claimed) (platform : String)
    (outcome : Outcome) :
    Lawful O k (releaseAccountAfterRetryableFailure S account platform outcome) := by
  refine (lawful_clearAccountCurrentTask _).bind fun _ => Lawful.bind (lawful_when ?_) fun _ => ?_
  · exact (lawful_when (lawful_recordFailedAccount _)).bind fun _ => lawful_updateMeta fun _ => ⟨rfl, rfl, rfl⟩
  · exact (lawful_when (lawful_flagAccount _ _)).bind fun _ => lawful_releaseFaultyAccount _ _ _

/-- The end of a count that the worker compares with its limit. -/
theorem Counted.refundOver {limit count : Int} {k₁ k₂ : Known}
    (h : Counted O .usual limit k₁ count k₂) :
    (refundKnowledge O).Does (fun _ => Settled k₁) (fun _ => Settled k₁) k₂ (when (limit < count) do
      let m ← getMeta
      refundTempQuotaOnce m.ownerTokenHash) := by
  unfold when
  split
  · rename_i hover
    exact h.doomed_bind hover (.refl k₁) (pays_getMeta_bind fun _ hm => pays_refund hm trivial)
  · rename_i hunder
    exact h.lawful_bind (not_lt.mp hunder) (.refl k₁) (lawful_pure ())

theorem lawful_recordFailedExecution (infrastructureFault : Bool) (reason : String) :
    Lawful O k (recordFailedExecution S infrastructureFault reason) := by
  refine .of_does fun k' hk hdebt => ?_
  cases infrastructureFault with
  | true => exact Does.bind (does_counted hdebt fun _ => ⟨⟨rfl, rfl, rfl⟩, rfl, rfl⟩) fun count k'' hcounted => hcounted.refundOver
  | false => exact Does.bind (does_counted hdebt fun _ => ⟨⟨rfl, rfl, rfl⟩, rfl, rfl⟩) fun count k'' hcounted => hcounted.refundOver

theorem lawful_failureReason (platform : String) (outcome : Outcome) :
    Lawful O k (failureReason S platform outcome) := by
  unfold failureReason
  dsimp only
  split
  · exact lawful_pure _
  · exact lawful_getMeta_bind' fun _ _ => lawful_pure _

theorem lawful_finishRun (platform : String) (account : Accounts.Claimed) (outcome : Outcome) :
    Lawful O k (finishRun S platform account outcome) := by
  unfold finishRun
  dsimp only
  split
  · exact (lawful_when (lawful_settleAccountQuota _ _)).bind fun _ =>
      lawful_when (lawful_clearAccountCurrentTask _)
  split
  · refine (lawful_when (lawful_clearAccountCurrentTask _)).bind fun _ => ?_
    exact Lawful.bind (lawful_write (fun _ => ⟨rfl, rfl, rfl⟩) fun _ => ⟨rfl, rfl⟩) fun _ => lawful_sleep _
  split
  · refine (lawful_releaseAccountAfterRetryableFailure account platform outcome).bind fun _ => ?_
    refine (lawful_failureReason platform outcome).bind fun reason => ?_
    refine (lawful_deferNonCountingRetry outcome).bind fun deferred => ?_
    refine (lawful_when ?_).bind fun _ => lawful_sleep 2
    exact lawful_recordFailedExecution outcome.infrastructureFault reason
  · refine (lawful_clearAccountCurrentTask _).bind fun _ => (pays_markFailed_bind rfl ?_).lawful
    refine pays_getMeta_bind fun m hm => (pays_refund hm trivial).bind fun _ => ?_
    exact (lawful_consumeFailedAccountQuota _ _ _).bind fun _ => lawful_sleep _

theorem lawful_handleFault (platform : String) (account : Option Accounts.Claimed) (fault : Fault) :
    Lawful O k (handleFault S platform account fault) := by
  cases fault with
  | fileNotFound => exact lawful_pure ()
  | cancelled =>
    cases account with
    | none => exact lawful_throw _
    | some a =>
      refine (lawful_clearAccountCurrentTask _).bind fun _ => ?_
      refine (lawful_suppressNotFound (lawful_getMeta_bind' fun m _ => ?_)).bind fun _ =>
        lawful_throw _
      refine lawful_ite (lawful_refundAccountQuotaOnce _ _) ((lawful_ask _).bind fun stopping => ?_)
      exact lawful_when (Lawful.bind (lawful_write (fun _ => ⟨rfl, rfl, rfl⟩) fun _ => ⟨rfl, rfl⟩) fun _ => lawful_refundAccountQuotaOnce _ _)
  | error reason =>
    refine (lawful_suppressNotFound (lawful_recordFailedExecution _ _)).bind fun _ => ?_
    cases account with
    | none => exact lawful_sleep _
    | some a =>
      refine (lawful_clearAccountCurrentTask _).bind fun _ => lawful_ite ?_ ?_
      · exact (lawful_refundAccountQuotaOnce _ _).bind fun _ => lawful_sleep _
      · refine Lawful.bind (lawful_when ?_) fun _ => lawful_sleep _
        exact (lawful_recordFailedAccount _).bind fun _ => lawful_consumeFailedAccountQuota _ _ _

theorem lawful_claimAccount {m : Meta} (hm : O.mem m.ownerTokenHash) (workerId : String)
    (platform preferred : String) (duration : Int) :
    Lawful O k (claimAccount S workerId m platform preferred duration) := by
  refine Lawful.bind (lawful_op nofun fun _ _ => trivial) fun claimed => ?_
  cases claimed with
  | some account => exact lawful_pure _
  | none =>
    refine lawful_ite ((lawful_deferTask _ _ _).bind fun _ => lawful_pure _) ?_
    refine (lawful_handleUnavailableAccount hm platform).bind fun failed => ?_
    exact (lawful_when (lawful_sleep 3)).bind fun _ => lawful_pure _

theorem lawful_preferredAccount (m : Meta) (platform : String) (duration : Int) :
    Lawful O k (preferredAccount S m platform duration) := by
  unfold preferredAccount
  dsimp only
  refine lawful_ite (lawful_pure _) ((lawful_ask _).bind fun supported => ?_)
  exact lawful_ite (lawful_pure _) (Lawful.bind (lawful_updateMeta fun _ => ⟨rfl, rfl, rfl⟩) fun _ => lawful_pure _)

theorem lawful_prepareRun (workerId : String) : Lawful O k (prepareRun S workerId) := by
  refine lawful_getMeta_bind' fun m hm => lawful_expireTaskIfTimeout.bind fun expired => ?_
  refine lawful_ite (lawful_pure _) (lawful_isTaskCanceled.bind fun canceled => ?_)
  refine lawful_ite (lawful_pure _) ?_
  dsimp only
  refine lawful_ite ((pays_failAndRefund hm).lawful.bind fun _ => lawful_pure _) ?_
  refine (lawful_preferredAccount m _ _).bind fun preferred => ?_
  refine lawful_ite ((lawful_markFailed rfl).bind fun _ => lawful_pure _) ?_
  refine (lawful_canRunTask workerId).bind fun runs => lawful_ite (lawful_pure _) ?_
  have hclaim := lawful_claimAccount (S := S) (k := k) hm workerId (textOr m.platform "dola")
    preferred (orDefault m.duration 10)
  refine lawful_ite ((lawful_ask _).bind fun admission => ?_)
    (hclaim.bind fun _ => lawful_pure _)
  refine (lawful_raised admission).bind fun retryAfter => lawful_ite ?_ ?_
  · exact (lawful_deferTask _ _ _).bind fun _ => lawful_pure _
  · exact (lawful_setExecutionPhase _ _).bind fun _ => hclaim.bind fun _ => lawful_pure _

theorem lawful_platformAdmission (platform : String) :
    Lawful O k (platformAdmission platform) :=
  lawful_ite (lawful_pure _) (lawful_ask _)

theorem lawful_runTask (workerId : String) (m : Meta) (platform : String)
    (account : Accounts.Claimed) : Lawful O k (runTask S workerId m platform account) := by
  refine Lawful.bind (lawful_when (lawful_updateMeta fun _ => ⟨rfl, rfl, rfl⟩)) fun _ => ?_
  refine (lawful_platformAdmission platform).bind fun admission => lawful_ite ?_ ?_
  · refine (lawful_clearAccountCurrentTask _).bind fun _ => ?_
    exact (lawful_refundAccountQuotaOnce _ _).bind fun _ => lawful_deferTask _ _ _
  refine (lawful_canRunTask workerId).bind fun runs => lawful_ite ?_ ?_
  · exact (lawful_clearAccountCurrentTask _).bind fun _ => lawful_refundAccountQuotaOnce _ _
  refine (lawful_when (lawful_setExecutionPhase _ _)).bind fun _ => ?_
  refine (lawful_ask _).bind fun answer => (lawful_raised answer).bind fun outcome => ?_
  exact lawful_finishRun _ _ _

theorem lawful_executeTask (workerId : String) : Lawful O k (executeTask S workerId) := by
  refine Lawful.bind ((lawful_prepareRun workerId).tryCatch fun fault => ?_) fun prepared => ?_
  · exact (lawful_handleFault _ _ fault).bind fun _ => lawful_pure _
  · cases prepared with
    | none => exact lawful_pure _
    | some prepared =>
      exact (lawful_runTask workerId _ _ _).tryCatch fun fault => lawful_handleFault _ _ fault

theorem lawful_workerIteration (workerId : String) : Lawful O k (workerIteration S workerId) := by
  refine lawful_clock.bind fun now => Lawful.bind (lawful_op nofun fun _ _ => trivial) fun claimed => ?_
  refine lawful_ite (lawful_pure _) (lawful_getMeta_bind' fun _ _ => (lawful_ask _).bind fun limit => ?_)
  split
  · exact lawful_deferTask _ _ _
  · exact lawful_executeTask workerId

/-! ### Cancellation, and all calls -/

/-- A canceled task is doomed. -/
theorem lawful_refundCanceledTask {m : Meta} (hm : O.mem m.ownerTokenHash) (hdoomed : k.doomed) :
    Lawful O k (refundCanceledTask S m) := by
  refine lawful_loadResult.bind fun r => ?_
  refine Lawful.bind (lawful_op nofun fun _ _ => trivial) fun current => ?_
  dsimp only
  refine Lawful.bind (lawful_when ?_) fun _ => (pays_refund hm hdoomed).lawful
  exact (lawful_clearAccountCurrentTask _).bind fun _ => lawful_refundAccountQuotaOnce _ _

theorem lawful_removeTask (isAdmin : Bool) : Lawful O k (removeTask S isAdmin) := by
  refine lawful_getMeta_bind' fun m _ => lawful_ite (lawful_pure _) (lawful_ite (lawful_pure _) ?_)
  refine lawful_clock.bind fun now => lawful_requestCancel_bind (lawful_throw _) ?_
  intro canceled canceledMeta howner
  show Lawful O _ (when (canceled = true) (refundCanceledTask S canceledMeta))
  unfold when
  split
  · rename_i happlied
    exact lawful_refundCanceledTask howner (.inr happlied)
  · exact lawful_pure ()

theorem lawful_automation (o : AutomationWrite) : Lawful O k o.run := by
  cases o with
  | pending reason => exact Lawful.bind (lawful_write (fun _ => ⟨rfl, rfl, rfl⟩) fun _ => ⟨rfl, rfl⟩) fun _ => lawful_pure ()
  | submitted delay => exact Lawful.bind (lawful_write (fun _ => ⟨rfl, rfl, rfl⟩) fun _ => ⟨rfl, rfl⟩) fun _ => lawful_pure ()
  | success => exact lawful_markSuccess
  | record e => exact lawful_updateMeta fun m => ⟨e.status m, e.ownerTokenHash m, e.lateResultWatchUntil m⟩
  | result f => exact lawful_saveResult f

theorem lawful_call (hempty : ¬ O.paid → k.closed) (call : Call) : Lawful O k (call.run S) := by
  cases call with
  | workerIteration workerId => exact lawful_workerIteration workerId
  | watchRunningTasksOnce => exact lawful_watchRunningTasksOnce hempty
  | queryTask =>
    have hlate : false = true → k.closed := nofun
    exact (lawful_queryTask hlate false).bind fun _ => lawful_pure ()
  | expireTaskIfTimeout => exact lawful_expireTaskIfTimeout.bind fun _ => lawful_pure ()
  | removeTask isAdmin => exact lawful_removeTask isAdmin
  | automation o => exact lawful_automation o
  | deleteTask => exact lawful_op nofun fun _ _ => trivial

/-- Every call keeps to what it knows, and ends without debts. -/
theorem ensures_prog (call : Call) :
    (refundKnowledge O).Ensures (fun _ k => ¬ k.owes) (refundKnowledge O).start
      (call.prog S) := by
  have hlawful : Lawful O (refundKnowledge O).start (call.run S) := lawful_call id call
  refine Ensures.bind (hlawful.does (.refl _) id) fun r k' hr => ?_
  cases r with
  | ok a => exact hr.2
  | error fault => exact hr.2

end FetchTask.Lifecycle
