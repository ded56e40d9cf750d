import FetchTask.Store.Transitions

/-!
Four retry operations of the store (`app/store.py`) on their two backends.

On Postgres an operation runs a closure in a transaction and then a tail; for
task files it reads the record, writes it and returns from the middle of its
text. Both branches are written out here as the source has them, and compared.
-/

namespace FetchTask.Store.Branches

/-- A record as it is stored. `Meta` reads a text whose key is missing and one that is empty
alike, which `setdefault` does not: `emptyRetryStart` says that `retry_started_at` is in the
record with an empty text. -/
structure Stored extends Meta where
  emptyRetryStart : Bool := false
  deriving DecidableEq

def Stored.appendAttemptHistory (u : Chars) (now : Int) (reason kind : String) (s : Stored) :
    Stored :=
  { s with toMeta := s.toMeta.appendAttemptHistory u now reason kind }

def Stored.setRetryTerminal (now : Int) (reason : String) (s : Stored) : Stored :=
  { s with toMeta := s.toMeta.setRetryTerminal now reason }

/-- `meta.setdefault("retry_started_at", utc_now())`. -/
def Stored.setDefaultRetryStart (now : Int) (s : Stored) : Stored :=
  if s.emptyRetryStart then s
  else { s with toMeta.retryStartedAt := some (s.retryStartedAt.getD now) }

/-- `requeue_pending_task` when the queue takes the task. -/
def requeuePendingTask (now : Int) (s : Stored) : Stored :=
  if s.status ≠ .pending ∨ s.cancelRequested then s
  else { s with toMeta := (markRetryQueueVerified now s.toMeta).2 }

/-! ### record_retry -/

/-- The closure of `record_retry`. -/
def recordRetryClosure (u : Chars) (retryLimit : Int) (reason : String) (now : Int) (s : Stored) :
    Int × Stored :=
  if s.status ∈ [.success, .submitted, .failed, .canceled] then (max 0 s.retryCount, s)
  else
    let count := max 0 s.retryCount + 1
    let normalizedReason := retryReason u s.toMeta reason
    let s := s.appendAttemptHistory u now normalizedReason "execution_retry"
    let s := { s with
      retryCount := count, workerId := "", error := normalizedReason
      executionPhase := "retry_queued", statusReason := "正在重试中，请稍等！"
      phaseUpdatedAt := some now }
    let s := s.setDefaultRetryStart now
    let s := if retryLimit < count then s.setRetryTerminal now normalizedReason
      else { s with
        status := .pending, finishedAt := none
        nextAttemptAt := some (now + 10 * 3 ^ (count - 1).toNat * second) }
    (count, { s with updatedAt := some now })

def recordRetry (u : Chars) (retryLimit : Int) (reason : String) (now : Int) :
    Backend → Stored → Int × Stored
  | .postgres, s => recordRetryClosure u retryLimit reason now s
  | .jsonFile, s =>
    if s.status ∈ [.success, .submitted, .failed, .canceled] then (max 0 s.retryCount, s)
    else
      let count := max 0 s.retryCount + 1
      let reason := if reason = "browser timeout" then "浏览器超时" else reason
      let reason := if reason = "region restricted" then "Dola 当前地区不可用" else reason
      let reason := s.normalizedFailureReason u reason
      let s := s.appendAttemptHistory u now reason "execution_retry"
      let s := { s with
        retryCount := count, workerId := "", error := reason
        executionPhase := "retry_queued", statusReason := "正在重试中，请稍等！"
        phaseUpdatedAt := some now }
      let s := s.setDefaultRetryStart now
      let s := if retryLimit < count then s.setRetryTerminal now reason
        else { s with
          status := .pending, finishedAt := none
          nextAttemptAt := some (now + 10 * 3 ^ (count - 1).toNat * second) }
      (count, { s with updatedAt := some now })

/-! ### retry_submitted_task -/

/-- The closure of `retry_submitted_task`. -/
def retrySubmittedTaskClosure (u : Chars) (maxRetries : Int) (reason : String)
    (delaySeconds now : Int) (s : Stored) : Int × Stored :=
  if s.status ≠ .submitted then (max 0 s.retryCount, s)
  else
    let count := max 0 s.retryCount + 1
    let s := s.appendAttemptHistory u now reason "result_retry"
    let s := { s with
      retryCount := count, workerId := "", error := reason, resultWatchMissCount := 0
      executionPhase := "retry_queued", statusReason := "正在重试中，请稍等！"
      phaseUpdatedAt := some now }
    let s := s.setDefaultRetryStart now
    let s := if maxRetries < count then s.setRetryTerminal now reason
      else { s with
        status := .pending, finishedAt := none
        nextAttemptAt := some (now + delaySeconds * count * second) }
    (count, { s with updatedAt := some now })

def retrySubmittedTask (u : Chars) (configuredLimit : Int) (reason : String)
    (maxRetries : Option Int) (delaySeconds now : Int) : Backend → Stored → Int × Stored
  | .postgres, s =>
    let maxRetries := clampRetries configuredLimit maxRetries
    let (count, s) := retrySubmittedTaskClosure u maxRetries reason delaySeconds now s
    -- The tail does not know whether the closure was applied.
    (count, if count ≤ maxRetries then requeuePendingTask now s else s)
  | .jsonFile, s =>
    let maxRetries := clampRetries configuredLimit maxRetries
    if s.status ≠ .submitted then (max 0 s.retryCount, s)
    else
      let count := max 0 s.retryCount + 1
      let s := s.appendAttemptHistory u now reason "result_retry"
      let s := { s with
        retryCount := count, workerId := "", error := reason, resultWatchMissCount := 0
        executionPhase := "retry_queued", statusReason := "正在重试中，请稍等！"
        phaseUpdatedAt := some now }
      let s := s.setDefaultRetryStart now
      let s := if maxRetries < count then s.setRetryTerminal now reason
        else { s with
          status := .pending, finishedAt := none
          nextAttemptAt := some (now + delaySeconds * count * second) }
      let s := { s with updatedAt := some now }
      (count, if count ≤ maxRetries then requeuePendingTask now s else s)

/-! ### retry_timed_out_submitted_task -/

/-- The closure of `retry_timed_out_submitted_task`. -/
def retryTimedOutSubmittedTaskClosure (u : Chars) (maxRetries : Int) (reason : String)
    (delaySeconds now : Int) (s : Stored) : Int × Stored :=
  if s.status ≠ .submitted ∨ s.cancelRequested then (max 0 s.resultTimeoutRetryCount, s)
  else
    let previousTimeoutCount := max 0 s.resultTimeoutRetryCount
    let count := max (max 0 s.retryCount) previousTimeoutCount + 1
    let s := s.appendAttemptHistory u now reason "result_timeout"
    let s := { s with
      retryCount := count, resultTimeoutRetryCount := previousTimeoutCount + 1
      retryQueuedAt := some now, workerId := "", error := reason, resultWatchMissCount := 0
      executionPhase := "retry_queued", statusReason := "正在重试中，请稍等！"
      phaseUpdatedAt := some now }
    let s := s.setDefaultRetryStart now
    let s := if maxRetries < count then s.setRetryTerminal now reason
      else { s with
        status := .pending, finishedAt := none
        nextAttemptAt := some (now + delaySeconds * count * second) }
    (count, { s with updatedAt := some now })

def retryTimedOutSubmittedTask (u : Chars) (configuredLimit : Int) (reason : String)
    (maxRetries : Option Int) (delaySeconds now : Int) : Backend → Stored → Int × Stored
  | .postgres, s =>
    let maxRetries := clampRetries configuredLimit maxRetries
    let (count, s) := retryTimedOutSubmittedTaskClosure u maxRetries reason delaySeconds now s
    (count, if count ≤ maxRetries then requeuePendingTask now s else s)
  | .jsonFile, s =>
    let maxRetries := clampRetries configuredLimit maxRetries
    if s.status ≠ .submitted ∨ s.cancelRequested then (max 0 s.resultTimeoutRetryCount, s)
    else
      let previousTimeoutCount := max 0 s.resultTimeoutRetryCount
      let count := max (max 0 s.retryCount) previousTimeoutCount + 1
      let s := s.appendAttemptHistory u now reason "result_timeout"
      let s := { s with
        retryCount := count, resultTimeoutRetryCount := previousTimeoutCount + 1
        retryQueuedAt := some now, workerId := "", error := reason, resultWatchMissCount := 0
        executionPhase := "retry_queued", statusReason := "正在重试中，请稍等！"
        phaseUpdatedAt := some now }
      let s := s.setDefaultRetryStart now
      let s := if maxRetries < count then s.setRetryTerminal now reason
        else { s with
          status := .pending, finishedAt := none
          nextAttemptAt := some (now + delaySeconds * count * second) }
      let s := { s with updatedAt := some now }
      (count, if count ≤ maxRetries then requeuePendingTask now s else s)

/-! ### record_execution_miss -/

/-- The closure of `record_execution_miss`. -/
def recordExecutionMissClosure (retryLimit : Int) (reason : String) (now : Int) (s : Stored) :
    Int × Stored :=
  let missCount := max 0 s.executionMissCount + 1
  let count := max 0 s.retryCount + 1
  let s := s.setDefaultRetryStart now
  let s :=
    if retryLimit < count then
      Stored.setRetryTerminal now "任务超时未执行"
        { s with retryCount := count, executionMissCount := missCount, workerId := "" }
    else
      { s with
        retryCount := count, executionMissCount := missCount, workerId := "", error := reason
        status := .pending }
  (count, { s with updatedAt := some now })

/-- `update_meta` of the file branch, with the time that it writes back over the key. -/
def updateStarted (now : Int) (retryStartedAt : Int) (updates : Meta → Meta) (s : Stored) :
    Stored :=
  { toMeta := (updateMeta now updates { s.toMeta with retryStartedAt := some retryStartedAt }).2
    emptyRetryStart := false }

def recordExecutionMiss (retryLimit : Int) (reason : String) (now : Int) :
    Backend → Stored → Int × Stored
  | .postgres, s => recordExecutionMissClosure retryLimit reason now s
  | .jsonFile, s =>
    let missCount := max 0 s.executionMissCount + 1
    let count := max 0 s.retryCount + 1
    let retryStartedAt := s.retryStartedAt.getD now
    if retryLimit < count then
      (count, updateStarted now retryStartedAt (fun m =>
        { m with
          retryCount := count, executionMissCount := missCount, workerId := ""
          error := "任务超时未执行", status := .failed, finishedAt := some now
          executionPhase := "failed", statusReason := "任务超时未执行"
          phaseUpdatedAt := some now, queueReason := "", queueCategory := "" }) s)
    else
      (count, updateStarted now retryStartedAt (fun m =>
        { m with
          retryCount := count, executionMissCount := missCount, workerId := "", error := reason
          status := .pending }) s)

/-! ### The closures on the records of the other modules -/

section Record

variable {s : Stored} {now : Int}

theorem Stored.eq_of_not_empty (h : s.emptyRetryStart = false) : s = { toMeta := s.toMeta } := by
  rw [← h]

theorem setDefaultRetryStart_mk (m : Meta) :
    Stored.setDefaultRetryStart now { toMeta := m } =
      { toMeta := { m with retryStartedAt := some (m.retryStartedAt.getD now) } } := rfl

theorem recordRetryClosure_record (u : Chars) (retryLimit : Int) (reason : String)
    (h : s.emptyRetryStart = false) :
    recordRetryClosure u retryLimit reason now s =
      ((Store.recordRetry u retryLimit reason now s.toMeta).1,
        { toMeta := (Store.recordRetry u retryLimit reason now s.toMeta).2 }) := by
  rw [s.eq_of_not_empty h]
  simp only [recordRetryClosure, Store.recordRetry, Stored.appendAttemptHistory,
    setDefaultRetryStart_mk, Stored.setRetryTerminal]
  split
  · rfl
  · split <;> rfl

theorem retrySubmittedTaskClosure_record (u : Chars) (maxRetries : Int) (reason : String)
    (delaySeconds : Int) (h : s.emptyRetryStart = false) :
    retrySubmittedTaskClosure u maxRetries reason delaySeconds now s =
      ((Store.retrySubmittedTask u maxRetries reason delaySeconds now s.toMeta).1,
        { toMeta := (Store.retrySubmittedTask u maxRetries reason delaySeconds now s.toMeta).2 }) := by
  rw [s.eq_of_not_empty h]
  simp only [retrySubmittedTaskClosure, Store.retrySubmittedTask, Stored.appendAttemptHistory,
    setDefaultRetryStart_mk, Stored.setRetryTerminal]
  split
  · rfl
  · split <;> rfl

theorem retryTimedOutSubmittedTaskClosure_record (u : Chars) (maxRetries : Int) (reason : String)
    (delaySeconds : Int) (h : s.emptyRetryStart = false) :
    retryTimedOutSubmittedTaskClosure u maxRetries reason delaySeconds now s =
      ((Store.retryTimedOutSubmittedTask u maxRetries reason delaySeconds now s.toMeta).1,
        { toMeta :=
            (Store.retryTimedOutSubmittedTask u maxRetries reason delaySeconds now s.toMeta).2 }) := by
  rw [s.eq_of_not_empty h]
  simp only [retryTimedOutSubmittedTaskClosure, Store.retryTimedOutSubmittedTask,
    Stored.appendAttemptHistory, setDefaultRetryStart_mk, Stored.setRetryTerminal]
  split
  · rfl
  · split <;> rfl

theorem recordExecutionMissClosure_record (retryLimit : Int) (reason : String)
    (h : s.emptyRetryStart = false) :
    recordExecutionMissClosure retryLimit reason now s =
      ((Store.recordExecutionMiss retryLimit reason now s.toMeta).1,
        { toMeta := (Store.recordExecutionMiss retryLimit reason now s.toMeta).2 }) := by
  rw [s.eq_of_not_empty h]
  simp only [recordExecutionMissClosure, Store.recordExecutionMiss, setDefaultRetryStart_mk,
    Stored.setRetryTerminal]
  split <;> rfl

end Record

/-! ### record_retry: one reason, normalised once or twice -/

theorem strip_browserTimeout {u : Chars} (hu : u.isSpace = isStrSpace) :
    u.strip "浏览器超时" = "浏览器超时" := by
  rw [Chars.strip, hu]
  decide

theorem strip_regionRestricted {u : Chars} (hu : u.isSpace = isStrSpace) :
    u.strip "Dola 当前地区不可用" = "Dola 当前地区不可用" := by
  rw [Chars.strip, hu]
  decide

/-- The file branch normalises the two texts that it has put in, which leaves them as they are. -/
theorem retryReason_eq {u : Chars} (hu : u.isSpace = isStrSpace) (m : Meta) (reason : String) :
    retryReason u m reason =
      m.normalizedFailureReason u
        (let reason := if reason = "browser timeout" then "浏览器超时" else reason
         if reason = "region restricted" then "Dola 当前地区不可用" else reason) := by
  rw [retryReason]
  by_cases hbrowser : reason = "browser timeout"
  · have htext : takeText 500 "浏览器超时" = "浏览器超时" := by decide
    have hplain : ("浏览器超时" : String) ≠ "region restricted" := by decide
    simp [hbrowser, hplain, Meta.normalizedFailureReason, strip_browserTimeout hu, htext]
  · by_cases hregion : reason = "region restricted"
    · have htext : takeText 500 "Dola 当前地区不可用" = "Dola 当前地区不可用" := by decide
      simp [hregion, Meta.normalizedFailureReason, strip_regionRestricted hu, htext]
    · simp [hbrowser, hregion]

theorem recordRetry_agree {u : Chars} (hu : u.isSpace = isStrSpace) (retryLimit : Int)
    (reason : String) (now : Int) (s : Stored) :
    recordRetry u retryLimit reason now .postgres s =
      recordRetry u retryLimit reason now .jsonFile s := by
  simp only [recordRetry, recordRetryClosure, retryReason_eq hu]

/-! ### The two retries of a submitted task: a tail that runs without its closure -/

/-- The record is as `mark_retry_queue_verified` leaves it at this time. -/
def Verified (now : Int) (m : Meta) : Prop :=
  m.executionPhase = "retry_queued" ∧ m.statusReason = "重试已入队，等待执行" ∧
    m.retryQueueVerifiedAt = some now ∧ m.phaseUpdatedAt = some now ∧ m.updatedAt = some now

/-- The tail finds a pending task in budget and marks it as queued again. -/
def Remarks (limit count now : Int) (m : Meta) : Prop :=
  m.status = .pending ∧ m.cancelRequested = false ∧ count ≤ limit ∧ ¬ Verified now m

instance (now : Int) (m : Meta) : Decidable (Verified now m) :=
  inferInstanceAs (Decidable (_ ∧ _))

instance (limit count now : Int) (m : Meta) : Decidable (Remarks limit count now m) :=
  inferInstanceAs (Decidable (_ ∧ _))

theorem markRetryQueueVerified_eq_self {now : Int} {m : Meta} (hpending : m.status = .pending) :
    (markRetryQueueVerified now m).2 = m ↔ Verified now m := by
  rw [markRetryQueueVerified, updateMetaIf_of_mem (by simp [hpending])]
  constructor
  · intro hm
    have hphase := congrArg Meta.executionPhase hm
    have hreason := congrArg Meta.statusReason hm
    have hverified := congrArg Meta.retryQueueVerifiedAt hm
    have hphaseAt := congrArg Meta.phaseUpdatedAt hm
    have hupdated := congrArg Meta.updatedAt hm
    exact ⟨hphase.symm, hreason.symm, hverified.symm, hphaseAt.symm, hupdated.symm⟩
  · intro h
    cases m
    dsimp only [Verified] at h
    obtain ⟨rfl, rfl, rfl, rfl, rfl⟩ := h
    rfl

theorem requeuePendingTask_eq_self {now : Int} {s : Stored} :
    requeuePendingTask now s = s ↔
      (s.status = .pending → s.cancelRequested = false → Verified now s.toMeta) := by
  rw [requeuePendingTask]
  split
  next hidle =>
    have hvoid : ¬ (s.status = .pending ∧ s.cancelRequested = false) := by
      rintro ⟨hpending, hcancel⟩
      simp [hpending, hcancel] at hidle
    exact ⟨fun _ hpending hcancel => absurd ⟨hpending, hcancel⟩ hvoid, fun _ => rfl⟩
  next hbusy =>
    obtain ⟨hpending, hcancel⟩ := not_or.mp hbusy
    have hpending : s.status = .pending := not_not.mp hpending
    have hcancel : s.cancelRequested = false := Bool.eq_false_iff.mpr hcancel
    rw [← markRetryQueueVerified_eq_self hpending]
    constructor
    · intro heq _ _
      exact congrArg Stored.toMeta heq
    · intro h
      show { s with toMeta := _ } = s
      rw [h hpending hcancel]

/-- Where the closure is not applied, the tail of the Postgres branch is the whole difference. -/
theorem tail_agrees {limit count now : Int} {s : Stored} :
    (count, if count ≤ limit then requeuePendingTask now s else s) = (count, s) ↔
      ¬ Remarks limit count now s.toMeta := by
  rw [Prod.mk.injEq, Remarks]
  split
  next hbudget =>
    rw [requeuePendingTask_eq_self]
    constructor
    · rintro ⟨-, hverified⟩ ⟨hpending, hcancel, -, hnot⟩
      exact hnot (hverified hpending hcancel)
    · intro hnot
      refine ⟨rfl, fun hpending hcancel => ?_⟩
      by_contra hverified
      exact hnot ⟨hpending, hcancel, hbudget, hverified⟩
  next hspent => simp [hspent]

theorem retrySubmittedTask_agree_iff (u : Chars) (configuredLimit : Int) (reason : String)
    (maxRetries : Option Int) (delaySeconds now : Int) (s : Stored) :
    retrySubmittedTask u configuredLimit reason maxRetries delaySeconds now .postgres s =
        retrySubmittedTask u configuredLimit reason maxRetries delaySeconds now .jsonFile s ↔
      ¬ Remarks (clampRetries configuredLimit maxRetries) (max 0 s.retryCount) now s.toMeta := by
  simp only [retrySubmittedTask, retrySubmittedTaskClosure]
  by_cases hstatus : s.status = .submitted
  · have hremarks : ¬ Remarks (clampRetries configuredLimit maxRetries) (max 0 s.retryCount) now
        s.toMeta := by
      rintro ⟨hpending, -⟩
      rw [hstatus] at hpending
      cases hpending
    simp only [hstatus, ne_eq, not_true_eq_false, if_false, hremarks, not_false_eq_true]
  · simp only [ne_eq, hstatus, not_false_eq_true, if_true]
    exact tail_agrees

theorem retryTimedOutSubmittedTask_agree_iff (u : Chars) (configuredLimit : Int) (reason : String)
    (maxRetries : Option Int) (delaySeconds now : Int) (s : Stored) :
    retryTimedOutSubmittedTask u configuredLimit reason maxRetries delaySeconds now .postgres s =
        retryTimedOutSubmittedTask u configuredLimit reason maxRetries delaySeconds now
          .jsonFile s ↔
      ¬ Remarks (clampRetries configuredLimit maxRetries) (max 0 s.resultTimeoutRetryCount) now
        s.toMeta := by
  simp only [retryTimedOutSubmittedTask, retryTimedOutSubmittedTaskClosure]
  by_cases hguard : s.status ≠ .submitted ∨ s.cancelRequested
  · simp only [hguard, if_true]
    exact tail_agrees
  · have hremarks : ¬ Remarks (clampRetries configuredLimit maxRetries)
        (max 0 s.resultTimeoutRetryCount) now s.toMeta := by
      rintro ⟨hpending, -⟩
      exact hguard (.inl (by rw [hpending]; decide))
    simp only [hguard, if_false, hremarks, not_false_eq_true]

/-! ### record_execution_miss: a default against an overwritten value -/

theorem recordExecutionMiss_agree_iff (retryLimit : Int) (reason : String) (now : Int)
    (s : Stored) :
    recordExecutionMiss retryLimit reason now .postgres s =
        recordExecutionMiss retryLimit reason now .jsonFile s ↔ s.emptyRetryStart = false := by
  obtain ⟨m, e⟩ := s
  constructor
  · intro heq
    have hflag := congrArg (fun r => r.2.emptyRetryStart) heq
    simp only [recordExecutionMiss, recordExecutionMissClosure, Stored.setDefaultRetryStart,
      Stored.setRetryTerminal, updateStarted, updateMeta] at hflag
    cases e with
    | false => rfl
    | true => split at hflag <;> simp at hflag
  · intro h
    have he : e = false := h
    subst he
    have htext : takeText 500 (textOr (textOr "任务超时未执行" m.error) "生成失败，请重试！") =
        "任务超时未执行" := by
      have hgiven : textOr "任务超时未执行" m.error = "任务超时未执行" := if_neg (by decide)
      rw [hgiven]
      decide
    simp only [recordExecutionMiss, recordExecutionMissClosure, setDefaultRetryStart_mk,
      Stored.setRetryTerminal, Meta.setRetryTerminal, updateStarted, updateMeta]
    split
    · simp only [htext]
    · rfl

/-! ### The four operations -/

theorem branches_agree_iff (u : Chars) (hu : u.isSpace = isStrSpace) (retryLimit : Int)
    (maxRetries : Option Int) (reason : String) (delaySeconds now : Int) (s : Stored) :
    recordRetry u retryLimit reason now .postgres s =
        recordRetry u retryLimit reason now .jsonFile s ∧
      (retrySubmittedTask u retryLimit reason maxRetries delaySeconds now .postgres s =
          retrySubmittedTask u retryLimit reason maxRetries delaySeconds now .jsonFile s ↔
        ¬ Remarks (clampRetries retryLimit maxRetries) (max 0 s.retryCount) now s.toMeta) ∧
      (retryTimedOutSubmittedTask u retryLimit reason maxRetries delaySeconds now .postgres s =
          retryTimedOutSubmittedTask u retryLimit reason maxRetries delaySeconds now .jsonFile s ↔
        ¬ Remarks (clampRetries retryLimit maxRetries) (max 0 s.resultTimeoutRetryCount) now
          s.toMeta) ∧
      (recordExecutionMiss retryLimit reason now .postgres s =
          recordExecutionMiss retryLimit reason now .jsonFile s ↔ s.emptyRetryStart = false) :=
  ⟨recordRetry_agree hu retryLimit reason now s,
    retrySubmittedTask_agree_iff u retryLimit reason maxRetries delaySeconds now s,
    retryTimedOutSubmittedTask_agree_iff u retryLimit reason maxRetries delaySeconds now s,
    recordExecutionMiss_agree_iff retryLimit reason now s⟩

/-- The tables with the white space of the language. -/
def plainChars : Chars := { Chars.ascii with isSpace := isStrSpace }

/-- A task that another caller has put back into the queue: the claim of a submitted task is over. -/
def requeuedTask : Stored := { status := .pending, retryCount := 1, statusReason := "正在重新排队" }

theorem branches_agree_iff_requeued :
    plainChars.isSpace = isStrSpace ∧
      (retrySubmittedTask plainChars 2 "no result" none 45 0 .postgres requeuedTask =
          retrySubmittedTask plainChars 2 "no result" none 45 0 .jsonFile requeuedTask ↔
        ¬ Remarks 2 1 0 requeuedTask.toMeta) :=
  ⟨rfl, (branches_agree_iff plainChars rfl 2 none "no result" 45 0 requeuedTask).2.1⟩

/-- The task is reported as put into the queue by a retry on one backend only. -/
theorem branches_differ :
    ¬ ∀ (u : Chars) (retryLimit : Int) (reason : String) (maxRetries : Option Int)
        (delaySeconds now : Int) (s : Stored), u.isSpace = isStrSpace →
      retrySubmittedTask u retryLimit reason maxRetries delaySeconds now .postgres s =
        retrySubmittedTask u retryLimit reason maxRetries delaySeconds now .jsonFile s := by
  intro h
  have hagree := h plainChars 2 "no result" none 45 0 requeuedTask rfl
  exact absurd hagree (by decide +kernel)

end FetchTask.Store.Branches
