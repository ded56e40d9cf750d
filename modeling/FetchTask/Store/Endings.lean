import FetchTask.Store.StatusMachine

/-!
How a task comes to fail, and to succeed.

Only `mark_failed`, the retry operations over their limit and the start-up pass
make a record failed; `StoreOp.retries` says in which statuses a retry operation
does anything. Only the two marks of success make a record successful. No operation
changes the owner of a task, and none begins a late watch.
-/

namespace FetchTask.Store

def StoreOp.isMarkFailed : StoreOp → Bool
  | .markFailed .. => true
  | _ => false

/-- A mark of success that changes the record. -/
def StoreOp.marksSuccess : StoreOp → Meta → Bool
  | .markSuccess hasUrl _, m => hasUrl && decide (m.status ∈ [.running, .submitted])
  | .markLateResultSuccess hasUrl _, m => hasUrl && m.status == .failed
  | _, _ => false

def StoreOp.isFailInitializing : StoreOp → Bool
  | .failInitializing .. => true
  | _ => false

/-- Whether a retry operation with a limit changes the record. -/
def StoreOp.retries : StoreOp → Meta → Bool
  | .recordRetry .., m | .recordInfrastructureRetry .., m =>
    decide (m.status ∈ [Status.initializing, .pending, .running])
  | .retrySubmittedTask .., m | .retryAmbiguousSubmittedTask .., m => m.status == .submitted
  | .retryTimedOutSubmittedTask .., m => m.status == .submitted && !m.cancelRequested
  | .recordExecutionMiss .., _ => true
  | _, _ => false

/-- The number that a retry operation returns is over its limit. -/
def StoreOp.OverLimit (o : StoreOp) (count : Int) : Prop :=
  ∃ limit, o.retryLimit = some limit ∧ limit < count

/-- The counter that a retry operation raises, as stored. -/
def StoreOp.storedCount : StoreOp → Meta → Int
  | .recordInfrastructureRetry .., m | .retryAmbiguousSubmittedTask .., m =>
    max 0 m.infrastructureRetryCount
  | .retryTimedOutSubmittedTask .., m => max 0 m.resultTimeoutRetryCount
  | _, m => max 0 m.retryCount

/-- The retry operation will change nothing, and the stored counter is over its limit. -/
def StoreOp.ExceededAlready (o : StoreOp) (m : Meta) : Prop :=
  o.retries m = false ∧ ∃ limit ∈ o.retryLimit, limit < o.storedCount m

instance (o : StoreOp) (m : Meta) : Decidable (o.ExceededAlready m) :=
  inferInstanceAs (Decidable (_ ∧ _))

/-- Where none of these statuses is found, the record is open. -/
theorem open_of_not_retired {t : Status}
    (h : t ∉ [Status.success, .submitted, .failed, .canceled]) :
    t ∈ [Status.initializing, .pending, .running] := by
  cases t <;> simp_all

theorem not_retired_of_open {t : Status} (h : t ∈ [Status.initializing, .pending, .running]) :
    t ∉ [Status.success, .submitted, .failed, .canceled] := by
  cases t <;> simp_all

/-- The owner is the same, and the late watch is at most ended. -/
structure SameOwner (m m' : Meta) : Prop where
  ownerTokenHash : m'.ownerTokenHash = m.ownerTokenHash
  lateResultWatchUntil : m'.lateResultWatchUntil = m.lateResultWatchUntil ∨
    m'.lateResultWatchUntil = none

section

variable {u : Chars} {m m' : Meta}

theorem SameOwner.refl (m : Meta) : SameOwner m m := ⟨rfl, .inl rfl⟩

theorem SameOwner.of_eq (howner : m'.ownerTokenHash = m.ownerTokenHash)
    (hlate : m'.lateResultWatchUntil = m.lateResultWatchUntil) : SameOwner m m' :=
  ⟨howner, .inl hlate⟩

theorem updateMetaIf_sameOwner {expected : List Status} {now : Int} {updates : Meta → Meta}
    (h : SameOwner m (updates m)) : SameOwner m (updateMetaIf expected now updates m).2 := by
  by_cases hm : m.status ∈ expected
  · rw [updateMetaIf_of_mem hm]
    exact ⟨h.ownerTokenHash, h.lateResultWatchUntil⟩
  · rw [updateMetaIf_of_not_mem hm]
    exact .refl m

@[simp] theorem appendAttemptHistory_ownerTokenHash (now : Int) (reason kind : String) (m : Meta) :
    (m.appendAttemptHistory u now reason kind).ownerTokenHash = m.ownerTokenHash := by
  simp only [Meta.appendAttemptHistory]
  split <;> rfl

@[simp] theorem appendAttemptHistory_lateResultWatchUntil (now : Int) (reason kind : String)
    (m : Meta) :
    (m.appendAttemptHistory u now reason kind).lateResultWatchUntil = m.lateResultWatchUntil := by
  simp only [Meta.appendAttemptHistory]
  split <;> rfl

@[simp] theorem setRetryTerminal_ownerTokenHash (now : Int) (reason : String) (m : Meta) :
    (m.setRetryTerminal now reason).ownerTokenHash = m.ownerTokenHash := rfl

@[simp] theorem setRetryTerminal_lateResultWatchUntil (now : Int) (reason : String) (m : Meta) :
    (m.setRetryTerminal now reason).lateResultWatchUntil = m.lateResultWatchUntil := rfl

theorem storeOp_sameOwner (o : StoreOp) (m : Meta) : SameOwner m (o.apply u m) := by
  cases o with
  | failInitializing reason now => exact updateMetaIf_sameOwner (.of_eq rfl rfl)
  | markRunning paused workerId atLimit now =>
    show SameOwner m (markRunning paused workerId atLimit now m).2
    unfold markRunning claimTask
    split_ifs <;> exact .of_eq rfl rfl
  | markPending reason now => exact updateMetaIf_sameOwner (.of_eq rfl rfl)
  | deferTask reason category delaySeconds now => exact updateMetaIf_sameOwner (.of_eq rfl rfl)
  | markFailed reason now =>
    show SameOwner m (markFailed u reason now m).2
    unfold markFailed
    split
    · exact .refl m
    · exact .of_eq (by simp) (by simp)
  | markCanceled reason now => exact updateMetaIf_sameOwner (.of_eq rfl rfl)
  | requestTaskCancel reason allowSubmitted now =>
    show SameOwner m (requestTaskCancel reason allowSubmitted now m).2
    unfold requestTaskCancel
    split <;> exact .of_eq rfl rfl
  | recordRetry retryLimit reason now =>
    show SameOwner m (recordRetry u retryLimit reason now m).2
    unfold recordRetry
    split
    · exact .refl m
    · exact .of_eq (by simp [apply_ite]) (by simp [apply_ite])
  | recordInfrastructureRetry reason now =>
    show SameOwner m (recordInfrastructureRetry u reason now m).2
    unfold recordInfrastructureRetry
    split
    · exact .refl m
    · exact .of_eq (by simp [apply_ite]) (by simp [apply_ite])
  | retrySubmittedTask maxRetries reason delaySeconds now =>
    show SameOwner m (retrySubmittedTask u maxRetries reason delaySeconds now m).2
    unfold retrySubmittedTask
    split
    · exact .refl m
    · exact .of_eq (by simp [apply_ite]) (by simp [apply_ite])
  | retryAmbiguousProxyTask reason accountId proxyNodeId delaySeconds now =>
    show SameOwner m (retryAmbiguousProxyTask u reason accountId proxyNodeId delaySeconds now m).2
    unfold retryAmbiguousProxyTask
    split
    · exact .refl m
    · exact .of_eq (by simp) (by simp)
  | retryAmbiguousSubmittedTask maxRetries reason delaySeconds now =>
    show SameOwner m (retryAmbiguousSubmittedTask u maxRetries reason delaySeconds now m).2
    unfold retryAmbiguousSubmittedTask
    split
    · exact .refl m
    · exact .of_eq (by simp [apply_ite]) (by simp [apply_ite])
  | retryTimedOutSubmittedTask maxRetries reason delaySeconds now =>
    show SameOwner m (retryTimedOutSubmittedTask u maxRetries reason delaySeconds now m).2
    unfold retryTimedOutSubmittedTask
    split
    · exact .refl m
    · exact .of_eq (by simp [apply_ite]) (by simp [apply_ite])
  | recordExecutionMiss retryLimit reason now =>
    show SameOwner m (recordExecutionMiss retryLimit reason now m).2
    unfold recordExecutionMiss
    exact .of_eq (by simp [apply_ite]) (by simp [apply_ite])
  | recordResultWatchMiss reason now => exact .of_eq rfl rfl
  | markRetryQueueVerified now => exact updateMetaIf_sameOwner (.of_eq rfl rfl)
  | markSuccess hasUrl now =>
    show SameOwner m (markSuccess hasUrl now m).2
    unfold markSuccess
    split
    · exact .refl m
    · exact updateMetaIf_sameOwner (.of_eq rfl rfl)
  | markLateResultSuccess hasUrl now =>
    show SameOwner m (markLateResultSuccess hasUrl now m).2
    unfold markLateResultSuccess
    split
    · exact .refl m
    · exact updateMetaIf_sameOwner ⟨rfl, .inr rfl⟩
  | markSubmitted resultPollDelaySeconds now => exact updateMetaIf_sameOwner (.of_eq rfl rfl)
  | resetRunning wasSubmitted submittedAt now =>
    show SameOwner m (resetRunning wasSubmitted submittedAt now m).2
    unfold resetRunning markPending
    split <;> exact updateMetaIf_sameOwner (.of_eq rfl rfl)

/-! ### Failing -/

theorem updateMetaIf_failed {expected : List Status} {now : Int} {updates : Meta → Meta}
    (hu : ∀ m, (updates m).status ≠ .failed)
    (h : (updateMetaIf expected now updates m).2.status = .failed) : m.status = .failed := by
  by_cases hm : m.status ∈ expected
  · rw [updateMetaIf_of_mem hm] at h
    exact absurd h (hu m)
  · rwa [updateMetaIf_of_not_mem hm] at h

/-- What can make a record failed. -/
theorem storeOp_failed (o : StoreOp) (h : (o.apply u m).status = .failed) :
    m.status = .failed ∨ o.isMarkFailed = true ∨ o.isFailInitializing = true ∨
      (o.retries m = true ∧ o.OverLimit (o.count u m)) := by
  cases o with
  | failInitializing reason now => exact .inr (.inr (.inl rfl))
  | markRunning paused workerId atLimit now =>
    refine .inl ?_
    simp only [StoreOp.apply, markRunning, claimTask] at h
    split_ifs at h <;> exact h
  | markPending reason now => exact .inl (updateMetaIf_failed (by simp) h)
  | deferTask reason category delaySeconds now => exact .inl (updateMetaIf_failed (by simp) h)
  | markFailed reason now => exact .inr (.inl rfl)
  | markCanceled reason now => exact .inl (updateMetaIf_failed (by simp) h)
  | requestTaskCancel reason allowSubmitted now =>
    simp only [StoreOp.apply, requestTaskCancel] at h
    split at h
    · exact .inl h
    · cases h
  | recordRetry retryLimit reason now =>
    simp only [StoreOp.apply, recordRetry] at h
    split at h
    · exact .inl h
    · rename_i hopen
      refine .inr (.inr (.inr ⟨by simpa [StoreOp.retries] using open_of_not_retired hopen, ?_⟩))
      split at h
      · rename_i hover
        simpa [StoreOp.OverLimit, StoreOp.retryLimit, StoreOp.count, recordRetry, hopen] using hover
      · cases h
  | recordInfrastructureRetry reason now =>
    simp only [StoreOp.apply, recordInfrastructureRetry] at h
    split at h
    · exact .inl h
    · rename_i hopen
      refine .inr (.inr (.inr ⟨by simpa [StoreOp.retries] using open_of_not_retired hopen, ?_⟩))
      split at h
      · rename_i hover
        simpa [StoreOp.OverLimit, StoreOp.retryLimit, StoreOp.count, recordInfrastructureRetry, hopen, apply_ite]
          using hover
      · cases h
  | retrySubmittedTask maxRetries reason delaySeconds now =>
    simp only [StoreOp.apply, retrySubmittedTask] at h
    split at h
    · exact .inl h
    · rename_i hopen
      refine .inr (.inr (.inr ⟨by simpa [StoreOp.retries] using hopen, ?_⟩))
      split at h
      · rename_i hover
        simpa [StoreOp.OverLimit, StoreOp.retryLimit, StoreOp.count, retrySubmittedTask, hopen] using hover
      · cases h
  | retryAmbiguousProxyTask reason accountId proxyNodeId delaySeconds now =>
    simp only [StoreOp.apply, retryAmbiguousProxyTask] at h
    split at h
    · exact .inl h
    · cases h
  | retryAmbiguousSubmittedTask maxRetries reason delaySeconds now =>
    simp only [StoreOp.apply, retryAmbiguousSubmittedTask] at h
    split at h
    · exact .inl h
    · rename_i hopen
      refine .inr (.inr (.inr ⟨by simpa [StoreOp.retries] using hopen, ?_⟩))
      split at h
      · rename_i hover
        simpa [StoreOp.OverLimit, StoreOp.retryLimit, StoreOp.count, retryAmbiguousSubmittedTask, hopen, apply_ite]
          using hover
      · cases h
  | retryTimedOutSubmittedTask maxRetries reason delaySeconds now =>
    simp only [StoreOp.apply, retryTimedOutSubmittedTask] at h
    split at h
    · exact .inl h
    · rename_i hopen
      refine .inr (.inr (.inr ⟨by simpa [StoreOp.retries] using hopen, ?_⟩))
      split at h
      · rename_i hover
        simpa [StoreOp.OverLimit, StoreOp.retryLimit, StoreOp.count, retryTimedOutSubmittedTask, hopen] using hover
      · cases h
  | recordExecutionMiss retryLimit reason now =>
    simp only [StoreOp.apply, recordExecutionMiss] at h
    refine .inr (.inr (.inr ⟨rfl, ?_⟩))
    split at h
    · rename_i hover
      simpa [StoreOp.OverLimit, StoreOp.retryLimit, StoreOp.count, recordExecutionMiss] using hover
    · cases h
  | recordResultWatchMiss reason now => exact .inl h
  | markRetryQueueVerified now =>
    refine .inl ?_
    by_cases hm : m.status ∈ [Status.pending]
    · simpa [StoreOp.apply, markRetryQueueVerified, updateMetaIf_of_mem hm] using h
    · simpa [StoreOp.apply, markRetryQueueVerified, updateMetaIf_of_not_mem hm] using h
  | markSuccess hasUrl now =>
    simp only [StoreOp.apply, markSuccess] at h
    split at h
    · exact .inl h
    · exact .inl (updateMetaIf_failed (by simp) h)
  | markLateResultSuccess hasUrl now =>
    simp only [StoreOp.apply, markLateResultSuccess] at h
    split at h
    · exact .inl h
    · exact .inl (updateMetaIf_failed (by simp) h)
  | markSubmitted resultPollDelaySeconds now => exact .inl (updateMetaIf_failed (by simp) h)
  | resetRunning wasSubmitted submittedAt now =>
    simp only [StoreOp.apply, resetRunning, markPending] at h
    split at h <;> exact .inl (updateMetaIf_failed (by simp) h)

theorem updateMetaIf_success {expected : List Status} {now : Int} {updates : Meta → Meta}
    (hupdates : (updates m).status ≠ .success)
    (h : (updateMetaIf expected now updates m).2.status = .success) : m.status = .success := by
  by_cases hm : m.status ∈ expected
  · rw [updateMetaIf_of_mem hm] at h
    exact absurd h hupdates
  · rwa [updateMetaIf_of_not_mem hm] at h

/-- Only a mark of success makes a record successful. -/
theorem storeOp_success (o : StoreOp) (h : (o.apply u m).status = .success) :
    m.status = .success ∨ o.marksSuccess m = true := by
  cases o with
  | markSuccess hasUrl now =>
    cases hasUrl with
    | false => exact .inl h
    | true =>
      by_cases hm : m.status ∈ [Status.running, .submitted]
      · exact .inr (by simpa [StoreOp.marksSuccess] using hm)
      · refine .inl ?_
        simpa [StoreOp.apply, markSuccess, updateMetaIf_of_not_mem hm] using h
  | markLateResultSuccess hasUrl now =>
    cases hasUrl with
    | false => exact .inl h
    | true =>
      by_cases hm : m.status ∈ [Status.failed]
      · exact .inr (by simpa [StoreOp.marksSuccess] using hm)
      · refine .inl ?_
        simpa [StoreOp.apply, markLateResultSuccess, updateMetaIf_of_not_mem hm] using h
  | failInitializing reason now => exact .inl (updateMetaIf_success (by simp) h)
  | markPending reason now => exact .inl (updateMetaIf_success (by simp) h)
  | deferTask reason category delaySeconds now => exact .inl (updateMetaIf_success (by simp) h)
  | markCanceled reason now => exact .inl (updateMetaIf_success (by simp) h)
  | markRetryQueueVerified now =>
    refine .inl ?_
    by_cases hm : m.status ∈ [Status.pending]
    · simpa [StoreOp.apply, markRetryQueueVerified, updateMetaIf_of_mem hm] using h
    · simpa [StoreOp.apply, markRetryQueueVerified, updateMetaIf_of_not_mem hm] using h
  | markSubmitted delay now => exact .inl (updateMetaIf_success (by simp) h)
  | resetRunning wasSubmitted submittedAt now =>
    refine .inl ?_
    simp only [StoreOp.apply, resetRunning, markPending] at h
    split at h
    · exact updateMetaIf_success (by simp) h
    · exact updateMetaIf_success (by simp) h
  | markRunning paused workerId atLimit now =>
    refine .inl ?_
    simp only [StoreOp.apply, markRunning, claimTask] at h
    split_ifs at h <;> simp_all
  | markFailed reason now =>
    refine .inl ?_
    simp only [StoreOp.apply, markFailed] at h
    split_ifs at h
    simp_all
  | requestTaskCancel reason allowSubmitted now =>
    refine .inl ?_
    simp only [StoreOp.apply, requestTaskCancel] at h
    split_ifs at h
    simp_all
  | recordRetry retryLimit reason now =>
    refine .inl ?_
    simp only [StoreOp.apply, recordRetry] at h
    split_ifs at h <;> simp_all
  | recordInfrastructureRetry reason now =>
    refine .inl ?_
    simp only [StoreOp.apply, recordInfrastructureRetry] at h
    split_ifs at h <;> simp_all
  | retrySubmittedTask maxRetries reason delaySeconds now =>
    refine .inl ?_
    simp only [StoreOp.apply, retrySubmittedTask] at h
    split_ifs at h <;> simp_all
  | retryAmbiguousProxyTask reason accountId proxyNodeId delaySeconds now =>
    refine .inl ?_
    simp only [StoreOp.apply, retryAmbiguousProxyTask] at h
    split_ifs at h
    simp_all
  | retryAmbiguousSubmittedTask maxRetries reason delaySeconds now =>
    refine .inl ?_
    simp only [StoreOp.apply, retryAmbiguousSubmittedTask] at h
    split_ifs at h <;> simp_all
  | retryTimedOutSubmittedTask maxRetries reason delaySeconds now =>
    refine .inl ?_
    simp only [StoreOp.apply, retryTimedOutSubmittedTask] at h
    split_ifs at h <;> simp_all
  | recordExecutionMiss retryLimit reason now =>
    refine .inl ?_
    simp only [StoreOp.apply, recordExecutionMiss] at h
    split_ifs at h
    simp_all
  | recordResultWatchMiss reason now =>
    refine .inl ?_
    simpa [StoreOp.apply, recordResultWatchMiss] using h

/-- `mark_failed` leaves a task failed unless it finds it finished otherwise. -/
theorem markFailed_status {o : StoreOp} (ho : o.isMarkFailed = true) (m : Meta) :
    (o.apply u m).status =
      if m.status = .success ∨ m.status = .canceled then m.status else .failed := by
  cases o with
  | markFailed reason now =>
    simp only [StoreOp.apply, markFailed]
    cases hm : m.status <;> simp
    all_goals exact hm
  | _ => cases ho

/-- A retry operation over its limit fails the task, if it changes the record. -/
theorem overLimit_failed {o : StoreOp} (h : o.OverLimit (o.count u m))
    (hretries : o.retries m = true) : (o.apply u m).status = .failed := by
  obtain ⟨limit, hlimit, hcount⟩ := h
  cases o with
  | recordRetry retryLimit reason now =>
    cases hlimit
    have hopen := not_retired_of_open (of_decide_eq_true hretries)
    simp only [StoreOp.count, recordRetry, hopen, if_false] at hcount
    simp [StoreOp.apply, recordRetry, hopen, hcount]
  | recordInfrastructureRetry reason now =>
    cases hlimit
    have hopen := not_retired_of_open (of_decide_eq_true hretries)
    simp only [StoreOp.count, recordInfrastructureRetry, hopen, if_false, apply_ite Prod.fst,
      ite_self] at hcount
    simp [StoreOp.apply, recordInfrastructureRetry, hopen, hcount]
  | retrySubmittedTask maxRetries reason delaySeconds now =>
    cases hlimit
    have hopen : m.status = .submitted := by simpa [StoreOp.retries] using hretries
    simp only [StoreOp.count, retrySubmittedTask, hopen, ne_eq, not_true, if_false] at hcount
    simp [StoreOp.apply, retrySubmittedTask, hopen, hcount]
  | retryAmbiguousSubmittedTask maxRetries reason delaySeconds now =>
    cases hlimit
    have hopen : m.status = .submitted := by simpa [StoreOp.retries] using hretries
    simp only [StoreOp.count, retryAmbiguousSubmittedTask, hopen, ne_eq, not_true, if_false,
      apply_ite Prod.fst, ite_self] at hcount
    simp [StoreOp.apply, retryAmbiguousSubmittedTask, hopen, hcount]
  | retryTimedOutSubmittedTask maxRetries reason delaySeconds now =>
    cases hlimit
    have hopen : m.status = .submitted ∧ m.cancelRequested = false := by
      simpa [StoreOp.retries] using hretries
    simp only [StoreOp.count, retryTimedOutSubmittedTask, hopen] at hcount
    simp [StoreOp.apply, retryTimedOutSubmittedTask, hopen] at hcount ⊢
    simp [hcount]
  | recordExecutionMiss retryLimit reason now =>
    cases hlimit
    simp only [StoreOp.count, recordExecutionMiss] at hcount
    rw [StoreOp.apply, recordExecutionMiss_status, if_pos hcount]
  | _ => cases hretries

/-- A retry operation that changes nothing returns the stored counter. -/
theorem overLimit_of_not_retries {o : StoreOp} (h : o.OverLimit (o.count u m))
    (hretries : o.retries m = false) : o.ExceededAlready m := by
  obtain ⟨limit, hlimit, hcount⟩ := h
  refine ⟨hretries, limit, hlimit, ?_⟩
  cases o with
  | recordRetry retryLimit reason now =>
    have hretired : m.status ∈ [Status.success, .submitted, .failed, .canceled] :=
      not_not.mp fun h => by simp [StoreOp.retries, open_of_not_retired h] at hretries
    simpa [StoreOp.storedCount, StoreOp.count, recordRetry, hretired] using hcount
  | recordInfrastructureRetry reason now =>
    have hretired : m.status ∈ [Status.success, .submitted, .failed, .canceled] :=
      not_not.mp fun h => by simp [StoreOp.retries, open_of_not_retired h] at hretries
    simpa [StoreOp.storedCount, StoreOp.count, recordInfrastructureRetry, hretired] using hcount
  | retrySubmittedTask maxRetries reason delaySeconds now =>
    have hopen : m.status ≠ .submitted := by simpa [StoreOp.retries] using hretries
    simpa [StoreOp.storedCount, StoreOp.count, retrySubmittedTask, hopen] using hcount
  | retryAmbiguousSubmittedTask maxRetries reason delaySeconds now =>
    have hopen : m.status ≠ .submitted := by simpa [StoreOp.retries] using hretries
    simpa [StoreOp.storedCount, StoreOp.count, retryAmbiguousSubmittedTask, hopen] using hcount
  | retryTimedOutSubmittedTask maxRetries reason delaySeconds now =>
    have hopen : m.status ≠ .submitted ∨ m.cancelRequested = true := by
      by_cases h : m.status = .submitted
      · exact .inr (by simpa [StoreOp.retries, h] using hretries)
      · exact .inl h
    simpa [StoreOp.storedCount, StoreOp.count, retryTimedOutSubmittedTask, hopen] using hcount
  | recordExecutionMiss retryLimit reason now => cases hretries
  | _ => cases hlimit

/-- A retry operation that changes nothing makes a legal step, and no late success. -/
theorem StoreOp.ExceededAlready.legal {o : StoreOp} (h : o.ExceededAlready m) :
    Legal false m.status (o.apply u m).status := by
  obtain ⟨hretries, limit, hlimit, -⟩ := h
  have hmiss : o.isExecutionMiss = false := by
    cases o with
    | recordExecutionMiss => cases hretries
    | _ => rfl
  have hlate : o.isLateResult = false := by
    cases o with
    | markLateResultSuccess => cases hlimit
    | _ => rfl
  have hstep := storeOp_legal (u := u) o hmiss m
  rwa [hlate] at hstep

/-- A retry operation that changes the record counts one more than was stored. -/
theorem count_of_retries {o : StoreOp} (hretries : o.retries m = true) :
    o.storedCount m < o.count u m := by
  cases o with
  | recordRetry retryLimit reason now =>
    have hopen := not_retired_of_open (of_decide_eq_true hretries)
    simp only [StoreOp.count, recordRetry, hopen, if_false, StoreOp.storedCount]
    omega
  | recordInfrastructureRetry reason now =>
    have hopen := not_retired_of_open (of_decide_eq_true hretries)
    simp only [StoreOp.count, recordInfrastructureRetry, hopen, if_false, StoreOp.storedCount,
      apply_ite Prod.fst, ite_self]
    omega
  | retrySubmittedTask maxRetries reason delaySeconds now =>
    have hopen : m.status = .submitted := by simpa [StoreOp.retries] using hretries
    simp only [StoreOp.count, retrySubmittedTask, hopen, ne_eq, not_true, if_false,
      StoreOp.storedCount]
    omega
  | retryAmbiguousSubmittedTask maxRetries reason delaySeconds now =>
    have hopen : m.status = .submitted := by simpa [StoreOp.retries] using hretries
    simp only [StoreOp.count, retryAmbiguousSubmittedTask, hopen, ne_eq, not_true, if_false,
      StoreOp.storedCount, apply_ite Prod.fst, ite_self]
    omega
  | retryTimedOutSubmittedTask maxRetries reason delaySeconds now =>
    have hopen : m.status = .submitted ∧ m.cancelRequested = false := by
      simpa [StoreOp.retries] using hretries
    have hnot : ¬ (m.status ≠ .submitted ∨ m.cancelRequested = true) := by simp [hopen]
    simp only [StoreOp.count, retryTimedOutSubmittedTask, StoreOp.storedCount, if_neg hnot]
    omega
  | recordExecutionMiss retryLimit reason now =>
    simp only [StoreOp.count, recordExecutionMiss, StoreOp.storedCount]
    omega
  | _ => cases hretries

end

end FetchTask.Store
