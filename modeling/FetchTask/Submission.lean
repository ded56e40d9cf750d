import FetchTask.Queue.AtMostOnce
import FetchTask.Store.Endings

/-!
Submission and cancellation (`app/store.py`).

`begin_task_submission` is a barrier: once a worker has begun to submit a running
task, a user's cancellation is refused until the submission is released. A claim
resets the barrier, and so do two of the retry operations; the others leave it
behind when they take a task out of `running`.
-/

namespace FetchTask.Submission

open Store Runs

/-! ### The barrier -/

def beginTaskSubmission (now : Int) : Mutation Bool := fun m =>
  if m.status ≠ .running ∨ m.cancelRequested ∨ m.submitPhase = "committing" then (false, m)
  else (true, { m with submitPhase := "committing", submitStartedAt := some now, updatedAt := some now })

def releaseTaskSubmission (now : Int) : Mutation (Option Meta) :=
  updateMetaIf [.running] now fun m => { m with submitPhase := "", submitStartedAt := none }

def markCancelRequested (reason : String) (now : Int) : Mutation Meta :=
  updateMeta now fun m => { m with cancelRequested := true, error := reason }

/-- One transaction on the record of a task. -/
inductive Event
  | op (o : StoreOp)
  | beginTaskSubmission (now : Int)
  | releaseTaskSubmission (now : Int)
  | markCancelRequested (reason : String) (now : Int)

/-- The record after a transaction. -/
def Event.record (u : Chars) : Event → Meta → Meta
  | .op o, m => o.apply u m
  | .beginTaskSubmission now, m => (Submission.beginTaskSubmission now m).2
  | .releaseTaskSubmission now, m => (Submission.releaseTaskSubmission now m).2
  | .markCancelRequested reason now, m => (Submission.markCancelRequested reason now m).2

/-- The transaction is a claim that succeeds. -/
def Event.claims : Event → Meta → Bool
  | .op o, m => (o.startsRun m).isSome
  | _, _ => false

/-- The transaction is a `begin_task_submission` that succeeds. -/
def Event.begins : Event → Meta → Bool
  | .beginTaskSubmission now, m => (Submission.beginTaskSubmission now m).1
  | _, _ => false

/-- The transaction is a `request_task_cancel` that succeeds. -/
def Event.cancels : Event → Meta → Bool
  | .op (.requestTaskCancel reason allowSubmitted now), m =>
    (requestTaskCancel reason allowSubmitted now m).1.1
  | _, _ => false

def Event.releases : Event → Bool
  | .releaseTaskSubmission _ => true
  | _ => false

def Event.isMarkSubmitted : Event → Bool
  | .op (.markSubmitted ..) => true
  | _ => false

/-- The transaction takes a running task elsewhere, except by `mark_submitted`. -/
def Event.leaves (event : Event) (m : Meta) : Bool :=
  match event with
  | .op o => o.endsRun m && !event.isMarkSubmitted
  | _ => false

/-- The record, and what has happened since the last claim or release. -/
structure Period where
  task : Meta
  begun : Bool := false
  canceled : Bool := false
  /-- A submission that had begun was marked as submitted. -/
  committed : Bool := false

def Event.apply (u : Chars) (event : Event) (p : Period) : Period :=
  let ends := event.claims p.task || event.releases
  { task := event.record u p.task
    begun := event.begins p.task || (p.begun && !ends)
    canceled := event.cancels p.task || (p.canceled && !ends)
    committed := (event.isMarkSubmitted && p.task.submitPhase == "committing") ||
      (p.committed && !ends) }

/-! ### The law -/

def CommittingOnlyRunning (m : Meta) : Prop := m.submitPhase = "committing" → m.status = .running

/-- A user's cancellation succeeds on a pending task. -/
def PendingCancelable (m : Meta) : Prop :=
  m.status = .pending → ∀ reason now, (requestTaskCancel reason false now m).1.1 = true

/-- A submission does not begin after a cancellation, nor a cancellation succeed after a submission
has begun, with no claim and no release between them. -/
def NotBoth (event : Event) (p : Period) : Prop :=
  (event.begins p.task = true → p.canceled = false) ∧
    (event.cancels p.task = true → p.begun = false)

def SubmissionExclusive (u : Chars) (events : List Event) (p : Period) : Prop :=
  Throughout (Event.apply u) (fun p => CommittingOnlyRunning p.task ∧ PendingCancelable p.task)
      events p ∧
    AllSteps (Event.apply u) NotBoth events p

/-- While a submission is open, only `mark_submitted` takes the task out of `running`; and no
cancellation succeeds on a task whose open submission was marked as submitted, until the next
claim or release. -/
def Event.Respects (event : Event) (p : Period) : Prop :=
  (p.task.submitPhase = "committing" → event.leaves p.task = false) ∧
    (event.cancels p.task = true → p.committed = false)

instance (event : Event) (p : Period) : Decidable (event.Respects p) :=
  inferInstanceAs (Decidable (_ ∧ _))

/-- The flags agree with the record. -/
structure Period.Sound (p : Period) : Prop where
  committing : p.task.submitPhase = "committing" → p.task.status = .running ∧ p.begun = true
  begun : p.begun = true → p.task.submitPhase = "committing" ∨ p.committed = true
  committed : p.committed = true → p.begun = true
  canceled : p.canceled = true → p.task.cancelRequested = true

/-! ### What a transaction does to the barrier -/

section

variable {u : Chars} {m m' : Meta} {p : Period}

/-- The barrier and the request to cancel are as before. -/
structure SameBarrier (m m' : Meta) : Prop where
  submitPhase : m'.submitPhase = m.submitPhase
  cancelRequested : m'.cancelRequested = m.cancelRequested

theorem SameBarrier.refl (m : Meta) : SameBarrier m m := ⟨rfl, rfl⟩

theorem updateMetaIf_sameBarrier {expected : List Status} {now : Int} {updates : Meta → Meta}
    (h : SameBarrier m (updates m)) : SameBarrier m (updateMetaIf expected now updates m).2 := by
  by_cases hm : m.status ∈ expected
  · rw [updateMetaIf_of_mem hm]
    exact ⟨h.submitPhase, h.cancelRequested⟩
  · rw [updateMetaIf_of_not_mem hm]
    exact .refl m

@[simp] theorem appendAttemptHistory_submitPhase (now : Int) (reason kind : String) (m : Meta) :
    (m.appendAttemptHistory u now reason kind).submitPhase = m.submitPhase := by
  simp only [Meta.appendAttemptHistory]
  split <;> rfl

@[simp] theorem appendAttemptHistory_cancelRequested (now : Int) (reason kind : String)
    (m : Meta) :
    (m.appendAttemptHistory u now reason kind).cancelRequested = m.cancelRequested := by
  simp only [Meta.appendAttemptHistory]
  split <;> rfl

@[simp] theorem setRetryTerminal_submitPhase (now : Int) (reason : String) (m : Meta) :
    (m.setRetryTerminal now reason).submitPhase = m.submitPhase := rfl

@[simp] theorem setRetryTerminal_cancelRequested (now : Int) (reason : String) (m : Meta) :
    (m.setRetryTerminal now reason).cancelRequested = m.cancelRequested := rfl

/-- The operations that change the barrier or the request to cancel. -/
def touchesBarrier : StoreOp → Bool
  | .markRunning .. | .requestTaskCancel .. | .retryAmbiguousProxyTask ..
  | .retryAmbiguousSubmittedTask .. | .markSubmitted .. => true
  | _ => false

theorem storeOp_sameBarrier (o : StoreOp) (ho : touchesBarrier o = false) (m : Meta) :
    SameBarrier m (o.apply u m) := by
  cases o with
  | failInitializing reason now => exact updateMetaIf_sameBarrier ⟨rfl, rfl⟩
  | markPending reason now => exact updateMetaIf_sameBarrier ⟨rfl, rfl⟩
  | deferTask reason category delaySeconds now => exact updateMetaIf_sameBarrier ⟨rfl, rfl⟩
  | markFailed reason now =>
    show SameBarrier m (markFailed u reason now m).2
    unfold markFailed
    split
    · exact .refl m
    · exact ⟨by simp, by simp⟩
  | markCanceled reason now => exact updateMetaIf_sameBarrier ⟨rfl, rfl⟩
  | recordRetry retryLimit reason now =>
    show SameBarrier m (recordRetry u retryLimit reason now m).2
    unfold recordRetry
    split
    · exact .refl m
    · exact ⟨by simp [apply_ite], by simp [apply_ite]⟩
  | recordInfrastructureRetry reason now =>
    show SameBarrier m (recordInfrastructureRetry u reason now m).2
    unfold recordInfrastructureRetry
    split
    · exact .refl m
    · exact ⟨by simp [apply_ite], by simp [apply_ite]⟩
  | retrySubmittedTask maxRetries reason delaySeconds now =>
    show SameBarrier m (retrySubmittedTask u maxRetries reason delaySeconds now m).2
    unfold retrySubmittedTask
    split
    · exact .refl m
    · exact ⟨by simp [apply_ite], by simp [apply_ite]⟩
  | retryTimedOutSubmittedTask maxRetries reason delaySeconds now =>
    show SameBarrier m (retryTimedOutSubmittedTask u maxRetries reason delaySeconds now m).2
    unfold retryTimedOutSubmittedTask
    split
    · exact .refl m
    · exact ⟨by simp [apply_ite], by simp [apply_ite]⟩
  | recordExecutionMiss retryLimit reason now =>
    show SameBarrier m (recordExecutionMiss retryLimit reason now m).2
    unfold recordExecutionMiss
    exact ⟨by simp [apply_ite], by simp [apply_ite]⟩
  | recordResultWatchMiss reason now => exact ⟨rfl, rfl⟩
  | markRetryQueueVerified now => exact updateMetaIf_sameBarrier ⟨rfl, rfl⟩
  | markSuccess hasUrl now =>
    show SameBarrier m (markSuccess hasUrl now m).2
    unfold markSuccess
    split
    · exact .refl m
    · exact updateMetaIf_sameBarrier ⟨rfl, rfl⟩
  | markLateResultSuccess hasUrl now =>
    show SameBarrier m (markLateResultSuccess hasUrl now m).2
    unfold markLateResultSuccess
    split
    · exact .refl m
    · exact updateMetaIf_sameBarrier ⟨rfl, rfl⟩
  | resetRunning wasSubmitted submittedAt now =>
    show SameBarrier m (resetRunning wasSubmitted submittedAt now m).2
    unfold resetRunning markPending
    split <;> exact updateMetaIf_sameBarrier ⟨rfl, rfl⟩
  | markRunning => cases ho
  | requestTaskCancel => cases ho
  | retryAmbiguousProxyTask => cases ho
  | retryAmbiguousSubmittedTask => cases ho
  | markSubmitted => cases ho

/-- No operation of the store sets the barrier. -/
theorem storeOp_committing (o : StoreOp) (h : (o.apply u m).submitPhase = "committing") :
    m.submitPhase = "committing" := by
  cases ho : touchesBarrier o with
  | false => rwa [(storeOp_sameBarrier o ho m).submitPhase] at h
  | true =>
    cases o with
    | markRunning paused workerId atLimit now =>
      simp only [StoreOp.apply, markRunning, claimTask] at h
      split_ifs at h <;> first | exact h | simp at h
    | requestTaskCancel reason allowSubmitted now =>
      simp only [StoreOp.apply, requestTaskCancel] at h
      split at h <;> exact h
    | retryAmbiguousProxyTask reason accountId proxyNodeId delaySeconds now =>
      simp only [StoreOp.apply, retryAmbiguousProxyTask] at h
      split at h
      · exact h
      · simp at h
    | retryAmbiguousSubmittedTask maxRetries reason delaySeconds now =>
      simp only [StoreOp.apply, retryAmbiguousSubmittedTask] at h
      split at h
      · exact h
      · split at h <;> simp at h
    | markSubmitted resultPollDelaySeconds now =>
      by_cases hm : m.status ∈ [Status.running]
      · simp [StoreOp.apply, markSubmitted, updateMetaIf_of_mem hm] at h
      · simpa [StoreOp.apply, markSubmitted, updateMetaIf_of_not_mem hm] using h
    | _ => cases ho

/-- On a running task the barrier stays, except under `mark_submitted`. -/
theorem storeOp_running_barrier (o : StoreOp) (hm : m.status = .running)
    (ho : (Event.op o).isMarkSubmitted = false) :
    (o.apply u m).submitPhase = m.submitPhase := by
  cases htouches : touchesBarrier o with
  | false => exact (storeOp_sameBarrier o htouches m).submitPhase
  | true =>
    cases o with
    | markRunning paused workerId atLimit now =>
      cases paused <;> simp [StoreOp.apply, markRunning, claimTask, hm]
    | requestTaskCancel reason allowSubmitted now =>
      simp only [StoreOp.apply, requestTaskCancel]
      split <;> rfl
    | retryAmbiguousProxyTask reason accountId proxyNodeId delaySeconds now =>
      simp [StoreOp.apply, retryAmbiguousProxyTask, hm]
    | retryAmbiguousSubmittedTask maxRetries reason delaySeconds now =>
      simp [StoreOp.apply, retryAmbiguousSubmittedTask, hm]
    | markSubmitted => cases ho
    | _ => cases htouches

theorem markSubmitted_barrier {o : StoreOp} (hm : m.status = .running)
    (ho : (Event.op o).isMarkSubmitted = true) : (o.apply u m).submitPhase = "submitted" := by
  cases o with
  | markSubmitted resultPollDelaySeconds now =>
    simp [StoreOp.apply, markSubmitted, updateMetaIf, hm]
  | _ => cases ho

theorem storeOp_cancelRequested (o : StoreOp) (h : m.cancelRequested = true) :
    (o.apply u m).cancelRequested = true := by
  cases ho : touchesBarrier o with
  | false => rwa [(storeOp_sameBarrier o ho m).cancelRequested]
  | true =>
    cases o with
    | markRunning paused workerId atLimit now =>
      simp only [StoreOp.apply, markRunning, claimTask]
      split_ifs <;> exact h
    | requestTaskCancel reason allowSubmitted now =>
      simp only [StoreOp.apply, requestTaskCancel]
      split
      · exact h
      · rfl
    | retryAmbiguousProxyTask reason accountId proxyNodeId delaySeconds now =>
      simp only [StoreOp.apply, retryAmbiguousProxyTask]
      split <;> simpa using h
    | retryAmbiguousSubmittedTask maxRetries reason delaySeconds now =>
      simp only [StoreOp.apply, retryAmbiguousSubmittedTask]
      split
      · exact h
      · split <;> simpa using h
    | markSubmitted resultPollDelaySeconds now =>
      by_cases hm : m.status ∈ [Status.running]
      · simpa [StoreOp.apply, markSubmitted, updateMetaIf_of_mem hm] using h
      · simpa [StoreOp.apply, markSubmitted, updateMetaIf_of_not_mem hm] using h
    | _ => cases ho

theorem storeOp_running_iff (o : StoreOp) (hm : m.status = .running) :
    (o.apply u m).status = .running ↔ o.endsRun m = false := by
  have hruns := Queue.storeOp_runningAs (u := u) o m
  rw [if_pos hm] at hruns
  cases hends : o.endsRun m with
  | true =>
    rw [hends, if_pos rfl] at hruns
    simp only [Queue.runningAs, ite_eq_right_iff, reduceCtorEq, imp_false] at hruns
    simp [hruns]
  | false =>
    have hsome : Queue.runningAs (o.apply u m) = some m.workerId := by
      rw [hruns, hends]
      simp [Queue.runningAs, hm]
    by_contra hstatus
    simp only [iff_true] at hstatus
    simp [Queue.runningAs_of_ne hstatus] at hsome

theorem storeOp_startsRun_pending {o : StoreOp} (h : (o.startsRun m).isSome = true) :
    m.status = .pending := by
  cases o with
  | markRunning paused workerId atLimit now =>
    simp only [StoreOp.startsRun, claimedBy] at h
    split_ifs at h with _ hclaim
    · exact absurd h (by simp)
    · exact hclaim.1
    · exact absurd h (by simp)
  | _ => simp [StoreOp.startsRun] at h

/-! ### One transaction -/

theorem pendingCancelable (h : CommittingOnlyRunning m) : PendingCancelable m := by
  intro hpending reason now
  have hopen : m.submitPhase ≠ "committing" := by
    intro hcommitting
    rw [h hcommitting] at hpending
    cases hpending
  simp [requestTaskCancel, hpending, hopen, cancelableStatuses]

/-- A cancellation that succeeds on an open submission takes the task out of `running`. -/
theorem leaves_of_cancels {event : Event} (hm : m.submitPhase = "committing")
    (h : event.cancels m = true) : event.leaves m = true := by
  cases event with
  | op o =>
    cases o with
    | requestTaskCancel reason allowSubmitted now =>
      cases allowSubmitted with
      | true => rfl
      | false => simp [Event.cancels, requestTaskCancel, hm] at h
    | _ => cases h
  | _ => cases h

theorem claims_pending {event : Event} (h : event.claims m = true) : m.status = .pending := by
  cases event with
  | op o => exact storeOp_startsRun_pending h
  | _ => cases h

/-- An open submission stays open on a running task, unless it is marked as submitted or
released. -/
theorem record_open {event : Event} (hm : m.submitPhase = "committing") (hs : m.status = .running)
    (hleaves : event.leaves m = false) (hsubmitted : event.isMarkSubmitted = false)
    (hreleases : event.releases = false) :
    (event.record u m).submitPhase = "committing" ∧ (event.record u m).status = .running := by
  cases event with
  | op o =>
    refine ⟨(storeOp_running_barrier o hs hsubmitted).trans hm, ?_⟩
    exact (storeOp_running_iff o hs).mpr (by simpa [Event.leaves, hsubmitted] using hleaves)
  | beginTaskSubmission now => simp [Event.record, beginTaskSubmission, hm, hs]
  | releaseTaskSubmission now => cases hreleases
  | markCancelRequested reason now => exact ⟨hm, hs⟩

/-- Where a submission is open afterwards, it was begun now, or it was open before. -/
theorem open_before {event : Event} (h : (event.record u m).submitPhase = "committing") :
    (event.begins m = true ∧ (event.record u m).status = .running) ∨
      (m.submitPhase = "committing" ∧
        (m.status = .running → event.releases = false ∧ event.isMarkSubmitted = false)) := by
  cases event with
  | op o =>
    refine .inr ⟨storeOp_committing o h, fun hs => ⟨rfl, ?_⟩⟩
    cases ho : (Event.op o).isMarkSubmitted with
    | false => rfl
    | true =>
      simp [Event.record, markSubmitted_barrier hs ho] at h
  | beginTaskSubmission now =>
    by_cases hguard : m.status ≠ .running ∨ m.cancelRequested ∨ m.submitPhase = "committing"
    · simp only [Event.record, beginTaskSubmission, if_pos hguard] at h
      exact .inr ⟨h, fun _ => ⟨rfl, rfl⟩⟩
    · simp only [Event.record, Event.begins, beginTaskSubmission, if_neg hguard]
      exact .inl ⟨trivial, not_not.mp fun hs => hguard (.inl hs)⟩
  | releaseTaskSubmission now =>
    by_cases hm : m.status ∈ [Status.running]
    · simp [Event.record, releaseTaskSubmission, updateMetaIf_of_mem hm] at h
    · simp only [Event.record, releaseTaskSubmission, updateMetaIf_of_not_mem hm] at h
      exact .inr ⟨h, fun hs => absurd hs (by simpa using hm)⟩
  | markCancelRequested reason now => exact .inr ⟨h, fun _ => ⟨rfl, rfl⟩⟩

theorem record_cancelRequested {event : Event} (h : m.cancelRequested = true) :
    (event.record u m).cancelRequested = true := by
  cases event with
  | op o => exact storeOp_cancelRequested o h
  | beginTaskSubmission now => simp [Event.record, beginTaskSubmission, h]
  | releaseTaskSubmission now =>
    by_cases hm : m.status ∈ [Status.running]
    · simpa [Event.record, releaseTaskSubmission, updateMetaIf_of_mem hm] using h
    · simpa [Event.record, releaseTaskSubmission, updateMetaIf_of_not_mem hm] using h
  | markCancelRequested reason now => rfl

theorem cancels_cancelRequested {event : Event} (h : event.cancels m = true) :
    (event.record u m).cancelRequested = true := by
  cases event with
  | op o =>
    cases o with
    | requestTaskCancel reason allowSubmitted now =>
      have happlied : (requestTaskCancel reason allowSubmitted now m).1.1 = true := h
      show (requestTaskCancel reason allowSubmitted now m).2.cancelRequested = true
      unfold requestTaskCancel at happlied ⊢
      split at happlied
      · cases happlied
      · rename_i hguard
        rw [if_neg hguard]
    | _ => cases h
  | _ => cases h

theorem begins_open {event : Event} (h : event.begins m = true) :
    (event.record u m).submitPhase = "committing" := by
  cases event with
  | beginTaskSubmission now =>
    have happlied : (beginTaskSubmission now m).1 = true := h
    show (beginTaskSubmission now m).2.submitPhase = "committing"
    unfold beginTaskSubmission at happlied ⊢
    split at happlied
    · cases happlied
    · rename_i hguard
      rw [if_neg hguard]
  | _ => cases h

theorem begins_not_cancelRequested {event : Event} (h : event.begins m = true) :
    m.cancelRequested = false := by
  cases event with
  | beginTaskSubmission now =>
    simp only [Event.begins, beginTaskSubmission] at h
    split at h
    · cases h
    · rename_i hguard
      by_contra hrequested
      exact hguard (.inr (.inl (by simpa using hrequested)))
  | _ => cases h

theorem record_committing_iff {event : Event} (hp : p.Sound) :
    CommittingOnlyRunning (event.record u p.task) ↔
      (p.task.submitPhase = "committing" → event.leaves p.task = false) := by
  constructor
  · intro honly hopen
    have hs := (hp.committing hopen).1
    cases event with
    | op o =>
      cases hsubmitted : (Event.op o).isMarkSubmitted with
      | true => simp [Event.leaves, hsubmitted]
      | false =>
        have hstill : (o.apply u p.task).submitPhase = "committing" :=
          (storeOp_running_barrier o hs hsubmitted).trans hopen
        have hends := (storeOp_running_iff o hs).mp (honly hstill)
        simp [Event.leaves, hends]
    | _ => rfl
  · intro hleaves hopen
    rcases open_before hopen with ⟨-, hrunning⟩ | ⟨hbefore, hkinds⟩
    · exact hrunning
    · have hs := (hp.committing hbefore).1
      obtain ⟨hreleases, hsubmitted⟩ := hkinds hs
      exact (record_open hbefore hs (hleaves hbefore) hsubmitted hreleases).2

/-- A transaction keeps the law exactly when it respects the barrier. -/
theorem lawful_step_iff {event : Event} (hp : p.Sound) :
    ((CommittingOnlyRunning (event.apply u p).task ∧ PendingCancelable (event.apply u p).task) ∧
      NotBoth event p) ↔ event.Respects p := by
  have hrecord : CommittingOnlyRunning (event.record u p.task) ↔ _ := record_committing_iff hp
  constructor
  · rintro ⟨⟨honly, -⟩, -, hcancels⟩
    refine ⟨hrecord.mp honly, fun hcancel => ?_⟩
    by_contra hcommitted
    have hbegun := hp.committed (by simpa using hcommitted)
    rw [hcancels hcancel] at hbegun
    cases hbegun
  · rintro ⟨hleaves, hcancels⟩
    have honly := hrecord.mpr hleaves
    refine ⟨⟨honly, pendingCancelable honly⟩, fun hbegins => ?_, fun hcancel => ?_⟩
    · have hrequested := begins_not_cancelRequested hbegins
      by_contra hcanceled
      rw [hp.canceled (by simpa using hcanceled)] at hrequested
      cases hrequested
    · by_contra hbegun
      rcases hp.begun (by simpa using hbegun) with hopen | hcommitted
      · have hout := leaves_of_cancels hopen hcancel
        rw [hleaves hopen] at hout
        cases hout
      · rw [hcancels hcancel] at hcommitted
        cases hcommitted

theorem sound_step {event : Event} (hp : p.Sound) (h : event.Respects p) :
    (event.apply u p).Sound := by
  obtain ⟨hleaves, hcancels⟩ := h
  have honly := (record_committing_iff (u := u) hp).mpr hleaves
  have hends : ∀ {flag : Bool}, p.task.submitPhase = "committing" → event.releases = false →
      flag = true → (flag && !(event.claims p.task || event.releases)) = true := by
    intro flag hopen hreleases hflag
    have hclaims : event.claims p.task = false := by
      by_contra hclaims
      have hpending := claims_pending (by simpa using hclaims)
      rw [(hp.committing hopen).1] at hpending
      cases hpending
    simp [hflag, hclaims, hreleases]
  constructor
  · intro hopen
    refine ⟨honly hopen, ?_⟩
    rcases open_before hopen with ⟨hbegins, -⟩ | ⟨hbefore, hkinds⟩
    · simp [Event.apply, hbegins]
    · obtain ⟨hs, hbegun⟩ := hp.committing hbefore
      exact Bool.or_eq_true_iff.mpr (.inr (hends hbefore (hkinds hs).1 hbegun))
  · intro hbegun
    rcases Bool.or_eq_true_iff.mp hbegun with hbegins | hbefore
    · exact .inl (begins_open hbegins)
    · obtain ⟨hbegun, hstays⟩ := Bool.and_eq_true_iff.mp hbefore
      rcases hp.begun hbegun with hopen | hcommitted
      · cases hsubmitted : event.isMarkSubmitted with
        | true => exact .inr (by simp [Event.apply, hsubmitted, hopen])
        | false =>
          have hreleases : event.releases = false := by
            revert hstays
            cases event.releases <;> simp
          have hs := (hp.committing hopen).1
          exact .inl (record_open hopen hs (hleaves hopen) hsubmitted hreleases).1
      · exact .inr (Bool.or_eq_true_iff.mpr (.inr (by rw [hcommitted, hstays]; rfl)))
  · intro hcommitted
    rcases Bool.or_eq_true_iff.mp hcommitted with hnow | hbefore
    · obtain ⟨hsubmitted, hopen⟩ := Bool.and_eq_true_iff.mp hnow
      have hphase : p.task.submitPhase = "committing" := by simpa using hopen
      have hreleases : event.releases = false := by
        cases event with
        | releaseTaskSubmission => cases hsubmitted
        | _ => rfl
      have hbegun := (hp.committing hphase).2
      exact Bool.or_eq_true_iff.mpr (.inr (hends hphase hreleases hbegun))
    · obtain ⟨hcommitted, hstays⟩ := Bool.and_eq_true_iff.mp hbefore
      have hbegun := hp.committed hcommitted
      exact Bool.or_eq_true_iff.mpr (.inr (by rw [hbegun, hstays]; rfl))
  · intro hcanceled
    rcases Bool.or_eq_true_iff.mp hcanceled with hcancel | hbefore
    · exact cancels_cancelRequested hcancel
    · exact record_cancelRequested (hp.canceled (Bool.and_eq_true_iff.mp hbefore).1)

/-- Submission and cancellation exclude each other, and a submission is open only on a running
task, throughout a run exactly when every transaction respects the barrier. -/
theorem submissionExclusive_iff (u : Chars) (events : List Event) (p : Period) (hp : p.Sound) :
    SubmissionExclusive u events p ↔ AllSteps (Event.apply u) Event.Respects events p := by
  have honly : ∀ p : Period, p.Sound → CommittingOnlyRunning p.task ∧ PendingCancelable p.task := by
    intro p hp
    have hrunning : CommittingOnlyRunning p.task := fun hopen => (hp.committing hopen).1
    exact ⟨hrunning, pendingCancelable hrunning⟩
  exact throughout_and_allSteps_iff honly (fun event p hp h => sound_step hp h)
    (fun event p hp => lawful_step_iff hp) hp

end

/-! ### A worker that is restarted while it submits -/

section Sample

def newTask : Period where
  task := { status := .pending }

theorem newTask_sound : newTask.Sound where
  committing h := by simp [newTask] at h
  begun h := by cases h
  committed h := by cases h
  canceled h := by cases h

/-- One attempt is released and fails, the next one is submitted and brings a video. -/
def releasedAttempt : List Event :=
  [.op (.markRunning false "w" false 0), .beginTaskSubmission 1, .releaseTaskSubmission 2,
    .op (.recordRetry 2 "service frequent" 3), .op (.markRunning false "w" false 4),
    .beginTaskSubmission 5, .op (.markSubmitted 15 6), .op (.markSuccess true 7)]

theorem submissionExclusive_released :
    SubmissionExclusive .ascii releasedAttempt newTask ↔
      AllSteps (Event.apply .ascii) Event.Respects releasedAttempt newTask :=
  submissionExclusive_iff .ascii releasedAttempt newTask newTask_sound

example : AllSteps (Event.apply .ascii) Event.Respects releasedAttempt newTask := by
  decide +kernel

/-- The barrier stays behind when the task is put back into the queue, and a user cannot cancel
the pending task. -/
theorem restart_keeps_barrier :
    ¬ SubmissionExclusive .ascii
      [.op (.markRunning false "w" false 0), .beginTaskSubmission 1,
        .op (.markPending "worker restarted" 2)] newTask := by
  intro h
  have hcancelable := h.1.final.2 (by decide +kernel) "用户取消生成" 3
  revert hcancelable
  decide +kernel

end Sample

end FetchTask.Submission
