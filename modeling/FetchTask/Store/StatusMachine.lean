import FetchTask.Lib.Runs
import FetchTask.Store.Transitions

/-!
The status machine of a task.

Any number of store operations work on one record. Each is one transaction,
except `finalize_task_creation`, which reads the record in one transaction and
writes it back in another, so that other transactions can come between. Success
and cancellation are meant to be final, and a failed task can only become a
late success.
-/

namespace FetchTask.Store

open Runs

/-- The operations that are one transaction, with their arguments. -/
inductive StoreOp
  | failInitializing (reason : String) (now : Int)
  | markRunning (paused : Bool) (workerId : String) (atLimit : Bool) (now : Int)
  | markPending (reason : String) (now : Int)
  | deferTask (reason category : String) (delaySeconds now : Int)
  | markFailed (reason : String) (now : Int)
  | markCanceled (reason : String) (now : Int)
  | requestTaskCancel (reason : String) (allowSubmitted : Bool) (now : Int)
  | recordRetry (retryLimit : Int) (reason : String) (now : Int)
  | recordInfrastructureRetry (reason : String) (now : Int)
  | retrySubmittedTask (maxRetries : Int) (reason : String) (delaySeconds now : Int)
  | retryAmbiguousProxyTask (reason accountId proxyNodeId : String) (delaySeconds now : Int)
  | retryAmbiguousSubmittedTask (maxRetries : Int) (reason : String) (delaySeconds now : Int)
  | retryTimedOutSubmittedTask (maxRetries : Int) (reason : String) (delaySeconds now : Int)
  | recordExecutionMiss (retryLimit : Int) (reason : String) (now : Int)
  | recordResultWatchMiss (reason : String) (now : Int)
  | markRetryQueueVerified (now : Int)
  | markSuccess (hasUrl : Bool) (now : Int)
  | markLateResultSuccess (hasUrl : Bool) (now : Int)
  | markSubmitted (resultPollDelaySeconds now : Int)
  | resetRunning (wasSubmitted : Bool) (submittedAt : Option Int) (now : Int)

/-- The record after a transaction. -/
def StoreOp.apply (u : Chars) : StoreOp → Meta → Meta
  | .failInitializing reason now, m => (Store.failInitializing reason now m).2
  | .markRunning paused workerId atLimit now, m => (Store.markRunning paused workerId atLimit now m).2
  | .markPending reason now, m => (Store.markPending reason now m).2
  | .deferTask reason category delaySeconds now, m =>
    (Store.deferTask reason category delaySeconds now m).2
  | .markFailed reason now, m => (Store.markFailed u reason now m).2
  | .markCanceled reason now, m => (Store.markCanceled reason now m).2
  | .requestTaskCancel reason allowSubmitted now, m =>
    (Store.requestTaskCancel reason allowSubmitted now m).2
  | .recordRetry retryLimit reason now, m => (Store.recordRetry u retryLimit reason now m).2
  | .recordInfrastructureRetry reason now, m => (Store.recordInfrastructureRetry u reason now m).2
  | .retrySubmittedTask maxRetries reason delaySeconds now, m =>
    (Store.retrySubmittedTask u maxRetries reason delaySeconds now m).2
  | .retryAmbiguousProxyTask reason accountId proxyNodeId delaySeconds now, m =>
    (Store.retryAmbiguousProxyTask u reason accountId proxyNodeId delaySeconds now m).2
  | .retryAmbiguousSubmittedTask maxRetries reason delaySeconds now, m =>
    (Store.retryAmbiguousSubmittedTask u maxRetries reason delaySeconds now m).2
  | .retryTimedOutSubmittedTask maxRetries reason delaySeconds now, m =>
    (Store.retryTimedOutSubmittedTask u maxRetries reason delaySeconds now m).2
  | .recordExecutionMiss retryLimit reason now, m =>
    (Store.recordExecutionMiss retryLimit reason now m).2
  | .recordResultWatchMiss reason now, m => (Store.recordResultWatchMiss reason now m).2
  | .markRetryQueueVerified now, m => (Store.markRetryQueueVerified now m).2
  | .markSuccess hasUrl now, m => (Store.markSuccess hasUrl now m).2
  | .markLateResultSuccess hasUrl now, m => (Store.markLateResultSuccess hasUrl now m).2
  | .markSubmitted resultPollDelaySeconds now, m => (Store.markSubmitted resultPollDelaySeconds now m).2
  | .resetRunning wasSubmitted submittedAt now, m =>
    (Store.resetRunning wasSubmitted submittedAt now m).2

/-- The number that a retry operation returns; the other operations return no number. -/
def StoreOp.count (u : Chars) : StoreOp → Meta → Int
  | .recordRetry retryLimit reason now, m => (Store.recordRetry u retryLimit reason now m).1
  | .recordInfrastructureRetry reason now, m => (Store.recordInfrastructureRetry u reason now m).1
  | .retrySubmittedTask maxRetries reason delaySeconds now, m =>
    (Store.retrySubmittedTask u maxRetries reason delaySeconds now m).1
  | .retryAmbiguousProxyTask reason accountId proxyNodeId delaySeconds now, m =>
    (Store.retryAmbiguousProxyTask u reason accountId proxyNodeId delaySeconds now m).1
  | .retryAmbiguousSubmittedTask maxRetries reason delaySeconds now, m =>
    (Store.retryAmbiguousSubmittedTask u maxRetries reason delaySeconds now m).1
  | .retryTimedOutSubmittedTask maxRetries reason delaySeconds now, m =>
    (Store.retryTimedOutSubmittedTask u maxRetries reason delaySeconds now m).1
  | .recordExecutionMiss retryLimit reason now, m => (Store.recordExecutionMiss retryLimit reason now m).1
  | .recordResultWatchMiss reason now, m => (Store.recordResultWatchMiss reason now m).1
  | _, _ => 0

/-- The limits of the store's operations that put the task back into the queue themselves:
`some none` when there is no limit, `none` for every other operation. -/
def StoreOp.requeueLimit : StoreOp → Option (Option Int)
  | .retrySubmittedTask maxRetries .. => some (some maxRetries)
  | .retryAmbiguousProxyTask .. => some none
  | .retryAmbiguousSubmittedTask maxRetries .. => some (some maxRetries)
  | .retryTimedOutSubmittedTask maxRetries .. => some (some maxRetries)
  | _ => none

/-- The operations that can make a record pending. -/
def StoreOp.setsPending : StoreOp → Bool
  | .markPending .. | .deferTask .. | .recordRetry .. | .recordInfrastructureRetry ..
  | .retrySubmittedTask .. | .retryAmbiguousProxyTask .. | .retryAmbiguousSubmittedTask ..
  | .retryTimedOutSubmittedTask .. | .recordExecutionMiss .. | .resetRunning .. => true
  | _ => false

/-- The limit that a retry operation compares its count with. -/
def StoreOp.retryLimit : StoreOp → Option Int
  | .recordRetry retryLimit .. => some retryLimit
  | .recordInfrastructureRetry .. => some maxInfrastructureRetries
  | .retrySubmittedTask maxRetries .. => some maxRetries
  | .retryAmbiguousSubmittedTask maxRetries .. => some maxRetries
  | .retryTimedOutSubmittedTask maxRetries .. => some maxRetries
  | .recordExecutionMiss retryLimit .. => some retryLimit
  | _ => none

/-- Whether the operation takes a running record out of `running`. -/
def StoreOp.endsRun : StoreOp → Meta → Bool
  | .markPending .., _ | .deferTask .., _ | .markFailed .., _ | .markCanceled .., _ => true
  | .requestTaskCancel _ allowSubmitted _, m => allowSubmitted || m.submitPhase != "committing"
  | .recordRetry .., _ | .recordInfrastructureRetry .., _ | .recordExecutionMiss .., _ => true
  | .markSuccess hasUrl _, _ => hasUrl
  | .markSubmitted .., _ | .resetRunning .., _ => true
  | _, _ => false

/-- The worker for which `claim_task` makes a record running. -/
def claimedBy (workerId : String) (atLimit : Bool) (m : Meta) : Option String :=
  if m.status = .pending ∧ m.cancelRequested = false ∧ atLimit = false then some workerId else none

/-- The worker for which the operation makes a record running. -/
def StoreOp.startsRun : StoreOp → Meta → Option String
  | .markRunning paused workerId atLimit _, m => if paused then none else claimedBy workerId atLimit m
  | _, _ => none

def StoreOp.isLateResult : StoreOp → Bool
  | .markLateResultSuccess .. => true
  | _ => false

/-- One transaction on the record; `call` tells apart the finalize calls in progress. -/
inductive Event
  | op (o : StoreOp)
  | finalizeRead (call : Nat)
  | finalizeWrite (call : Nat) (now : Int)

/-- The record, and what each finalize call in progress has read. -/
structure Shared where
  task : Meta
  read : Nat → Option Meta

def Event.apply (u : Chars) : Event → Shared → Shared
  | .op o, s => { s with task := o.apply u s.task }
  | .finalizeRead call, s =>
    match Store.finalizeRead s.task with
    | .ok m => { s with read := Function.update s.read call (some m) }
    | .error _ => s
  | .finalizeWrite call now, s =>
    match s.read call with
    | some m => { task := finalized now m, read := Function.update s.read call none }
    | none => s

def Event.isLateResult : Event → Bool
  | .op o => o.isLateResult
  | _ => false

/-! ### The law -/

def Status.isTerminal : Status → Bool
  | .success | .failed | .canceled => true
  | _ => false

/-- Over any part of a run, success and cancellation stay, and a failed task stays failed
or has become a late success. -/
def TerminalAbsorbing (u : Chars) (events : List Event) (s : Shared) : Prop :=
  ∀ before during after, events = before ++ during ++ after →
    let start := (run (Event.apply u) before s).task.status
    let finish := (run (Event.apply u) during (run (Event.apply u) before s)).task.status
    (start = .success → finish = .success) ∧
    (start = .canceled → finish = .canceled) ∧
    (start = .failed → finish = .failed ∨
      (finish = .success ∧ ∃ event ∈ during, event.isLateResult = true))

/-- When a transaction respects the status it finds: an execution miss does not find a
finished task (except a failed one that it fails again), and a finalize call does not write
over one. -/
def Event.Respects : Event → Shared → Prop
  | .op (.recordExecutionMiss retryLimit _ _), s =>
    s.task.status ≠ .success ∧ s.task.status ≠ .canceled ∧
      (s.task.status = .failed → retryLimit < max 0 s.task.retryCount + 1)
  | .finalizeWrite call _, s => (s.read call).isSome = true → s.task.status.isTerminal = false
  | _, _ => True

/-- What one transaction may make of a status. -/
def Legal (late : Bool) (start finish : Status) : Prop :=
  (start = .success → finish = .success) ∧
  (start = .canceled → finish = .canceled) ∧
  (start = .failed → finish = .failed ∨ (finish = .success ∧ late = true))

section Steps

variable {u : Chars}

theorem legal_of_eq {late : Bool} {start finish : Status} (h : finish = start) :
    Legal late start finish := by
  subst h
  exact ⟨id, id, .inl⟩

theorem legal_of_open {late : Bool} {start finish : Status} (h : start.isTerminal = false) :
    Legal late start finish := by
  cases start <;> simp_all [Status.isTerminal, Legal]

theorem updateMetaIf_legal {late : Bool} {expected : List Status} {now : Int}
    {updates : Meta → Meta} {m : Meta} (h : ∀ t ∈ expected, t.isTerminal = false) :
    Legal late m.status (updateMetaIf expected now updates m).2.status := by
  by_cases hm : m.status ∈ expected
  · exact legal_of_open (h _ hm)
  · exact legal_of_eq (by rw [updateMetaIf_of_not_mem hm])

theorem markLateResultSuccess_legal (hasUrl : Bool) (now : Int) (m : Meta) :
    Legal true m.status (markLateResultSuccess hasUrl now m).2.status := by
  unfold markLateResultSuccess
  split
  · exact legal_of_eq rfl
  · by_cases hm : m.status = .failed
    · simp [updateMetaIf, hm, Legal]
    · exact legal_of_eq (by rw [updateMetaIf_of_not_mem (by simpa using hm)])

theorem open_of_not_mem {t : Status} {l : List Status} (h : t ∉ l)
    (hl : ∀ t : Status, t.isTerminal = true → t ∈ l) : t.isTerminal = false :=
  Bool.eq_false_iff.mpr fun ht => h (hl t ht)

theorem open_of_not_ne {t t' : Status} (h : ¬ t ≠ t') (ht : t'.isTerminal = false) :
    t.isTerminal = false :=
  not_not.mp h ▸ ht

theorem claimTask_legal (workerId : String) (atLimit : Bool) (now : Int) (m : Meta) :
    Legal false m.status (claimTask workerId atLimit now m).2.status := by
  unfold claimTask
  split
  · exact legal_of_eq rfl
  · rename_i hguard
    exact legal_of_open (open_of_not_ne (fun hne => hguard (.inl hne)) rfl)

theorem cancelable_open {t : Status} (allowSubmitted : Bool)
    (h : t ∈ cancelableStatuses allowSubmitted) : t.isTerminal = false := by
  cases allowSubmitted <;> cases t <;> simp_all [cancelableStatuses, Status.isTerminal]

theorem terminal_mem (t : Status) (h : t.isTerminal = true) :
    t ∈ [Status.success, .submitted, .failed, .canceled] := by
  cases t <;> simp_all [Status.isTerminal]

theorem requestTaskCancel_legal (reason : String) (allowSubmitted : Bool) (now : Int) (m : Meta) :
    Legal false m.status (requestTaskCancel reason allowSubmitted now m).2.status := by
  simp only [requestTaskCancel]
  split
  · exact legal_of_eq rfl
  · rename_i hguard
    have hmem : m.status ∈ cancelableStatuses allowSubmitted :=
      not_not.mp fun hmem => hguard (.inl hmem)
    refine legal_of_open (cancelable_open _ hmem)

theorem recordExecutionMiss_status (retryLimit : Int) (reason : String) (now : Int) (m : Meta) :
    (recordExecutionMiss retryLimit reason now m).2.status =
      if retryLimit < max 0 m.retryCount + 1 then .failed else .pending := by
  simp only [recordExecutionMiss]
  split <;> rfl

theorem recordExecutionMiss_legal_iff (retryLimit : Int) (reason : String) (now : Int) (m : Meta) :
    Legal false m.status (recordExecutionMiss retryLimit reason now m).2.status ↔
      m.status ≠ .success ∧ m.status ≠ .canceled ∧
        (m.status = .failed → retryLimit < max 0 m.retryCount + 1) := by
  rw [recordExecutionMiss_status]
  cases hm : m.status <;> by_cases hc : retryLimit < max 0 m.retryCount + 1 <;> simp [Legal, hc]

/-- Whether an operation is the one that looks at no status. -/
def StoreOp.isExecutionMiss : StoreOp → Bool
  | .recordExecutionMiss .. => true
  | _ => false

/-- Every other operation makes a legal step from every status. -/
theorem storeOp_legal (o : StoreOp) (ho : o.isExecutionMiss = false) (m : Meta) :
    Legal o.isLateResult m.status (o.apply u m).status := by
  cases o with
  | failInitializing reason now => exact updateMetaIf_legal (by decide)
  | markRunning paused workerId atLimit now =>
    cases paused with
    | true => exact legal_of_eq rfl
    | false => exact claimTask_legal workerId atLimit now m
  | markPending reason now => exact updateMetaIf_legal (by decide)
  | deferTask reason category delaySeconds now => exact updateMetaIf_legal (by decide)
  | markFailed reason now =>
    simp only [StoreOp.apply, markFailed]
    split
    · exact legal_of_eq rfl
    · -- Already failed, or open.
      cases hm : m.status <;> simp_all [Legal]
  | markCanceled reason now => exact updateMetaIf_legal (by decide)
  | requestTaskCancel reason allowSubmitted now =>
    exact requestTaskCancel_legal reason allowSubmitted now m
  | recordRetry retryLimit reason now =>
    simp only [StoreOp.apply, recordRetry]
    split
    · exact legal_of_eq rfl
    · exact legal_of_open (open_of_not_mem ‹_› terminal_mem)
  | recordInfrastructureRetry reason now =>
    simp only [StoreOp.apply, recordInfrastructureRetry]
    split
    · exact legal_of_eq rfl
    · exact legal_of_open (open_of_not_mem ‹_› terminal_mem)
  | retrySubmittedTask maxRetries reason delaySeconds now =>
    simp only [StoreOp.apply, retrySubmittedTask]
    split
    · exact legal_of_eq rfl
    · exact legal_of_open (open_of_not_ne ‹_› rfl)
  | retryAmbiguousProxyTask reason accountId proxyNodeId delaySeconds now =>
    simp only [StoreOp.apply, retryAmbiguousProxyTask]
    split
    · exact legal_of_eq rfl
    · exact legal_of_open (open_of_not_ne ‹_› rfl)
  | retryAmbiguousSubmittedTask maxRetries reason delaySeconds now =>
    simp only [StoreOp.apply, retryAmbiguousSubmittedTask]
    split
    · exact legal_of_eq rfl
    · exact legal_of_open (open_of_not_ne ‹_› rfl)
  | retryTimedOutSubmittedTask maxRetries reason delaySeconds now =>
    simp only [StoreOp.apply, retryTimedOutSubmittedTask]
    split
    · exact legal_of_eq rfl
    · rename_i hguard
      exact legal_of_open (open_of_not_ne (fun hne => hguard (.inl hne)) rfl)
  | recordExecutionMiss retryLimit reason now => cases ho
  | recordResultWatchMiss reason now => exact legal_of_eq rfl
  | markRetryQueueVerified now => exact updateMetaIf_legal (by decide)
  | markSuccess hasUrl now =>
    simp only [StoreOp.apply, markSuccess]
    split
    · exact legal_of_eq rfl
    · exact updateMetaIf_legal (by decide)
  | markLateResultSuccess hasUrl now => exact markLateResultSuccess_legal hasUrl now m
  | markSubmitted resultPollDelaySeconds now => exact updateMetaIf_legal (by decide)
  | resetRunning wasSubmitted submittedAt now =>
    simp only [StoreOp.apply, resetRunning, markPending]
    split <;> exact updateMetaIf_legal (by decide)

/-- A transaction makes a legal step exactly when it respects the status that it finds. -/
theorem event_legal_iff (event : Event) (s : Shared) :
    Legal event.isLateResult s.task.status (event.apply u s).task.status ↔ event.Respects s := by
  cases event with
  | op o =>
    cases ho : o.isExecutionMiss with
    | true =>
      cases o with
      | recordExecutionMiss retryLimit reason now =>
        exact recordExecutionMiss_legal_iff retryLimit reason now s.task
      | _ => cases ho
    | false =>
      refine iff_of_true (storeOp_legal o ho s.task) ?_
      cases o with
      | recordExecutionMiss => cases ho
      | _ => trivial
  | finalizeRead call =>
    refine iff_of_true (legal_of_eq ?_) trivial
    simp only [Event.apply]
    split <;> rfl
  | finalizeWrite call now =>
    simp only [Event.apply, Event.Respects]
    cases hread : s.read call with
    | none => simpa using legal_of_eq rfl
    | some m =>
      cases hs : s.task.status <;> simp [Legal, finalized, Status.isTerminal, Event.isLateResult]

/-- Legal steps add up over a run. -/
theorem run_legal {events : List Event} {s : Shared}
    (h : AllSteps (Event.apply u)
      (fun event s => Legal event.isLateResult s.task.status (event.apply u s).task.status) events s) :
    Legal (events.any Event.isLateResult) s.task.status
      (run (Event.apply u) events s).task.status := by
  induction events generalizing s with
  | nil => exact legal_of_eq rfl
  | cons event events ih =>
    obtain ⟨hsuccess, hcanceled, hfailed⟩ := h.1
    obtain ⟨hsuccess', hcanceled', hfailed'⟩ := ih h.2
    refine ⟨fun hs => hsuccess' (hsuccess hs), fun hs => hcanceled' (hcanceled hs), fun hs => ?_⟩
    rcases hfailed hs with hstill | ⟨hlate, hevent⟩
    · rcases hfailed' hstill with hend | ⟨hend, hany⟩
      · exact .inl hend
      · exact .inr ⟨hend, by simp [hany]⟩
    · exact .inr ⟨hsuccess' hlate, by simp [hevent]⟩

end Steps

/-- The status machine is respected over a run exactly when every transaction of the
run respects the status that it finds. -/
theorem terminalAbsorbing_iff (u : Chars) (events : List Event) (s : Shared) :
    TerminalAbsorbing u events s ↔ AllSteps (Event.apply u) Event.Respects events s := by
  constructor
  · intro h
    refine allSteps_iff.mpr fun before event after heq => (event_legal_iff (u := u) _ _).mp ?_
    have hstep := h before [event] after (by simp [heq])
    simpa [run, Legal] using hstep
  · rintro h before during after rfl
    have hduring := (allSteps_append.mp (allSteps_append.mp h).1).2
    have hlegal := run_legal (u := u) (allSteps_iff.mpr fun b event a heq =>
      (event_legal_iff _ _).mpr (allSteps_iff.mp hduring b event a heq))
    simpa [Legal, List.any_eq_true] using hlegal

/-! ### A creation that revives a failed task -/

/-- A task is being created when the start-up pass of another process fails it: the
finalize call writes back the record it read before. -/
theorem finalize_revives_failed :
    ¬ TerminalAbsorbing .ascii
      [.finalizeRead 0, .op (.failInitializing "任务未成功进入队列，请重新提交" 1), .finalizeWrite 0 2]
      ⟨{ status := .initializing }, fun _ => none⟩ := by
  intro h
  have hlegal := h [.finalizeRead 0, .op (.failInitializing "任务未成功进入队列，请重新提交" 1)]
    [.finalizeWrite 0 2] [] rfl
  exact absurd (hlegal.2.2 rfl) (by decide)

/-- An execution miss finds a successful task and queues it again. -/
example : ¬ TerminalAbsorbing .ascii [.op (.recordExecutionMiss 2 "任务未执行，重新排队" 1)]
    ⟨{ status := .success }, fun _ => none⟩ := by
  intro h
  exact absurd ((h [] [.op (.recordExecutionMiss 2 "任务未执行，重新排队" 1)] [] rfl).1 rfl) (by decide)

end FetchTask.Store
