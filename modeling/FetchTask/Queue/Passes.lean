import FetchTask.Lib.Signal
import FetchTask.Queue.Workers

/-!
What the passes of a process have seen.

A start-up, a recovery and a watchdog put a task into the queue only after they
have seen that nobody executes it: its record was not running, it was listed as
pending, they have taken its lapsed lease away, or they have ended the run
themselves. What they have seen may be old by then.
-/

namespace FetchTask.Queue

open Store

/-! ### What a pass has seen -/

/-- Evidence that nobody executes the task: its record is not running, it is listed as pending,
or its lapsed lease has been taken away. -/
def queueSignal (t : TaskId) : Signal QueueSig where
  may
    | seen, .requeueScript _ j _ _ | seen, .lpushReady _ j | seen, .write j (.markPending _ _) =>
      j = t → seen = true
    | _, .write _ (.resetRunning ..) | _, .write _ (.recordInfrastructureRetry ..) => True
    | _, .write _ o => o.setsPending = false ∨ o.requeueLimit.isSome = true
    | _, .clock _ | _, .readPaused _ | _, .getMeta _ | _, .loadResult _ | _, .listPending _
    | _, .expiredLeases _ | _, .recoverScript .. | _, .sremKnown _ => True
    | _, _ => False
  shows
    | .getMeta j, m => j == t && m.all fun m => m.status != .running
    | .listPending _, rows => rows.any fun row => row.1 == t
    | .recoverScript j _, taken => j == t && taken
    | .write j (.recordInfrastructureRetry ..), _ => j == t
    | _, _ => false

def workerSignal (t : TaskId) : Signal WorkerSig where
  may _ _ := True
  shows
    | .listPendingDola _, rows => rows.any fun row => row.1 == t
    | _, _ => false

def processSignal (t : TaskId) : Signal ProcessSig := (queueSignal t).sum (workerSignal t)

/-! ### The passes keep to it -/

section Queue

variable {t j : TaskId} {P : Prop} {α : Type}

theorem cautious_op {o : Op} {f : o.Res → Call α}
    (ho : ∀ seen, (P → seen = true) → (queueSignal t).may seen o)
    (hf : ∀ r, (queueSignal t).Cautious (P ∨ (queueSignal t).shows o r = true) (f r)) :
    (queueSignal t).Cautious P (op o >>= f) :=
  Signal.cautious_act ho hf

/-- An operation whose result does not matter as evidence. -/
theorem cautious_op' {o : Op} {f : o.Res → Call α}
    (ho : ∀ seen, (P → seen = true) → (queueSignal t).may seen o)
    (hf : ∀ r, (queueSignal t).Cautious P (f r)) : (queueSignal t).Cautious P (op o >>= f) :=
  cautious_op ho fun r => (hf r).mono .inl

theorem cautious_single {o : Op} (ho : ∀ seen, (P → seen = true) → (queueSignal t).may seen o) :
    (queueSignal t).Cautious P (op o) :=
  fun seen hseen => ⟨ho seen hseen, fun _ _ => trivial⟩

theorem may_write {o : StoreOp} (ho : o.setsPending = false ∨ o.requeueLimit.isSome = true)
    (seen : Bool) : (queueSignal t).may seen (.write j o) := by
  cases o with
  | markPending reason now => simp [StoreOp.setsPending, StoreOp.requeueLimit] at ho
  | resetRunning wasSubmitted submittedAt now => trivial
  | recordInfrastructureRetry reason now => trivial
  | _ => exact ho

theorem cautious_isRetryTask : (queueSignal t).Cautious P (isRetryTask j) :=
  cautious_op' (fun _ _ => trivial) fun _ => Signal.cautious_pure _

theorem cautious_requeueAs (retrying : Bool) (availableAt : Option Int) :
    (queueSignal t).Cautious (j = t) (requeueAs retrying j availableAt) :=
  cautious_op' (fun _ _ => trivial) fun _ => cautious_single fun _ hseen => hseen

theorem cautious_requeue (availableAt : Option Int) :
    (queueSignal t).Cautious (j = t) (requeue j availableAt) :=
  cautious_isRetryTask.bind fun retrying => cautious_requeueAs retrying availableAt

/-- The recovery has taken the lease of the task away. -/
theorem cautious_recoverTaken : (queueSignal t).Cautious (j = t) (recoverTaken j) := by
  have hdrop : (queueSignal t).Cautious (j = t) (op (.sremKnown j)) :=
    cautious_single fun _ _ => trivial
  have hpush : (queueSignal t).Cautious (j = t)
      (isRetryTask j >>= fun retrying => op (.lpushReady retrying j)) :=
    cautious_isRetryTask.bind fun retrying => cautious_single fun _ hseen => hseen
  refine cautious_op' (fun _ _ => trivial) fun m => ?_
  cases m with
  | none => exact hdrop
  | some m =>
    dsimp only
    split
    · refine cautious_op' (fun _ _ => trivial) fun result => ?_
      refine cautious_op' (fun _ _ => trivial) fun now => ?_
      split
      · refine cautious_op' (fun seen _ => may_write (.inl rfl) seen) fun written => ?_
        split
        · exact hdrop
        · exact Signal.cautious_pure _
      · refine cautious_op' (fun _ hseen => hseen) fun written => ?_
        split
        · exact hdrop
        · exact hpush
    · split
      · exact hpush
      · exact hdrop

theorem cautious_recoverAll (ts : List TaskId) : (queueSignal t).Cautious P (recoverAll ts) := by
  induction ts generalizing P with
  | nil => exact Signal.cautious_pure _
  | cons j ts ih =>
    refine cautious_op' (fun _ _ => trivial) fun now => ?_
    refine cautious_op (fun _ _ => trivial) fun taken => ?_
    cases taken with
    | false => exact ih
    | true =>
      have hevidence : j = t → P ∨ (queueSignal t).shows (.recoverScript j now) true = true := by
        intro hj
        simp [queueSignal, hj]
      exact (cautious_recoverTaken.mono hevidence).bind fun _ => ih

theorem cautious_recover : (queueSignal t).Cautious P recover :=
  cautious_op' (fun _ _ => trivial) fun _ =>
    cautious_op' (fun _ _ => trivial) fun expired => cautious_recoverAll expired

theorem cautious_requeueAll (rows : List (TaskId × Meta)) :
    (queueSignal t).Cautious (∃ row ∈ rows, row.1 = t) (requeueAll rows) := by
  induction rows with
  | nil => exact Signal.cautious_pure _
  | cons row rows ih =>
    obtain ⟨j, m⟩ := row
    refine ((cautious_requeueAs (metaIsRetry m) m.nextAttemptAt).mono fun hj => ?_).bind
      fun _ => ih.mono ?_
    · exact ⟨(j, m), List.mem_cons_self, hj⟩
    · rintro ⟨row, hrow, hj⟩
      exact ⟨row, List.mem_cons_of_mem _ hrow, hj⟩

/-- The pending tasks are evidence of themselves. -/
theorem listed_pending {rows : List (TaskId × Meta)} {limit : Option Nat}
    (h : ∃ row ∈ rows, row.1 = t) : (queueSignal t).shows (.listPending limit) rows = true := by
  obtain ⟨row, hrow, hj⟩ := h
  exact List.any_eq_true.mpr ⟨row, hrow, by simpa using hj⟩

theorem cautious_reconcile : (queueSignal t).Cautious P reconcile := by
  refine cautious_op (fun _ _ => trivial) fun pending => ?_
  refine (cautious_requeueAll _).mono ?_
  rintro ⟨row, hrow, hj⟩
  exact .inr (listed_pending ⟨row, (List.mem_insertionSort _).mp hrow, hj⟩)

theorem cautious_requeuePendingTask : (queueSignal t).Cautious P (requeuePendingTask j) := by
  refine cautious_op (fun _ _ => trivial) fun m => ?_
  cases m with
  | none => exact Signal.cautious_pure _
  | some m =>
    dsimp only
    split
    · rename_i hwaiting
      have hevidence : j = t → P ∨ (queueSignal t).shows (.getMeta j) (some m) = true := by
        intro hj
        right
        simp [queueSignal, hj, hwaiting.1]
      refine ((cautious_requeue m.nextAttemptAt).mono hevidence).bind fun _ => ?_
      refine cautious_op' (fun _ _ => trivial) fun now => ?_
      exact cautious_op' (fun seen _ => may_write (.inl rfl) seen) fun _ => Signal.cautious_pure _
    · exact Signal.cautious_pure _

theorem cautious_retryThenRequeue {o : StoreOp}
    (ho : o.setsPending = false ∨ o.requeueLimit.isSome = true) (limit : Option Int) :
    (queueSignal t).Cautious P (retryThenRequeue j o limit) := by
  refine cautious_op' (fun seen _ => may_write ho seen) fun count => ?_
  cases count with
  | none => exact Signal.cautious_pure _
  | some count =>
    dsimp only
    split
    · exact cautious_requeuePendingTask
    · exact Signal.cautious_pure _

/-- The retry of a silent task leaves it not running. -/
theorem cautious_restartSilent : (queueSignal t).Cautious P (restartSilent j) := by
  refine cautious_op' (fun _ _ => trivial) fun now => ?_
  refine cautious_op (fun _ _ => trivial) fun count => ?_
  cases count with
  | none => exact Signal.cautious_pure _
  | some count =>
    dsimp only
    split
    · refine (cautious_requeue none).mono fun hj => .inr ?_
      simp [queueSignal, hj]
    · exact Signal.cautious_pure _

theorem cautious_expireTaskIfTimeout : (queueSignal t).Cautious P (expireTaskIfTimeout j) := by
  refine cautious_op' (fun _ _ => trivial) fun m => ?_
  cases m with
  | none => exact Signal.cautious_pure _
  | some m =>
    refine cautious_op' (fun _ _ => trivial) fun now => ?_
    dsimp only
    split
    · refine cautious_op' (fun _ _ => trivial) fun result => ?_
      split
      · exact Signal.cautious_pure _
      · refine cautious_op' (fun _ _ => trivial) fun now => ?_
        exact cautious_op' (fun seen _ => may_write (.inl rfl) seen) fun _ => Signal.cautious_pure _
    · exact Signal.cautious_pure _

theorem cautious_reconcilePendingAll (started : Int) (rows : List (TaskId × Meta)) :
    (queueSignal t).Cautious (∃ row ∈ rows, row.1 = t) (reconcilePendingAll started rows) := by
  induction rows with
  | nil => exact Signal.cautious_pure _
  | cons row rows ih =>
    obtain ⟨j, m⟩ := row
    have hrest : (queueSignal t).Cautious (∃ row ∈ (j, m) :: rows, row.1 = t)
        (reconcilePendingAll started rows) := by
      refine ih.mono ?_
      rintro ⟨row, hrow, hj⟩
      exact ⟨row, List.mem_cons_of_mem _ hrow, hj⟩
    rw [reconcilePendingAll]
    split
    · exact hrest
    · refine cautious_expireTaskIfTimeout.bind fun expired => ?_
      match expired with
      | none => exact Signal.cautious_pure _
      | some true => exact hrest
      | some false =>
        dsimp only
        split
        · exact hrest
        · refine ((cautious_requeue m.nextAttemptAt).mono fun hj => ?_).bind fun _ => ?_
          · exact ⟨(j, m), List.mem_cons_self, hj⟩
          · refine cautious_op' (fun _ _ => trivial) fun now => ?_
            exact cautious_op' (fun seen _ => may_write (.inl rfl) seen) fun _ => hrest

theorem cautious_reconcilePendingRetries (batchSize : Nat) :
    (queueSignal t).Cautious P (reconcilePendingRetries batchSize) := by
  refine cautious_op' (fun _ _ => trivial) fun now => ?_
  refine cautious_op (fun _ _ => trivial) fun rows => ?_
  exact (cautious_reconcilePendingAll now rows).mono fun h => .inr (listed_pending h)

end Queue

section Process

variable {t : TaskId} {P : Prop} {α : Type}

theorem cautious_queue {call : Call α} (h : (queueSignal t).Cautious P call) :
    (processSignal t).Cautious P (queue call) := h.inl

theorem cautious_queue_op {o : Op} {f : o.Res → ProcessCall α}
    (ho : ∀ seen, (P → seen = true) → (queueSignal t).may seen o)
    (hf : ∀ r, (processSignal t).Cautious P (f r)) :
    (processSignal t).Cautious P (queue (op o) >>= f) :=
  Signal.Cautious.bind (cautious_queue (cautious_single ho)) hf

theorem cautious_own {o : WorkerOp} {f : o.Res → ProcessCall α}
    (hf : ∀ r, (processSignal t).Cautious (P ∨ (workerSignal t).shows o r = true) (f r)) :
    (processSignal t).Cautious P (own o >>= f) :=
  Signal.cautious_act (fun _ _ => trivial) hf

theorem cautious_own' {o : WorkerOp} {f : o.Res → ProcessCall α}
    (hf : ∀ r, (processSignal t).Cautious P (f r)) :
    (processSignal t).Cautious P (own o >>= f) :=
  cautious_own fun r => (hf r).mono .inl

theorem cautious_expireListed (rows : List (TaskId × Meta)) :
    (processSignal t).Cautious P (expireListed rows) := by
  induction rows with
  | nil => exact Signal.cautious_pure _
  | cons row rows ih =>
    refine cautious_queue_op (fun _ _ => trivial) fun now => ?_
    split
    · refine (cautious_queue cautious_expireTaskIfTimeout).bind fun expired => ?_
      refine cautious_queue_op (fun _ _ => trivial) fun m => ?_
      split
      · exact Signal.cautious_pure _
      · exact ih
    · exact ih

theorem cautious_resetListed (ts : List TaskId) :
    (processSignal t).Cautious P (resetListed ts) := by
  induction ts with
  | nil => exact Signal.cautious_pure _
  | cons j ts ih =>
    refine cautious_queue_op (fun _ _ => trivial) fun m => ?_
    cases m with
    | none => exact ih
    | some m =>
      dsimp only
      split
      · refine cautious_queue_op (fun _ _ => trivial) fun result => ?_
        refine cautious_queue_op (fun _ _ => trivial) fun now => ?_
        refine cautious_queue_op (fun _ _ => trivial) fun written => ?_
        split
        · exact Signal.cautious_pure _
        · exact ih
      · exact ih

theorem cautious_resetRunningTasks : (processSignal t).Cautious P resetRunningTasks := by
  refine cautious_own' fun rows => ?_
  refine (cautious_expireListed rows).bind fun listed => ?_
  split
  · exact cautious_resetListed _
  · exact Signal.cautious_pure _

theorem cautious_requeueStale (reset : Meta → Option WaitReset) (rows : List (TaskId × Meta)) :
    (processSignal t).Cautious (∃ row ∈ rows, row.1 = t) (requeueStale reset rows) := by
  induction rows with
  | nil => exact Signal.cautious_pure _
  | cons row rows ih =>
    obtain ⟨j, m⟩ := row
    have hrest : (processSignal t).Cautious (∃ row ∈ (j, m) :: rows, row.1 = t)
        (requeueStale reset rows) := by
      refine ih.mono ?_
      rintro ⟨row, hrow, hj⟩
      exact ⟨row, List.mem_cons_of_mem _ hrow, hj⟩
    rw [requeueStale]
    split
    · exact hrest
    · refine cautious_queue_op (fun _ _ => trivial) fun now => ?_
      refine cautious_own' fun found => ?_
      split
      · refine (cautious_queue ((cautious_requeue none).mono fun hj => ?_)).bind fun _ => hrest
        exact ⟨(j, m), List.mem_cons_self, hj⟩
      · exact Signal.cautious_pure _

theorem cautious_stale (reset : Meta → Option WaitReset) :
    (processSignal t).Cautious P (own (.listPendingDola 2000) >>= requeueStale reset) := by
  refine cautious_own fun rows => ?_
  refine (cautious_requeueStale reset rows).mono ?_
  rintro ⟨row, hrow, hj⟩
  exact .inr (List.any_eq_true.mpr ⟨row, hrow, by simpa using hj⟩)

theorem cautious_start : (processSignal t).Cautious P start := by
  refine (cautious_queue cautious_recover).bind fun _ => ?_
  refine cautious_resetRunningTasks.bind fun reset => ?_
  split
  · refine (cautious_queue cautious_reconcile).bind fun _ => ?_
    refine (cautious_stale _).bind fun requeued => ?_
    split
    · exact (cautious_stale _).bind fun _ => Signal.cautious_pure _
    · exact Signal.cautious_pure _
  · exact Signal.cautious_pure _

theorem cautious_watchRunningTask (j : TaskId) :
    (processSignal t).Cautious P (watchRunningTask j) := by
  refine cautious_queue_op (fun _ _ => trivial) fun m => ?_
  cases m with
  | none => exact Signal.cautious_pure _
  | some m =>
    dsimp only
    split
    · exact Signal.cautious_pure _
    · refine cautious_queue_op (fun _ _ => trivial) fun now => ?_
      split
      · exact Signal.cautious_pure _
      · refine cautious_own' fun running => ?_
        split
        · refine cautious_own' fun settings => ?_
          split
          · exact Signal.cautious_pure _
          · refine cautious_queue_op (fun _ _ => trivial) fun now => ?_
            exact cautious_queue_op (fun _ _ => trivial) fun _ => Signal.cautious_pure _
        · exact cautious_queue cautious_restartSilent

theorem cautious_watchRunning (ts : List TaskId) :
    (processSignal t).Cautious P (watchRunning ts) := by
  induction ts with
  | nil => exact Signal.cautious_pure _
  | cons j ts ih => exact (cautious_watchRunningTask j).bind fun _ => ih

theorem cautious_watchRunningTasksOnce (reconcileDue : Bool) (batchSize : Nat) :
    (processSignal t).Cautious P (watchRunningTasksOnce reconcileDue batchSize) := by
  have hreconcile : (processSignal t).Cautious P
      (if reconcileDue then queue (reconcilePendingRetries batchSize) else pure ()) := by
    split
    · exact cautious_queue (cautious_reconcilePendingRetries batchSize)
    · exact Signal.cautious_pure _
  refine hreconcile.bind fun _ => ?_
  exact cautious_own' fun rows => cautious_watchRunning _

/-- Every start-up and every pass of a watchdog. -/
theorem cautious_call (call : ManagerCall) (hrole : call.actor.role ≠ .other) :
    (processSignal t).Cautious P call.prog := by
  cases call with
  | start process => exact cautious_start
  | watch process reconcileDue batchSize => exact cautious_watchRunningTasksOnce reconcileDue batchSize
  | pollRetry process j o =>
    refine cautious_queue ?_
    cases ho : o.requeueLimit with
    | none =>
      simp only [QueueCall.prog, ho]
      exact Signal.cautious_pure _
    | some limit =>
      simp only [QueueCall.prog, ho]
      exact cautious_retryThenRequeue (.inr (by rw [ho]; rfl)) limit
  | pollWrite process j o =>
    refine cautious_queue ?_
    simp only [QueueCall.prog]
    split
    · exact Signal.cautious_pure _
    · rename_i ho
      exact cautious_op' (fun seen _ => may_write (.inl (by simpa using ho)) seen) fun _ =>
        Signal.cautious_pure _
  | other process call => exact absurd rfl hrole

end Process

end FetchTask.Queue
