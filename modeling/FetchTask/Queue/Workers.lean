import FetchTask.Lib.Sum
import FetchTask.Queue.Calls

/-!
What the worker processes do to the queue by themselves (`app/worker.py`).

A process that starts recovers lapsed leases, sets the running tasks back and
puts the pending ones into the queue (`WorkerManager.start`). Its watchdog looks
at the running tasks every few seconds. A process has a table of its own workers
only, and what the watchdog makes of a running task depends on that table.
-/

namespace FetchTask.Queue

open Store

abbrev Process := String

/-- A worker's id is its process's id, a dash and a number. -/
def instanceOf (worker : WorkerId) : Process :=
  String.ofList ((worker.toList.reverse.dropWhile (· ≠ '-')).drop 1).reverse

/-- The settings that the watchdog reads. -/
structure WatchSettings where
  taskTimeoutSeconds : Int := 180
  doubaoSubmitRetryLimit : Int := 2

/-- The two updates by which a start-up lets a waiting task be tried again. -/
inductive WaitReset
  | platformGuard
  | resourceWait (allocationTimeout : Bool)

def WaitReset.updates (now : Int) : WaitReset → Meta → Meta
  | .platformGuard, m =>
    { m with
      nextAttemptAt := some now, queueReason := "等待重新提交", queueCategory := ""
      statusReason := "等待重新提交" }
  | .resourceWait allocationTimeout, m =>
    let m := { m with
      nextAttemptAt := some now, queueReason := "等待重新提交", queueCategory := ""
      statusReason := "系统资源已恢复，等待重新提交", executionPhase := "retry_queued"
      phaseUpdatedAt := some now, retryQueueVerifiedAt := none }
    if allocationTimeout then { m with infrastructureRetryCount := 0, infrastructureError := "" } else m

/-- What the processes read and write besides the operations on the queue. -/
inductive WorkerOp
  | listTasks
  | listRunning
  | listPendingDola (limit : Nat)
  | resetWait (t : TaskId) (reset : WaitReset) (now : Int)
  /-- Whether the worker is in the process's table, and not done. -/
  | workerRuns (worker : WorkerId)
  | readSettings

/-- An update of a missing record gives `false`. -/
abbrev WorkerOp.Res : WorkerOp → Type
  | .listTasks | .listRunning | .listPendingDola _ => List (TaskId × Meta)
  | .resetWait .. => Bool
  | .workerRuns _ => Bool
  | .readSettings => WatchSettings

abbrev WorkerSig : Sig := ⟨WorkerOp, WorkerOp.Res⟩

/-- What the environment contributes to a step: the time, the workers that run in their
processes, and the settings. -/
structure Moment where
  now : Int
  runs : WorkerId → Bool := fun _ => false
  settings : WatchSettings := {}

/-- The newest first. -/
def createdAfter (p q : TaskId × Meta) : Bool :=
  (compareTimes p.2.createdAt q.2.createdAt).then (compare p.1 q.1) != .lt

/-- One atomic step of a process; `processOf` tells to which process a worker belongs. -/
def workerHandle (processOf : WorkerId → Process) (process : Process) (e : Moment) :
    (o : WorkerOp) → World → o.Res × World
  | .listTasks, w => (w.tasks.items.insertionSort fun p q => createdAfter p q = true, w)
  | .listRunning, w => (w.tasks.items.filter fun p => p.2.status == .running, w)
  | .listPendingDola limit, w =>
    (((pendingTasks w.tasks).filter fun p => textOr p.2.platform "dola" == "dola").take limit, w)
  | .resetWait t reset now, w =>
    match w.tasks.get? t with
    | none => (false, w)
    | some m => (true, w.setTask t (updateMeta now (reset.updates now) m).2)
  | .workerRuns worker, w =>
    (worker != "" && processOf worker == process && e.runs worker, w)
  | .readSettings, w => (e.settings, w)

abbrev ProcessSig : Sig := QueueSig.sum WorkerSig

abbrev ProcessCall (α : Type) := Prog ProcessSig α

section Calls

/-- A call of the queue or of the store. -/
def queue {α : Type} (call : Call α) : ProcessCall α := call.inl

def own (o : WorkerOp) : ProcessCall o.Res := @Prog.perform ProcessSig (.inr o)

/-! ### Start -/

/-- `list_tasks`, as far as it fails overdue tasks; `false` when a task disappears meanwhile. -/
def expireListed : List (TaskId × Meta) → ProcessCall Bool
  | [] => pure true
  | (t, m) :: rows =>
    queue (op (.clock t)) >>= fun now =>
    if m.isTaskExpired now then
      queue (expireTaskIfTimeout t) >>= fun expired =>
      queue (op (.getMeta t)) >>= fun m =>
      if expired.isNone || m.isNone then pure false else expireListed rows
    else expireListed rows

/-- The loop of `reset_running_tasks`; `false` when a task disappears between a read and a
write. -/
def resetListed : List TaskId → ProcessCall Bool
  | [] => pure true
  | t :: ts =>
    queue (op (.getMeta t)) >>= fun m =>
    match m with
    | none => resetListed ts
    | some m =>
      if m.status = .running then
        queue (op (.loadResult t)) >>= fun result =>
        queue (op (.clock t)) >>= fun now =>
        queue (op (.write t (.resetRunning result.wasSubmitted m.submittedAt now))) >>= fun written =>
        if written.isNone then pure false else resetListed ts
      else resetListed ts

def resetRunningTasks : ProcessCall Bool :=
  own .listTasks >>= fun rows =>
  expireListed rows >>= fun listed =>
  if listed then resetListed (rows.map Prod.fst) else pure false

/-- The tasks that a start-up lets be tried again, each with its update. -/
def requeueStale (reset : Meta → Option WaitReset) : List (TaskId × Meta) → ProcessCall Bool
  | [] => pure true
  | (t, m) :: rows =>
    match reset m with
    | none => requeueStale reset rows
    | some update =>
      queue (op (.clock t)) >>= fun now =>
      own (.resetWait t update now) >>= fun found =>
      if found then queue (requeue t none) >>= fun _ => requeueStale reset rows else pure false

def requeueStaleDolaGuardTasks : ProcessCall Bool :=
  own (.listPendingDola 2000) >>=
  requeueStale fun m => if m.queueCategory = "platform_guard" then some .platformGuard else none

def allocationTimeoutText : String := "execution phase timed out: allocating_browser"

def requeueStaleResourceWaitTasks : ProcessCall Bool :=
  own (.listPendingDola 2000) >>=
  requeueStale fun m =>
    let browserAllocationTimeout :=
      decide (allocationTimeoutText.toList <:+: m.infrastructureError.toList)
    if m.queueCategory ∉ ["image_upload_limit", "image_prepare_limit"] ∧
        browserAllocationTimeout = false then none
    else some (.resourceWait browserAllocationTimeout)

/-- `WorkerManager.start`: an exception ends it. -/
def start : ProcessCall Unit :=
  queue recover >>= fun _ =>
  resetRunningTasks >>= fun reset =>
  if reset then
    queue reconcile >>= fun _ =>
    requeueStaleDolaGuardTasks >>= fun requeued =>
    if requeued then requeueStaleResourceWaitTasks >>= fun _ => pure () else pure ()
  else pure ()

/-! ### Watchdog -/

/-- `RUNNING_WATCH_GRACE_SECONDS`. -/
def runningWatchGraceSeconds : Int := 90

/-- How long a phase of a running task may last. -/
def staleAfter (settings : WatchSettings) (m : Meta) : Int :=
  let phaseTimeout := max 240 settings.taskTimeoutSeconds
  let phaseTimeout :=
    if m.platform = "doubao" ∧ m.executionPhase = "submitting_request" then
      max phaseTimeout (120 * (max 0 (min 10 settings.doubaoSubmitRetryLimit) + 1) + 90)
    else phaseTimeout
  phaseTimeout + runningWatchGraceSeconds

/-- Whether less than `seconds` have passed since a time that is known. -/
def youngerThan (seconds now : Int) (time : Option Int) : Bool :=
  time.any fun time => decide (now - time < seconds * second)

/-- The watchdog on one running task. Cancelling the worker's loop is left to that loop. -/
def watchRunningTask (t : TaskId) : ProcessCall Unit :=
  queue (op (.getMeta t)) >>= fun m =>
  match m with
  | none => pure ()
  | some m =>
    if m.status ≠ .running then pure ()
    else
      queue (op (.clock t)) >>= fun now =>
      let startedAt := m.startedAt <|> m.updatedAt
      let phaseUpdatedAt := m.phaseUpdatedAt <|> startedAt
      if youngerThan runningWatchGraceSeconds now startedAt then pure ()
      else
        own (.workerRuns m.workerId) >>= fun running =>
        if running then
          own .readSettings >>= fun settings =>
          if youngerThan (staleAfter settings m) now phaseUpdatedAt then pure ()
          else
            let phase := textOr m.executionPhase "unknown"
            queue (op (.clock t)) >>= fun now =>
            queue (op (.write t (.recordInfrastructureRetry
              s!"execution phase timed out: {phase}" now))) >>= fun _ => pure ()
        else queue (restartSilent t)

def watchRunning : List TaskId → ProcessCall Unit
  | [] => pure ()
  | t :: ts => watchRunningTask t >>= fun _ => watchRunning ts

/-- `_watch_running_tasks_once` without the polls of results: every fifteen seconds the pending
retries first, then the running tasks. -/
def watchRunningTasksOnce (reconcileDue : Bool) (batchSize : Nat) : ProcessCall Unit :=
  (if reconcileDue then queue (reconcilePendingRetries batchSize) else pure ()) >>= fun _ =>
  own .listRunning >>= fun rows =>
  watchRunning (rows.map Prod.fst)

end Calls

/-! ### Who performs a call -/

inductive Role
  | startUp
  | watchdog
  /-- Worker loops, the supervisor's heartbeats and the interface. -/
  | other
  deriving DecidableEq

structure Actor where
  process : Process
  role : Role

/-- The calls of the processes. The polls of results by a watchdog are retries of submitted
tasks, and writes that leave no record pending. -/
inductive ManagerCall
  | start (process : Process)
  | watch (process : Process) (reconcileDue : Bool) (batchSize : Nat)
  | pollRetry (process : Process) (t : TaskId) (o : StoreOp)
  | pollWrite (process : Process) (t : TaskId) (o : StoreOp)
  | other (process : Process) (call : QueueCall)

def ManagerCall.actor : ManagerCall → Actor
  | .start process => ⟨process, .startUp⟩
  | .watch process .. | .pollRetry process .. | .pollWrite process .. => ⟨process, .watchdog⟩
  | .other process _ => ⟨process, .other⟩

def ManagerCall.prog : ManagerCall → ProcessCall Unit
  | .start _ => Queue.start
  | .watch _ reconcileDue batchSize => watchRunningTasksOnce reconcileDue batchSize
  | .pollRetry _ t o => queue (QueueCall.retry t o).prog
  | .pollWrite _ t o => queue (QueueCall.write t o).prog
  | .other _ call => queue call.prog

end FetchTask.Queue
