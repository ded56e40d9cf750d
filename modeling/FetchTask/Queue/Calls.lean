import FetchTask.Lib.Prog
import FetchTask.Queue.Redis
import FetchTask.Store.StatusMachine

/-!
The calls that work on the Redis queue (`app/task_queue.py`, and the parts of
`app/store.py` and `app/worker.py` that put a task back into it).

A call is a program whose operations are the atomic steps: a script, a pipeline
or a command of the server, a read or a transaction of a task record, a reading
of the pause flag or of the clock. The programs follow the source line by line.
What a call does besides, on accounts and on the quota of the owner, does not
touch this state and is left out.
-/

namespace FetchTask.Queue

open Store

/-- `seen` remembers which ids an insertion script has put among the known ones. -/
structure World where
  redis : Redis
  tasks : Dict TaskId Meta
  results : TaskId → TaskResult
  paused : Bool
  seen : TaskId → Bool := fun _ => false

/-- The concurrency limits by owner hash. -/
abbrev Limits := String → Option Int

/-- Atomic operations. Readings of the clock and of the pause flag name the task they are for. -/
inductive Op
  | clock (about : Option TaskId)
  | readPaused (t : TaskId)
  | setPaused (paused : Bool)
  | getMeta (t : TaskId)
  | loadResult (t : TaskId)
  | listPending (limit : Option Nat)
  | claimTask (t : TaskId) (worker : WorkerId) (owner : String) (limit : Option Int) (now : Int)
  | write (t : TaskId) (o : StoreOp)
  | enqueueScript (retrying : Bool) (t : TaskId) (score now : Int)
  | requeueScript (retrying : Bool) (t : TaskId) (score now : Int)
  | promoteScript (retrying : Bool) (now : Int)
  | lmove (fromRetry : Bool)
  | leasePipeline (t : TaskId) (worker : WorkerId) (expiry : Int)
  | delayClaimedPipeline (retrying : Bool) (t : TaskId) (score : Int)
  | ackPipeline (t : TaskId)
  | heartbeatScript (t : TaskId) (worker : WorkerId) (expiry : Int)
  | delayOwnedScript (retrying : Bool) (t : TaskId) (worker : WorkerId) (score : Int)
  | ackOwnedScript (t : TaskId) (worker : WorkerId)
  | lremRetryReady (t : TaskId)
  | zremRetryDelayed (t : TaskId)
  | expiredLeases (now : Int)
  | recoverScript (t : TaskId) (now : Int)
  | lpushReady (retrying : Bool) (t : TaskId)
  | sremKnown (t : TaskId)

/-- A read of a missing task gives `none`, and so does a write to one. -/
abbrev Op.Res : Op → Type
  | .clock _ => Int
  | .readPaused _ => Bool
  | .getMeta _ => Option Meta
  | .loadResult _ => TaskResult
  | .listPending _ => List (TaskId × Meta)
  | .claimTask .. => Option Bool
  | .write .. => Option Int
  | .enqueueScript .. => Bool
  | .lmove _ => Option TaskId
  | .heartbeatScript .. => Bool
  | .delayOwnedScript .. => Bool
  | .ackOwnedScript .. => Bool
  | .expiredLeases _ => List TaskId
  | .recoverScript .. => Bool
  | _ => Unit

abbrev QueueSig : Sig := ⟨Op, Op.Res⟩

abbrev Call (α : Type) := Prog QueueSig α

/-! ### What the operations do -/

/-- How many tasks of an owner are running. -/
def ownerActive (tasks : Dict TaskId Meta) (owner : String) : Int :=
  (tasks.items.countP fun p => p.2.ownerTokenHash == owner && p.2.status == .running : Nat)

/-- The concurrency check of `claim_task`. -/
def atLimit (tasks : Dict TaskId Meta) (owner : String) (limit : Option Int) : Bool :=
  match limit with
  | none => false
  | some limit => owner != "" && decide (max 1 limit ≤ ownerActive tasks owner)

def pendingTasks (tasks : Dict TaskId Meta) : List (TaskId × Meta) :=
  tasks.items.filter fun p => p.2.status == .pending

namespace World

variable (w : World)

def setTask (t : TaskId) (m : Meta) : World := { w with tasks := w.tasks.set t m }

def markSeen (t : TaskId) : World := { w with seen := Function.update w.seen t true }

end World

/-- One atomic step; `now` is the time at it. -/
def handle (u : Chars) (now : Int) : (o : Op) → World → o.Res × World
  | .clock _, w => (now, w)
  | .readPaused _, w => (w.paused, w)
  | .setPaused paused, w => ((), { w with paused })
  | .getMeta t, w => (w.tasks.get? t, w)
  | .loadResult t, w => (w.results t, w)
  | .listPending limit, w =>
    ((match limit with
      | none => pendingTasks w.tasks
      | some n => (pendingTasks w.tasks).take n), w)
  | .claimTask t worker owner limit claimedAt, w =>
    match w.tasks.get? t with
    | none => (none, w)
    | some m =>
      let result := claimTask worker (atLimit w.tasks owner limit) claimedAt m
      (some result.1, w.setTask t result.2)
  | .write t o, w =>
    match w.tasks.get? t with
    | none => (none, w)
    | some m => (some (o.count u m), w.setTask t (o.apply u m))
  | .enqueueScript retrying t score time, w =>
    let result := w.redis.enqueueScript retrying t score time
    (result.1, if result.1 then { w with redis := result.2 }.markSeen t else w)
  | .requeueScript retrying t score time, w =>
    ((), { w with redis := w.redis.requeueScript retrying t score time }.markSeen t)
  | .promoteScript retrying time, w => ((), { w with redis := w.redis.promoteScript retrying time })
  | .lmove fromRetry, w =>
    ((w.redis.lmove fromRetry).1, { w with redis := (w.redis.lmove fromRetry).2 })
  | .leasePipeline t worker expiry, w =>
    ((), { w with redis := w.redis.leasePipeline t worker expiry })
  | .delayClaimedPipeline retrying t score, w =>
    ((), { w with redis := w.redis.delayClaimedPipeline retrying t score })
  | .ackPipeline t, w => ((), { w with redis := w.redis.ackPipeline t })
  | .heartbeatScript t worker expiry, w =>
    let result := w.redis.heartbeatScript t worker expiry
    (result.1, { w with redis := result.2 })
  | .delayOwnedScript retrying t worker score, w =>
    let result := w.redis.delayOwnedScript retrying t worker score
    (result.1, { w with redis := result.2 })
  | .ackOwnedScript t worker, w =>
    let result := w.redis.ackOwnedScript t worker
    (result.1, { w with redis := result.2 })
  | .lremRetryReady t, w => ((), { w with redis := w.redis.lremRetryReady t })
  | .zremRetryDelayed t, w => ((), { w with redis := w.redis.zremRetryDelayed t })
  | .expiredLeases time, w => (zrangebyscore w.redis.leases time 100, w)
  | .recoverScript t time, w =>
    let result := w.redis.recoverScript t time
    (result.1, { w with redis := result.2 })
  | .lpushReady retrying t, w => ((), { w with redis := w.redis.lpushReady retrying t })
  | .sremKnown t, w => ((), { w with redis := w.redis.sremKnown t })

/-! ### The queue -/

section Calls

/-- One operation; its result type is written out so that it need not be inferred. -/
def op (o : Op) : Call o.Res := @Prog.perform QueueSig o

/-- `_meta_is_retry`. -/
def metaIsRetry (m : Meta) : Bool :=
  decide (0 < max 0 m.retryCount) || decide (0 < max 0 m.infrastructureRetryCount) ||
    m.retryOfTaskId != ""

/-- `status == pending and not cancel_requested`. -/
def Waiting (m : Meta) : Prop := m.status = .pending ∧ m.cancelRequested = false

instance (m : Meta) : Decidable (Waiting m) := inferInstanceAs (Decidable (_ ∧ _))

def isRetryTask (t : TaskId) : Call Bool :=
  op (.getMeta t) >>= fun m => pure (m.elim false metaIsRetry)

def enqueue (t : TaskId) (availableAt : Option Int) : Call Bool :=
  isRetryTask t >>= fun retrying =>
  op (.clock t) >>= fun now =>
  op (.enqueueScript retrying t (availableAt.getD 0) now)

def requeueAs (retrying : Bool) (t : TaskId) (availableAt : Option Int) : Call Unit :=
  op (.clock t) >>= fun now =>
  op (.requeueScript retrying t (availableAt.getD 0) now)

def requeue (t : TaskId) (availableAt : Option Int) : Call Unit :=
  isRetryTask t >>= fun retrying => requeueAs retrying t availableAt

def promoteQueue (retrying : Bool) : Call Unit :=
  op (.clock none) >>= fun now => op (.promoteScript retrying now)

def promote : Call Unit := promoteQueue false >>= fun _ => promoteQueue true

def delayClaimed (t : TaskId) (score : Int) : Call Unit :=
  isRetryTask t >>= fun retrying => op (.delayClaimedPipeline retrying t score)

def ack (t : TaskId) : Call Unit := op (.ackPipeline t)

def delayOwned (t : TaskId) (worker : WorkerId) (score : Int) : Call Unit :=
  isRetryTask t >>= fun retrying =>
  op (.delayOwnedScript retrying t worker score) >>= fun _ => pure ()

def ackOwned (t : TaskId) (worker : WorkerId) : Call Unit :=
  op (.ackOwnedScript t worker) >>= fun _ =>
  op (.lremRetryReady t) >>= fun _ =>
  op (.zremRetryDelayed t)

/-- The task that `recover` has taken from its lapsed lease. -/
def recoverTaken (t : TaskId) : Call Unit :=
  op (.getMeta t) >>= fun m =>
  match m with
  | none => op (.sremKnown t)
  | some m =>
    if m.status = .running then
      op (.loadResult t) >>= fun result =>
      op (.clock t) >>= fun now =>
      -- A write to a record that is gone raises `FileNotFoundError`.
      if result.wasSubmitted then
        op (.write t (.markSubmitted 45 now)) >>= fun written =>
        if written.isNone then op (.sremKnown t) else pure ()
      else
        op (.write t (.markPending "worker lease expired" now)) >>= fun written =>
        if written.isNone then op (.sremKnown t)
        else isRetryTask t >>= fun retrying => op (.lpushReady retrying t)
    else if m.status = .pending then
      isRetryTask t >>= fun retrying => op (.lpushReady retrying t)
    else op (.sremKnown t)

def recoverAll : List TaskId → Call Unit
  | [] => pure ()
  | t :: ts =>
    op (.clock t) >>= fun now =>
    op (.recoverScript t now) >>= fun taken =>
    if taken then recoverTaken t >>= fun _ => recoverAll ts else recoverAll ts

def recover : Call Unit :=
  op (.clock none) >>= fun now =>
  op (.expiredLeases now) >>= recoverAll

/-- `mark_running`; `none` when the task has disappeared. -/
def markRunning (t : TaskId) (worker : WorkerId) (limits : Limits) : Call (Option Bool) :=
  op (.readPaused t) >>= fun paused =>
  if paused then pure (some false)
  else
    op (.clock t) >>= fun now =>
    op (.getMeta t) >>= fun m =>
    match m with
    | none => pure none
    | some m =>
      let owner := m.ownerTokenHash
      op (.claimTask t worker owner (if owner = "" then none else limits owner) now)

/-- The lease time, `visibility_timeout` at its default. -/
def visibilityTimeout : Int := 180 * second

/-- How one round of `claim` ends. -/
inductive Round
  | again
  | raised
  | claimed (t : TaskId)

/-- What `claim` does with the task it has moved. -/
def claimMoved (t : TaskId) (worker : WorkerId) (limits : Limits) : Call Round :=
  op (.getMeta t) >>= fun m =>
  match m with
  | none => ack t >>= fun _ => pure .again
  | some m =>
    if ¬ Waiting m then ack t >>= fun _ => pure .again
    else
      op (.clock t) >>= fun now =>
      match m.nextAttemptAt.filter (fun next => decide (now < next)) with
      | some next => delayClaimed t next >>= fun _ => pure .again
      | none =>
        markRunning t worker limits >>= fun running =>
        match running with
        | none => pure .raised
        | some false =>
          if m.ownerTokenHash ≠ "" ∧ (limits m.ownerTokenHash).isSome then
            op (.clock t) >>= fun now =>
            delayClaimed t (now + 2 * second) >>= fun _ => pure .again
          else ack t >>= fun _ => pure .again
        | some true =>
          op (.clock t) >>= fun now =>
          op (.leasePipeline t worker (now + visibilityTimeout)) >>= fun _ => pure (.claimed t)

/-- The two `LMOVE`s: the preferred list first. -/
def moveNext (preferRetry : Bool) : Call (Option TaskId) :=
  op (.lmove preferRetry) >>= fun moved =>
  match moved with
  | some t => pure (some t)
  | none => op (.lmove !preferRetry)

/-- The loop of `claim`. -/
def claimLoop (worker : WorkerId) (limits : Limits) (preferRetry : Bool) :
    Nat → Call (Option TaskId)
  | 0 => pure none
  | n + 1 =>
    moveNext preferRetry >>= fun moved =>
    match moved with
    | none => pure none
    | some t =>
      claimMoved t worker limits >>= fun round =>
      match round with
      | .claimed t => pure (some t)
      | .raised => pure none
      | .again => claimLoop worker limits preferRetry n

/-- `claim`; `streak` is the claimer's `_initial_claim_streak`. -/
def claim (worker : WorkerId) (limits : Limits) (streak : Nat) : Call (Option TaskId) :=
  recover >>= fun _ =>
  promote >>= fun _ =>
  claimLoop worker limits (decide (3 ≤ streak)) 100

/-- `release`; an empty worker id stands for none. -/
def release (t : TaskId) (worker : WorkerId) : Call Unit :=
  op (.getMeta t) >>= fun m =>
  match m with
  | none => if worker = "" then ack t else ackOwned t worker
  | some m =>
    if Waiting m then
      op (.clock t) >>= fun now =>
      let score := m.nextAttemptAt.getD now
      if worker = "" then delayClaimed t score else delayOwned t worker score
    else if worker = "" then ack t else ackOwned t worker

def heartbeat : List (TaskId × WorkerId) → Call Unit
  | [] => pure ()
  | (t, worker) :: leases =>
    op (.clock t) >>= fun now =>
    op (.heartbeatScript t worker (now + visibilityTimeout)) >>= fun _ =>
    heartbeat leases

/-- Missing times come first. -/
def compareTimes : Option Int → Option Int → Ordering
  | none, none => .eq
  | none, some _ => .lt
  | some _, none => .gt
  | some a, some b => compare a b

/-- The order in which `reconcile` takes the tasks. -/
def rowBefore (p q : TaskId × Meta) : Bool :=
  let priority (m : Meta) := m.queuePriorityAt <|> m.createdAt <|> m.queuedAt
  ((compareTimes (priority p.2) (priority q.2)).then
    (compareTimes p.2.createdAt q.2.createdAt)).then (compare p.1 q.1) != .gt

def requeueAll : List (TaskId × Meta) → Call Unit
  | [] => pure ()
  | (t, m) :: rows =>
    requeueAs (metaIsRetry m) t m.nextAttemptAt >>= fun _ => requeueAll rows

def reconcile : Call Unit :=
  op (.listPending none) >>= fun pending =>
  requeueAll (pending.insertionSort fun p q => rowBefore p q = true)

/-! ### The store and the workers -/

/-- `requeue_pending_task`. -/
def requeuePendingTask (t : TaskId) : Call Unit :=
  op (.getMeta t) >>= fun m =>
  match m with
  | none => pure ()
  | some m =>
    if Waiting m then
      requeue t m.nextAttemptAt >>= fun _ =>
      op (.clock t) >>= fun now =>
      op (.write t (.markRetryQueueVerified now)) >>= fun _ => pure ()
    else pure ()

/-- A retry operation of the store: the transaction `o`, then the queue if the count that it
returns is within `limit`. -/
def retryThenRequeue (t : TaskId) (o : StoreOp) (limit : Option Int) : Call Unit :=
  op (.write t o) >>= fun count =>
  match count with
  | none => pure ()
  | some count => if limit.all (fun l => decide (count ≤ l)) then requeuePendingTask t else pure ()

/-- The last writes of a worker iteration: the record, then `release`. -/
def writeThenRelease (t : TaskId) (o : StoreOp) (worker : WorkerId) : Call Unit :=
  op (.write t o) >>= fun _ => release t worker

/-- The watchdog on a task whose worker is silent. -/
def restartSilent (t : TaskId) : Call Unit :=
  op (.clock t) >>= fun now =>
  op (.write t (.recordInfrastructureRetry "worker execution heartbeat missing" now)) >>= fun count =>
  match count with
  | none => pure ()
  | some count => if count ≤ maxInfrastructureRetries then requeue t none else pure ()

/-- `expire_task_if_timeout`, as far as it concerns the record; `none` when the task is gone. -/
def expireTaskIfTimeout (t : TaskId) : Call (Option Bool) :=
  op (.getMeta t) >>= fun m =>
  match m with
  | none => pure none
  | some m =>
    op (.clock t) >>= fun now =>
    if m.isTaskExpired now then
      op (.loadResult t) >>= fun result =>
      if result.decodedMainUrl ≠ "" then pure (some false)
      else
        let retryExpired := decide (0 < max 0 m.retryCount) && decide (m.status ∈ [.running, .submitted])
        op (.clock t) >>= fun now =>
        op (.write t (.markFailed
          (if retryExpired then "重试超过30分钟，生成失败" else "超时生成失败") now)) >>= fun written =>
        pure (written.map fun _ => true)
    else pure (some false)

/-- The loop of `_reconcile_pending_retries`, with the time read at its start. -/
def reconcilePendingAll (started : Int) : List (TaskId × Meta) → Call Unit
  | [] => pure ()
  | (t, m) :: rows =>
    if max 0 m.retryCount < 1 ∧ max 0 m.infrastructureRetryCount < 1 then
      reconcilePendingAll started rows
    else
      expireTaskIfTimeout t >>= fun expired =>
      match expired with
      | none => pure ()
      | some true => reconcilePendingAll started rows
      | some false =>
        if m.nextAttemptAt.any (fun next => decide (started < next)) then
          reconcilePendingAll started rows
        else
          requeue t m.nextAttemptAt >>= fun _ =>
          op (.clock t) >>= fun now =>
          op (.write t (.markRetryQueueVerified now)) >>= fun _ =>
          reconcilePendingAll started rows

/-- `_reconcile_pending_retries`; `batchSize` is `RESULT_POLL_BATCH_SIZE`. -/
def reconcilePendingRetries (batchSize : Nat) : Call Unit :=
  op (.clock none) >>= fun now =>
  op (.listPending batchSize) >>= reconcilePendingAll now

end Calls

/-! ### The calls that threads run -/

inductive QueueCall
  | enqueue (t : TaskId) (availableAt : Option Int)
  | requeue (t : TaskId) (availableAt : Option Int) (retrying : Option Bool)
  | claim (worker : WorkerId) (limits : Limits) (streak : Nat)
  | release (t : TaskId) (worker : WorkerId)
  | recover
  | reconcile
  | reconcilePendingRetries (batchSize : Nat)
  | heartbeat (leases : List (TaskId × WorkerId))
  /-- A retry operation of the store that requeues the task. -/
  | retry (t : TaskId) (o : StoreOp)
  | requeuePendingTask (t : TaskId)
  | restartSilent (t : TaskId)
  /-- A worker's last write on a record, and its release. -/
  | finish (t : TaskId) (o : StoreOp) (worker : WorkerId)
  /-- A write that leaves no record pending: a result, a failure, a cancellation. -/
  | write (t : TaskId) (o : StoreOp)
  | setPaused (paused : Bool)

def QueueCall.prog : QueueCall → Call Unit
  | .enqueue t availableAt => Queue.enqueue t availableAt >>= fun _ => pure ()
  | .requeue t availableAt retrying =>
    match retrying with
    | none => Queue.requeue t availableAt
    | some retrying => requeueAs retrying t availableAt
  | .claim worker limits streak => Queue.claim worker limits streak >>= fun _ => pure ()
  | .release t worker => Queue.release t worker
  | .recover => Queue.recover
  | .reconcile => Queue.reconcile
  | .reconcilePendingRetries batchSize => Queue.reconcilePendingRetries batchSize
  | .heartbeat leases => Queue.heartbeat leases
  | .retry t o =>
    match o.requeueLimit with
    | some limit => retryThenRequeue t o limit
    | none => pure ()
  | .requeuePendingTask t => Queue.requeuePendingTask t
  | .restartSilent t => Queue.restartSilent t
  | .finish t o worker => writeThenRelease t o worker
  | .write t o => if o.setsPending then pure () else op (.write t o) >>= fun _ => pure ()
  | .setPaused paused => op (.setPaused paused)

abbrev QueueConfig := Config QueueSig World

/-- One step of the system; the environment contributes the time. -/
def step (u : Chars) : Label QueueCall Int → QueueConfig → QueueConfig :=
  Config.step (handle u) QueueCall.prog

end FetchTask.Queue
