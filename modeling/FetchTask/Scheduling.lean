import FetchTask.Batch

/-!
The creation of tasks (`submit_task`, `_create_scheduled_batch_task` and
`_create_manual_retry_task` in `app/main.py`).

Each path creates a task that is initializing, charges it, prepares it, and makes it
runnable; where something raises, the path gives the charge back and deletes the task.
The tasks, the reservations and the batch jobs are in different stores, every access is
an operation of its own, and any operation may raise, before or after it has taken
effect. What only reads, or writes what neither the tasks nor the reservations depend
on, is an operation `outside`; whether it raises is up to the surroundings. The users
are those with a temporary token.
-/

namespace FetchTask.Scheduling

open Store Batch

abbrev TaskId := String

/-- `batch-job-{job_id}-{row_index:06d}`. -/
abbrev RowKey := String × Int

inductive TaskKey
  | row (key : RowKey)
  /-- The key of a request, on the route `tasks`. -/
  | request (ownerTokenHash key : String)
  deriving DecidableEq

structure Task where
  key : Option TaskKey
  status : Status
  deriving DecidableEq

inductive Reservation
  | reserved | refunded
  deriving DecidableEq

/-! ### Exceptions -/

inductive ErrorKind
  | valueError
  | quotaExceeded
  | httpException (statusCode : Nat)
  | other
  deriving DecidableEq

/-- `transient` is what `is_transient_postgres_error` says. -/
structure Raised where
  kind : ErrorKind
  detail : String := ""
  transient : Bool := false
  deriving DecidableEq

def BatchError.raised : BatchError → Raised
  | .valueError detail => ⟨.valueError, detail, false⟩
  | .keyError | .permissionError => ⟨.other, "", false⟩
  | .runtimeError detail => ⟨.other, detail, false⟩

def fileNotFound (t : TaskId) : Raised := ⟨.other, t, false⟩

/-! ### The shared state -/

structure World where
  jobs : Jobs
  tasks : Dict TaskId Task := .empty
  reservations : TaskId → Option Reservation := fun _ => none
  enabled : String → Bool := fun _ => true
  /-- The tasks that have become runnable, each with its key, as often as they have. -/
  opened : List (Option TaskKey × TaskId) := []
  /-- The identifiers that tasks have been given. -/
  created : List TaskId := []

/-- The stored task with a key. -/
def World.taskOf (w : World) (key : TaskKey) : Option (TaskId × Task) :=
  w.tasks.items.find? fun e => decide (e.2.key = some key)

def World.setTask (w : World) (t : TaskId) (task : Task) : World :=
  { w with tasks := w.tasks.set t task }

def World.addTask (w : World) (t : TaskId) (key : Option TaskKey) : World :=
  { w.setTask t ⟨key, .initializing⟩ with created := t :: w.created }

def World.setReservation (w : World) (t : TaskId) (reservation : Reservation) : World :=
  { w with reservations := Function.update w.reservations t (some reservation) }

/-- What `refund_temp_quota_hash` does to the reservation of a task. -/
def World.refund (w : World) (t : TaskId) : World :=
  if w.reservations t = some .reserved then w.setReservation t .refunded else w

/-! ### Operations -/

/-- The creation paths. -/
inductive Path
  | batch | submit | retry
  deriving DecidableEq

/-- The last three are those of `submit_task` between the creation of the task and its images. -/
inductive Outside
  | membership | parameters | admission | costs | active | reservation | images | activity | assets
  | submitCosts | submitActive | submitReservation

inductive ScheduleOp
  | outside (what : Outside)
  | context (ownerTokenHash : String)
  | isActive (jobId ownerTokenHash : String)
  | createTask
  | findOrCreate (key : TaskKey)
  | reserve (path : Path) (t : TaskId)
  /-- In a clean-up that has `left` attempts left; so is `delete`. -/
  | refund (left : Nat) (t : TaskId)
  | delete (left : Nat) (t : TaskId)
  /-- The deletion of the task that has been tried again. -/
  | deleteOriginal (t : TaskId)
  /-- `set_task_images`, `update_meta`. -/
  | updateTask (t : TaskId)
  | readStatus (t : TaskId)
  /-- The write of `finalize_task_creation`, and the queue. -/
  | writePending (t : TaskId)
  | listJobs (ownerTokenHash : Option String) (activeOnly : Bool) (limit : Nat)
  | mutate (jobId : String) (m : Mutation)
  | setEnabled (ownerTokenHash : String) (enabled : Bool)
  /-- `fail_initializing_tasks`, for one task; the answer is whether it has failed it. -/
  | failInitializing (t : TaskId)
  /-- The refund of a task that a starting process has failed. -/
  | refundFailed (t : TaskId)
  /-- A worker moves a task that is runnable or was; with its failure, the charge is refunded. -/
  | execute (t : TaskId) (status : Status)

structure Found where
  task : TaskId
  created : Bool
  status : Status

abbrev ScheduleOp.Answer : ScheduleOp → Type
  | .context _ | .isActive .. | .failInitializing _ => Bool
  | .createTask => TaskId
  | .findOrCreate _ => Found
  | .readStatus _ => Status
  | .listJobs .. => List Job
  | .mutate _ m => m.Result
  | _ => Unit

abbrev ScheduleSig : Sig := ⟨ScheduleOp, fun o => Except Raised o.Answer⟩

/-- An exception from outside the program, and whether the operation took effect. Only
`reserve_temp_quota` raises `QuotaExceeded`, and it does so itself. -/
structure Fault where
  raised : { r : Raised // r.kind ≠ .quotaExceeded }
  done : Bool

structure Env where
  chars : Chars
  now : Int
  /-- `secrets.token_hex(16)`. -/
  fresh : { t : TaskId // t ≠ "" }
  /-- The owner cannot pay. -/
  short : Bool := false
  fault : Option Fault := none

/-- An operation that nothing disturbs. -/
def perform (e : Env) : (o : ScheduleOp) → World → Except Raised o.Answer × World
  | .outside _, w => (.ok (), w)
  | .context ownerTokenHash, w => (.ok (w.enabled ownerTokenHash), w)
  | .isActive jobId ownerTokenHash, w =>
    (.ok ((w.jobs.get? jobId).any fun job => job.ownerTokenHash = ownerTokenHash &&
      (job.status = .queued || job.status = .running) && job.canceledAt.isNone), w)
  | .createTask, w =>
    match w.tasks.get? e.fresh.1 with
    | some _ => (.error ⟨.other, "could not allocate task id", false⟩, w)
    | none => (.ok e.fresh.1, w.addTask e.fresh.1 none)
  | .findOrCreate key, w =>
    match w.taskOf key with
    | some (t, task) => (.ok ⟨t, false, task.status⟩, w)
    | none =>
      match w.tasks.get? e.fresh.1 with
      | some _ => (.error ⟨.other, "could not allocate task id", false⟩, w)
      | none => (.ok ⟨e.fresh.1, true, .initializing⟩, w.addTask e.fresh.1 (some key))
  | .reserve _ t, w =>
    match w.reservations t with
    | some .reserved => (.ok (), w)
    | some .refunded => (.error ⟨.quotaExceeded, "task quota reservation is closed", false⟩, w)
    | none =>
      if e.short then (.error ⟨.quotaExceeded, "temporary token quota exhausted", false⟩, w)
      else (.ok (), w.setReservation t .reserved)
  | .refund _ t, w | .refundFailed t, w => (.ok (), w.refund t)
  | .delete _ t, w | .deleteOriginal t, w => (.ok (), { w with tasks := w.tasks.erase t })
  | .updateTask t, w =>
    match w.tasks.get? t with
    | none => (.error (fileNotFound t), w)
    | some _ => (.ok (), w)
  | .readStatus t, w =>
    match w.tasks.get? t with
    | none => (.error (fileNotFound t), w)
    | some task => (.ok task.status, w)
  | .writePending t, w =>
    match w.tasks.get? t with
    | none => (.error (fileNotFound t), w)
    | some task =>
      (.ok (), { w.setTask t { task with status := .pending } with
        opened := w.opened ++ [(task.key, t)] })
  | .listJobs ownerTokenHash activeOnly limit, w =>
    (.ok (listJobs w.jobs ownerTokenHash activeOnly limit), w)
  | .mutate jobId m, w =>
    match w.jobs.get? jobId with
    | none => (.error ⟨.other, jobId, false⟩, w)
    | some job =>
      match mutateJob e.now (m.closure e.chars e.now) job with
      | .error error => (.error (BatchError.raised error), w)
      | .ok (result, job') => (.ok result, { w with jobs := w.jobs.set jobId job' })
  | .setEnabled ownerTokenHash enabled, w =>
    (.ok (), { w with enabled := Function.update w.enabled ownerTokenHash enabled })
  | .failInitializing t, w =>
    match w.tasks.get? t with
    | none => (.ok false, w)
    | some task =>
      if task.status = .initializing then (.ok true, w.setTask t { task with status := .failed })
      else (.ok false, w)
  | .execute t status, w =>
    match w.tasks.get? t with
    | none => (.ok (), w)
    | some task =>
      if task.status ≠ .initializing ∧ task.status ≠ .failed ∧ status ≠ .initializing then
        let moved := w.setTask t { task with status }
        (.ok (), if status = .failed then moved.refund t else moved)
      else (.ok (), w)

def handle (e : Env) (o : ScheduleOp) (w : World) : Except Raised o.Answer × World :=
  match e.fault with
  | none => perform e o w
  | some fault => (.error fault.raised, if fault.done then (perform e o w).2 else w)

/-! ### Shared steps -/

abbrev Run (α : Type) := ExceptT Raised (Prog ScheduleSig) α

def op (o : ScheduleOp) : Run o.Answer := @Prog.perform ScheduleSig o

/-- `_storage_call`; the call is told how many attempts are left. -/
def storageCall {α : Type} (call : Nat → Run α) : Nat → Run α
  | 0 => call 0
  | left + 1 =>
    tryCatch (call (left + 1)) fun e => if e.transient then storageCall call left else throw e

def stopped : Raised := ⟨.httpException 409, "批量提交已停止", false⟩

/-- `_batch_job_is_active`, or the exception where it is not. -/
def requireActive (jobId ownerTokenHash : String) : Run Unit := do
  let active ← op (.isActive jobId ownerTokenHash)
  if active then pure () else throw stopped

def finalizeTaskCreation (t : TaskId) : Run Unit := do
  let status ← op (.readStatus t)
  if status = .initializing then op (.writePending t)
  else throw ⟨.other, "task is not initializing", false⟩

/-- The refund and the deletion of a clean-up, tried again `left` times each. -/
def undo (left : Nat) (t : TaskId) : Run Unit := do
  storageCall (fun left => op (.refund left t)) left
  storageCall (fun left => op (.delete left t)) left

/-! ### The row of a batch job -/

/-- From the costs to the transaction. -/
def chargeBatchTask (job : Job) (t : TaskId) : Run Unit := do
  storageCall (fun _ => op (.outside .costs)) 2
  storageCall (fun _ => op (.reserve .batch t)) 2
  requireActive job.id job.ownerTokenHash
  storageCall (fun _ => op (.outside .reservation)) 2

/-- From the images to `finalize_task_creation`. -/
def prepareBatchTask (job : Job) (t : TaskId) : Run Unit := do
  op (.outside .images)
  storageCall (fun _ => op (.updateTask t)) 2
  requireActive job.id job.ownerTokenHash
  storageCall (fun _ => finalizeTaskCreation t) 2

/-- Both `except` branches. -/
def discardBatchTask (t : TaskId) (error : Raised) : Run Unit := do
  undo 1 t
  throw error

def createScheduledBatchTask (claim : Claim) : Run TaskId := do
  let job := claim.job
  let enabled ← storageCall (fun _ => op (.context job.ownerTokenHash)) 2
  if enabled then
    storageCall (fun _ => op (.outside .membership)) 2
    requireActive job.id job.ownerTokenHash
    op (.outside .parameters)
    op (.outside .admission)
    let found ← storageCall (fun _ => op (.findOrCreate (.row (job.id, max 1 claim.row.index)))) 2
    if found.created = false ∧ found.status ≠ .initializing then pure found.task
    else
      tryCatch (chargeBatchTask job found.task) (discardBatchTask found.task)
      tryCatch (prepareBatchTask job found.task) (discardBatchTask found.task)
      tryCatch (op (.outside .activity)) fun _ => pure ()
      pure found.task
  else throw ⟨.valueError, "用户账号不可用", false⟩

/-! ### A request -/

def busy : Raised := ⟨.httpException 503, "任务创建暂时繁忙，请稍后重试", false⟩

/-- The status that an exception of the first `try` is answered with. -/
def Raised.answered (error : Raised) : Raised :=
  match error.kind with
  | .httpException _ => error
  | .valueError => { error with kind := .httpException 409 }
  | .quotaExceeded => { error with kind := .httpException 429 }
  | .other => busy

/-- `find_or_create_task` with a key, and `create_task` without. -/
def obtainTask : Option TaskKey → Run Found
  | some key => storageCall (fun _ => op (.findOrCreate key)) 2
  | none => do
    let t ← op .createTask
    pure ⟨t, true, .initializing⟩

/-- From the costs to the transaction. -/
def chargeSubmittedTask (t : TaskId) : Run Unit := do
  storageCall (fun _ => op (.outside .submitCosts)) 2
  storageCall (fun _ => op (.reserve .submit t)) 2
  op (.outside .submitActive)
  storageCall (fun _ => op (.outside .submitReservation)) 2

/-- What the `except` branches of the first `try` undo, once there is a task. -/
def undoUncharged (t : TaskId) : ErrorKind → Run Unit
  | .httpException _ => undo 1 t
  | .valueError => pure ()
  | .quotaExceeded => op (.delete 0 t)
  | .other => undo 0 t

def discardUncharged (t : TaskId) (error : Raised) : Run Unit := do
  undoUncharged t error.kind
  throw error.answered

/-- From the images to `finalize_task_creation`. -/
def prepareSubmittedTask (t : TaskId) : Run Unit := do
  op (.outside .images)
  storageCall (fun _ => op (.updateTask t)) 2
  op (.outside .active)
  storageCall (fun _ => finalizeTaskCreation t) 2

/-- Both `except` branches of the second `try`. -/
def discardCharged (t : TaskId) (error : Raised) : Run Unit := do
  undo 0 t
  throw (match error.kind with
    | .httpException _ => error
    | _ => busy)

def submitTask (key : Option TaskKey) : Run TaskId := do
  op (.outside .admission)
  let found ← tryCatch (obtainTask key) fun error => throw error.answered
  if found.created = false ∧ found.status ≠ .initializing then pure found.task
  else
    tryCatch (chargeSubmittedTask found.task) (discardUncharged found.task)
    tryCatch (prepareSubmittedTask found.task) (discardCharged found.task)
    tryCatch (op (.outside .activity)) fun _ => pure ()
    pure found.task

/-! ### A retry by hand -/

/-- What follows the reservation, up to the deletion of the original. -/
def prepareRetry (original : TaskId) (status : Status) (t : TaskId) : Run Unit := do
  op (.outside .reservation)
  op (.outside .images)
  op (.updateTask t)
  finalizeTaskCreation t
  if status = .failed then op (.deleteOriginal original) else pure ()

/-- What both `except` branches undo; `reserved` is whether the reservation has returned. -/
def undoRetry (reserved : Bool) (t : TaskId) (kind : ErrorKind) : Run Unit :=
  if reserved = true ∧ kind ≠ .quotaExceeded then undo 0 t else op (.delete 0 t)

def discardRetry (reserved : Bool) (t : TaskId) (error : Raised) : Run Unit := do
  undoRetry reserved t error.kind
  throw (if error.kind = .quotaExceeded then { error with kind := .httpException 429 } else error)

def createManualRetryTask (original : TaskId) (status : Status) : Run TaskId := do
  let t ← op .createTask
  tryCatch (do
    op (.outside .costs)
    op (.reserve .retry t))
    (discardRetry false t)
  tryCatch (prepareRetry original status t) (discardRetry true t)
  pure t

def retryCompletedTask (original : TaskId) : Run TaskId := do
  let status ← op (.readStatus original)
  if status = .success ∨ status = .failed then
    op (.outside .admission)
    createManualRetryTask original status
  else throw ⟨.httpException 409, "仅成功或失败任务可以重新生成", false⟩

end FetchTask.Scheduling
