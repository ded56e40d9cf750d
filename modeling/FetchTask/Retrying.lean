import FetchTask.Scheduling

/-!
Retries by hand (`_create_manual_retry_task` in `app/main.py`, and the three requests
that call it).

The creation paths see the images of a task as a whole; here they are files. A retry
lists the files of the task that it retries, copies them one by one, and at the end
deletes that task; a deletion takes the row of the task and then each of its files.
Any other request may read or delete between any two of these operations. Every image
is saved as `f"{index:02d}{suffix}"`, so a file name is the two together, and the list
of the images of a task is in the order of the names. Prompts, prices, the names of the
uploads and the answers of the requests are left out.
-/

namespace FetchTask.Retrying

open Store Scheduling

structure ImageFile where
  index : Nat
  suffix : String
  deriving DecidableEq

structure Task where
  status : Status
  ownerTokenHash : String := ""
  hiddenForAdmin : Bool := false
  hiddenForClient : Bool := false
  imageCount : Nat := 0
  deriving DecidableEq

/-- What is stored. -/
structure Storage where
  tasks : TaskId → Option Task := fun _ => none
  images : TaskId → List ImageFile := fun _ => []
  reservations : TaskId → Option Reservation := fun _ => none

/-- A task when it became pending. -/
structure Opened where
  task : TaskId
  imageCount : Nat
  images : List ImageFile
  deriving DecidableEq

structure World extends Storage where
  /-- The tasks that retries have created, each after the task that it replaces. -/
  created : List (TaskId × TaskId) := []
  opened : List Opened := []

namespace World

variable (w : World) (t : TaskId)

def setTask (task : Option Task) : World := { w with tasks := Function.update w.tasks t task }

def setImages (files : List ImageFile) : World :=
  { w with images := Function.update w.images t files }

def setReservation (reservation : Reservation) : World :=
  { w with reservations := Function.update w.reservations t (some reservation) }

/-- What `refund_temp_quota_hash` does to the reservation of a task. -/
def refund : World :=
  if w.reservations t = some .reserved then w.setReservation t .refunded else w

/-- A file is written, over the old one if there is one. -/
def addImage (file : ImageFile) : World :=
  if file ∈ w.images t then w else w.setImages t (w.images t ++ [file])

end World

/-! ### Operations -/

/-- What only reads, or writes what the tasks do not depend on. -/
inductive Outside
  | rateLimit | taskList | ownerAccess | parameters | costs | ledger | batchJob

/-- Why a task is deleted. -/
inductive Deletion
  | original
  | replacement
  deriving DecidableEq

/-- What `rmtree` finds under a task. -/
inductive Entry
  | metaFile
  | image (file : ImageFile)
  deriving DecidableEq

inductive RetryOp
  | outside (what : Outside)
  | readMeta (t : TaskId)
  | createTask (original : TaskId) (ownerTokenHash : String)
  | reserve (t : TaskId)
  | listImages (t : TaskId)
  | copyImage (source : TaskId) (file : ImageFile) (t : TaskId) (index : Nat)
  | setTaskImages (t : TaskId) (imageCount : Nat)
  | updateMeta (t : TaskId)
  | finalize (t : TaskId)
  | refund (t : TaskId)
  /-- The first part of `delete_task`; the others are its `rmtree`. -/
  | deleteRow (why : Deletion) (t : TaskId)
  | listEntries (why : Deletion) (t : TaskId)
  | unlink (why : Deletion) (t : TaskId) (entry : Entry)

abbrev RetryOp.Answer : RetryOp → Type
  | .readMeta _ => Task
  | .createTask .. => TaskId
  | .listImages _ => List ImageFile
  | .copyImage .. => ImageFile
  | .listEntries .. => List Entry
  | _ => Unit

abbrev RetrySig : Sig := ⟨RetryOp, fun o => Except Raised o.Answer⟩

structure Env where
  chars : Chars
  /-- `secrets.token_hex(16)`. -/
  fresh : TaskId
  /-- The owner cannot pay. -/
  short : Bool := false
  /-- The directory of a task lists its `meta.json` before its images. -/
  metaFirst : Bool := false
  fault : Option Fault := none

/-- `f"{index:02d}{source.suffix.lower()}"`. -/
def copyName (u : Chars) (index : Nat) (source : ImageFile) : ImageFile :=
  ⟨index, u.lower source.suffix⟩

/-- An operation that nothing disturbs. -/
def perform (b : Backend) (e : Env) : (o : RetryOp) → World → Except Raised o.Answer × World
  | .outside _, w => (.ok (), w)
  | .readMeta t, w =>
    match w.tasks t with
    | none => (.error (fileNotFound t), w)
    | some task => (.ok task, w)
  | .createTask original ownerTokenHash, w =>
    match w.tasks e.fresh with
    | some _ => (.error ⟨.other, "could not allocate task id", false⟩, w)
    | none =>
      (.ok e.fresh, { w.setTask e.fresh (some { status := .initializing, ownerTokenHash }) with
        created := w.created ++ [(original, e.fresh)] })
  | .reserve t, w =>
    match w.reservations t with
    | some .reserved => (.ok (), w)
    | some .refunded => (.error ⟨.quotaExceeded, "task quota reservation is closed", false⟩, w)
    | none =>
      if e.short then (.error ⟨.quotaExceeded, "temporary token quota exhausted", false⟩, w)
      else (.ok (), w.setReservation t .reserved)
  | .listImages t, w => (.ok (w.images t), w)
  | .copyImage source file t index, w =>
    if file ∈ w.images source then
      let target := copyName e.chars index file
      (.ok target, w.addImage t target)
    else (.error (fileNotFound source), w)
  | .setTaskImages t imageCount, w =>
    match w.tasks t with
    | none => (.error (fileNotFound t), w)
    | some task => (.ok (), w.setTask t (some { task with imageCount }))
  | .updateMeta t, w =>
    match w.tasks t with
    | none => (.error (fileNotFound t), w)
    | some _ => (.ok (), w)
  | .finalize t, w =>
    match w.tasks t with
    | none => (.error (fileNotFound t), w)
    | some task =>
      if task.status = .initializing then
        (.ok (), { w.setTask t (some { task with status := .pending }) with
          opened := w.opened ++ [⟨t, task.imageCount, w.images t⟩] })
      else (.error ⟨.other, "task is not initializing", false⟩, w)
  | .refund t, w => (.ok (), w.refund t)
  | .deleteRow _ t, w =>
    match b with
    | .postgres => (.ok (), w.setTask t none)
    | .jsonFile => (.ok (), w)
  | .listEntries _ t, w =>
    let files := (w.images t).map Entry.image
    match b, w.tasks t with
    | .jsonFile, some _ => (.ok (if e.metaFirst then .metaFile :: files else files ++ [.metaFile]), w)
    | _, _ => (.ok files, w)
  | .unlink _ t .metaFile, w => (.ok (), w.setTask t none)
  | .unlink _ t (.image file), w => (.ok (), w.setImages t ((w.images t).erase file))

def handle (b : Backend) (e : Env) (o : RetryOp) (w : World) : Except Raised o.Answer × World :=
  match e.fault with
  | none => perform b e o w
  | some fault => (.error fault.raised, if fault.done then (perform b e o w).2 else w)

/-! ### Shared steps -/

abbrev Run (α : Type) := ExceptT Raised (Prog RetrySig) α

def op (o : RetryOp) : Run o.Answer := @Prog.perform RetrySig o

inductive Access
  | admin
  | temp (tokenHash : String)
  deriving DecidableEq

def Access.isTemp : Access → Bool
  | .admin => false
  | .temp _ => true

def notFound : Raised := ⟨.httpException 404, "task not found", false⟩

/-- The files of a listing are removed. -/
def unlinkAll (why : Deletion) (t : TaskId) : List Entry → Run Unit
  | [] => pure ()
  | entry :: entries => do
    op (.unlink why t entry)
    unlinkAll why t entries

def deleteTask (why : Deletion) (t : TaskId) : Run Unit := do
  op (.deleteRow why t)
  let entries ← op (.listEntries why t)
  unlinkAll why t entries

/-- `_retry_access_for_owner`. -/
def retryAccessForOwner (ownerTokenHash : String) (fallback : Access) : Run Access :=
  if ownerTokenHash = "" then pure fallback
  else do
    op (.outside .ownerAccess)
    pure (.temp ownerTokenHash)

/-! ### The retry -/

/-- The copies, from an index on. -/
def copyImages (taskId t : TaskId) : Nat → List ImageFile → Run (List ImageFile)
  | _, [] => pure []
  | index, source :: sources => do
    let target ← op (.copyImage taskId source t index)
    let targets ← copyImages taskId t (index + 1) sources
    pure (target :: targets)

/-- Up to the reservation. -/
def chargeRetry (access : Access) (t : TaskId) : Run Unit :=
  if access.isTemp then do
    op (.outside .costs)
    op (.reserve t)
  else pure ()

/-- The transaction of the reservation. -/
def recordRetry (access : Access) : Run Unit :=
  if access.isTemp then op (.outside .ledger) else pure ()

/-- What follows the reservation, up to the deletion of the original. -/
def prepareRetry (taskId : TaskId) (original : Task) (access : Access) (t : TaskId) :
    Run Unit := do
  recordRetry access
  let sourceImages ← op (.listImages taskId)
  let copiedImages ← copyImages taskId t 1 sourceImages
  op (.setTaskImages t copiedImages.length)
  op (.updateMeta t)
  op (.finalize t)
  if original.status = .failed then deleteTask .original taskId else pure ()

/-- What both `except` branches undo; `reserved` is whether the reservation has returned. -/
def undoRetry (reserved : Bool) (t : TaskId) (kind : ErrorKind) : Run Unit :=
  if reserved = true ∧ kind ≠ .quotaExceeded then do
    op (.refund t)
    deleteTask .replacement t
  else deleteTask .replacement t

def discardRetry (reserved : Bool) (t : TaskId) (error : Raised) : Run Unit := do
  undoRetry reserved t error.kind
  throw (if error.kind = .quotaExceeded then { error with kind := .httpException 429 } else error)

def createManualRetryTask (taskId : TaskId) (original : Task) (retryAccess : Access) :
    Run TaskId := do
  op (.outside .parameters)
  let t ← op (.createTask taskId original.ownerTokenHash)
  tryCatch (chargeRetry retryAccess t) (discardRetry false t)
  tryCatch (prepareRetry taskId original retryAccess t) (discardRetry retryAccess.isTemp t)
  pure t

/-! ### The requests -/

/-- The task is another user's, or hidden from the audience. -/
def Access.misses (access : Access) (original : Task) : Bool :=
  match access with
  | .admin => original.hiddenForAdmin
  | .temp tokenHash => original.ownerTokenHash ≠ tokenHash || original.hiddenForClient

def retryCompletedTask (access : Access) (t : TaskId) : Run Unit := do
  let original ← op (.readMeta t)
  if access.misses original then throw notFound
  else if original.status = .success ∨ original.status = .failed then
    op (.outside .rateLimit)
    let retryAccess ← retryAccessForOwner original.ownerTokenHash access
    let _ ← createManualRetryTask t original retryAccess
    pure ()
  else throw ⟨.httpException 409, "仅成功或失败任务可以重新生成", false⟩

/-- One task of `bulk_retry_failed_tasks`. -/
def bulkRetryTask (t : TaskId) : Run Unit := do
  let original ← op (.readMeta t)
  if original.hiddenForAdmin then throw notFound
  else if original.status = .failed then
    let retryAccess ← retryAccessForOwner original.ownerTokenHash .admin
    let _ ← createManualRetryTask t original retryAccess
    pure ()
  else pure ()

/-- One row of `retry_failed_persistent_batch_rows`. -/
def batchRetryTask (tokenHash : String) (t : TaskId) : Run Unit := do
  let original ← op (.readMeta t)
  if original.ownerTokenHash ≠ tokenHash then throw notFound
  else if original.status = .failed then
    let _ ← createManualRetryTask t original (.temp tokenHash)
    pure ()
  else pure ()

/-- Every target has a `try` of its own, whose exception goes into the answer. -/
def tryEach (retry : TaskId → Run Unit) : List TaskId → Run Unit
  | [] => pure ()
  | t :: ts => do
    tryCatch (retry t) fun _ => pure ()
    tryEach retry ts

/-- The targets of a request over several tasks are what it has selected, in its order. -/
inductive RetryCall
  | retryCompletedTask (access : Access) (t : TaskId)
  | bulkRetryFailedTasks (targets : List TaskId)
  | retryFailedPersistentBatchRows (tokenHash : String) (targets : List TaskId)

def RetryCall.run : RetryCall → Run Unit
  | .retryCompletedTask access t => Retrying.retryCompletedTask access t
  | .bulkRetryFailedTasks targets => do
    op (.outside .rateLimit)
    op (.outside .taskList)
    tryEach bulkRetryTask targets
  | .retryFailedPersistentBatchRows tokenHash targets => do
    op (.outside .rateLimit)
    tryEach (batchRetryTask tokenHash) targets
    op (.outside .batchJob)

def RetryCall.prog (call : RetryCall) : Prog RetrySig Unit := do
  let _ ← call.run.run
  return ()

abbrev RetryConfig := Config RetrySig World

def step (b : Backend) : Label RetryCall Env → RetryConfig → RetryConfig :=
  Config.step (handle b) RetryCall.prog

/-- No request in progress yet. -/
def start (before : Storage) : RetryConfig where
  shared := { toStorage := before }
  threads _ := .ret ()

end FetchTask.Retrying
