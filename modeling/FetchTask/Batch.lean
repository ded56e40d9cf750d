import FetchTask.Lib.Dict
import FetchTask.Lib.Prog
import FetchTask.Runtime
import FetchTask.Store.Meta
import Mathlib.Data.List.Sort

/-!
Batch jobs and their rows (`app/batch_jobs.py`).

A job is one document with its rows, and every change goes through
`_mutate_job`: a closure changes the document under the lock of the store, and
the rows and the job are stamped with a new revision where they have changed.
A closure has the name of its operation here; a call of the program lists jobs
and mutates them one at a time. A time is in microseconds, and all readings of
the clock in one closure are one argument. The empty text that stands for a
missing time is `none`; a key that a document may lack is an option more.
-/

namespace FetchTask.Batch

open Store

/-! ### Documents -/

inductive RowStatus
  | queued | awaitingAssets | creating | running | completed | failed | canceled
  deriving DecidableEq

/-- `TERMINAL_ROW_STATUSES`. -/
def RowStatus.isTerminal : RowStatus → Bool
  | .completed | .failed | .canceled => true
  | _ => false

inductive JobStatus
  | queued | running | canceling | completed | canceled
  deriving DecidableEq

/-- `TERMINAL_JOB_STATUSES`. -/
def JobStatus.isTerminal : JobStatus → Bool
  | .completed | .canceled => true
  | _ => false

/-- `ACTIVE_JOB_STATUSES`. -/
def JobStatus.isActive (s : JobStatus) : Bool := !s.isTerminal

/-- A time, or the empty text. -/
abbrev Stamp := Option Int

/-- What `_mutate_job` compares of a row. -/
structure RowData where
  index : Int
  clientIndex : Int
  sheetRow : Int
  prompt : String
  imageFiles : List String
  imageNames : List String
  imageCount : Int
  assetsReady : Option Bool := none
  status : RowStatus
  taskId : String
  sourceTaskId : Option String := none
  error : String := ""
  videoUrl : String := ""
  createdAt : Stamp := none
  finishedAt : Stamp := none
  claimedAt : Option Stamp := none
  nextAttemptAt : Option Stamp := none
  assetRequestedAt : Option Stamp := none
  assetsUploadedAt : Option Stamp := none
  createAttempts : Option Int := none
  deriving DecidableEq

structure Row extends RowData where
  revision : Int
  updatedAt : Int
  deriving DecidableEq

/-- What `_mutate_job` compares of a job besides its rows. -/
structure JobData where
  id : String
  ownerTokenHash : String
  status : JobStatus
  ratio : String
  duration : Int
  platform : String
  model : String
  concurrency : Int
  referenceId : String
  referenceCount : Int
  referenceBatchId : String
  referenceIsRealPerson : Bool
  retryOfBatchId : Option String := none
  createdAt : Int
  canceledAt : Stamp := none
  finishedAt : Option Stamp := none
  deriving DecidableEq

structure Job extends JobData where
  rows : List Row
  revision : Int
  updatedAt : Int
  deriving DecidableEq

inductive BatchError
  | valueError (detail : String)
  | keyError
  | permissionError
  | runtimeError (detail : String)

/-! ### Creation -/

/-- A row of the request; a missing number is 0. -/
structure RowSpec where
  clientIndex : Int := 0
  sheetRow : Int := 0
  prompt : String := ""
  imageFiles : List String := []
  imageNames : List String := []
  imageCount : Int := 0

structure JobSpec where
  rows : List RowSpec
  ratio : String
  concurrency : Int
  platform : String := "dola"
  model : String := "Seedance 2.0"
  duration : Int := 15
  referenceId : String := ""
  referenceCount : Int := 0
  referenceBatchId : String := ""
  referenceIsRealPerson : Bool := false
  jobId : String := ""

section Creation

variable (u : Chars) (now : Int)

def nonempty (names : List String) : List String := names.filter (· ≠ "")

/-- `[str(name).strip()[:180] for name in names if str(name).strip()]`. -/
def imageNamesOf (names : List String) : List String :=
  (names.filter fun name => u.strip name ≠ "").map fun name => takeText 180 (u.strip name)

def RowSpec.row (index : Int) (spec : RowSpec) : Row where
  index
  clientIndex := max 0 (orDefault spec.clientIndex (index - 1))
  sheetRow := max 1 (orDefault spec.sheetRow index)
  prompt := takeText 4000 (u.strip spec.prompt)
  imageFiles := nonempty spec.imageFiles
  imageNames := imageNamesOf u spec.imageNames
  imageCount := max 0 spec.imageCount
  assetsReady := some (!spec.imageFiles.isEmpty || decide (max 0 spec.imageCount = 0))
  status := .queued
  taskId := ""
  revision := 1
  updatedAt := now

/-- `enumerate(rows, start=1)`. -/
def enumerate {α β : Type} (f : Int → α → β) : Int → List α → List β
  | _, [] => []
  | index, a :: as => f index a :: enumerate f (index + 1) as

/-- The characters of a job id. -/
def isHexDigit (c : Char) : Bool := c ∈ "0123456789abcdef".toList

/-- `create_job`, up to the insertion of the document; `fresh` is `token_hex(16)`. -/
def createJob (fresh : String) (ownerTokenHash : String) (spec : JobSpec) :
    Except BatchError Job :=
  let jobId := textOr (u.lower (u.strip spec.jobId)) fresh
  if jobId.length ≠ 32 ∨ jobId.toList.any (fun c => !isHexDigit c) = true then
    .error (.valueError "invalid batch job id")
  else
    .ok
      { id := jobId
        ownerTokenHash
        status := .queued
        ratio := spec.ratio
        duration := max 1 spec.duration
        platform := spec.platform
        model := spec.model
        concurrency := max 1 spec.concurrency
        referenceId := spec.referenceId
        referenceCount := max 0 spec.referenceCount
        referenceBatchId := takeText 100 spec.referenceBatchId
        referenceIsRealPerson := spec.referenceIsRealPerson
        createdAt := now
        rows := enumerate (RowSpec.row u now) 1 spec.rows
        revision := 1
        updatedAt := now }

/-- One of the retried rows, with the id of its new task. -/
structure Retry where
  source : Row
  retryId : String

def Retry.row (index : Int) (item : Retry) : Row where
  index
  clientIndex := max 0 (orDefault item.source.clientIndex (index - 1))
  sheetRow := max 1 (orDefault item.source.sheetRow index)
  prompt := takeText 4000 (u.strip item.source.prompt)
  imageFiles := []
  imageNames := imageNamesOf u item.source.imageNames
  imageCount := max 0 item.source.imageCount
  status := .running
  taskId := item.retryId
  sourceTaskId := some item.source.taskId
  createdAt := some now
  revision := 1
  updatedAt := now

/-- The rows of a retry job: items without a task are skipped, but counted. -/
def retryRows (retries : List Retry) : List Row :=
  (enumerate (Retry.row u now) 1 retries).filter fun row => row.taskId ≠ ""

/-- `create_retry_job`, up to the insertion of the document. -/
def createRetryJob (jobId : String) (ownerTokenHash : String) (sourceJob : Job)
    (retries : List Retry) : Except BatchError Job :=
  let rows := retryRows u now retries
  if rows = [] then .error (.valueError "retry batch has no tasks")
  else
    .ok
      { id := jobId
        ownerTokenHash
        status := .running
        ratio := textOr sourceJob.ratio "9:16"
        duration := orDefault sourceJob.duration 15
        platform := textOr sourceJob.platform "dola"
        model := textOr sourceJob.model "Seedance 2.0"
        concurrency := max 1 (orDefault sourceJob.concurrency 1)
        referenceId := ""
        referenceCount := 0
        referenceBatchId := ""
        referenceIsRealPerson := sourceJob.referenceIsRealPerson
        retryOfBatchId := some sourceJob.id
        createdAt := now
        rows
        revision := 1
        updatedAt := now }

end Creation

/-! ### Mutations -/

abbrev Mutator (α : Type) := Job → Except BatchError (α × Job)

/-- The row with this index before the mutation; the last one counts. -/
def previousRow (before : Job) (index : Int) : Option Row :=
  before.rows.reverse.find? (·.index = index)

def rowChanged (before : Job) (row : Row) : Bool :=
  (previousRow before row.index).map Row.toRowData ≠ some row.toRowData

/-- What `_mutate_job` does after the closure. -/
def stampChanges (now : Int) (before job : Job) : Job :=
  if job.rows.any (rowChanged before) = true ∨ job.toJobData ≠ before.toJobData then
    let revision := max 0 before.revision + 1
    { job with
      revision
      updatedAt := now
      rows := job.rows.map fun row =>
        if rowChanged before row then { row with revision, updatedAt := now } else row }
  else job

/-- `_mutate_job`; a closure that raises changes nothing. -/
def mutateJob {α : Type} (now : Int) (mutator : Mutator α) : Mutator α := fun before =>
  match mutator before with
  | .error e => .error e
  | .ok (result, job) => .ok (result, stampChanges now before job)

/-- The first row that satisfies `p` is replaced. -/
def updateFirst (p : Row → Bool) (f : Row → Row) : List Row → List Row
  | [] => []
  | row :: rows => if p row then f row :: rows else row :: updateFirst p f rows

/-- `_finish_job_if_terminal`. -/
def finishJobIfTerminal (now : Int) (job : Job) : Job :=
  if job.rows ≠ [] ∧ job.rows.all (·.status.isTerminal) = true then
    { job with
      status :=
        if job.canceledAt.isSome = true ∧ job.rows.all (·.status = .canceled) = true then .canceled
        else .completed
      finishedAt := some (some now) }
  else if job.rows.any (fun row => row.status = .creating || row.status = .running) then
    { job with status := .running }
  else { job with status := .queued }

/-- The rows that a cancellation takes. -/
def cancelsRow (row : Row) : Bool :=
  (row.status = .queued || row.status = .awaitingAssets || row.status = .creating) &&
    row.taskId = ""

def cancelRow (now : Int) (reason : String) (row : Row) : Row :=
  if cancelsRow row then
    { row with
      status := .canceled
      error := takeText 500 (textOr reason "用户停止批量生成")
      finishedAt := some now }
  else row

def cancelJob (now : Int) (ownerTokenHash reason : String) : Mutator Unit := fun job =>
  if job.ownerTokenHash ≠ ownerTokenHash then .error .permissionError
  else
    let rows := job.rows.map (cancelRow now reason)
    .ok ((), { job with
      canceledAt := some now
      rows
      status := if rows.any (·.status = .running) then .canceling else .canceled })

/-- A row whose creation was claimed at or before the cutoff, or at no time that can be read. -/
def isStale (cutoff : Int) (row : Row) : Bool :=
  row.status = .creating && row.taskId = "" && (row.claimedAt.getD none).all (· ≤ cutoff)

def recoverRow (cutoff : Int) (row : Row) : Row :=
  if isStale cutoff row then { row with status := .queued, claimedAt := some none, error := "" }
  else row

def recoverStaleCreatingRows (cutoff : Int) : Mutator Nat := fun job =>
  .ok (job.rows.countP (isStale cutoff), { job with rows := job.rows.map (recoverRow cutoff) })

def isDue (now : Int) (row : Row) : Bool :=
  row.status = .queued && (row.nextAttemptAt.getD none).all (· ≤ now)

/-- A row that has reference images to come. -/
def lacksAssets (row : Row) : Bool :=
  decide (0 < row.imageCount) && !(row.assetsReady.getD false || !row.imageFiles.isEmpty)

structure Claim where
  job : Job
  row : Row
  awaitingAssets : Bool

def claimRow (now : Int) (row : Row) : Row :=
  { row with
    status := .creating, claimedAt := some (some now), nextAttemptAt := some none, error := "" }

def requestAssets (now : Int) (row : Row) : Row :=
  { row with
    status := .awaitingAssets, assetRequestedAt := some (some now), claimedAt := some none
    error := "" }

/-- The first due row that is complete is claimed; if there is none, the first due row is asked
for its reference images. -/
def claimNextRow (now : Int) : Mutator (Option Claim) := fun job =>
  if (job.status ≠ .queued ∧ job.status ≠ .running) ∨ job.canceledAt.isSome = true then
    .ok (none, job)
  else
    match job.rows.find? fun row => isDue now row && !lacksAssets row with
    | some row =>
      let rows := updateFirst (fun row => isDue now row && !lacksAssets row) (claimRow now) job.rows
      let job := { job with rows, status := .running }
      .ok (some ⟨job, claimRow now row, false⟩, job)
    | none =>
      match job.rows.find? fun row => isDue now row && lacksAssets row with
      | some row =>
        let rows :=
          updateFirst (fun row => isDue now row && lacksAssets row) (requestAssets now) job.rows
        let job := { job with rows, status := .running }
        .ok (some ⟨job, requestAssets now row, true⟩, job)
      | none => .ok (none, job)

def readyRow (u : Chars) (now : Int) (imageFiles imageNames : List String) (row : Row) : Row :=
  { row with
    status := .queued
    imageFiles
    imageNames := imageNames.map fun name => takeText 180 (u.strip name)
    assetsReady := some true
    assetRequestedAt := some none
    assetsUploadedAt := some (some now)
    error := "" }

def markRowAssetsReady (u : Chars) (now : Int) (ownerTokenHash : String) (rowIndex : Int)
    (imageFiles imageNames : List String) : Mutator Row := fun job =>
  if job.ownerTokenHash ≠ ownerTokenHash then .error .permissionError
  else if job.canceledAt.isSome = true then .error (.runtimeError "batch job is canceled")
  else
    match job.rows.find? (·.index = rowIndex) with
    | none => .error .keyError
    | some row =>
      if row.taskId ≠ "" then .error .keyError
      else if max 0 row.imageCount ≤ 0 ∨ (imageFiles.length : Int) ≠ max 0 row.imageCount ∨
          (imageNames.length : Int) ≠ max 0 row.imageCount then
        .error (.valueError "batch row reference image count mismatch")
      else
        .ok (readyRow u now imageFiles imageNames row,
          { job with
            rows := updateFirst (·.index = rowIndex) (readyRow u now imageFiles imageNames) job.rows
            status := .running })

def attachTask (now : Int) (taskId : String) (row : Row) : Row :=
  { row with
    status := .running, taskId, createdAt := some now, claimedAt := some none, error := "" }

def finishRowCreation (now : Int) (rowIndex : Int) (taskId : String) : Mutator Unit := fun job =>
  match job.rows.find? (·.index = rowIndex) with
  | none => .error .keyError
  | some _ =>
    .ok ((), { job with
      rows := updateFirst (·.index = rowIndex) (attachTask now taskId) job.rows
      status := if job.canceledAt.isSome = true then .canceling else .running })

/-- `min(30, 2 ** attempts)` seconds. -/
def retryDelay (attempts : Int) : Int := min 30 (2 ^ attempts.toNat) * second

def failRow (now : Int) (error : String) (retry : Bool) (row : Row) : Row :=
  let attempts := max 0 (row.createAttempts.getD 0) + 1
  if retry = true ∧ attempts < 5 then
    { row with
      createAttempts := some attempts, status := .queued, taskId := "", claimedAt := some none
      nextAttemptAt := some (some (now + retryDelay attempts)), error := takeText 500 error }
  else
    { row with
      createAttempts := some attempts, status := .failed, taskId := "", claimedAt := some none
      error := takeText 500 error, finishedAt := some now }

def failOrRequeueRow (now : Int) (rowIndex : Int) (error : String) (retry : Bool) : Mutator Unit :=
  fun job =>
  match job.rows.find? (·.index = rowIndex) with
  | none => .ok ((), job)
  | some row =>
    if row.status.isTerminal = true then .ok ((), job)
    else
      .ok ((), finishJobIfTerminal now
        { job with
          rows := updateFirst (·.index = rowIndex)
            (failRow now error (retry && job.canceledAt.isNone)) job.rows })

/-- What the callers of `reconcile_job` pass on for a task. -/
structure TaskPayload where
  status : Status
  error : String
  videoUrl : String

abbrev TaskPayloads := String → Option TaskPayload

/-- A row that the payloads say something about. -/
def reconcilesRow (payloads : TaskPayloads) (row : Row) : Option TaskPayload :=
  if row.taskId = "" ∨ row.status.isTerminal = true then none else payloads row.taskId

def reconcileRow (now : Int) (payloads : TaskPayloads) (row : Row) : Row :=
  match reconcilesRow payloads row with
  | none => row
  | some task =>
    if task.videoUrl ≠ "" then
      { row with
        status := .completed, videoUrl := task.videoUrl, error := "", finishedAt := some now }
    else if task.status = .failed then
      { row with
        status := .failed, error := takeText 500 (textOr task.error "生成失败")
        finishedAt := some now }
    else if task.status = .canceled then
      { row with
        status := .canceled, error := takeText 500 (textOr task.error "用户取消生成")
        finishedAt := some now }
    else { row with status := .running }

def reconcileJob (now : Int) (payloads : TaskPayloads) : Mutator Unit := fun job =>
  .ok ((), finishJobIfTerminal now { job with rows := job.rows.map (reconcileRow now payloads) })

/-- One use of `_mutate_job`. -/
inductive Mutation
  | cancelJob (ownerTokenHash reason : String)
  | recoverStaleCreatingRows (cutoff : Int)
  | claimNextRow
  | markRowAssetsReady (ownerTokenHash : String) (rowIndex : Int)
      (imageFiles imageNames : List String)
  | finishRowCreation (rowIndex : Int) (taskId : String)
  | failOrRequeueRow (rowIndex : Int) (error : String) (retry : Bool)
  | reconcileJob (payloads : TaskPayloads)

abbrev Mutation.Result : Mutation → Type
  | .recoverStaleCreatingRows _ => Nat
  | .claimNextRow => Option Claim
  | .markRowAssetsReady .. => Row
  | _ => Unit

def Mutation.closure (u : Chars) (now : Int) : (m : Mutation) → Mutator m.Result
  | .cancelJob ownerTokenHash reason => Batch.cancelJob now ownerTokenHash reason
  | .recoverStaleCreatingRows cutoff => Batch.recoverStaleCreatingRows cutoff
  | .claimNextRow => Batch.claimNextRow now
  | .markRowAssetsReady ownerTokenHash rowIndex imageFiles imageNames =>
    Batch.markRowAssetsReady u now ownerTokenHash rowIndex imageFiles imageNames
  | .finishRowCreation rowIndex taskId => Batch.finishRowCreation now rowIndex taskId
  | .failOrRequeueRow rowIndex error retry => Batch.failOrRequeueRow now rowIndex error retry
  | .reconcileJob payloads => Batch.reconcileJob now payloads

/-- The document after a mutation. -/
def Mutation.after (u : Chars) (now : Int) (m : Mutation) (job : Job) : Job :=
  match mutateJob now (m.closure u now) job with
  | .ok (_, job') => job'
  | .error _ => job

/-! ### What clients see -/

structure PublicRow where
  index : Int
  clientIndex : Int
  sheetRow : Int
  prompt : String
  status : RowStatus
  taskId : String
  error : String
  videoUrl : String
  imageCount : Int
  assetsRequired : Bool
  assetsReady : Bool
  revision : Int
  deriving DecidableEq

def hasAssets (row : Row) : Bool := row.assetsReady.getD false || !row.imageFiles.isEmpty

def publicRow (row : Row) : PublicRow where
  index := row.index
  clientIndex := row.clientIndex
  sheetRow := row.sheetRow
  prompt := row.prompt
  status := row.status
  taskId := row.taskId
  error := row.error
  videoUrl := row.videoUrl
  imageCount := row.imageCount
  assetsRequired := row.status = .awaitingAssets && !hasAssets row
  assetsReady := hasAssets row || row.imageCount = 0
  revision := max 0 row.revision

structure PublicJob where
  id : String
  status : JobStatus
  ratio : String
  duration : Int
  platform : String
  model : String
  concurrency : Int
  referenceIsRealPerson : Bool
  createdAt : Int
  updatedAt : Int
  revision : Int
  delta : Bool
  total : Nat
  counts : RowStatus → Nat
  rows : List PublicRow

def publicJob (job : Job) (sinceRevision : Option Int) : PublicJob :=
  let revision := max 0 job.revision
  let full := sinceRevision.all (revision < ·)
  { id := job.id
    status := job.status
    ratio := textOr job.ratio "9:16"
    duration := orDefault job.duration 15
    platform := textOr job.platform "dola"
    model := textOr job.model "Seedance 2.0"
    concurrency := orDefault job.concurrency 1
    referenceIsRealPerson := job.referenceIsRealPerson
    createdAt := job.createdAt
    updatedAt := job.updatedAt
    revision
    delta := !full
    total := job.rows.length
    counts status := job.rows.countP (·.status = status)
    rows := (job.rows.filter fun row => full || sinceRevision.getD 0 < row.revision).map publicRow }

/-! ### The store and its calls -/

abbrev Jobs := Dict String Job

/-- The order of `list_jobs`: the newest first. -/
def Newer (a b : Job) : Prop := b.createdAt < a.createdAt ∨ (b.createdAt = a.createdAt ∧ b.id ≤ a.id)

instance : DecidableRel Newer := fun a b =>
  inferInstanceAs (Decidable (b.createdAt < a.createdAt ∨ (b.createdAt = a.createdAt ∧ b.id ≤ a.id)))

def listJobs (jobs : Jobs) (ownerTokenHash : Option String) (activeOnly : Bool) (limit : Nat) :
    List Job :=
  let listed := (jobs.items.map Prod.snd).filter fun job =>
    ownerTokenHash.all (job.ownerTokenHash = ·) && (!activeOnly || job.status.isActive)
  (listed.insertionSort Newer).take (max 1 (min 1000 limit))

inductive BatchOp
  | now
  | listJobs (ownerTokenHash : Option String) (activeOnly : Bool) (limit : Nat)
  | mutateJob (jobId : String) (m : Mutation)

abbrev BatchOp.Res : BatchOp → Type
  | .now => Int
  | .listJobs .. => List Job
  | .mutateJob _ m => Except BatchError m.Result

abbrev BatchSig : Sig := ⟨BatchOp, BatchOp.Res⟩

def handle (u : Chars) (now : Int) : (o : BatchOp) → Jobs → o.Res × Jobs
  | .now, jobs => (now, jobs)
  | .listJobs ownerTokenHash activeOnly limit, jobs =>
    (listJobs jobs ownerTokenHash activeOnly limit, jobs)
  | .mutateJob jobId m, jobs =>
    match jobs.get? jobId with
    | none => (.error .keyError, jobs)
    | some job =>
      match mutateJob now (m.closure u now) job with
      | .error e => (.error e, jobs)
      | .ok (result, job') => (.ok result, jobs.set jobId job')

abbrev Call (α : Type) := Prog BatchSig α

def op (o : BatchOp) : Call o.Res := @Prog.perform BatchSig o

/-- The loop of `recover_stale_creating_rows`; an exception ends it. -/
def recoverJobs (cutoff : Int) : List Job → Call Unit
  | [] => pure ()
  | job :: jobs =>
    if job.rows.any (·.status = .creating) then
      op (.mutateJob job.id (.recoverStaleCreatingRows cutoff)) >>= fun recovered =>
      match recovered with
      | .error _ => pure ()
      | .ok _ => recoverJobs cutoff jobs
    else recoverJobs cutoff jobs

/-- The loop of `claim_next_row`; an exception ends it. -/
def claimFrom : List Job → Call (Option Claim)
  | [] => pure none
  | job :: jobs =>
    op (.mutateJob job.id .claimNextRow) >>= fun claimed =>
    match claimed with
    | .error _ => pure none
    | .ok (some claim) => pure (some claim)
    | .ok none => claimFrom jobs

inductive BatchCall
  | cancelJob (jobId ownerTokenHash reason : String)
  | recoverStaleCreatingRows (maxAgeSeconds : Int)
  | claimNextRow (ownerTokenHash : String)
  | markRowAssetsReady (jobId ownerTokenHash : String) (rowIndex : Int)
      (imageFiles imageNames : List String)
  | finishRowCreation (jobId : String) (rowIndex : Int) (taskId : String)
  | failOrRequeueRow (jobId : String) (rowIndex : Int) (error : String) (retry : Bool)
  | reconcileJob (jobId : String) (payloads : TaskPayloads)

def BatchCall.prog : BatchCall → Call Unit
  | .recoverStaleCreatingRows maxAgeSeconds =>
    op .now >>= fun now =>
    op (.listJobs none true 1000) >>= recoverJobs (now - max 10 maxAgeSeconds * second)
  | .claimNextRow ownerTokenHash =>
    op (.listJobs (some ownerTokenHash) true 100) >>= fun jobs =>
    claimFrom (jobs.reverse.filter fun job => job.status = .queued || job.status = .running) >>=
      fun _ => pure ()
  | .cancelJob jobId ownerTokenHash reason =>
    op (.mutateJob jobId (.cancelJob ownerTokenHash reason)) >>= fun _ => pure ()
  | .markRowAssetsReady jobId ownerTokenHash rowIndex imageFiles imageNames =>
    op (.mutateJob jobId (.markRowAssetsReady ownerTokenHash rowIndex imageFiles imageNames)) >>=
      fun _ => pure ()
  | .finishRowCreation jobId rowIndex taskId =>
    op (.mutateJob jobId (.finishRowCreation rowIndex taskId)) >>= fun _ => pure ()
  | .failOrRequeueRow jobId rowIndex error retry =>
    op (.mutateJob jobId (.failOrRequeueRow rowIndex error retry)) >>= fun _ => pure ()
  | .reconcileJob jobId payloads =>
    op (.mutateJob jobId (.reconcileJob payloads)) >>= fun _ => pure ()

abbrev BatchConfig := Config BatchSig Jobs

/-- One step of the system; the environment contributes the time. -/
def step (u : Chars) : Label BatchCall Int → BatchConfig → BatchConfig :=
  Config.step (handle u) BatchCall.prog

end FetchTask.Batch
