import FetchTask.Batch.RowSteps
import FetchTask.Scheduling.Tick
import FetchTask.Lib.Knowledge

/-!
Rows and their tasks.

A task stays linked to its row while the row holds its id, or waits for a claim
that will find the task under the key. A tick is followed from its claim to the
attachment of the task: what it has read of the job and the task, and whether its
clean-up has ended. `Careful` says what may not fall between what a tick has read
and what it writes, and where an operation looks at one store only.
-/

namespace FetchTask.Scheduling

open Runs Knowledge Store Batch

/-! ### The law -/

namespace World

variable (w : World)

/-- A task with the key of a row that has neither failed nor been deleted. -/
def Alive (key : RowKey) (t : TaskId) : Prop :=
  ∃ task, w.tasks.get? t = some task ∧ task.key = some (.row key) ∧ task.status ≠ .failed

/-- The row of a key. -/
def RowOf (key : RowKey) (row : Row) : Prop :=
  ∃ job, w.jobs.get? key.1 = some job ∧ row ∈ job.rows ∧ row.index = key.2

end World

/-- The row holds the task, or waits to be claimed or to be given its task. -/
def Holds (t : TaskId) (row : Row) : Prop :=
  row.taskId = t ∨ row.status = .queued ∨ row.status = .creating

/-- Rows and tasks are linked. -/
structure Linked (w : World) : Prop where
  single : ∀ key t t' task task', w.tasks.get? t = some task → w.tasks.get? t' = some task' →
    task.key = some (.row key) → task'.key = some (.row key) → t = t'
  once : ∀ key t t', (some (.row key), t) ∈ w.opened → (some (.row key), t') ∈ w.opened → t = t'
  held : ∀ key t, w.Alive key t → ∀ row, w.RowOf key row → Holds t row
  kept : ∀ key t row, w.Alive key t → w.reservations t = some .reserved → w.RowOf key row →
    row.status = .failed ∨ row.status = .canceled → row.taskId ≠ ""

/-! ### What a call works on -/

/-- How far a tick is with the row that it has claimed. -/
inductive Stage
  | claimed
  /-- It has read that the job is active. -/
  | active
  /-- It has been given a task that is initializing. -/
  | making (t : TaskId)
  /-- It has read again that the task is initializing. -/
  | opening (t : TaskId)
  /-- An operation of its clean-up has raised. -/
  | torn (t : TaskId)
  | discarded
  /-- It has been given a task that is or was runnable, or has made it runnable. -/
  | ready (t : TaskId)
  deriving DecidableEq

namespace Stage

/-- The task that a clean-up would delete. -/
def task : Stage → Option TaskId
  | .making t | .opening t | .torn t => some t
  | _ => none

/-- The tick has no task that it neither made runnable nor tried to delete. -/
def settled : Stage → Bool
  | .making _ | .opening _ => false
  | _ => true

def read (stage : Stage) (t : TaskId) (status : Status) : Stage :=
  if stage = .making t ∨ stage = .opening t then
    if status = .initializing then .opening t else .making t
  else stage

def tear (stage : Stage) : Stage :=
  match stage.task with
  | some t => .torn t
  | none => stage

/-- What a tick learns from an operation on behalf of the row. -/
def learn (key : RowKey) (stage : Stage) : (o : ScheduleOp) → Except Raised o.Answer → Stage
  | .isActive jobId _, .ok answer =>
    if stage = .claimed ∧ answer = true ∧ jobId = key.1 then .active else stage
  | .findOrCreate _, .ok found =>
    if found.created = false ∧ found.status ≠ .initializing then .ready found.task
    else .making found.task
  | .readStatus t, .ok status => stage.read t status
  | .writePending t, .ok _ => .ready t
  | .delete .., .ok _ => .discarded
  | .refund .., .error _ | .delete .., .error _ => stage.tear
  | _, _ => stage

end Stage

/-- What a call works on: nothing that is known, a task without a row, or the row that it has
claimed, with the time of the claim. -/
inductive Work
  | idle
  | other (t : TaskId)
  | row (key : RowKey) (claimedAt : Option Stamp) (stage : Stage)
  deriving DecidableEq

def Work.claim : Work → Option (RowKey × Option Stamp)
  | .row key claimedAt _ => some (key, claimedAt)
  | _ => none

def works : Knowledge ScheduleSig Work where
  start := .idle
  may
    | k, .findOrCreate (.row key) => ∃ claimedAt, k = .row key claimedAt .active
    | k, .findOrCreate (.request ..) | k, .createTask | k, .mutate _ .claimNextRow => k = .idle
    | .other t', .delete _ t | .other t', .writePending t => t' = t
    -- a tick deletes only what it was given while initializing, and did not make runnable
    | .row _ _ stage, .delete _ t => stage.task = some t
    | .row _ _ stage, .writePending t => stage = .opening t
    | .row key _ stage, .mutate jobId (.finishRowCreation index t) =>
      key = (jobId, max 1 index) ∧ stage = .ready t
    | .row key _ stage, .mutate jobId (.failOrRequeueRow index ..) =>
      key = (jobId, max 1 index) ∧ stage.settled = true
    | _, .delete .. | _, .writePending _ | _, .mutate _ (.finishRowCreation ..)
    | _, .mutate _ (.failOrRequeueRow ..) => False
    | _, _ => True
  can _ _ := True
  learn
    | .idle, .mutate _ .claimNextRow, .ok (some claim) =>
      -- a row without its images is returned too, but not claimed
      if claim.awaitingAssets then .idle
      else .row (claim.job.id, max 1 claim.row.index) claim.row.claimedAt .claimed
    | .idle, .createTask, .ok t => .other t
    | .idle, .findOrCreate _, .ok found => .other found.task
    | .row key claimedAt stage, o, r => .row key claimedAt (stage.learn key o r)
    | k, _, _ => k

/-! ### What may not fall between -/

namespace World

variable (w : World) (key : RowKey) (claimedAt : Option Stamp)

/-- The row is being created since the claim. -/
def Creating : Prop := ∃ row, w.RowOf key row ∧ row.status = .creating ∧ row.claimedAt = claimedAt

/-- The row is canceled without a task. -/
def Stopped : Prop := ∃ row, w.RowOf key row ∧ row.status = .canceled ∧ row.taskId = ""

/-- Nobody has taken the row from the tick of the claim, other than by canceling it. -/
def Stands : Prop := w.Creating key claimedAt ∨ w.Stopped key

end World

/-- The operation takes effect, also where it raises afterwards. -/
def Env.effective (e : Env) : Prop := ∀ fault ∈ e.fault, fault.done = true

/-- `fail_or_requeue_row` gives the row up. -/
def GivesUp (job : Job) (row : Row) (retry : Bool) : Prop :=
  row.status.isTerminal = false ∧
    ¬ ((retry && job.canceledAt.isNone) = true ∧ max 0 (row.createAttempts.getD 0) + 1 < 5)

namespace Work

/-- Nobody has taken the row from the tick. -/
def Stands (w : World) : Work → Prop
  | .row key claimedAt _ => w.Stands key claimedAt
  | _ => True

/-- The job that the tick has read as active has not been canceled since. -/
def StillActive (w : World) : Work → Prop
  | .row key _ .active => ∀ job ∈ w.jobs.get? key.1, job.canceledAt = none
  | _ => True

/-- The task that the tick has read as initializing is so still, and its write does not raise when
it has taken effect. -/
def Opens (e : Env) (w : World) : Work → Prop
  | .row _ _ (.opening t) => e.fault = none ∧ ∀ task ∈ w.tasks.get? t, task.status = .initializing
  | _ => True

/-- After its clean-up the tick has its row still; where no clean-up has ended, because the task has
not been looked for, or has been left as it is, or the clean-up has raised, there is no task. -/
def GivesUpRow (w : World) : Work → Prop
  | .row key claimedAt .discarded => w.Stands key claimedAt
  | .row key _ stage => stage.settled = true → ∀ t, ¬ w.Alive key t
  | _ => True

/-- The call has claimed a row of the job at this time. -/
def claims (jobId : String) (now : Int) : Work → Bool
  | .row key claimedAt _ => decide (key.1 = jobId ∧ claimedAt = some (some now))
  | _ => false

end Work

/-- The condition on an operation that takes effect, of a call that works on `k`; `alone` says that
no other call under way has claimed a row of the job at this very time. -/
def Careful (alone : String → Int → Prop) (k : Work) (e : Env) : ScheduleOp → World → Prop
  | .mutate jobId (.cancelJob owner _), w =>
    ∀ job, w.jobs.get? jobId = some job → job.ownerTokenHash = owner →
      ∀ row ∈ job.rows, cancelsRow row = true → ∀ t, ¬ w.Alive (jobId, row.index) t
  | .mutate jobId .claimNextRow, _ => alone jobId e.now
  | .mutate jobId (.failOrRequeueRow index _ retry), w =>
    ∀ job, w.jobs.get? jobId = some job → ∀ row ∈ job.rows, row.index = index →
      GivesUp job row retry → k.GivesUpRow w
  | .mutate _ (.finishRowCreation _ t), w => (w.tasks.get? t).isSome = true
  | .createTask, w => e.fresh.1 ∉ w.created
  | .findOrCreate key, w => w.taskOf key = none →
    e.fresh.1 ∉ w.created ∧ k.Stands w ∧ k.StillActive w
  | .delete .., w => k.Stands w
  | .writePending _, w => k.Stands w ∧ k.Opens e w
  | .deleteOriginal t, w => ∀ key, (some (.row key), t) ∉ w.opened
  | _, _ => True

/-- The condition on any operation. -/
def Undisturbed (alone : String → Int → Prop) (k : Work) (e : Env) (o : ScheduleOp) (w : World) :
    Prop :=
  e.effective → Careful alone k e o w

/-- No other call under way has claimed a row of the job at this time. -/
def ClaimsAlone (known : Nat → Work) (i : Nat) (jobId : String) (now : Int) : Prop :=
  ∀ j, j ≠ i → (known j).claims jobId now = false

/-! ### The programs -/

section Programs

variable {k : Work} {key : RowKey} {claimedAt : Option Stamp} {stage : Stage} {t : TaskId}

/-- What teaches a call nothing, whatever it works on. -/
def ScheduleOp.isPlain : ScheduleOp → Bool
  | .isActive .. | .createTask | .findOrCreate _ | .refund .. | .delete .. | .readStatus _
  | .writePending _ | .mutate _ .claimNextRow | .mutate _ (.finishRowCreation ..)
  | .mutate _ (.failOrRequeueRow ..) => false
  | _ => true

theorem neutral_of_isPlain {o : ScheduleOp} (h : o.isPlain = true) : works.Neutral k o := by
  cases o with
  | mutate jobId m =>
    cases m with
    | claimNextRow => cases h
    | finishRowCreation index t => cases h
    | failOrRequeueRow index error retry => cases h
    | _ => cases k <;> exact ⟨trivial, fun _ _ => rfl⟩
  | _ => cases k <;> first | exact ⟨trivial, fun _ _ => rfl⟩ | cases h

theorem plain_still {o : ScheduleOp} (h : o.isPlain = true) : works.Still k (op o) :=
  still_op (neutral_of_isPlain h)

theorem plainCall_still {o : ScheduleOp} (left : Nat) (h : o.isPlain = true) :
    works.Still k (storageCall (fun _ => op o) left) :=
  still_storageCall (fun _ => plain_still h) left

/-! #### Tasks without a row -/

theorem refund_other_still (left : Nat) : works.Still (.other t) (op (.refund left t)) :=
  still_op ⟨trivial, fun _ _ => rfl⟩

theorem delete_other_still (left : Nat) : works.Still (.other t) (op (.delete left t)) :=
  still_op ⟨rfl, fun _ _ => rfl⟩

theorem undo_other_still (left : Nat) : works.Still (.other t) (undo left t) :=
  .bind (still_storageCall (fun left => refund_other_still left) left) fun _ =>
    still_storageCall (fun left => delete_other_still left) left

theorem finalize_other_still : works.Still (.other t) (finalizeTaskCreation t) :=
  .bind (still_op ⟨trivial, fun _ _ => rfl⟩) fun _ =>
    .ite (still_op ⟨rfl, fun _ _ => rfl⟩) (.throw _)

theorem undoUncharged_still (kind : ErrorKind) : works.Still (.other t) (undoUncharged t kind) := by
  cases kind with
  | valueError => exact .pure _
  | quotaExceeded => exact delete_other_still 0
  | httpException statusCode => exact undo_other_still 1
  | other => exact undo_other_still 0

theorem chargeSubmittedTask_still : works.Still (.other t) (chargeSubmittedTask t) :=
  .bind (plainCall_still 2 rfl) fun _ => .bind (plainCall_still 2 rfl) fun _ =>
    .bind (plain_still rfl) fun _ => plainCall_still 2 rfl

theorem prepareSubmittedTask_still : works.Still (.other t) (prepareSubmittedTask t) :=
  .bind (plain_still rfl) fun _ => .bind (plainCall_still 2 rfl) fun _ =>
    .bind (plain_still rfl) fun _ => still_storageCall (fun _ => finalize_other_still) 2

theorem prepareRetry_still (original : TaskId) (status : Status) :
    works.Still (.other t) (prepareRetry original status t) :=
  .bind (plain_still rfl) fun _ => .bind (plain_still rfl) fun _ => .bind (plain_still rfl) fun _ =>
    .bind finalize_other_still fun _ => .ite (plain_still rfl) (.pure _)

theorem discardRetry_still (reserved : Bool) (error : Raised) :
    works.Still (.other t) (discardRetry reserved t error) :=
  .bind (.ite (undo_other_still 0) (delete_other_still 0)) fun _ => .throw _

/-- The call ends with anything. -/
abbrev Finishes {α : Type} (k : Work) (p : Run α) : Prop :=
  works.Does (fun _ _ => True) (fun _ _ => True) k p

theorem finishes_of_still {α : Type} {p : Run α} (hp : works.Still k p) : Finishes k p :=
  hp.does (fun _ => trivial) fun _ => trivial

/-- A request works on no row. -/
theorem obtainTask_does (owner : String) (key : Option String) :
    works.Does (fun found k => k = .other found.task) (fun _ k => k = .idle) .idle
      (obtainTask (key.map (.request owner))) := by
  cases key with
  | none =>
    have hcreate : works.Does (fun t k => k = .other t) (fun _ k => k = .idle) .idle (op .createTask) :=
      does_op rfl (fun _ _ => rfl) fun _ _ => rfl
    exact Does.bind hcreate fun _ _ hk => does_pure hk
  | some key =>
    have hfind : ∀ (left : Nat) (k : Work), k = .idle →
        works.Does (fun found k => k = .other found.task) (fun _ k => k = .idle) k
          (op (.findOrCreate (.request owner key))) := by
      rintro left _ rfl
      exact does_op rfl (fun _ _ => rfl) fun _ _ => rfl
    exact does_storageCall_of hfind 2 rfl

theorem submitTask_does (owner : String) (key : Option String) :
    Finishes .idle (submitTask (key.map (.request owner))) := by
  refine Does.bind (Q := fun _ k => k = .idle)
    ((plain_still rfl).does (fun _ => rfl) fun _ => trivial) ?_
  rintro _ _ rfl
  have hobtain : works.Does (fun found k => k = .other found.task) (fun _ _ => True) .idle
      (tryCatch (obtainTask (key.map (.request owner))) fun error => throw error.answered) :=
    Does.tryCatch (obtainTask_does owner key) fun _ _ _ => does_throw trivial
  refine Does.bind hobtain ?_
  rintro found _ rfl
  split
  · exact does_pure trivial
  -- from here on the request knows its task, and deletes no other
  refine finishes_of_still (.bind (.tryCatch chargeSubmittedTask_still fun e => ?_) fun _ =>
    .bind (.tryCatch prepareSubmittedTask_still fun e => ?_) fun _ =>
      .bind (.tryCatch (plain_still rfl) fun _ => .pure _) fun _ => .pure _)
  · exact .bind (undoUncharged_still _) fun _ => .throw _
  · exact .bind (undo_other_still 0) fun _ => .throw _

theorem retryCompletedTask_does (original : TaskId) : Finishes .idle (retryCompletedTask original) := by
  have hread : works.Does (fun _ k => k = .idle) (fun _ _ => True) .idle (op (.readStatus original)) :=
    does_op trivial (fun _ _ => rfl) fun _ _ => trivial
  refine Does.bind hread ?_
  rintro status _ rfl
  split
  swap
  · exact does_throw trivial
  refine Does.bind (Q := fun _ k => k = .idle)
    ((plain_still rfl).does (fun _ => rfl) fun _ => trivial) ?_
  rintro _ _ rfl
  have hcreate : works.Does (fun t k => k = .other t) (fun _ _ => True) .idle (op .createTask) :=
    does_op rfl (fun _ _ => rfl) fun _ _ => trivial
  refine Does.bind hcreate ?_
  rintro t _ rfl
  exact finishes_of_still (.bind (.tryCatch (.bind (plain_still rfl) fun _ => plain_still rfl)
    fun e => discardRetry_still false e) fun _ =>
      .bind (.tryCatch (prepareRetry_still original status) fun e => discardRetry_still true e)
        fun _ => .pure _)

/-! #### The row of a tick -/

/-- The tick has left no task in the making. -/
def Settled (key : RowKey) (claimedAt : Option Stamp) (k : Work) : Prop :=
  ∃ stage, k = .row key claimedAt stage ∧ stage.settled = true

/-- The tick has a task in the making. -/
def Makes (key : RowKey) (claimedAt : Option Stamp) (t : TaskId) (k : Work) : Prop :=
  k = .row key claimedAt (.making t) ∨ k = .row key claimedAt (.opening t)

theorem requireActive_still (jobId owner : String) :
    works.Still (.row key claimedAt (.making t)) (requireActive jobId owner) := by
  refine .bind (still_op ⟨trivial, fun r _ => ?_⟩) fun _ => .ite (.pure _) (.throw _)
  cases r with
  | error e => rfl
  | ok answer =>
    have hsame : (Stage.making t).learn key (.isActive jobId owner) (.ok answer) = .making t := by
      simp [Stage.learn]
    exact congrArg (Work.row key claimedAt) hsame

/-- A tick goes on with its row where it has read that the job is active. -/
theorem requireActive_does (owner : String) :
    works.Does (fun _ k => k = .row key claimedAt .active) (fun _ => Settled key claimedAt)
      (.row key claimedAt .claimed) (requireActive key.1 owner) := by
  have hread : works.Does
      (fun answer k => k = .row key claimedAt (if answer = true then .active else .claimed))
      (fun _ => Settled key claimedAt) (.row key claimedAt .claimed) (op (.isActive key.1 owner)) := by
    refine does_op trivial (fun answer _ => ?_) fun _ _ => ⟨.claimed, rfl, rfl⟩
    show Work.row key claimedAt (if _ then _ else _) = _
    simp
  refine Does.bind hread ?_
  rintro answer _ rfl
  cases answer with
  | true => exact does_pure rfl
  | false => exact does_throw ⟨.claimed, rfl, rfl⟩

/-- A clean-up deletes the task, or is torn. -/
theorem undo_does (left : Nat) (hk : Makes key claimedAt t k) :
    works.Does (fun _ k => k = .row key claimedAt .discarded)
      (fun _ k => k = .row key claimedAt (.torn t)) k (undo left t) := by
  let I : Work → Prop := fun k => ∃ stage : Stage, k = .row key claimedAt stage ∧ stage.task = some t
  have htear : ∀ {stage : Stage}, stage.task = some t → stage.tear = .torn t := by
    intro stage hstage
    simp only [Stage.tear, hstage]
  have htorn : I (.row key claimedAt (.torn t)) := ⟨.torn t, rfl, rfl⟩
  have hI : I k := by
    rcases hk with rfl | rfl
    · exact ⟨_, rfl, rfl⟩
    · exact ⟨_, rfl, rfl⟩
  have hrefund : works.Does (fun _ => I) (fun _ k => k = .row key claimedAt (.torn t)) k
      (storageCall (fun left => op (.refund left t)) left) := by
    refine does_storageCall (I := I) ?_ left hI
    rintro left _ ⟨stage, rfl, hstage⟩
    refine does_op trivial (fun _ _ => ⟨stage, rfl, hstage⟩) fun e _ => ?_
    have hlearn : works.learn (.row key claimedAt stage) (.refund left t) (.error e) =
        .row key claimedAt (.torn t) := congrArg (Work.row key claimedAt) (htear hstage)
    rw [hlearn]
    split
    · exact htorn
    · rfl
  -- a deletion that raises may have taken effect: nothing is known of the task then
  refine Does.bind hrefund fun _ k' hk' => ?_
  refine does_storageCall (I := I) ?_ left hk'
  rintro left _ ⟨stage, rfl, hstage⟩
  refine does_op hstage (fun _ _ => rfl) fun e _ => ?_
  have hlearn : works.learn (.row key claimedAt stage) (.delete left t) (.error e) =
      .row key claimedAt (.torn t) := congrArg (Work.row key claimedAt) (htear hstage)
  rw [hlearn]
  split
  · exact htorn
  · rfl

theorem discardBatchTask_does (error : Raised) (hk : Makes key claimedAt t k) :
    works.Does (fun _ _ => False) (fun _ => Settled key claimedAt) k (discardBatchTask t error) := by
  have hundo : works.Does (fun _ k => k = .row key claimedAt .discarded)
      (fun _ => Settled key claimedAt) k (undo 1 t) :=
    (undo_does 1 hk).mono (fun _ _ h => h) fun _ _ h => ⟨.torn t, h, rfl⟩
  exact Does.bind hundo fun _ _ h => does_throw ⟨.discarded, h, rfl⟩

theorem chargeBatchTask_still (job : Job) :
    works.Still (.row key claimedAt (.making t)) (chargeBatchTask job t) :=
  .bind (plainCall_still 2 rfl) fun _ => .bind (plainCall_still 2 rfl) fun _ =>
    .bind (requireActive_still _ _) fun _ => plainCall_still 2 rfl

/-- The task becomes runnable, or is still in the making. -/
theorem finalize_does (hk : Makes key claimedAt t k) :
    works.Does (fun _ k => k = .row key claimedAt (.ready t)) (fun _ => Makes key claimedAt t) k
      (finalizeTaskCreation t) := by
  have hread : works.Does (fun status k => k = .row key claimedAt
        (if status = .initializing then .opening t else .making t))
      (fun _ => Makes key claimedAt t) k (op (.readStatus t)) := by
    rcases hk with rfl | rfl
    · exact does_op trivial (fun status _ => congrArg (Work.row key claimedAt) (if_pos (.inl rfl)))
        fun _ _ => .inl rfl
    · exact does_op trivial (fun status _ => congrArg (Work.row key claimedAt) (if_pos (.inr rfl)))
        fun _ _ => .inr rfl
  refine Does.bind hread ?_
  rintro status _ rfl
  split
  · exact does_op rfl (fun _ _ => rfl) fun _ _ => .inr rfl
  · exact does_throw (.inl rfl)

theorem prepareBatchTask_does (job : Job) :
    works.Does (fun _ k => k = .row key claimedAt (.ready t)) (fun _ => Makes key claimedAt t)
      (.row key claimedAt (.making t)) (prepareBatchTask job t) := by
  have hstill : ∀ {α : Type} {p : Run α}, works.Still (.row key claimedAt (.making t)) p →
      works.Does (fun _ k => k = .row key claimedAt (.making t)) (fun _ => Makes key claimedAt t)
        (.row key claimedAt (.making t)) p :=
    fun hp => hp.does (fun _ => rfl) fun _ => .inl rfl
  refine Does.bind (hstill (plain_still rfl)) ?_
  rintro _ _ rfl
  refine Does.bind (hstill (plainCall_still 2 rfl)) ?_
  rintro _ _ rfl
  refine Does.bind (hstill (requireActive_still _ _)) ?_
  rintro _ _ rfl
  exact does_storageCall_of (fun _ _ hk => finalize_does hk) 2 (.inl rfl)

/-- A creation ends with a task that is or was runnable, or leaves nothing in the making. -/
theorem createScheduledBatchTask_does {claim : Claim}
    (hkey : key = (claim.job.id, max 1 claim.row.index)) :
    works.Does (fun t k => k = .row key claimedAt (.ready t)) (fun _ => Settled key claimedAt)
      (.row key claimedAt .claimed) (createScheduledBatchTask claim) := by
  subst hkey
  have hstill : ∀ {α : Type} {p : Run α} {stage : Stage}, stage.settled = true →
      works.Still (.row (claim.job.id, max 1 claim.row.index) claimedAt stage) p →
      works.Does (fun _ k => k = .row (claim.job.id, max 1 claim.row.index) claimedAt stage)
        (fun _ => Settled (claim.job.id, max 1 claim.row.index) claimedAt)
        (.row (claim.job.id, max 1 claim.row.index) claimedAt stage) p :=
    fun {_ _ stage} hsettled hp => hp.does (fun _ => rfl) fun _ => ⟨stage, rfl, hsettled⟩
  refine Does.bind (hstill rfl (plainCall_still 2 rfl)) ?_
  rintro enabled _ rfl
  split
  swap
  · exact does_throw ⟨.claimed, rfl, rfl⟩
  refine Does.bind (hstill rfl (plainCall_still 2 rfl)) ?_
  rintro _ _ rfl
  refine Does.bind (requireActive_does _) ?_
  rintro _ _ rfl
  refine Does.bind (hstill rfl (plain_still rfl)) ?_
  rintro _ _ rfl
  refine Does.bind (hstill rfl (plain_still rfl)) ?_
  rintro _ _ rfl
  have hfind : works.Does (fun found k => k = .row (claim.job.id, max 1 claim.row.index) claimedAt
        (if found.created = false ∧ found.status ≠ .initializing then .ready found.task
          else .making found.task))
      (fun _ k => k = .row (claim.job.id, max 1 claim.row.index) claimedAt .active)
      (.row (claim.job.id, max 1 claim.row.index) claimedAt .active)
      (storageCall (fun _ => op (.findOrCreate (.row (claim.job.id, max 1 claim.row.index)))) 2) := by
    refine does_storageCall_of (I := fun k => k = _) ?_ 2 rfl
    rintro left _ rfl
    exact does_op ⟨claimedAt, rfl⟩ (fun _ _ => rfl) fun _ _ => rfl
  refine Does.bind (hfind.mono (fun _ _ h => h) fun _ _ h => ⟨.active, h, rfl⟩) ?_
  rintro found _ rfl
  split
  -- a task of an earlier claim of the row, which has become runnable
  next hfound => exact does_pure rfl
  have hcharge : works.Does
      (fun _ k => k = .row (claim.job.id, max 1 claim.row.index) claimedAt (.making found.task))
      (fun _ => Settled (claim.job.id, max 1 claim.row.index) claimedAt)
      (.row (claim.job.id, max 1 claim.row.index) claimedAt (.making found.task))
      (tryCatch (chargeBatchTask claim.job found.task) (discardBatchTask found.task)) :=
    Does.tryCatch (chargeBatchTask_still _) fun e _ hk =>
      (discardBatchTask_does e (.inl hk)).mono (fun _ _ h => h.elim) fun _ _ h => h
  refine Does.bind hcharge ?_
  rintro _ _ rfl
  have hprepare : works.Does
      (fun _ k => k = .row (claim.job.id, max 1 claim.row.index) claimedAt (.ready found.task))
      (fun _ => Settled (claim.job.id, max 1 claim.row.index) claimedAt)
      (.row (claim.job.id, max 1 claim.row.index) claimedAt (.making found.task))
      (tryCatch (prepareBatchTask claim.job found.task) (discardBatchTask found.task)) :=
    Does.tryCatch (prepareBatchTask_does _) fun e _ hk =>
      (discardBatchTask_does e hk).mono (fun _ _ h => h.elim) fun _ _ h => h
  refine Does.bind hprepare ?_
  rintro _ _ rfl
  have hactivity : works.Still
      (.row (claim.job.id, max 1 claim.row.index) claimedAt (.ready found.task))
      (tryCatch (op (.outside .activity)) fun _ => pure ()) :=
    .tryCatch (plain_still rfl) fun _ => .pure _
  refine Does.bind (hstill rfl hactivity) ?_
  rintro _ _ rfl
  exact does_pure rfl

theorem createForRow_does {claim : Claim} (hkey : key = (claim.job.id, max 1 claim.row.index)) :
    Finishes (.row key claimedAt .claimed) (createForRow claim) := by
  have hcreate : works.Does (fun _ _ => True) (fun _ => Settled key claimedAt)
      (.row key claimedAt .claimed) (do
        let t ← createScheduledBatchTask claim
        op (.mutate claim.job.id (.finishRowCreation claim.row.index t))
        op (.outside .assets)) := by
    refine Does.bind (createScheduledBatchTask_does hkey) ?_
    rintro t _ rfl
    have hattach : works.Does (fun _ => Settled key claimedAt) (fun _ => Settled key claimedAt)
        (.row key claimedAt (.ready t))
        (op (.mutate claim.job.id (.finishRowCreation claim.row.index t))) :=
      does_op ⟨hkey, rfl⟩ (fun _ _ => ⟨.ready t, rfl, rfl⟩) fun _ _ => ⟨.ready t, rfl, rfl⟩
    refine Does.bind hattach ?_
    rintro _ _ ⟨stage, rfl, hsettled⟩
    exact (plain_still rfl).does (fun _ => trivial) fun _ => ⟨stage, rfl, hsettled⟩
  -- the row is given up or queued again, whatever has raised
  refine Does.tryCatch hcreate ?_
  rintro e _ ⟨stage, rfl, hsettled⟩
  exact does_op ⟨hkey, hsettled⟩ (fun _ _ => trivial) fun _ _ => trivial

/-! #### Calls -/

/-- A claim that is returned is known. -/
theorem claimFrom_does (jobs : List Job) :
    works.Does (fun claim k => ∀ c ∈ claim, c.awaitingAssets = false →
        k = .row (c.job.id, max 1 c.row.index) c.row.claimedAt .claimed) (fun _ _ => True) .idle
      (claimFrom jobs) := by
  induction jobs with
  | nil =>
    refine does_pure ?_
    rintro c ⟨⟩
  | cons job jobs ih =>
    have hclaim : works.Does (fun claim k => match claim with
        | none => k = .idle
        | some c => c.awaitingAssets = false →
          k = .row (c.job.id, max 1 c.row.index) c.row.claimedAt .claimed) (fun _ _ => True) .idle
        (op (.mutate job.id .claimNextRow)) := by
      refine does_op rfl (fun claim _ => ?_) fun _ _ => trivial
      cases claim with
      | none => rfl
      | some c =>
        intro hready
        show (if c.awaitingAssets then _ else _) = _
        rw [hready]
        rfl
    refine Does.bind hclaim ?_
    rintro claim k hk
    cases claim with
    | none =>
      obtain rfl : k = .idle := hk
      exact ih
    | some c =>
      refine does_pure fun c' hc' => ?_
      obtain rfl := Option.mem_some_iff.mp hc'
      exact hk

theorem batchSchedulerTick_does (tick : Tick) : Finishes .idle (batchSchedulerTick tick) := by
  have hidle : ∀ {α : Type} {p : Run α}, works.Still .idle p →
      works.Does (fun _ k => k = .idle) (fun _ _ => True) .idle p := fun hp =>
    hp.does (fun _ => rfl) fun _ => trivial
  unfold batchSchedulerTick
  refine Does.bind (hidle (recoverIfDue_still (fun _ _ _ => neutral_of_isPlain rfl)
    (fun _ _ => neutral_of_isPlain rfl) _)) ?_
  rintro _ _ rfl
  refine Does.bind (hidle (reconcileJobs_still (fun _ _ => neutral_of_isPlain rfl) _)) ?_
  rintro _ _ rfl
  cases tick.owner with
  | none => exact does_pure trivial
  | some owner =>
    have hclaim : works.Does (fun claim k => ∀ c ∈ claim, c.awaitingAssets = false →
        k = .row (c.job.id, max 1 c.row.index) c.row.claimedAt .claimed) (fun _ _ => True) .idle
        (claimNextRow owner) := by
      refine Does.bind (hidle (plain_still rfl)) ?_
      rintro jobs _ rfl
      exact claimFrom_does _
    refine Does.bind hclaim ?_
    · rintro claim k hk
      cases claim with
      | none => exact does_pure trivial
      | some c =>
        dsimp only
        split
        · exact does_pure trivial
        next hready =>
          obtain rfl := hk c rfl (by simpa using hready)
          exact createForRow_does rfl

/-- Every call keeps to what it may do. -/
theorem call_ensures (call : ScheduleCall) :
    works.Ensures (fun _ _ => True) .idle call.prog := by
  have hrun : Finishes .idle call.run := by
    cases call with
    | tick choices => exact batchSchedulerTick_does choices
    | submitTask owner key => exact Does.bind (submitTask_does owner key) fun _ _ _ => does_pure trivial
    | retryCompletedTask original =>
      exact Does.bind (retryCompletedTask_does original) fun _ _ _ => does_pure trivial
    | failInitializing t =>
      exact finishes_of_still (.bind (plain_still rfl) fun _ => .ite (plain_still rfl) (.pure _))
    | markRowAssetsReady jobId owner index files names =>
      exact finishes_of_still (.bind (plain_still rfl) fun _ => .pure _)
    | cancelJob jobId owner reason => exact finishes_of_still (plain_still rfl)
    | setEnabled owner enabled => exact finishes_of_still (plain_still rfl)
    | execute t status => exact finishes_of_still (plain_still rfl)
  exact Ensures.bind hrun fun _ _ _ => trivial

end Programs

end FetchTask.Scheduling
