import FetchTask.Lib.Knowledge
import FetchTask.Scheduling

/-!
The ticks of the batch scheduler (`batch_scheduler_tick` in `app/main.py`), and the
system of all that creates tasks.

A tick claims a row, creates the task for it under the idempotency key of the row, and
attaches it to the row. The lease of the scheduler ends by its time-out, so any number of
ticks run at once, and one that crashes takes no further step. The owner that a tick
chooses is up to the surroundings.
-/

namespace FetchTask.Scheduling

open Store Batch

/-- The loop of `recover_stale_creating_rows`. -/
def recoverJobs (cutoff : Int) : List Job → Run Unit
  | [] => pure ()
  | job :: jobs => do
    if job.rows.any (·.status = .creating) then
      let _ ← op (.mutate job.id (.recoverStaleCreatingRows cutoff))
      recoverJobs cutoff jobs
    else recoverJobs cutoff jobs

def recoverIfDue : Option Int → Run Unit
  | none => pure ()
  | some cutoff => do
    let jobs ← op (.listJobs none true 1000)
    recoverJobs cutoff jobs

/-- The loop of `claim_next_row`. -/
def claimFrom : List Job → Run (Option Claim)
  | [] => pure none
  | job :: jobs => do
    match ← op (.mutate job.id .claimNextRow) with
    | some claim => pure (some claim)
    | none => claimFrom jobs

def claimNextRow (ownerTokenHash : String) : Run (Option Claim) := do
  let jobs ← op (.listJobs (some ownerTokenHash) true 100)
  claimFrom (jobs.reverse.filter fun job => job.status = .queued || job.status = .running)

/-- The `except` branches of the tick: the error of the row, and whether it is tried again. -/
def Raised.outcome (error : Raised) : String × Bool :=
  match error.kind with
  | .valueError | .quotaExceeded => (error.detail, false)
  | .httpException statusCode => (error.detail, decide (500 ≤ statusCode))
  | .other => ("任务创建暂时繁忙，请稍后重试", true)

/-- What a tick does with a claimed row. -/
def createForRow (claim : Claim) : Run Unit :=
  tryCatch (do
    let t ← createScheduledBatchTask claim
    op (.mutate claim.job.id (.finishRowCreation claim.row.index t))
    op (.outside .assets))
    fun error => op (.mutate claim.job.id
      (.failOrRequeueRow claim.row.index error.outcome.1 error.outcome.2))

/-- The choices of `batch_scheduler_tick`: the cutoff of the recovery and the payloads of the
reconciliation, where they are due, and the next owner, if there is room. -/
structure Tick where
  recovers : Option Int
  reconciles : List (String × TaskPayloads)
  owner : Option String

def reconcileJobs : List (String × TaskPayloads) → Run Unit
  | [] => pure ()
  | (jobId, payloads) :: rest => do
    let _ ← op (.mutate jobId (.reconcileJob payloads))
    reconcileJobs rest

def batchSchedulerTick (tick : Tick) : Run Unit := do
  recoverIfDue tick.recovers
  reconcileJobs tick.reconciles
  match tick.owner with
  | none => pure ()
  | some ownerTokenHash => do
    match ← claimNextRow ownerTokenHash with
    | none => pure ()
    | some claim => if claim.awaitingAssets then pure () else createForRow claim

/-! ### The system -/

inductive ScheduleCall
  | tick (tick : Tick)
  | submitTask (ownerTokenHash : String) (key : Option String)
  | retryCompletedTask (original : TaskId)
  | cancelJob (jobId ownerTokenHash reason : String)
  | markRowAssetsReady (jobId ownerTokenHash : String) (rowIndex : Int)
      (imageFiles imageNames : List String)
  | setEnabled (ownerTokenHash : String) (enabled : Bool)
  /-- The start of a process, for one task. -/
  | failInitializing (t : TaskId)
  | execute (t : TaskId) (status : Status)

/-- A starting process refunds the tasks that it has failed. -/
def failAndRefund (t : TaskId) : Run Unit := do
  let failed ← op (.failInitializing t)
  if failed then op (.refundFailed t) else pure ()

def ScheduleCall.run : ScheduleCall → Run Unit
  | .tick choices => batchSchedulerTick choices
  | .submitTask ownerTokenHash key => do
    let _ ← Scheduling.submitTask (key.map (.request ownerTokenHash))
  | .retryCompletedTask original => do
    let _ ← Scheduling.retryCompletedTask original
  | .cancelJob jobId ownerTokenHash reason => op (.mutate jobId (.cancelJob ownerTokenHash reason))
  | .markRowAssetsReady jobId ownerTokenHash rowIndex imageFiles imageNames => do
    let _ ← op (.mutate jobId (.markRowAssetsReady ownerTokenHash rowIndex imageFiles imageNames))
  | .setEnabled ownerTokenHash enabled => op (.setEnabled ownerTokenHash enabled)
  | .failInitializing t => failAndRefund t
  | .execute t status => op (.execute t status)

def ScheduleCall.prog (call : ScheduleCall) : Prog ScheduleSig Unit := do
  let _ ← call.run.run
  return ()

abbrev ScheduleConfig := Config ScheduleSig World

def step : Label ScheduleCall Env → ScheduleConfig → ScheduleConfig :=
  Config.step handle ScheduleCall.prog

/-- No tasks yet, and no call in progress. -/
structure ScheduleConfig.Start (c : ScheduleConfig) : Prop where
  idle : ∀ i, (c.threads i).isDone = true
  tasks : c.shared.tasks = .empty
  reservations : ∀ t, c.shared.reservations t = none
  opened : c.shared.opened = []
  created : c.shared.created = []

/-! ### What programs learn -/

section Programs

open Knowledge

variable {K : Type} {G : Knowledge ScheduleSig K} {k : K}

theorem does_op {o : ScheduleOp} {Q : o.Answer → K → Prop} {E : Raised → K → Prop}
    (hmay : G.may k o) (hok : ∀ a, G.can o (.ok a) → Q a (G.learn k o (.ok a)))
    (herror : ∀ e, G.can o (.error e) → E e (G.learn k o (.error e))) : G.Does Q E k (op o) := by
  refine ⟨hmay, fun r hr => ?_⟩
  cases r with
  | ok a => exact hok a hr
  | error e => exact herror e hr

/-- An attempt that is not the last, and raises what is transient, leaves what the next one
needs. -/
theorem does_storageCall {α : Type} {call : Nat → Run α} {I : K → Prop} {Q : α → K → Prop}
    {E : Raised → K → Prop} (hcall : ∀ left k, I k → G.Does Q (fun e k' =>
      if e.transient = true ∧ 0 < left then I k' else E e k') k (call left)) (left : Nat)
    (hk : I k) : G.Does Q E k (storageCall call left) := by
  induction left generalizing k with
  | zero =>
    refine Does.mono (fun _ _ h => h) (fun e k' h => ?_) (hcall 0 k hk)
    rwa [if_neg fun hlast => (Nat.lt_irrefl 0 hlast.2)] at h
  | succ left ih =>
    refine Does.tryCatch (hcall (left + 1) k hk) fun e k' h => ?_
    by_cases htransient : e.transient = true
    · rw [if_pos ⟨htransient, by omega⟩] at h
      rw [if_pos htransient]
      exact ih h
    · rw [if_neg fun hlast => htransient hlast.1] at h
      rw [if_neg htransient]
      exact does_throw h

/-- The same where every attempt leaves it. -/
theorem does_storageCall_of {α : Type} {call : Nat → Run α} {I : K → Prop} {Q : α → K → Prop}
    (hcall : ∀ left k, I k → G.Does Q (fun _ => I) k (call left)) (left : Nat) (hk : I k) :
    G.Does Q (fun _ => I) k (storageCall call left) :=
  does_storageCall (fun left k hk => Does.mono (fun _ _ h => h) (fun _ _ h => by rwa [ite_self])
    (hcall left k hk)) left hk

/-- The program of one operation. -/
theorem still_op {o : ScheduleOp} (ho : G.Neutral k o) : G.Still k (op o) :=
  Still.act ho

theorem still_storageCall {α : Type} {call : Nat → Run α} (hcall : ∀ left, G.Still k (call left))
    (left : Nat) : G.Still k (storageCall call left) := by
  induction left with
  | zero => exact hcall 0
  | succ left ih =>
    refine Still.tryCatch (hcall (left + 1)) fun e => ?_
    exact .ite ih (.throw e)

theorem recoverIfDue_still
    (hlist : ∀ owner activeOnly limit, G.Neutral k (.listJobs owner activeOnly limit))
    (hrecover : ∀ jobId cutoff, G.Neutral k (.mutate jobId (.recoverStaleCreatingRows cutoff)))
    (due : Option Int) : G.Still k (recoverIfDue due) := by
  cases due with
  | none => exact .pure _
  | some cutoff =>
    refine .bind (still_op (hlist none true 1000)) fun jobs => ?_
    induction jobs with
    | nil => exact .pure _
    | cons job jobs ih => exact .ite (.bind (still_op (hrecover job.id cutoff)) fun _ => ih) ih

theorem reconcileJobs_still
    (hreconcile : ∀ jobId payloads, G.Neutral k (.mutate jobId (.reconcileJob payloads)))
    (rest : List (String × TaskPayloads)) : G.Still k (reconcileJobs rest) := by
  induction rest with
  | nil => exact .pure _
  | cons e rest ih => exact .bind (still_op (hreconcile e.1 e.2)) fun _ => ih

end Programs

end FetchTask.Scheduling
