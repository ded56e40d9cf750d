import FetchTask.Queue.Workers

/-!
The worker loops of one process, and what the process reserves for them
(`app/worker.py`).

A loop claims a task from the queue and, in the section under `_claim_lock`,
reserves what the task's class needs: a place among the browser tasks, the Doubao
browsers, the Qianwen reference tasks or the image preparations, and for a Dola
task one of its owner's remote generations. The reservations are keyed by the
task's id, and the `finally` block of the loop discards them. Whatever else a
loop does is a list of calls on the queue and the records.
-/

namespace FetchTask.Queue

open Store

/-- The constants of a worker process. -/
structure Capacity where
  chars : Chars
  process : Process
  browserTaskConcurrency : Nat
  doubaoBrowserConcurrency : Nat
  qianwenReferenceConcurrency : Nat
  imagePreparationConcurrency : Nat
  /-- `qianwen_ai_studio_model(model) is not None`. -/
  isAiStudioModel : String → Bool

/-- The names that a process gives to its loops. -/
def Capacity.workerId (C : Capacity) (seq : Nat) : WorkerId := C.process ++ "-" ++ toString seq

/-- Whether a worker is a loop of this process. -/
def Capacity.owns (C : Capacity) (worker : WorkerId) : Bool := instanceOf worker == C.process

/-! ### Classes of tasks -/

def platformOf (m : Meta) : String := textOr m.platform "dola"

def isQianwenAiStudioTask (C : Capacity) (m : Meta) : Bool :=
  platformOf m == "qianwen" && textOr m.taskType "video" == "video" &&
    decide (m.imageCount = 0) && C.isAiStudioModel m.model

/-- `task_browser_resource_class`: a browser task, and a Qianwen reference task. -/
def taskBrowserResourceClass (C : Capacity) (m : Meta) : Bool × Bool :=
  let qianwenReference := platformOf m == "qianwen" && decide (0 < m.imageCount)
  (!isQianwenAiStudioTask C m, qianwenReference)

def isImageSubmission (m : Meta) : Bool :=
  (platformOf m == "dola" || platformOf m == "doubao") && decide (0 < m.imageCount)

/-! ### The state of a process -/

/-- The fields of `WorkerManager` that the claim section and the `finally` block work on. -/
structure Manager where
  browserTaskReservations : Finset TaskId := ∅
  doubaoBrowserReservations : Finset TaskId := ∅
  qianwenReferenceReservations : Finset TaskId := ∅
  /-- By task, its owner. -/
  claimedImagePreparations : Dict TaskId String := .empty
  remoteGenerationReservations : Dict TaskId String := .empty
  remoteOwnerCounts : String → Nat := fun _ => 0
  remoteOwnerLimits : String → Option Int := fun _ => none
  remoteOwnerRefreshedAt : Int := 0

/-- The stores, the process, the limits of the token entries, and for each task the worker that
has claimed it last. -/
structure Plant where
  world : World
  manager : Manager
  limits : String → Option Int
  claimers : TaskId → WorkerId

/-- What the surroundings contribute: the time of the clock and of the event loop, the share of
the owner in the image preparations, and whether the two reads of a refresh succeed. -/
structure Surroundings where
  now : Int
  loopTime : Int
  imagePrepareOwnerLimit : Int := 1
  countsReadable : Bool := true
  limitsReadable : Bool := true

/-! ### The claim section -/

inductive Admission
  | accepted
  /-- What `defer_task` is called with. -/
  | deferred (reason category : String) (delaySeconds : Int)

/-- A task that counts among the remote generations of its owner. -/
def generatesFor (owner : String) (m : Meta) : Bool :=
  m.status == .submitted && platformOf m == "dola" && m.ownerTokenHash == owner

def submittedCounts (tasks : Dict TaskId Meta) (owner : String) : Nat :=
  tasks.items.countP fun p => generatesFor owner p.2

/-- `max(1, min(999, int(limits.get(owner) or 1)))`. -/
def remoteLimit (limits : String → Option Int) (owner : String) : Int :=
  let limit := (limits owner).getD 0
  max 1 (min 999 (if limit = 0 then 1 else limit))

section TryReserve

variable (C : Capacity) (e : Surroundings) (t : TaskId) (m : Meta) (s : Plant)

/-- `_remote_generation_owner_state`: the counts are stored before the limits are read. -/
def remoteGenerationOwnerState : Manager :=
  let M := s.manager
  if second ≤ e.loopTime - M.remoteOwnerRefreshedAt ∧ e.countsReadable then
    let counted := { M with remoteOwnerCounts := submittedCounts s.world.tasks }
    if e.limitsReadable then
      { counted with remoteOwnerLimits := s.limits, remoteOwnerRefreshedAt := e.loopTime }
    else counted
  else M

def Manager.remoteReserved (M : Manager) (owner : String) : Nat :=
  M.remoteGenerationReservations.items.countP fun p => p.2 == owner

/-- `_reserve_remote_generation_slot`. -/
def reserveRemoteGenerationSlot : Bool × Manager :=
  let owner := m.ownerTokenHash
  let reserve (M : Manager) (owner : String) : Manager :=
    { M with remoteGenerationReservations := M.remoteGenerationReservations.set t owner }
  if owner = "" then (true, reserve s.manager "")
  else
    let M := remoteGenerationOwnerState e s
    let limit := remoteLimit M.remoteOwnerLimits owner
    if limit ≤ M.remoteOwnerCounts owner + M.remoteReserved owner then (false, M)
    else (true, reserve M owner)

/-- The checks that come before the remote generations. -/
def refusal : Option Admission :=
  let M := s.manager
  let platform := platformOf m
  let classes := taskBrowserResourceClass C m
  if classes.1 ∧ C.browserTaskConcurrency ≤ M.browserTaskReservations.card then
    some (.deferred "等待浏览器任务资源" "browser_task_limit" 5)
  else if platform = "doubao" ∧ C.doubaoBrowserConcurrency ≤ M.doubaoBrowserReservations.card then
    some (.deferred "豆包任务等待独立浏览器资源" "doubao_browser_limit" 5)
  else if classes.2 ∧ C.qianwenReferenceConcurrency ≤ M.qianwenReferenceReservations.card then
    some (.deferred "千问参考图任务等待浏览器资源" "qianwen_reference_limit" 5)
  else
    let active := M.claimedImagePreparations.items.countP fun p => p.2 == m.ownerTokenHash
    if isImageSubmission m ∧ (C.imagePreparationConcurrency ≤ M.claimedImagePreparations.size ∨
        e.imagePrepareOwnerLimit ≤ active) then
      some (.deferred "参考图任务等待页面准备通道" "image_prepare_limit" 10)
    else none

/-- What the section adds for a task that it accepts, besides the remote generation. -/
def reserveClasses (M : Manager) : Manager :=
  let classes := taskBrowserResourceClass C m
  { M with
    browserTaskReservations :=
      if classes.1 then insert t M.browserTaskReservations else M.browserTaskReservations
    doubaoBrowserReservations :=
      if platformOf m = "doubao" then insert t M.doubaoBrowserReservations
      else M.doubaoBrowserReservations
    qianwenReferenceReservations :=
      if classes.2 then insert t M.qianwenReferenceReservations
      else M.qianwenReferenceReservations
    claimedImagePreparations :=
      if isImageSubmission m then M.claimedImagePreparations.set t m.ownerTokenHash
      else M.claimedImagePreparations }

/-- What the section does with a candidate; no `await` lies in between. -/
def tryReserve : Admission × Manager :=
  match refusal C e m s with
  | some deferred => (deferred, s.manager)
  | none =>
    let slot :=
      if platformOf m = "dola" then reserveRemoteGenerationSlot e t m s else (true, s.manager)
    if slot.1 then (.accepted, reserveClasses C t m slot.2)
    else (.deferred "当前用户远端生成任务已达上限，继续排队" "remote_limit" 5, slot.2)

/-- The end of the `finally` block. -/
def Manager.discard (M : Manager) (t : TaskId) : Manager where
  browserTaskReservations := M.browserTaskReservations.erase t
  doubaoBrowserReservations := M.doubaoBrowserReservations.erase t
  qianwenReferenceReservations := M.qianwenReferenceReservations.erase t
  claimedImagePreparations := M.claimedImagePreparations.erase t
  remoteGenerationReservations := M.remoteGenerationReservations.erase t
  remoteOwnerCounts := M.remoteOwnerCounts
  remoteOwnerLimits := M.remoteOwnerLimits
  remoteOwnerRefreshedAt :=
    if (M.remoteGenerationReservations.get? t).any (· != "") then 0 else M.remoteOwnerRefreshedAt

end TryReserve

/-! ### Operations -/

inductive LoopOp
  /-- The decision of the section on a candidate with this record. -/
  | tryReserve (t : TaskId) (m : Meta)
  /-- The callback of an automation that has placed the reference images. -/
  | releaseImagePreparation (t : TaskId)
  | discard (t : TaskId)
  /-- A change of the limits in the token entries, by a request. -/
  | setLimits (limits : String → Option Int)

abbrev LoopOp.Res : LoopOp → Type
  | .tryReserve .. => Admission
  | _ => Unit

abbrev LoopOpSig : Sig := ⟨LoopOp, LoopOp.Res⟩

abbrev LoopSig : Sig := LoopOpSig.sum QueueSig

def loopHandle (C : Capacity) (e : Surroundings) : (o : LoopOp) → Plant → o.Res × Plant
  | .tryReserve t m, s =>
    let result := tryReserve C e t m s
    (result.1, { s with manager := result.2 })
  | .releaseImagePreparation t, s =>
    ((), { s with manager :=
      { s.manager with
        claimedImagePreparations := s.manager.claimedImagePreparations.erase t } })
  | .discard t, s => ((), { s with manager := s.manager.discard t })
  | .setLimits limits, s => ((), { s with limits })

/-- The last claimers after an operation on the records. -/
def Op.claimers (claimers : TaskId → WorkerId) : (o : Op) → o.Res → TaskId → WorkerId
  | .claimTask t worker .., some true => Function.update claimers t worker
  | _, _ => claimers

def plantHandle (C : Capacity) (e : Surroundings) :
    (o : LoopSig.Op) → Plant → LoopSig.Res o × Plant
  | .inl o, s => loopHandle C e o s
  | .inr o, s =>
    let result := handle C.chars e.now o s.world
    (result.1, { s with world := result.2, claimers := o.claimers s.claimers result.1 })

/-! ### The loops -/

abbrev LoopCall (α : Type) := Prog LoopSig α

def onQueue {α : Type} (call : Call α) : LoopCall α := call.inr

def loopOp (o : LoopOp) : LoopCall o.Res := @Prog.perform LoopSig (.inl o)

/-- The claim section: at most `n` more candidates. An exception ends the loop. -/
def claimSection (worker : WorkerId) (limits : Limits) (streak : Nat → Nat) :
    Nat → LoopCall (Option TaskId)
  | 0 => pure none
  | n + 1 =>
    onQueue (claim worker limits (streak n)) >>= fun candidate =>
    match candidate with
    | none => pure none
    | some t =>
      onQueue (op (.getMeta t)) >>= fun m =>
      match m with
      | none => pure none
      | some m =>
        loopOp (.tryReserve t m) >>= fun admission =>
        match admission with
        | .accepted => pure (some t)
        | .deferred reason category delaySeconds =>
          onQueue (op (.clock t)) >>= fun now =>
          onQueue (op (.write t (.deferTask reason category delaySeconds now))) >>= fun written =>
          if written.isNone then pure none
          else onQueue (release t worker) >>= fun _ => claimSection worker limits streak n

/-- What an iteration does with its task, as far as it matters here. -/
inductive IterationStep
  | releaseImagePreparation
  | queue (call : QueueCall)

def IterationStep.run (t : TaskId) : IterationStep → LoopCall Unit
  | .releaseImagePreparation => loopOp (.releaseImagePreparation t)
  | .queue call => onQueue call.prog

def runSteps (t : TaskId) : List IterationStep → LoopCall Unit
  | [] => pure ()
  | step :: steps => step.run t >>= fun _ => runSteps t steps

/-- One iteration of `_worker_loop`, up to any of its exits. When `release` raises, nothing is
discarded. -/
def workerIteration (worker : WorkerId) (limits : Limits) (streak : Nat → Nat)
    (steps : List IterationStep) (releases : Bool) : LoopCall Unit :=
  claimSection worker limits streak 20 >>= fun claimed =>
  match claimed with
  | none => pure ()
  | some t =>
    runSteps t steps >>= fun _ =>
    if releases then onQueue (release t worker) >>= fun _ => loopOp (.discard t) else pure ()

inductive LoopRequest
  | iteration (seq : Nat) (limits : Limits) (streak : Nat → Nat) (steps : List IterationStep)
      (releases : Bool)
  /-- The watchdog, the supervisor, requests, other processes. -/
  | other (call : QueueCall)
  | setLimits (limits : String → Option Int)

def LoopRequest.prog (C : Capacity) : LoopRequest → LoopCall Unit
  | .iteration seq limits streak steps releases =>
    workerIteration (C.workerId seq) limits streak steps releases
  | .other call => onQueue call.prog
  | .setLimits limits => loopOp (.setLimits limits)

end FetchTask.Queue
