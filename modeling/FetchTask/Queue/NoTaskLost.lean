import FetchTask.Lib.Handover
import FetchTask.Queue.Calls

/-!
No pending task is lost.

A task that has been enqueued and is pending is meant to be in a ready list or a
delayed set, unless a call on it is still in progress. The calls take a task out
of the queue and put it back in several operations, so this is an obligation
that they carry (`Handover`). Five operations can leave a pending task nowhere;
in a run in which each of these finds the task carried by another call, no task
is lost.
-/

namespace FetchTask.Queue

open Runs Store

/-! ### The law -/

/-- The task is in a ready list or a delayed set. -/
def Redis.Queued (r : Redis) (t : TaskId) : Prop :=
  t ∈ r.ready ∨ t ∈ r.retryReady ∨ r.delayed.contains t = true ∨ r.retryDelayed.contains t = true

/-- The task has been enqueued, is pending, and nobody has asked to cancel it. -/
def World.Awaited (w : World) (t : TaskId) : Prop :=
  w.seen t = true ∧ ∃ m, w.tasks.get? t = some m ∧ Waiting m

/-- The task that an operation is about. -/
def Op.task : Op → Option TaskId
  | .clock about => about
  | .readPaused t | .getMeta t | .loadResult t | .claimTask t .. | .write t _
  | .enqueueScript _ t .. | .requeueScript _ t .. | .leasePipeline t .. | .delayClaimedPipeline _ t _
  | .ackPipeline t | .heartbeatScript t .. | .delayOwnedScript _ t .. | .ackOwnedScript t _
  | .lremRetryReady t | .zremRetryDelayed t | .recoverScript t _ | .lpushReady _ t
  | .sremKnown t => some t
  | .setPaused _ | .listPending _ | .promoteScript .. | .lmove _ | .expiredLeases _ => none

/-- The operations that a call performs on a task last: they put it into the queue, or give
it up. -/
def Op.settles : Op → Bool
  | .requeueScript .. | .delayClaimedPipeline .. | .ackPipeline _ | .delayOwnedScript ..
  | .lpushReady .. => true
  | _ => false

/-- A call takes charge of the task that it moves, and of one that it may have set pending:
its count is within the limit. -/
def taskHandover : Handover QueueSig TaskId where
  on o t := o.task = some t
  pays o _ := o.settles = true
  sees o r _ :=
    match o, r with
    | .getMeta _, r => ∃ m, r = some m ∧ Waiting m
    | .claimTask .., r => r = some false
    | .write .., r => r.isSome = true
    | _, _ => True
  owes o r t :=
    match o, r with
    | .lmove _, r => r = some t
    | .write j o, r => j = t ∧ o.setsPending = true ∧
        ∃ count, r = some count ∧ ∀ limit ∈ o.retryLimit, count ≤ limit
    | _, _ => False

/-- Whenever a task is awaited and no thread's next operation is on it, it is queued. -/
def NoTaskLost (c : QueueConfig) : Prop :=
  ∀ t, c.shared.Awaited t → (∀ i, ¬ taskHandover.Busy t (c.threads i)) → c.shared.redis.Queued t

/-- The operations that leave an awaited task out of the queue.

* `_ack`, by a claimer that was refused or has found an older state of the record.
* `_ack_owned`, when the task is in the delayed set only, and the two removals after it, which
  check no owner.
* `_delay_owned`, by a worker that does not own the task any more. -/
def Op.Drops : Op → World → TaskId → Prop
  | .ackPipeline j, w, t => j = t ∧ w.Awaited t
  | .ackOwnedScript j worker, w, t =>
    j = t ∧ w.Awaited t ∧ w.redis.owners t = some worker ∧ w.redis.delayed.contains t = true ∧
      t ∉ w.redis.ready ∧ t ∉ w.redis.retryReady ∧ w.redis.retryDelayed.contains t = false
  | .lremRetryReady j, w, t =>
    j = t ∧ w.Awaited t ∧ t ∈ w.redis.retryReady ∧
      t ∉ w.redis.ready ∧ w.redis.delayed.contains t = false ∧ w.redis.retryDelayed.contains t = false
  | .zremRetryDelayed j, w, t =>
    j = t ∧ w.Awaited t ∧ w.redis.retryDelayed.contains t = true ∧
      t ∉ w.redis.ready ∧ t ∉ w.redis.retryReady ∧ w.redis.delayed.contains t = false
  | .delayOwnedScript _ j worker _, w, t =>
    j = t ∧ w.Awaited t ∧ w.redis.owners t ≠ some worker ∧ ¬ w.redis.Queued t
  | _, _, _ => False

/-- What a thread drops, another thread carries. -/
abbrev DropsCarried : Label QueueCall Int → QueueConfig → Prop :=
  taskHandover.DropsCarried Op.Drops

/-! ### What the operations do to an awaited task -/

section Operations

variable {u : Chars} {now : Int} {r : Redis} {w w' : World} {t j : TaskId} {m : Meta}

theorem insert_queued (retrying : Bool) (score time : Int) :
    (r.insert retrying t score time).Queued t := by
  cases retrying <;> by_cases hscore : time < score <;>
    simp [Redis.insert, Redis.zaddDelayed, Redis.lpushReady, Redis.Queued, hscore]

theorem Redis.Queued.insert (h : r.Queued t) (retrying : Bool) (score time : Int) :
    (r.insert retrying j score time).Queued t := by
  rcases h with h | h | h | h <;> cases retrying <;> by_cases hscore : time < score <;>
    simp [Redis.insert, Redis.zaddDelayed, Redis.lpushReady, Redis.Queued, hscore, h]

theorem Redis.Queued.requeueScript (h : r.Queued t) (retrying : Bool) (score time : Int) :
    (r.requeueScript retrying j score time).Queued t := by
  by_cases hj : t = j
  · subst hj
    exact insert_queued retrying score time
  · refine Redis.Queued.insert ?_ retrying score time
    simpa [Redis.Queued, mem_lrem, hj] using h

theorem Redis.Queued.promoteScript (h : r.Queued t) (retrying : Bool) (time : Int) :
    (r.promoteScript retrying time).Queued t := by
  -- A due task goes from the delayed set to the ready list.
  have hdue : ∀ z : ZSet, z.contains t = true → t ∈ zrangebyscore z time 100 ∨
      (z.filter fun p => p.1 ∉ zrangebyscore z time 100).contains t = true := by
    intro z hz
    have hfilter := z.contains_filter_key (fun i => decide (i ∉ zrangebyscore z time 100)) t
    rw [hfilter, hz]
    by_cases hmem : t ∈ zrangebyscore z time 100 <;> simp [hmem]
  rcases h with h | h | h | h
  · cases retrying <;> simp [Redis.promoteScript, Redis.Queued, h]
  · cases retrying <;> simp [Redis.promoteScript, Redis.Queued, h]
  · cases retrying
    · rcases hdue _ h with hmem | hmem
      · exact .inl (by simp [Redis.promoteScript, hmem])
      · exact .inr (.inr (.inl (by simpa [Redis.promoteScript] using hmem)))
    · simp [Redis.promoteScript, Redis.Queued, h]
  · cases retrying
    · simp [Redis.promoteScript, Redis.Queued, h]
    · rcases hdue _ h with hmem | hmem
      · exact .inr (.inl (by simp [Redis.promoteScript, hmem]))
      · exact .inr (.inr (.inr (by simpa [Redis.promoteScript] using hmem)))

/-- `LMOVE` takes away the task that it returns and no other. -/
theorem Redis.Queued.lmove (h : r.Queued t) (fromRetry : Bool) :
    (r.lmove fromRetry).2.Queued t ∨ (r.lmove fromRetry).1 = some t := by
  simp only [Redis.lmove]
  split
  · exact .inl h
  · rename_i moved hlast
    obtain ⟨front, hfront⟩ := List.getLast?_eq_some_iff.mp hlast
    by_cases ht : moved = t
    · exact .inr (congrArg some ht)
    · have hrest : ∀ l : List TaskId, l = front ++ [moved] → t ∈ l → t ∈ l.dropLast := by
        rintro l rfl hmem
        simpa [Ne.symm ht] using hmem
      refine .inl ?_
      rcases h with h | h | h | h
      · cases fromRetry
        · exact .inl (hrest _ hfront h)
        · exact .inl h
      · cases fromRetry
        · exact .inr (.inl h)
        · exact .inr (.inl (hrest _ hfront h))
      · exact .inr (.inr (.inl h))
      · exact .inr (.inr (.inr h))

/-! ### What the store does to a waiting record -/

theorem claimTask_waiting {worker : WorkerId} {atLimit : Bool}
    (h : Waiting (claimTask worker atLimit now m).2) :
    claimTask worker atLimit now m = (false, m) := by
  revert h
  simp only [claimTask]
  split
  · intro _
    rfl
  split
  · intro _
    rfl
  · rintro ⟨hstatus, -⟩
    cases hstatus

theorem updateMetaIf_waiting {expected : List Status} {updates : Meta → Meta}
    (hupdates : ∀ m, ¬ Waiting (updates m)) (h : Waiting (updateMetaIf expected now updates m).2) :
    Waiting m := by
  by_cases hm : m.status ∈ expected
  · rw [updateMetaIf_of_mem hm] at h
    exact absurd h (hupdates m)
  · rwa [updateMetaIf_of_not_mem hm] at h

theorem not_waiting_of_status (h : m.status ≠ .pending) : ¬ Waiting m := fun hw => h hw.1

/-- Only an operation that sets records pending makes a record wait, and then its count is
within its limit. -/
theorem storeOp_waiting (o : StoreOp) (h : Waiting (o.apply u m)) :
    Waiting m ∨ (o.setsPending = true ∧ ∀ limit ∈ o.retryLimit, o.count u m ≤ limit) := by
  cases o with
  | failInitializing reason now =>
    exact .inl (updateMetaIf_waiting (fun m => not_waiting_of_status (by simp)) h)
  | markRunning paused workerId atLimit now =>
    cases paused with
    | true => exact .inl h
    | false =>
      have hclaim : Waiting (claimTask workerId atLimit now m).2 := h
      rw [claimTask_waiting hclaim] at hclaim
      exact .inl hclaim
  | markPending reason now => exact .inr ⟨rfl, by simp [StoreOp.retryLimit]⟩
  | deferTask reason category delaySeconds now => exact .inr ⟨rfl, by simp [StoreOp.retryLimit]⟩
  | markFailed reason now =>
    simp only [StoreOp.apply, Store.markFailed] at h
    split at h
    · exact .inl h
    · cases h.1
  | markCanceled reason now =>
    exact .inl (updateMetaIf_waiting (fun m => not_waiting_of_status (by simp)) h)
  | requestTaskCancel reason allowSubmitted now =>
    simp only [StoreOp.apply, Store.requestTaskCancel] at h
    split at h
    · exact .inl h
    · cases h.1
  | recordRetry retryLimit reason now =>
    simp only [StoreOp.apply, Store.recordRetry] at h
    split at h
    · exact .inl h
    · rename_i hopen
      refine .inr ⟨rfl, ?_⟩
      split at h
      · cases h.1
      · rename_i hcount
        simpa [StoreOp.retryLimit, StoreOp.count, Store.recordRetry, hopen] using hcount
  | recordInfrastructureRetry reason now =>
    simp only [StoreOp.apply, Store.recordInfrastructureRetry] at h
    split at h
    · exact .inl h
    · rename_i hopen
      refine .inr ⟨rfl, ?_⟩
      split at h
      · cases h.1
      · rename_i hcount
        simpa [StoreOp.retryLimit, StoreOp.count, Store.recordInfrastructureRetry, hopen, apply_ite]
          using hcount
  | retrySubmittedTask maxRetries reason delaySeconds now =>
    simp only [StoreOp.apply, Store.retrySubmittedTask] at h
    split at h
    · exact .inl h
    · rename_i hopen
      refine .inr ⟨rfl, ?_⟩
      split at h
      · cases h.1
      · rename_i hcount
        simpa [StoreOp.retryLimit, StoreOp.count, Store.retrySubmittedTask, hopen] using hcount
  | retryAmbiguousProxyTask reason accountId proxyNodeId delaySeconds now =>
    exact .inr ⟨rfl, by simp [StoreOp.retryLimit]⟩
  | retryAmbiguousSubmittedTask maxRetries reason delaySeconds now =>
    simp only [StoreOp.apply, Store.retryAmbiguousSubmittedTask] at h
    split at h
    · exact .inl h
    · rename_i hopen
      refine .inr ⟨rfl, ?_⟩
      split at h
      · cases h.1
      · rename_i hcount
        simpa [StoreOp.retryLimit, StoreOp.count, Store.retryAmbiguousSubmittedTask, hopen, apply_ite]
          using hcount
  | retryTimedOutSubmittedTask maxRetries reason delaySeconds now =>
    simp only [StoreOp.apply, Store.retryTimedOutSubmittedTask] at h
    split at h
    · exact .inl h
    · rename_i hopen
      refine .inr ⟨rfl, ?_⟩
      split at h
      · cases h.1
      · rename_i hcount
        simpa [StoreOp.retryLimit, StoreOp.count, Store.retryTimedOutSubmittedTask, hopen] using hcount
  | recordExecutionMiss retryLimit reason now =>
    simp only [StoreOp.apply, Store.recordExecutionMiss] at h
    refine .inr ⟨rfl, ?_⟩
    split at h
    · cases h.1
    · rename_i hcount
      simpa [StoreOp.retryLimit, StoreOp.count, Store.recordExecutionMiss] using hcount
  | recordResultWatchMiss reason now => exact .inl h
  | markRetryQueueVerified now =>
    simp only [StoreOp.apply, Store.markRetryQueueVerified] at h
    by_cases hm : m.status ∈ [Status.pending]
    · rw [updateMetaIf_of_mem hm] at h
      exact .inl h
    · rw [updateMetaIf_of_not_mem hm] at h
      exact .inl h
  | markSuccess hasUrl now =>
    simp only [StoreOp.apply, Store.markSuccess] at h
    split at h
    · exact .inl h
    · exact .inl (updateMetaIf_waiting (fun m => not_waiting_of_status (by simp)) h)
  | markLateResultSuccess hasUrl now =>
    simp only [StoreOp.apply, Store.markLateResultSuccess] at h
    split at h
    · exact .inl h
    · exact .inl (updateMetaIf_waiting (fun m => not_waiting_of_status (by simp)) h)
  | markSubmitted resultPollDelaySeconds now =>
    exact .inl (updateMetaIf_waiting (fun m => not_waiting_of_status (by simp)) h)
  | resetRunning wasSubmitted submittedAt now => exact .inr ⟨rfl, by simp [StoreOp.retryLimit]⟩

/-! ### The account of every operation -/

/-- How an operation that returned `r` accounts for a task that is awaited after it. -/
abbrev AccountsFor (o : Op) (r : o.Res) (w w' : World) (t : TaskId) : Prop :=
  w'.redis.Queued t ∨ taskHandover.owes o r t ∨ o.Drops w t ∨
    (w.Awaited t ∧ ¬ w.redis.Queued t ∧
      (o.task = some t → ¬ o.settles = true ∧ taskHandover.sees o r t))

/-- An operation that takes no queued task out and changes no record. -/
theorem accountsFor_of_kept {o : Op} {r : o.Res} (haw : w'.Awaited t → w.Awaited t)
    (hq : w.redis.Queued t → w'.redis.Queued t) (ht : w'.Awaited t)
    (hsees : w.Awaited t → o.task = some t → ¬ o.settles = true ∧ taskHandover.sees o r t) :
    AccountsFor o r w w' t := by
  by_cases hqueued : w.redis.Queued t
  · exact .inl (hq hqueued)
  · exact .inr (.inr (.inr ⟨haw ht, hqueued, hsees (haw ht)⟩))

/-- A script that puts the task `j` into the queue. -/
theorem accountsFor_of_inserted {o : Op} {r : o.Res} (hself : t = j → w'.redis.Queued t)
    (haw : t ≠ j → w'.Awaited t → w.Awaited t)
    (hq : t ≠ j → w.redis.Queued t → w'.redis.Queued t) (ht : w'.Awaited t)
    (ho : o.task = some j) : AccountsFor o r w w' t := by
  by_cases hj : t = j
  · exact .inl (hself hj)
  · refine accountsFor_of_kept (haw hj) (hq hj) ht fun _ htask => ?_
    rw [ho] at htask
    exact absurd (Option.some.inj htask).symm hj

theorem awaited_markSeen (hj : t ≠ j) : (w.markSeen j).Awaited t ↔ w.Awaited t := by
  simp [World.Awaited, World.markSeen, hj]

theorem awaited_setTask_of_ne (hj : t ≠ j) : (w.setTask j m).Awaited t ↔ w.Awaited t := by
  simp [World.Awaited, World.setTask, Ne.symm hj]

theorem awaited_setTask_self : (w.setTask t m).Awaited t ↔ w.seen t = true ∧ Waiting m := by
  simp [World.Awaited, World.setTask]

theorem accounted (u : Chars) :
    Handover.Accounted taskHandover (handle u) World.Awaited (fun w => w.redis.Queued) Op.Drops := by
  intro now o w t ht
  show AccountsFor o (handle u now o w).1 w (handle u now o w).2 t
  cases o with
  | clock about => exact accountsFor_of_kept id id ht fun _ _ => ⟨by simp [Op.settles], trivial⟩
  | readPaused j => exact accountsFor_of_kept id id ht fun _ _ => ⟨by simp [Op.settles], trivial⟩
  | setPaused paused => exact accountsFor_of_kept id id ht fun _ _ => ⟨by simp [Op.settles], trivial⟩
  | getMeta j =>
    refine accountsFor_of_kept id id ht fun haw htask => ⟨by simp [Op.settles], ?_⟩
    cases htask
    exact haw.2
  | loadResult j => exact accountsFor_of_kept id id ht fun _ _ => ⟨by simp [Op.settles], trivial⟩
  | listPending limit => exact accountsFor_of_kept id id ht fun _ _ => ⟨by simp [Op.settles], trivial⟩
  | claimTask j worker owner limit claimedAt =>
    cases hm : w.tasks.get? j with
    | none =>
      have hhandle : handle u now (.claimTask j worker owner limit claimedAt) w = (none, w) := by
        simp only [handle, hm]
      rw [hhandle] at ht ⊢
      refine accountsFor_of_kept id id ht fun haw htask => ?_
      cases htask
      obtain ⟨-, m, hget, -⟩ := haw
      rw [hm] at hget
      cases hget
    | some m =>
      have hhandle : handle u now (.claimTask j worker owner limit claimedAt) w =
          (some (claimTask worker (atLimit w.tasks owner limit) claimedAt m).1,
            w.setTask j (claimTask worker (atLimit w.tasks owner limit) claimedAt m).2) := by
        simp only [handle, hm]
      rw [hhandle] at ht ⊢
      by_cases hj : t = j
      · -- The task is still awaited, so the claim was refused.
        subst hj
        obtain ⟨hseen, hwaiting⟩ := awaited_setTask_self.mp ht
        have hrefused := claimTask_waiting hwaiting
        rw [hrefused] at hwaiting ht ⊢
        exact accountsFor_of_kept (fun _ => ⟨hseen, m, hm, hwaiting⟩) id ht
          fun _ _ => ⟨by simp [Op.settles], rfl⟩
      · refine accountsFor_of_kept (awaited_setTask_of_ne hj).mp id ht fun _ htask => ?_
        exact absurd (Option.some.inj htask).symm hj
  | write j o =>
    cases hm : w.tasks.get? j with
    | none =>
      have hhandle : handle u now (.write j o) w = (none, w) := by simp only [handle, hm]
      rw [hhandle] at ht ⊢
      refine accountsFor_of_kept id id ht fun haw htask => ?_
      cases htask
      obtain ⟨-, m, hget, -⟩ := haw
      rw [hm] at hget
      cases hget
    | some m =>
      have hhandle : handle u now (.write j o) w =
          (some (o.count u m), w.setTask j (o.apply u m)) := by
        simp only [handle, hm]
      rw [hhandle] at ht ⊢
      by_cases hj : t = j
      · subst hj
        obtain ⟨hseen, hwaiting⟩ := awaited_setTask_self.mp ht
        rcases storeOp_waiting o hwaiting with hbefore | ⟨hpending, hcount⟩
        · exact accountsFor_of_kept (fun _ => ⟨hseen, m, hm, hbefore⟩) id ht
            fun _ _ => ⟨by simp [Op.settles], rfl⟩
        · -- The write has made the task pending: the thread owes it.
          exact .inr (.inl ⟨rfl, hpending, _, rfl, hcount⟩)
      · refine accountsFor_of_kept (awaited_setTask_of_ne hj).mp id ht fun _ htask => ?_
        exact absurd (Option.some.inj htask).symm hj
  | enqueueScript retrying j score time =>
    by_cases hknown : w.redis.known j = true
    · have hhandle : handle u now (.enqueueScript retrying j score time) w = (false, w) := by
        simp [handle, Redis.enqueueScript, hknown]
      rw [hhandle] at ht ⊢
      exact accountsFor_of_kept id id ht fun _ _ => ⟨by simp [Op.settles], trivial⟩
    · have hhandle : handle u now (.enqueueScript retrying j score time) w =
          (true, { w with
            redis := { w.redis with known := Function.update w.redis.known j true }.insert
              retrying j score time }.markSeen j) := by
        simp [handle, Redis.enqueueScript, hknown]
      rw [hhandle] at ht ⊢
      refine accountsFor_of_inserted (j := j) ?_ (fun hj => (awaited_markSeen hj).mp) ?_ ht rfl
      · rintro rfl
        exact insert_queued retrying score time
      · intro _ hq
        have hmarked : Redis.Queued
            { w.redis with known := Function.update w.redis.known j true } t := hq
        exact hmarked.insert retrying score time
  | requeueScript retrying j score time =>
    refine accountsFor_of_inserted (j := j) ?_ (fun hj => (awaited_markSeen hj).mp)
      (fun _ hq => hq.requeueScript retrying score time) ht rfl
    rintro rfl
    exact insert_queued retrying score time
  | promoteScript retrying time =>
    exact accountsFor_of_kept id (fun hq => hq.promoteScript retrying time) ht
      fun _ htask => by cases htask
  | lmove fromRetry =>
    have haw : w.Awaited t := ht
    by_cases hqueued : w.redis.Queued t
    · rcases hqueued.lmove fromRetry with hstill | hmoved
      · exact .inl hstill
      · exact .inr (.inl hmoved)
    · exact .inr (.inr (.inr ⟨haw, hqueued, fun htask => by cases htask⟩))
  | leasePipeline j worker expiry =>
    exact accountsFor_of_kept id id ht fun _ _ => ⟨by simp [Op.settles], trivial⟩
  | delayClaimedPipeline retrying j score =>
    refine accountsFor_of_inserted (j := j) ?_ (fun _ => id) (fun hj hq => ?_) ht rfl
    · rintro rfl
      cases retrying <;> simp [handle, Redis.delayClaimedPipeline, Redis.Queued]
    · cases retrying <;>
        simpa [handle, Redis.delayClaimedPipeline, Redis.Queued, hj, Ne.symm hj] using hq
  | ackPipeline j =>
    by_cases hj : j = t
    · exact .inr (.inr (.inl ⟨hj, ht⟩))
    · refine accountsFor_of_kept id (fun hq => ?_) ht fun _ htask => ?_
      · simpa [handle, Redis.ackPipeline, Redis.Queued, mem_lrem, Ne.symm hj] using hq
      · exact absurd (Option.some.inj htask) hj
  | heartbeatScript j worker expiry =>
    have hsame : (handle u now (.heartbeatScript j worker expiry) w).2.redis.Queued t ↔
        w.redis.Queued t := by
      simp only [handle, Redis.heartbeatScript]
      split <;> exact Iff.rfl
    exact accountsFor_of_kept id hsame.mpr ht fun _ _ => ⟨by simp [Op.settles], trivial⟩
  | delayOwnedScript retrying j worker score =>
    have haw : w.Awaited t := ht
    by_cases howner : w.redis.owners j = some worker
    · have hredis : (handle u now (.delayOwnedScript retrying j worker score) w).2.redis =
          (w.redis.delayOwnedScript retrying j worker score).2 := rfl
      simp only [Redis.delayOwnedScript, howner, if_true] at hredis
      refine accountsFor_of_inserted (j := j) ?_ (fun _ => id) (fun hj hq => ?_) ht rfl
      · rintro rfl
        rw [hredis]
        cases retrying <;> simp [Redis.zaddDelayed, Redis.Queued]
      · rw [hredis]
        cases retrying <;> simpa [Redis.zaddDelayed, Redis.Queued, Ne.symm hj] using hq
    · have hhandle : handle u now (.delayOwnedScript retrying j worker score) w = (false, w) := by
        simp [handle, Redis.delayOwnedScript, howner]
      rw [hhandle] at ht ⊢
      by_cases hqueued : w.redis.Queued t
      · exact .inl hqueued
      by_cases hj : j = t
      · subst hj
        exact .inr (.inr (.inl ⟨rfl, haw, howner, hqueued⟩))
      · exact .inr (.inr (.inr ⟨haw, hqueued, fun htask => absurd (Option.some.inj htask) hj⟩))
  | ackOwnedScript j worker =>
    have haw : w.Awaited t := ht
    by_cases howner : w.redis.owners j = some worker
    · by_cases hqueued : w.redis.Queued t
      · have hredis : (handle u now (.ackOwnedScript j worker) w).2.redis =
            (w.redis.ackOwnedScript j worker).2 := rfl
        simp only [Redis.ackOwnedScript, howner, if_true] at hredis
        by_cases hstill : (handle u now (.ackOwnedScript j worker) w).2.redis.Queued t
        · exact .inl hstill
        · -- The task was in the delayed set that the script looks at, and nowhere else.
          rw [hredis] at hstill
          simp only [Redis.Queued, not_or] at hstill hqueued
          obtain ⟨hready, hretry, hdelayed, hretryDelayed⟩ := hstill
          by_cases hj : j = t
          · subst hj
            exact .inr (.inr (.inl ⟨rfl, haw, howner, by simp_all, hready, hretry, by simp_all⟩))
          · simp_all [Ne.symm hj]
      · exact .inr (.inr (.inr ⟨haw, hqueued, fun _ => ⟨by simp [Op.settles], trivial⟩⟩))
    · have hhandle : handle u now (.ackOwnedScript j worker) w = (false, w) := by
        simp [handle, Redis.ackOwnedScript, howner]
      rw [hhandle] at ht ⊢
      exact accountsFor_of_kept id id ht fun _ _ => ⟨by simp [Op.settles], trivial⟩
  | lremRetryReady j =>
    have haw : w.Awaited t := ht
    by_cases hqueued : w.redis.Queued t
    · by_cases hstill : (handle u now (.lremRetryReady j) w).2.redis.Queued t
      · exact .inl hstill
      · simp only [handle, Redis.lremRetryReady, Redis.Queued, not_or, mem_lrem] at hstill hqueued
        by_cases hj : j = t
        · subst hj
          exact .inr (.inr (.inl ⟨rfl, haw, by simp_all, hstill.1, by simp_all, by simp_all⟩))
        · simp_all [Ne.symm hj]
    · exact .inr (.inr (.inr ⟨haw, hqueued, fun _ => ⟨by simp [Op.settles], trivial⟩⟩))
  | zremRetryDelayed j =>
    have haw : w.Awaited t := ht
    by_cases hqueued : w.redis.Queued t
    · by_cases hstill : (handle u now (.zremRetryDelayed j) w).2.redis.Queued t
      · exact .inl hstill
      · simp only [handle, Redis.zremRetryDelayed, Redis.Queued, not_or, Dict.contains_erase]
          at hstill hqueued
        by_cases hj : j = t
        · subst hj
          exact .inr (.inr (.inl ⟨rfl, haw, by simp_all, hstill.1, hstill.2.1, by simp_all⟩))
        · simp_all [Ne.symm hj]
    · exact .inr (.inr (.inr ⟨haw, hqueued, fun _ => ⟨by simp [Op.settles], trivial⟩⟩))
  | expiredLeases time => exact accountsFor_of_kept id id ht fun _ _ => ⟨by simp [Op.settles], trivial⟩
  | recoverScript j time =>
    have hsame : (handle u now (.recoverScript j time) w).2.redis.Queued t ↔ w.redis.Queued t := by
      simp only [handle, Redis.recoverScript]
      split
      · exact Iff.rfl
      · split <;> exact Iff.rfl
    exact accountsFor_of_kept id hsame.mpr ht fun _ _ => ⟨by simp [Op.settles], trivial⟩
  | lpushReady retrying j =>
    refine accountsFor_of_inserted (j := j) ?_ (fun _ => id) (fun hj hq => ?_) ht rfl
    · rintro rfl
      cases retrying <;> simp [handle, Redis.lpushReady, Redis.Queued]
    · cases retrying <;> simpa [handle, Redis.lpushReady, Redis.Queued, hj] using hq
  | sremKnown j => exact accountsFor_of_kept id id ht fun _ _ => ⟨by simp [Op.settles], trivial⟩

end Operations

/-! ### The calls carry what they owe -/

section Calls

variable {β : Type} {t : TaskId}

theorem sound_op {o : Op} (ho : ∀ r t, ¬ taskHandover.owes o r t) : taskHandover.Sound (op o) :=
  Handover.sound_act ho fun _ => trivial

theorem sound_op_bind {o : Op} {f : o.Res → Call β} (ho : ∀ r t, ¬ taskHandover.owes o r t)
    (hf : ∀ r, taskHandover.Sound (f r)) : taskHandover.Sound (op o >>= f) :=
  Handover.sound_act ho hf

theorem carries_op {o : Op} (ho : o.task = some t) (hsettles : o.settles = true) :
    taskHandover.Carries t (op o) :=
  ⟨ho, .inl hsettles⟩

theorem carries_op_bind {o : Op} {f : o.Res → Call β} (ho : o.task = some t)
    (hf : ∀ r, taskHandover.sees o r t → taskHandover.Carries t (f r)) :
    taskHandover.Carries t (op o >>= f) :=
  ⟨ho, .inr hf⟩

theorem carries_clock_bind {f : Int → Call β} (hf : ∀ now, taskHandover.Carries t (f now)) :
    taskHandover.Carries t (op (.clock t) >>= f) :=
  carries_op_bind rfl fun now _ => hf now

theorem carries_isRetryTask_bind {f : Bool → Call β}
    (hf : ∀ retrying, taskHandover.Carries t (f retrying)) :
    taskHandover.Carries t (isRetryTask t >>= f) :=
  carries_op_bind rfl fun m _ => hf (m.elim false metaIsRetry)

theorem carries_requeueAs (retrying : Bool) (availableAt : Option Int) :
    taskHandover.Carries t (requeueAs retrying t availableAt) :=
  carries_clock_bind fun _ => carries_op rfl rfl

theorem carries_requeue (availableAt : Option Int) :
    taskHandover.Carries t (requeue t availableAt) :=
  carries_isRetryTask_bind fun retrying => carries_requeueAs retrying availableAt

theorem carries_delayClaimed (score : Int) : taskHandover.Carries t (delayClaimed t score) :=
  carries_isRetryTask_bind fun _ => carries_op rfl rfl

theorem carries_delayOwned (worker : WorkerId) (score : Int) :
    taskHandover.Carries t (delayOwned t worker score) :=
  carries_isRetryTask_bind fun _ => ⟨rfl, .inl rfl⟩

theorem carries_ack : taskHandover.Carries t (ack t) := carries_op rfl rfl

/-- `release` sees that the task is pending and puts it off. -/
theorem carries_release (worker : WorkerId) : taskHandover.Carries t (release t worker) := by
  refine carries_op_bind rfl ?_
  rintro r ⟨m, rfl, hwaiting⟩
  simp only [hwaiting, if_true]
  refine carries_clock_bind fun now => ?_
  split
  · exact carries_delayClaimed _
  · exact carries_delayOwned _ _

theorem carries_requeuePendingTask : taskHandover.Carries t (requeuePendingTask t) := by
  refine carries_op_bind rfl ?_
  rintro r ⟨m, rfl, hwaiting⟩
  simp only [hwaiting, if_true]
  exact (carries_requeue _).bind _

/-- A claimer puts the task that it has moved off, or gives it up, unless it makes it run. -/
theorem carries_claimMoved (worker : WorkerId) (limits : Limits) :
    taskHandover.Carries t (claimMoved t worker limits) := by
  refine carries_op_bind rfl ?_
  rintro r ⟨m, rfl, hwaiting⟩
  simp only [hwaiting, not_true_eq_false, if_false]
  refine carries_clock_bind fun now => ?_
  split
  · exact (carries_delayClaimed _).bind _
  · have hrefused : taskHandover.Carries t
        (if m.ownerTokenHash ≠ "" ∧ (limits m.ownerTokenHash).isSome then
          op (.clock t) >>= fun now => delayClaimed t (now + 2 * second) >>= fun _ => pure .again
        else ack t >>= fun _ => pure Round.again) := by
      split
      · exact carries_clock_bind fun now => (carries_delayClaimed _).bind _
      · exact carries_ack.bind _
    -- `mark_running` ends without having made the task run.
    refine carries_op_bind rfl fun paused _ => ?_
    cases paused with
    | true => exact hrefused
    | false =>
      refine carries_clock_bind fun now => carries_op_bind rfl ?_
      rintro r ⟨m', rfl, -⟩
      refine carries_op_bind rfl ?_
      rintro running rfl
      exact hrefused

theorem carries_lpush (t : TaskId) :
    taskHandover.Carries t (isRetryTask t >>= fun retrying => op (.lpushReady retrying t)) :=
  carries_isRetryTask_bind fun _ => carries_op rfl rfl

theorem sound_isRetryTask (t : TaskId) : taskHandover.Sound (isRetryTask t) :=
  sound_op_bind (fun _ _ h => h) fun _ => trivial

theorem sound_requeueAs (retrying : Bool) (t : TaskId) (availableAt : Option Int) :
    taskHandover.Sound (requeueAs retrying t availableAt) :=
  sound_op_bind (fun _ _ h => h) fun _ => sound_op fun _ _ h => h

theorem sound_requeue (t : TaskId) (availableAt : Option Int) :
    taskHandover.Sound (requeue t availableAt) :=
  (sound_isRetryTask t).bind fun _ => sound_requeueAs _ _ _

theorem sound_enqueue (t : TaskId) (availableAt : Option Int) :
    taskHandover.Sound (enqueue t availableAt) :=
  (sound_isRetryTask t).bind fun _ =>
    sound_op_bind (fun _ _ h => h) fun _ => sound_op fun _ _ h => h

theorem sound_promote : taskHandover.Sound promote := by
  have hqueue : ∀ retrying, taskHandover.Sound (promoteQueue retrying) := fun retrying =>
    sound_op_bind (fun _ _ h => h) fun _ => sound_op fun _ _ h => h
  exact (hqueue false).bind fun _ => hqueue true

theorem sound_delayClaimed (t : TaskId) (score : Int) :
    taskHandover.Sound (delayClaimed t score) :=
  (sound_isRetryTask t).bind fun _ => sound_op fun _ _ h => h

theorem sound_ack (t : TaskId) : taskHandover.Sound (ack t) := sound_op fun _ _ h => h

theorem sound_delayOwned (t : TaskId) (worker : WorkerId) (score : Int) :
    taskHandover.Sound (delayOwned t worker score) :=
  (sound_isRetryTask t).bind fun _ => sound_op_bind (fun _ _ h => h) fun _ => trivial

theorem sound_ackOwned (t : TaskId) (worker : WorkerId) : taskHandover.Sound (ackOwned t worker) :=
  sound_op_bind (fun _ _ h => h) fun _ =>
    sound_op_bind (fun _ _ h => h) fun _ => sound_op fun _ _ h => h

theorem sound_release (t : TaskId) (worker : WorkerId) : taskHandover.Sound (release t worker) := by
  have hgone : taskHandover.Sound (if worker = "" then ack t else ackOwned t worker) := by
    split
    · exact sound_ack t
    · exact sound_ackOwned t worker
  refine sound_op_bind (fun _ _ h => h) fun m => ?_
  cases m with
  | none => exact hgone
  | some m =>
    show taskHandover.Sound (if Waiting m then _ else _)
    split
    · refine sound_op_bind (fun _ _ h => h) fun now => ?_
      show taskHandover.Sound (if worker = "" then _ else _)
      split
      · exact sound_delayClaimed _ _
      · exact sound_delayOwned _ _ _
    · exact hgone

/-- A write whose count the rest of the program looks at. -/
theorem sound_write_bind {o : StoreOp} {f : Option Int → Call β}
    (hcarries : o.setsPending = true → ∀ count, (∀ limit ∈ o.retryLimit, count ≤ limit) →
      taskHandover.Carries t (f (some count)))
    (hf : ∀ count, taskHandover.Sound (f count)) : taskHandover.Sound (op (.write t o) >>= f) := by
  refine fun count => ⟨?_, hf count⟩
  rintro j ⟨rfl, hpending, count, rfl, hlimit⟩
  exact hcarries hpending count hlimit

/-- A write that makes no record pending. -/
theorem sound_quiet_write_bind {o : StoreOp} {f : Option Int → Call β}
    (ho : o.setsPending = false) (hf : ∀ count, taskHandover.Sound (f count)) :
    taskHandover.Sound (op (.write t o) >>= f) :=
  sound_write_bind (fun hpending => by rw [ho] at hpending; cases hpending) hf

theorem sound_recoverTaken (t : TaskId) : taskHandover.Sound (recoverTaken t) := by
  have hforget : taskHandover.Sound (op (.sremKnown t)) := sound_op fun _ _ h => h
  have hpush : taskHandover.Sound
      (isRetryTask t >>= fun retrying => op (.lpushReady retrying t)) :=
    (sound_isRetryTask t).bind fun _ => sound_op fun _ _ h => h
  refine sound_op_bind (fun _ _ h => h) fun m => ?_
  cases m with
  | none => exact hforget
  | some m =>
    show taskHandover.Sound (if m.status = .running then _ else _)
    split
    · refine sound_op_bind (fun _ _ h => h) fun result => sound_op_bind (fun _ _ h => h) fun now => ?_
      show taskHandover.Sound (if result.wasSubmitted = true then _ else _)
      split
      · refine sound_quiet_write_bind rfl fun written => ?_
        split
        · exact hforget
        · trivial
      · -- The recovery sets the task pending, and pushes it.
        refine sound_write_bind (fun _ count _ => carries_lpush t) fun written => ?_
        split
        · exact hforget
        · exact hpush
    · split
      · exact hpush
      · exact hforget

theorem sound_recoverAll (ts : List TaskId) : taskHandover.Sound (recoverAll ts) := by
  induction ts with
  | nil => trivial
  | cons t ts ih =>
    refine sound_op_bind (fun _ _ h => h) fun now => sound_op_bind (fun _ _ h => h) fun taken => ?_
    show taskHandover.Sound (if taken = true then _ else _)
    split
    · exact (sound_recoverTaken t).bind fun _ => ih
    · exact ih

theorem sound_recover : taskHandover.Sound recover :=
  sound_op_bind (fun _ _ h => h) fun _ => sound_op_bind (fun _ _ h => h) sound_recoverAll

theorem sound_markRunning (t : TaskId) (worker : WorkerId) (limits : Limits) :
    taskHandover.Sound (markRunning t worker limits) := by
  refine sound_op_bind (fun _ _ h => h) fun paused => ?_
  cases paused with
  | true => trivial
  | false =>
    refine sound_op_bind (fun _ _ h => h) fun now => sound_op_bind (fun _ _ h => h) fun m => ?_
    cases m with
    | none => trivial
    | some m => exact sound_op fun _ _ h => h

theorem sound_claimMoved (t : TaskId) (worker : WorkerId) (limits : Limits) :
    taskHandover.Sound (claimMoved t worker limits) := by
  refine sound_op_bind (fun _ _ h => h) fun m => ?_
  cases m with
  | none => exact (sound_ack t).bind fun _ => trivial
  | some m =>
    show taskHandover.Sound (if ¬ Waiting m then _ else _)
    split
    · exact (sound_ack t).bind fun _ => trivial
    · refine sound_op_bind (fun _ _ h => h) fun now => ?_
      split
      · exact (sound_delayClaimed _ _).bind fun _ => trivial
      · refine (sound_markRunning t worker limits).bind fun running => ?_
        split
        · trivial
        · split
          · exact sound_op_bind (fun _ _ h => h) fun _ =>
              (sound_delayClaimed _ _).bind fun _ => trivial
          · exact (sound_ack t).bind fun _ => trivial
        · exact sound_op_bind (fun _ _ h => h) fun _ =>
            sound_op_bind (fun _ _ h => h) fun _ => trivial

/-- Whatever `claim` moves it carries. -/
theorem sound_moveNext_bind (preferRetry : Bool) {f : Option TaskId → Call β}
    (hcarries : ∀ t, taskHandover.Carries t (f (some t))) (hf : ∀ moved, taskHandover.Sound (f moved)) :
    taskHandover.Sound (moveNext preferRetry >>= f) := by
  refine fun moved => ⟨?_, ?_⟩
  · rintro t rfl
    exact hcarries t
  · cases moved with
    | some t => exact hf (some t)
    | none =>
      refine fun moved => ⟨?_, hf moved⟩
      rintro t rfl
      exact hcarries t

theorem sound_claimLoop (worker : WorkerId) (limits : Limits) (preferRetry : Bool) (n : Nat) :
    taskHandover.Sound (claimLoop worker limits preferRetry n) := by
  induction n with
  | zero => trivial
  | succ n ih =>
    refine sound_moveNext_bind preferRetry (fun t => (carries_claimMoved worker limits).bind _)
      fun moved => ?_
    cases moved with
    | none => trivial
    | some t =>
      refine (sound_claimMoved t worker limits).bind fun round => ?_
      cases round with
      | claimed t => trivial
      | raised => trivial
      | again => exact ih

theorem sound_claim (worker : WorkerId) (limits : Limits) (streak : Nat) :
    taskHandover.Sound (claim worker limits streak) :=
  sound_recover.bind fun _ => sound_promote.bind fun _ => sound_claimLoop _ _ _ _

theorem sound_heartbeat (leases : List (TaskId × WorkerId)) :
    taskHandover.Sound (heartbeat leases) := by
  induction leases with
  | nil => trivial
  | cons lease leases ih =>
    exact sound_op_bind (fun _ _ h => h) fun _ => sound_op_bind (fun _ _ h => h) fun _ => ih

theorem sound_requeueAll (rows : List (TaskId × Meta)) : taskHandover.Sound (requeueAll rows) := by
  induction rows with
  | nil => trivial
  | cons row rows ih => exact (sound_requeueAs _ _ _).bind fun _ => ih

theorem sound_reconcile : taskHandover.Sound reconcile :=
  sound_op_bind (fun _ _ h => h) fun _ => sound_requeueAll _

theorem sound_requeuePendingTask (t : TaskId) : taskHandover.Sound (requeuePendingTask t) := by
  refine sound_op_bind (fun _ _ h => h) fun m => ?_
  cases m with
  | none => trivial
  | some m =>
    show taskHandover.Sound (if Waiting m then _ else _)
    split
    · exact (sound_requeue _ _).bind fun _ => sound_op_bind (fun _ _ h => h) fun _ =>
        sound_quiet_write_bind rfl fun _ => trivial
    · trivial

theorem requeueLimit_eq {o : StoreOp} {limit : Option Int} (h : o.requeueLimit = some limit) :
    limit = o.retryLimit := by
  cases o <;> simp_all [StoreOp.requeueLimit, StoreOp.retryLimit]

theorem sound_retryThenRequeue {o : StoreOp} {limit : Option Int}
    (h : o.requeueLimit = some limit) : taskHandover.Sound (retryThenRequeue t o limit) := by
  rw [requeueLimit_eq h]
  refine sound_write_bind (fun _ count hcount => ?_) fun count => ?_
  · have hall : (o.retryLimit).all (fun limit => decide (count ≤ limit)) = true := by
      cases hl : o.retryLimit with
      | none => rfl
      | some limit => simpa using hcount limit (by simp [hl])
    simp only [hall, if_true]
    exact carries_requeuePendingTask
  · cases count with
    | none => trivial
    | some count =>
      show taskHandover.Sound (if _ then _ else _)
      split
      · exact sound_requeuePendingTask t
      · trivial

theorem sound_restartSilent (t : TaskId) : taskHandover.Sound (restartSilent t) := by
  refine sound_op_bind (fun _ _ h => h) fun now => sound_write_bind (fun _ count hcount => ?_) fun count => ?_
  · have hle : count ≤ maxInfrastructureRetries := hcount _ rfl
    simp only [hle, if_true]
    exact carries_requeue none
  · cases count with
    | none => trivial
    | some count =>
      show taskHandover.Sound (if count ≤ maxInfrastructureRetries then _ else _)
      split
      · exact sound_requeue t none
      · trivial

theorem sound_expireTaskIfTimeout (t : TaskId) : taskHandover.Sound (expireTaskIfTimeout t) := by
  refine sound_op_bind (fun _ _ h => h) fun m => ?_
  cases m with
  | none => trivial
  | some m =>
    refine sound_op_bind (fun _ _ h => h) fun now => ?_
    show taskHandover.Sound (if m.isTaskExpired now = true then _ else _)
    split
    · refine sound_op_bind (fun _ _ h => h) fun result => ?_
      show taskHandover.Sound (if result.decodedMainUrl ≠ "" then _ else _)
      split
      · trivial
      · exact sound_op_bind (fun _ _ h => h) fun _ => sound_quiet_write_bind rfl fun _ => trivial
    · trivial

theorem sound_reconcilePendingAll (started : Int) (rows : List (TaskId × Meta)) :
    taskHandover.Sound (reconcilePendingAll started rows) := by
  induction rows with
  | nil => trivial
  | cons row rows ih =>
    obtain ⟨t, m⟩ := row
    simp only [reconcilePendingAll]
    split
    · exact ih
    · refine (sound_expireTaskIfTimeout t).bind fun expired => ?_
      split
      · trivial
      · exact ih
      · split
        · exact ih
        · exact (sound_requeue _ _).bind fun _ => sound_op_bind (fun _ _ h => h) fun _ =>
            sound_quiet_write_bind rfl fun _ => ih

theorem sound_reconcilePendingRetries (batchSize : Nat) :
    taskHandover.Sound (reconcilePendingRetries batchSize) :=
  sound_op_bind (fun _ _ h => h) fun _ => sound_op_bind (fun _ _ h => h) fun _ =>
    sound_reconcilePendingAll _ _

/-- Every call carries what it comes to owe. -/
theorem sound_prog (call : QueueCall) : taskHandover.Sound call.prog := by
  cases call with
  | enqueue t availableAt => exact (sound_enqueue t availableAt).bind fun _ => trivial
  | requeue t availableAt retrying =>
    cases retrying with
    | none => exact sound_requeue t availableAt
    | some retrying => exact sound_requeueAs retrying t availableAt
  | claim worker limits streak => exact (sound_claim worker limits streak).bind fun _ => trivial
  | release t worker => exact sound_release t worker
  | recover => exact sound_recover
  | reconcile => exact sound_reconcile
  | reconcilePendingRetries batchSize => exact sound_reconcilePendingRetries batchSize
  | heartbeat leases => exact sound_heartbeat leases
  | retry t o =>
    simp only [QueueCall.prog]
    split
    · rename_i limit hlimit
      exact sound_retryThenRequeue hlimit
    · trivial
  | requeuePendingTask t => exact sound_requeuePendingTask t
  | restartSilent t => exact sound_restartSilent t
  | finish t o worker =>
    exact sound_write_bind (fun _ _ _ => carries_release worker) fun _ => sound_release t worker
  | write t o =>
    simp only [QueueCall.prog]
    split
    · trivial
    · rename_i ho
      exact sound_quiet_write_bind (Bool.eq_false_iff.mpr ho) fun _ => trivial
  | setPaused paused => exact sound_op fun _ _ h => h

end Calls

/-! ### Runs -/

/-- No task is lost in any interleaving in which every operation that drops a task finds
another call carrying it. -/
theorem no_task_lost (u : Chars) (labels : List (Label QueueCall Int)) (c : QueueConfig)
    (hidle : ∀ i, c.threads i = .ret ()) (hstart : NoTaskLost c)
    (hdrop : AllSteps (step u) DropsCarried labels c) : Throughout (step u) NoTaskLost labels c := by
  have hkept : taskHandover.Kept World.Awaited (fun w => w.redis.Queued) c := by
    constructor
    · intro i
      rw [hidle i]
      trivial
    · intro t ht
      refine .inl (hstart t ht fun i => ?_)
      rw [hidle i]
      exact id
  exact (Handover.kept_run (accounted u) sound_prog hkept hdrop).mono
    fun c hc t ht hnobody => hc.safe_of_idle ht hnobody

/-- One pending task, an empty queue and no call in progress. -/
def loneTask : QueueConfig where
  shared :=
    { redis := {}, tasks := Dict.empty.set "t" { status := .pending }, results := fun _ => {}
      paused := false }
  threads := fun _ => .ret ()

theorem loneTask_noTaskLost : NoTaskLost loneTask := by
  rintro t ⟨hseen, -⟩
  cases hseen

/-- `n` operations of thread `i`. -/
def operations (i n : Nat) : List (Label QueueCall Int) := List.replicate n (.act i 0)

/-- The task is enqueued, and a claimer looks for work. -/
def enqueueThenClaim : List (Label QueueCall Int) :=
  .spawn 0 (.enqueue "t" none) :: operations 0 3 ++
    .spawn 1 (.claim "w" (fun _ => none) 0) :: operations 1 15

/-- The operations that can drop a task. -/
def Op.mayDrop : Op → Bool
  | .ackPipeline _ | .ackOwnedScript .. | .lremRetryReady _ | .zremRetryDelayed _
  | .delayOwnedScript .. => true
  | _ => false

/-- A run without these operations. -/
theorem dropsCarried_of_noneDrops {u : Chars} {labels : List (Label QueueCall Int)} {c : QueueConfig}
    (h : AllSteps (step u) (OnAct fun _ _ o _ => o.mayDrop = false) labels c) :
    AllSteps (step u) DropsCarried labels c := by
  refine h.mono fun label c hquiet => ?_
  cases label with
  | spawn i call => trivial
  | act i now =>
    simp only [DropsCarried, Handover.DropsCarried, OnAct] at hquiet ⊢
    cases hi : c.threads i with
    | ret a => trivial
    | act o k =>
      rw [hi] at hquiet
      intro t hdrop
      cases o <;> first | exact hdrop.elim | cases hquiet

theorem no_task_lost_undisturbed : Throughout (step .ascii) NoTaskLost enqueueThenClaim loneTask :=
  no_task_lost .ascii enqueueThenClaim loneTask (fun _ => rfl) loneTask_noTaskLost
    (dropsCarried_of_noneDrops (by decide +kernel))

/-- The task has been enqueued when task submission is paused: the claimer moves the task, is
refused, and acknowledges it. -/
def pausedClaim : List (Label QueueCall Int) :=
  .spawn 0 (.enqueue "t" none) :: operations 0 3 ++
    .spawn 2 (.setPaused true) :: operations 2 1 ++
    .spawn 1 (.claim "w" (fun _ => none) 0) :: operations 1 13

theorem paused_claim_loses_task : ¬ Throughout (step .ascii) NoTaskLost pausedClaim loneTask := by
  intro h
  have hqueued := h.final "t" ⟨by decide +kernel, { status := .pending }, by decide +kernel,
    by decide +kernel⟩ fun i => ?_
  · revert hqueued
    simp only [Redis.Queued]
    decide +kernel
  · by_cases hi : i < 3
    · obtain rfl | rfl | rfl : i = 0 ∨ i = 1 ∨ i = 2 := by omega
      all_goals exact Handover.not_busy_of_isDone (by decide +kernel)
    · -- The other threads have never started.
      have hthread : ∀ label ∈ pausedClaim, label.thread < 3 := by decide +kernel
      have hother : ∀ label ∈ pausedClaim, i ≠ label.thread := by
        intro label hlabel heq
        exact hi (heq ▸ hthread label hlabel)
      rw [step, run_threads hother]
      exact id

end FetchTask.Queue
