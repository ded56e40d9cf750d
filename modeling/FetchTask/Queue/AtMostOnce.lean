import FetchTask.Queue.Calls

/-!
Each task at most once.

An id is meant to occur at most once over the two ready lists, the processing
list and the two delayed sets, and an owner entry is meant to belong to a task
in processing that runs under that worker. Here is, for every atomic operation,
the exact condition under which it keeps this; the rule for runs follows.
-/

namespace FetchTask.Queue

open Runs Store

/-! ### The law -/

/-- How often an id occurs over the five containers. -/
def Redis.occurrences (r : Redis) (t : TaskId) : Nat :=
  r.ready.count t + r.retryReady.count t + r.processing.count t +
    (r.delayed.contains t).toNat + (r.retryDelayed.contains t).toNat

/-- No id occurs twice, and an owner entry belongs to a task in processing that `runs` under
that worker. -/
structure Redis.Tidy (runs : TaskId → WorkerId → Prop) (r : Redis) : Prop where
  once : ∀ t, r.occurrences t ≤ 1
  owned : ∀ t worker, r.owners t = some worker → t ∈ r.processing ∧ runs t worker

/-- The worker under which a record says that the task is running. -/
def runningAs (m : Meta) : Option WorkerId := if m.status = .running then some m.workerId else none

/-- What the record must say of a task with an owner entry. Strictly: that it is running under
this worker; otherwise: that if it is running then under this worker. A worker writes the
outcome of a task before it releases it, so that in between the owner entry is one of a task
that is not running any more. -/
def RunsUnder (strict : Bool) (tasks : Dict TaskId Meta) (t : TaskId) (worker : WorkerId) : Prop :=
  if strict then (tasks.get? t).bind runningAs = some worker
  else ∀ other, (tasks.get? t).bind runningAs = some other → other = worker

def World.Tidy (strict : Bool) (w : World) : Prop := w.redis.Tidy (RunsUnder strict w.tasks)

/-! ### When an operation keeps it -/

/-- The delayed set of a task, by whether it is a retry. -/
def Redis.delayedSet (r : Redis) (retrying : Bool) : ZSet :=
  if retrying then r.retryDelayed else r.delayed

/-- When `insert` puts a task nowhere twice. -/
def Redis.HasRoom (r : Redis) (retrying : Bool) (t : TaskId) (score now : Int) : Prop :=
  r.occurrences t = 0 ∨ (now < score ∧ (r.delayedSet retrying).contains t = true)

/-- The condition on the state that an operation finds.

* `enqueue` inserts a task that is not among the known ids: it is in no container.
* A claimer that puts a task off: nobody has put it into a ready list meanwhile.
* A recovery that pushes a task: nobody has put it anywhere meanwhile.
* A claimer that writes its lease: the task is still in processing, and still its own.
* A write to a record with an owner entry: it makes the record run under no other worker,
  and strictly it does not end the run. -/
def Op.KeepsTidy (strict : Bool) : Op → World → Prop
  | .enqueueScript retrying t score now, w =>
    w.redis.known t = false → w.redis.HasRoom retrying t score now
  | .delayClaimedPipeline _ t _, w => t ∉ w.redis.ready ∧ t ∉ w.redis.retryReady
  | .lpushReady _ t, w => w.redis.occurrences t = 0
  | .leasePipeline t worker _, w => t ∈ w.redis.processing ∧ RunsUnder strict w.tasks t worker
  | .claimTask t worker owner limit _, w =>
    ∀ m ∈ w.tasks.get? t, ∀ owned ∈ w.redis.owners t,
      ∀ other ∈ claimedBy worker (atLimit w.tasks owner limit) m, other = owned
  | .write t o, w =>
    ∀ m ∈ w.tasks.get? t, ∀ owned ∈ w.redis.owners t,
      (strict = true → o.endsRun m = false) ∧ ∀ other ∈ o.startsRun m, other = owned
  | _, _ => True

/-! ### One task at a time -/

section Redis

variable {runs : TaskId → WorkerId → Prop} {r r' : Redis} {t : TaskId}

/-- A step on `t` that leaves the other tasks where they are. -/
structure OnlyAt (t : TaskId) (r r' : Redis) : Prop where
  occurrences : ∀ j, j ≠ t → r'.occurrences j = r.occurrences j
  owners : ∀ j, j ≠ t → r'.owners j = r.owners j
  processing : ∀ j, j ≠ t → (j ∈ r'.processing ↔ j ∈ r.processing)

/-- Such a step keeps the law exactly when it keeps it for `t`. -/
theorem OnlyAt.tidy_after_iff (h : OnlyAt t r r') (hr : r.Tidy runs) :
    r'.Tidy runs ↔
      r'.occurrences t ≤ 1 ∧ ∀ worker, r'.owners t = some worker → t ∈ r'.processing ∧ runs t worker := by
  constructor
  · intro hr'
    exact ⟨hr'.once t, hr'.owned t⟩
  · rintro ⟨honce, howned⟩
    constructor
    · intro j
      by_cases hj : j = t
      · exact hj ▸ honce
      · rw [h.occurrences j hj]
        exact hr.once j
    · intro j worker howner
      by_cases hj : j = t
      · exact hj ▸ howned worker (hj ▸ howner)
      · rw [h.owners j hj] at howner
        rw [h.processing j hj]
        exact hr.owned j worker howner

/-- A step that takes the owner entry of `t` away and leaves `t` in one place at most. -/
theorem OnlyAt.tidy_of_le (h : OnlyAt t r r') (hr : r.Tidy runs) (honce : r'.occurrences t ≤ 1)
    (howner : r'.owners t = none) : r'.Tidy runs := by
  refine (h.tidy_after_iff hr).mpr ⟨honce, fun worker hworker => ?_⟩
  rw [howner] at hworker
  cases hworker

/-- A step that changes neither the containers nor the owners. -/
theorem Redis.Tidy.of_same (hr : r.Tidy runs) (hocc : ∀ j, r'.occurrences j = r.occurrences j)
    (howners : r'.owners = r.owners) (hproc : ∀ j, j ∈ r.processing → j ∈ r'.processing) :
    r'.Tidy runs := by
  constructor
  · intro j
    rw [hocc]
    exact hr.once j
  · intro j worker howner
    rw [howners] at howner
    exact ⟨hproc j (hr.owned j worker howner).1, (hr.owned j worker howner).2⟩

/-! ### The scripts -/

section Insert

variable {retrying : Bool} {score now : Int}

theorem zaddDelayed_occurrences (j : TaskId) :
    (r.zaddDelayed retrying t score).occurrences j =
      r.occurrences j + (if j = t ∧ (r.delayedSet retrying).contains t = false then 1 else 0) := by
  by_cases hj : j = t
  · subst hj
    cases retrying
    · cases hset : r.delayed.contains j <;>
        simp [Redis.zaddDelayed, Redis.occurrences, Redis.delayedSet, hset]
      omega
    · cases hset : r.retryDelayed.contains j <;>
        simp [Redis.zaddDelayed, Redis.occurrences, Redis.delayedSet, hset]
  · cases retrying <;> simp [Redis.zaddDelayed, Redis.occurrences, hj, Ne.symm hj]

theorem lpushReady_occurrences (j : TaskId) :
    (r.lpushReady retrying t).occurrences j = r.occurrences j + (if j = t then 1 else 0) := by
  by_cases hj : j = t
  · subst hj
    cases retrying <;> simp [Redis.lpushReady, Redis.occurrences] <;> omega
  · cases retrying <;> simp [Redis.lpushReady, Redis.occurrences, hj, Ne.symm hj]

@[simp] theorem zaddDelayed_owners : (r.zaddDelayed retrying t score).owners = r.owners := by
  cases retrying <;> rfl

@[simp] theorem zaddDelayed_processing :
    (r.zaddDelayed retrying t score).processing = r.processing := by
  cases retrying <;> rfl

@[simp] theorem lpushReady_owners : (r.lpushReady retrying t).owners = r.owners := by
  cases retrying <;> rfl

@[simp] theorem lpushReady_processing : (r.lpushReady retrying t).processing = r.processing := by
  cases retrying <;> rfl

theorem lpushReady_tidy_iff (hr : r.Tidy runs) :
    (r.lpushReady retrying t).Tidy runs ↔ r.occurrences t = 0 := by
  have honly : OnlyAt t r (r.lpushReady retrying t) :=
    ⟨fun j hj => by simp [lpushReady_occurrences, hj], fun j _ => by simp, fun j _ => by simp⟩
  rw [honly.tidy_after_iff hr, lpushReady_occurrences, lpushReady_owners, lpushReady_processing]
  have howned := hr.owned t
  constructor
  · rintro ⟨hle, -⟩
    simp only [if_true] at hle
    omega
  · intro hzero
    exact ⟨by simp [hzero], howned⟩

theorem zaddDelayed_tidy_iff (hr : r.Tidy runs) :
    (r.zaddDelayed retrying t score).Tidy runs ↔
      r.occurrences t = 0 ∨ (r.delayedSet retrying).contains t = true := by
  have honly : OnlyAt t r (r.zaddDelayed retrying t score) :=
    ⟨fun j hj => by simp [zaddDelayed_occurrences, hj], fun j _ => by simp, fun j _ => by simp⟩
  rw [honly.tidy_after_iff hr, zaddDelayed_occurrences, zaddDelayed_owners, zaddDelayed_processing]
  have honce := hr.once t
  have howned := hr.owned t
  cases hset : (r.delayedSet retrying).contains t with
  | true => simpa using ⟨honce, howned⟩
  | false =>
    constructor
    · rintro ⟨hle, -⟩
      simp only [true_and, if_true] at hle
      exact .inl (by omega)
    · rintro (hzero | hset')
      · exact ⟨by simp [hzero], howned⟩
      · cases hset'

theorem insert_tidy_iff (hr : r.Tidy runs) :
    (r.insert retrying t score now).Tidy runs ↔ r.HasRoom retrying t score now := by
  by_cases hscore : now < score
  · simp only [Redis.insert, Redis.HasRoom, hscore, if_true, true_and]
    exact zaddDelayed_tidy_iff hr
  · simp only [Redis.insert, Redis.HasRoom, hscore, if_false, false_and, or_false]
    exact lpushReady_tidy_iff hr

end Insert

theorem requeueScript_tidy (hr : r.Tidy runs) (retrying : Bool) (score now : Int) :
    (r.requeueScript retrying t score now).Tidy runs := by
  -- The script first takes the task out of every container.
  refine (insert_tidy_iff (OnlyAt.tidy_of_le (t := t) ?_ hr ?_ ?_)).mpr (.inl ?_)
  · exact ⟨fun j hj => by simp [Redis.occurrences, count_lrem, hj],
      fun j hj => by simp [Redis.hdel, hj], fun j hj => by simp [mem_lrem, hj]⟩
  · simp [Redis.occurrences, count_lrem]
  · simp [Redis.hdel]
  · simp [Redis.occurrences, count_lrem]

theorem ackPipeline_tidy (hr : r.Tidy runs) : (r.ackPipeline t).Tidy runs := by
  refine OnlyAt.tidy_of_le (t := t) ?_ hr ?_ ?_
  · exact ⟨fun j hj => by simp [Redis.ackPipeline, Redis.occurrences, count_lrem, hj],
      fun j hj => by simp [Redis.ackPipeline, Redis.hdel, hj],
      fun j hj => by simp [Redis.ackPipeline, mem_lrem, hj]⟩
  · simp [Redis.ackPipeline, Redis.occurrences, count_lrem]
  · simp [Redis.ackPipeline, Redis.hdel]

theorem recoverScript_tidy (hr : r.Tidy runs) (now : Int) :
    (r.recoverScript t now).2.Tidy runs := by
  have honce := hr.once t
  simp only [Redis.recoverScript]
  split
  · exact hr
  split
  · exact hr
  · refine OnlyAt.tidy_of_le (t := t) ?_ hr ?_ ?_
    · exact ⟨fun j hj => by simp [Redis.occurrences, count_lrem, hj],
        fun j hj => by simp [Redis.hdel, hj], fun j hj => by simp [mem_lrem, hj]⟩
    · simp only [Redis.occurrences, count_lrem, if_true] at honce ⊢
      omega
    · simp [Redis.hdel]

theorem ackOwnedScript_tidy (hr : r.Tidy runs) (worker : WorkerId) :
    (r.ackOwnedScript t worker).2.Tidy runs := by
  have honce := hr.once t
  simp only [Redis.ackOwnedScript]
  split
  · refine OnlyAt.tidy_of_le (t := t) ?_ hr ?_ ?_
    · exact ⟨fun j hj => by simp [Redis.occurrences, count_lrem, hj],
        fun j hj => by simp [Redis.hdel, hj], fun j hj => by simp [mem_lrem, hj]⟩
    · simp only [Redis.occurrences, count_lrem, if_true, Dict.contains_erase] at honce ⊢
      simp only [ne_eq, not_true_eq_false, decide_false, Bool.false_and, Bool.toNat_false]
      omega
    · simp [Redis.hdel]
  · exact hr

/-- A task with an owner entry is in processing and nowhere else. -/
theorem Redis.Tidy.only_processing (hr : r.Tidy runs) {worker : WorkerId}
    (howner : r.owners t = some worker) :
    r.ready.count t = 0 ∧ r.retryReady.count t = 0 ∧ r.delayed.contains t = false ∧
      r.retryDelayed.contains t = false := by
  have honce := hr.once t
  have hproc : 0 < r.processing.count t := List.count_pos_iff.mpr (hr.owned t worker howner).1
  simp only [Redis.occurrences] at honce
  cases hd : r.delayed.contains t <;> cases hrd : r.retryDelayed.contains t <;>
    simp only [hd, hrd, Bool.toNat_true, Bool.toNat_false] at honce <;> simp <;> omega

theorem delayOwnedScript_tidy (hr : r.Tidy runs) (retrying : Bool) (worker : WorkerId)
    (score : Int) : (r.delayOwnedScript retrying t worker score).2.Tidy runs := by
  simp only [Redis.delayOwnedScript]
  split
  · rename_i howner
    obtain ⟨hready, hretry, hdelayed, hretryDelayed⟩ := hr.only_processing howner
    have hzero : Redis.occurrences { r with
        processing := lrem t r.processing, leases := r.leases.erase t, owners := r.hdel t } t = 0 := by
      simp [Redis.occurrences, count_lrem, hready, hretry, hdelayed, hretryDelayed]
    refine (zaddDelayed_tidy_iff (OnlyAt.tidy_of_le (t := t) ?_ hr ?_ ?_)).mpr (.inl hzero)
    · exact ⟨fun j hj => by simp [Redis.occurrences, count_lrem, hj],
        fun j hj => by simp [Redis.hdel, hj], fun j hj => by simp [mem_lrem, hj]⟩
    · rw [hzero]
      omega
    · simp [Redis.hdel]
  · exact hr

theorem delayClaimedPipeline_tidy_iff (hr : r.Tidy runs) (retrying : Bool) (score : Int) :
    (r.delayClaimedPipeline retrying t score).Tidy runs ↔ t ∉ r.ready ∧ t ∉ r.retryReady := by
  have honly : OnlyAt t r (r.delayClaimedPipeline retrying t score) := by
    refine ⟨fun j hj => ?_, fun j hj => by simp [Redis.delayClaimedPipeline, Redis.hdel, hj],
      fun j hj => by simp [Redis.delayClaimedPipeline, mem_lrem, hj]⟩
    cases retrying <;>
      simp [Redis.delayClaimedPipeline, Redis.occurrences, count_lrem, hj, Ne.symm hj]
  have hocc : (r.delayClaimedPipeline retrying t score).occurrences t =
      r.ready.count t + r.retryReady.count t + 1 := by
    cases retrying <;> simp [Redis.delayClaimedPipeline, Redis.occurrences, count_lrem]
  rw [← List.count_eq_zero, ← List.count_eq_zero]
  constructor
  · intro h
    have honce := h.once t
    rw [hocc] at honce
    omega
  · rintro ⟨hready, hretry⟩
    refine honly.tidy_of_le hr ?_ ?_
    · rw [hocc, hready, hretry]
    · simp [Redis.delayClaimedPipeline, Redis.hdel]

theorem lremRetryReady_tidy (hr : r.Tidy runs) : (r.lremRetryReady t).Tidy runs := by
  have honce := hr.once t
  have honly : OnlyAt t r (r.lremRetryReady t) :=
    ⟨fun j hj => by simp [Redis.lremRetryReady, Redis.occurrences, count_lrem, hj],
      fun j _ => rfl, fun j _ => Iff.rfl⟩
  refine (honly.tidy_after_iff hr).mpr ⟨?_, hr.owned t⟩
  simp only [Redis.lremRetryReady, Redis.occurrences, count_lrem, if_true] at honce ⊢
  omega

theorem zremRetryDelayed_tidy (hr : r.Tidy runs) : (r.zremRetryDelayed t).Tidy runs := by
  have honce := hr.once t
  have honly : OnlyAt t r (r.zremRetryDelayed t) :=
    ⟨fun j hj => by simp [Redis.zremRetryDelayed, Redis.occurrences, hj],
      fun j _ => rfl, fun j _ => Iff.rfl⟩
  refine (honly.tidy_after_iff hr).mpr ⟨?_, hr.owned t⟩
  simp only [Redis.zremRetryDelayed, Redis.occurrences, Dict.contains_erase] at honce ⊢
  simp only [ne_eq, not_true_eq_false, decide_false, Bool.false_and, Bool.toNat_false]
  omega

theorem leasePipeline_tidy_iff (hr : r.Tidy runs) (worker : WorkerId) (expiry : Int) :
    (r.leasePipeline t worker expiry).Tidy runs ↔ t ∈ r.processing ∧ runs t worker := by
  have honly : OnlyAt t r (r.leasePipeline t worker expiry) :=
    ⟨fun j _ => rfl, fun j hj => by simp [Redis.leasePipeline, hj], fun j _ => Iff.rfl⟩
  rw [honly.tidy_after_iff hr]
  constructor
  · rintro ⟨-, howned⟩
    exact howned worker (by simp [Redis.leasePipeline])
  · intro hworker
    refine ⟨hr.once t, fun other hother => ?_⟩
    have heq : worker = other := by simpa [Redis.leasePipeline] using hother
    exact heq ▸ hworker

theorem heartbeatScript_tidy (hr : r.Tidy runs) (worker : WorkerId) (expiry : Int) :
    (r.heartbeatScript t worker expiry).2.Tidy runs := by
  simp only [Redis.heartbeatScript]
  split
  · exact hr.of_same (fun j => rfl) rfl fun j hj => hj
  · exact hr

/-- `LMOVE` takes from one list what it adds to another. -/
theorem lmove_tidy (hr : r.Tidy runs) (fromRetry : Bool) : (r.lmove fromRetry).2.Tidy runs := by
  simp only [Redis.lmove]
  split
  · exact hr
  · rename_i t hlast
    obtain ⟨front, hfront⟩ := List.getLast?_eq_some_iff.mp hlast
    refine hr.of_same (fun j => ?_) rfl fun j hj => List.mem_cons_of_mem _ hj
    cases fromRetry
    · have hready : r.ready = front ++ [t] := hfront
      simp only [Redis.occurrences, hready, List.dropLast_concat, List.count_append,
        List.count_cons, List.count_nil, Bool.false_eq_true, if_false]
      omega
    · have hretry : r.retryReady = front ++ [t] := hfront
      simp only [Redis.occurrences, hretry, List.dropLast_concat, List.count_append,
        List.count_cons, List.count_nil, if_true]
      omega

theorem promoteScript_tidy (hr : r.Tidy runs) (retrying : Bool) (now : Int) :
    (r.promoteScript retrying now).Tidy runs := by
  cases retrying
  · refine hr.of_same (fun j => ?_) rfl fun j hj => hj
    have hcount := count_promoted r.delayed now j
    simp only [Redis.promoteScript, Redis.occurrences, List.count_append, Bool.false_eq_true,
      if_false] at hcount ⊢
    omega
  · refine hr.of_same (fun j => ?_) rfl fun j hj => hj
    have hcount := count_promoted r.retryDelayed now j
    simp only [Redis.promoteScript, Redis.occurrences, List.count_append, if_true] at hcount ⊢
    omega

end Redis

/-! ### The records -/

section Records

variable {u : Chars} {strict : Bool} {w : World} {t : TaskId} {m m' : Meta}

theorem runningAs_of_ne (h : m.status ≠ .running) : runningAs m = none := if_neg h

theorem claimTask_runningAs (worker : WorkerId) (atLimit : Bool) (now : Int) (m : Meta) :
    runningAs (claimTask worker atLimit now m).2 =
      if m.status = .running then runningAs m else claimedBy worker atLimit m := by
  cases hs : m.status <;> cases hc : m.cancelRequested <;> cases atLimit <;>
    simp [claimTask, claimedBy, runningAs, hs, hc]

/-- An operation without effect on this record. -/
theorem runningAs_kept {ends : Bool} (h : m.status = .running → ends = false) :
    runningAs m = if m.status = .running then (if ends then none else runningAs m) else none := by
  by_cases hm : m.status = .running
  · simp [hm, h hm]
  · simp [hm, runningAs]

/-- An operation that takes the record out of `running`, if it was there. -/
theorem runningAs_ended {ends : Bool} (h : m'.status ≠ .running)
    (hends : m.status = .running → ends = true) :
    runningAs m' = if m.status = .running then (if ends then none else runningAs m) else none := by
  rw [runningAs_of_ne h]
  by_cases hm : m.status = .running
  · simp [hm, hends hm]
  · simp [hm]

theorem runningAs_updateMetaIf_ended {expected : List Status} {now : Int} {updates : Meta → Meta}
    {ends : Bool} (h : ∀ m, (updates m).status ≠ .running)
    (hends : ends = decide (Status.running ∈ expected)) (m : Meta) :
    runningAs (updateMetaIf expected now updates m).2 =
      if m.status = .running then (if ends then none else runningAs m) else none := by
  by_cases hm : m.status ∈ expected
  · rw [updateMetaIf_of_mem hm]
    exact runningAs_ended (h m) fun hs => by rw [hends, ← hs]; exact decide_eq_true hm
  · rw [updateMetaIf_of_not_mem hm]
    exact runningAs_kept fun hs => by rw [hends, ← hs]; exact decide_eq_false hm

/-- What an operation makes of the worker under which a record runs. -/
theorem storeOp_runningAs (o : StoreOp) (m : Meta) :
    runningAs (o.apply u m) =
      if m.status = .running then (if o.endsRun m then none else runningAs m)
      else o.startsRun m := by
  cases o with
  | failInitializing reason now => exact runningAs_updateMetaIf_ended (by simp) rfl m
  | markRunning paused workerId atLimit now =>
    cases paused with
    | true => exact runningAs_kept fun _ => rfl
    | false => exact claimTask_runningAs workerId atLimit now m
  | markPending reason now => exact runningAs_updateMetaIf_ended (by simp) rfl m
  | deferTask reason category delaySeconds now =>
    exact runningAs_updateMetaIf_ended (by simp) rfl m
  | markFailed reason now =>
    simp only [StoreOp.apply, Store.markFailed]
    split
    · exact runningAs_kept fun hs => by simp_all
    · exact runningAs_ended (by simp) fun _ => rfl
  | markCanceled reason now => exact runningAs_updateMetaIf_ended (by simp) rfl m
  | requestTaskCancel reason allowSubmitted now =>
    simp only [StoreOp.apply, Store.requestTaskCancel]
    split
    · rename_i hguard
      refine runningAs_kept fun hs => ?_
      cases allowSubmitted <;> simp_all [cancelableStatuses, StoreOp.endsRun]
    · rename_i hguard
      refine runningAs_ended (by simp) fun hs => ?_
      cases allowSubmitted <;> simp_all [cancelableStatuses, StoreOp.endsRun]
  | recordRetry retryLimit reason now =>
    simp only [StoreOp.apply, Store.recordRetry]
    split
    · exact runningAs_kept fun hs => by simp_all
    · refine runningAs_ended ?_ fun _ => rfl
      split <;> simp
  | recordInfrastructureRetry reason now =>
    simp only [StoreOp.apply, Store.recordInfrastructureRetry]
    split
    · exact runningAs_kept fun hs => by simp_all
    · refine runningAs_ended ?_ fun _ => rfl
      split <;> simp
  | retrySubmittedTask maxRetries reason delaySeconds now =>
    simp only [StoreOp.apply, Store.retrySubmittedTask]
    split
    · exact runningAs_kept fun _ => rfl
    · refine runningAs_ended ?_ fun hs => by simp_all
      split <;> simp
  | retryAmbiguousProxyTask reason accountId proxyNodeId delaySeconds now =>
    simp only [StoreOp.apply, Store.retryAmbiguousProxyTask]
    split
    · exact runningAs_kept fun _ => rfl
    · exact runningAs_ended (by simp) fun hs => by simp_all
  | retryAmbiguousSubmittedTask maxRetries reason delaySeconds now =>
    simp only [StoreOp.apply, Store.retryAmbiguousSubmittedTask]
    split
    · exact runningAs_kept fun _ => rfl
    · refine runningAs_ended ?_ fun hs => by simp_all
      split <;> simp
  | retryTimedOutSubmittedTask maxRetries reason delaySeconds now =>
    simp only [StoreOp.apply, Store.retryTimedOutSubmittedTask]
    split
    · exact runningAs_kept fun _ => rfl
    · refine runningAs_ended ?_ fun hs => by simp_all
      split <;> simp
  | recordExecutionMiss retryLimit reason now =>
    simp only [StoreOp.apply, Store.recordExecutionMiss]
    refine runningAs_ended ?_ fun _ => rfl
    split <;> simp
  | recordResultWatchMiss reason now => exact runningAs_kept (m := m) fun _ => rfl
  | markRetryQueueVerified now =>
    simp only [StoreOp.apply, Store.markRetryQueueVerified, updateMetaIf]
    split
    · rename_i hpending
      have hs : m.status = .pending := by simpa using hpending
      simp [runningAs, hs, StoreOp.startsRun]
    · exact runningAs_kept fun _ => rfl
  | markSuccess hasUrl now =>
    cases hasUrl with
    | false => exact runningAs_kept fun _ => rfl
    | true =>
      simp only [StoreOp.apply, Store.markSuccess, Bool.not_true, Bool.false_eq_true, if_false]
      exact runningAs_updateMetaIf_ended (by simp) rfl m
  | markLateResultSuccess hasUrl now =>
    cases hasUrl with
    | false => exact runningAs_kept fun _ => rfl
    | true =>
      simp only [StoreOp.apply, Store.markLateResultSuccess, Bool.not_true,
        Bool.false_eq_true, if_false]
      exact runningAs_updateMetaIf_ended (by simp) rfl m
  | markSubmitted resultPollDelaySeconds now =>
    exact runningAs_updateMetaIf_ended (by simp) rfl m
  | resetRunning wasSubmitted submittedAt now =>
    simp only [StoreOp.apply, Store.resetRunning, Store.markPending]
    split <;> exact runningAs_updateMetaIf_ended (by simp) rfl m

/-- The owner entries after a write to the record of one task. -/
theorem setTask_tidy_iff (hw : w.Tidy strict) (t : TaskId) (m : Meta) :
    (w.setTask t m).Tidy strict ↔ ∀ owned ∈ w.redis.owners t,
      if strict then runningAs m = some owned else ∀ other ∈ runningAs m, other = owned := by
  have hself : ∀ owned, RunsUnder strict (w.setTask t m).tasks t owned ↔
      if strict then runningAs m = some owned else ∀ other ∈ runningAs m, other = owned := by
    intro owned
    simp [RunsUnder, World.setTask]
  have helse : ∀ j, j ≠ t → ∀ owned,
      RunsUnder strict (w.setTask t m).tasks j owned ↔ RunsUnder strict w.tasks j owned := by
    intro j hj owned
    simp [RunsUnder, World.setTask, Ne.symm hj]
  constructor
  · intro h owned howned
    exact (hself owned).mp (h.owned t owned howned).2
  · intro h
    refine ⟨hw.once, fun j owned howned => ⟨(hw.owned j owned howned).1, ?_⟩⟩
    by_cases hj : j = t
    · subst hj
      exact (hself owned).mpr (h owned howned)
    · exact (helse j hj owned).mpr (hw.owned j owned howned).2

/-- A record that may start to run, or end its run. -/
theorem write_tidy_iff (hw : w.Tidy strict) (hm : w.tasks.get? t = some m) (ends : Bool)
    {starts : Option WorkerId}
    (hrun : runningAs m' = if m.status = .running then (if ends then none else runningAs m)
      else starts) (hstarts : m.status = .running → starts = none) :
    (w.setTask t m').Tidy strict ↔ ∀ owned ∈ w.redis.owners t,
      (strict = true → ends = false) ∧ ∀ other ∈ starts, other = owned := by
  rw [setTask_tidy_iff hw]
  refine forall₂_congr fun owned howned => ?_
  have hruns := (hw.owned t owned howned).2
  simp only [RunsUnder, hm, Option.bind_some] at hruns
  cases strict with
  | true =>
    -- Strictly, a task with an owner entry is running before the write.
    have hs : m.status = .running := by
      by_contra hs
      simp [runningAs_of_ne hs] at hruns
    rw [hrun, hstarts hs]
    cases ends <;> simp_all
  | false =>
    by_cases hs : m.status = .running
    · rw [hrun, hstarts hs]
      cases ends <;> simp_all
    · simp [hrun, hs]

theorem startsRun_of_running (o : StoreOp) (h : m.status = .running) : o.startsRun m = none := by
  cases o with
  | markRunning paused workerId atLimit now => cases paused <;> simp [StoreOp.startsRun, claimedBy, h]
  | _ => rfl

/-- The condition of an operation is exactly what it needs to keep the law. -/
theorem handle_tidy_iff (now : Int) (o : Op) (w : World) (hw : w.Tidy strict) :
    (handle u now o w).2.Tidy strict ↔ o.KeepsTidy strict w := by
  cases o with
  | claimTask t worker owner limit claimedAt =>
    simp only [handle, Op.KeepsTidy]
    cases hm : w.tasks.get? t with
    | none => simpa using hw
    | some m =>
      have hrun := claimTask_runningAs worker (atLimit w.tasks owner limit) claimedAt m
      have hstarts : m.status = .running →
          claimedBy worker (atLimit w.tasks owner limit) m = none := by
        intro hs
        simp [claimedBy, hs]
      have hwrite := write_tidy_iff hw hm false hrun hstarts
      simpa using hwrite
  | write t o =>
    simp only [handle, Op.KeepsTidy]
    cases hm : w.tasks.get? t with
    | none => simpa using hw
    | some m =>
      simpa using write_tidy_iff hw hm _ (storeOp_runningAs o m) (startsRun_of_running o)
  | enqueueScript retrying t score time =>
    simp only [handle, Op.KeepsTidy, Redis.enqueueScript]
    by_cases hknown : w.redis.known t = true
    · simpa [hknown] using hw
    · have hmarked : Redis.Tidy (RunsUnder strict w.tasks)
          { w.redis with known := Function.update w.redis.known t true } :=
        hw.of_same (fun j => rfl) rfl fun j hj => hj
      have hinsert : (Redis.insert _ retrying t score time).Tidy (RunsUnder strict w.tasks) ↔ _ :=
        insert_tidy_iff hmarked
      simpa [hknown, World.Tidy, World.markSeen, Redis.HasRoom, Redis.occurrences,
        Redis.delayedSet] using hinsert
  | requeueScript retrying t score time =>
    exact iff_of_true (requeueScript_tidy hw retrying score time) trivial
  | promoteScript retrying time => exact iff_of_true (promoteScript_tidy hw retrying time) trivial
  | lmove fromRetry => exact iff_of_true (lmove_tidy hw fromRetry) trivial
  | leasePipeline t worker expiry => exact leasePipeline_tidy_iff hw worker expiry
  | delayClaimedPipeline retrying t score => exact delayClaimedPipeline_tidy_iff hw retrying score
  | ackPipeline t => exact iff_of_true (ackPipeline_tidy hw) trivial
  | heartbeatScript t worker expiry => exact iff_of_true (heartbeatScript_tidy hw worker expiry) trivial
  | delayOwnedScript retrying t worker score =>
    exact iff_of_true (delayOwnedScript_tidy hw retrying worker score) trivial
  | ackOwnedScript t worker => exact iff_of_true (ackOwnedScript_tidy hw worker) trivial
  | lremRetryReady t => exact iff_of_true (lremRetryReady_tidy hw) trivial
  | zremRetryDelayed t => exact iff_of_true (zremRetryDelayed_tidy hw) trivial
  | recoverScript t time => exact iff_of_true (recoverScript_tidy hw time) trivial
  | lpushReady retrying t => exact lpushReady_tidy_iff hw
  | sremKnown t => exact iff_of_true (hw.of_same (fun j => rfl) rfl fun j hj => hj) trivial
  | clock about => exact iff_of_true hw trivial
  | readPaused t => exact iff_of_true hw trivial
  | setPaused paused => exact iff_of_true hw trivial
  | getMeta t => exact iff_of_true hw trivial
  | loadResult t => exact iff_of_true hw trivial
  | listPending limit => exact iff_of_true hw trivial
  | expiredLeases time => exact iff_of_true hw trivial

end Records

/-! ### Runs -/

/-- From any state that meets the law, a run of any calls in any interleaving meets it
throughout exactly when every operation of the run meets its condition. -/
theorem tidy_iff (u : Chars) (strict : Bool) (labels : List (Label QueueCall Int)) (c : QueueConfig)
    (hc : c.shared.Tidy strict) :
    Throughout (step u) (fun c => c.shared.Tidy strict) labels c ↔
      AllSteps (step u) (OnAct fun _ _ o c => o.KeepsTidy strict c.shared) labels c :=
  throughout_iff_allSteps
    (fun label c hc => Config.step_iff (fun now o w hw => handle_tidy_iff now o w hw) label c hc) hc

/-- One pending task, an empty queue and no call in progress. -/
def onePending : QueueConfig where
  shared :=
    { redis := {}, tasks := Dict.empty.set "t" { status := .pending }, results := fun _ => {}
      paused := false }
  threads := fun _ => .ret ()

/-- `n` operations of thread `i` at a time. -/
def acts (i n : Nat) (now : Int) : List (Label QueueCall Int) := List.replicate n (.act i now)

theorem onePending_tidy (strict : Bool) : onePending.shared.Tidy strict := by
  constructor
  · intro t
    simp [onePending, Redis.occurrences]
  · intro t worker howner
    cases howner

/-- The task is enqueued and claimed, with nobody else at work. -/
def undisturbed : List (Label QueueCall Int) :=
  .spawn 0 (.enqueue "t" none) :: acts 0 3 0 ++
    .spawn 1 (.claim "w" (fun _ => none) 0) :: acts 1 15 0

theorem tidy_iff_undisturbed :
    Throughout (step .ascii) (fun c => c.shared.Tidy true) undisturbed onePending ↔
      AllSteps (step .ascii) (OnAct fun _ _ o c => o.KeepsTidy true c.shared) undisturbed
        onePending :=
  tidy_iff .ascii true undisturbed onePending (onePending_tidy true)

/-- The claimer has moved the task; a requeue puts it back; the claimer marks it running and
writes its lease. -/
def lateLease : List (Label QueueCall Int) :=
  .spawn 0 (.enqueue "t" none) :: acts 0 3 0 ++
    .spawn 1 (.claim "w" (fun _ => none) 0) :: acts 1 7 0 ++
    .spawn 2 (.requeue "t" none (some false)) :: acts 2 2 0 ++ acts 1 8 0

/-- Then a task in the ready list has an owner entry, on either reading of the law. -/
theorem late_lease_owns_ready_task :
    ¬ Throughout (step .ascii) (fun c => c.shared.Tidy false) lateLease onePending ∧
      ¬ Throughout (step .ascii) (fun c => c.shared.Tidy true) lateLease onePending := by
  constructor
  all_goals
    intro h
    have howned := h.final.owned "t" "w" (by decide +kernel)
    exact absurd howned.1 (by decide +kernel)

/-- A recovery has set the task pending when a reconciliation queues it; then the recovery
queues it once more. -/
example : ¬ Throughout (step .ascii) (fun c => c.shared.Tidy false)
    (undisturbed ++ .spawn 2 .recover :: acts 2 8 (200 * second) ++
      .spawn 3 .reconcile :: acts 3 3 (200 * second) ++ acts 2 2 (200 * second)) onePending := by
  intro h
  exact absurd (h.final.once "t") (by decide +kernel)

end FetchTask.Queue
