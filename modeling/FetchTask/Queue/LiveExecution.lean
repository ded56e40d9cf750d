import FetchTask.Queue.AtMostOnce
import FetchTask.Queue.NoTaskLost
import FetchTask.Queue.Passes

/-!
A live execution is not taken over.

A worker that runs a task renews its lease. Meanwhile no other process is meant
to set the task back or to put it into the queue. The lease is looked at in one
place only, the recovery of the queue; the start-up and the watchdog of another
process decide by the record, by what they have read before, and by a table in
which the worker is missing. Here is what has to hold when they write, so that
live executions are left alone in every run.
-/

namespace FetchTask.Queue

open Runs Store

/-! ### The law -/

/-- The worker that executes the task under a lease that has not lapsed. -/
def World.liveWorker (w : World) (t : TaskId) (now : Int) : Option WorkerId :=
  ((w.tasks.get? t).bind runningAs).filter fun worker =>
    decide (w.redis.owners t = some worker) &&
      (w.redis.leases.get? t).any fun score => decide (now < score)

/-- The record is not set pending, the task is in no queue that it was not in, and its worker
keeps owner entry and lease. -/
structure Undisturbed (t : TaskId) (w w' : World) : Prop where
  notPending : ∀ m ∈ w'.tasks.get? t, m.status ≠ .pending
  notQueued : w'.redis.Queued t → w.redis.Queued t
  owner : w'.redis.owners t = w.redis.owners t
  lease : w'.redis.leases.get? t = w.redis.leases.get? t

instance (r : Redis) (t : TaskId) : Decidable (r.Queued t) :=
  inferInstanceAs (Decidable (_ ∨ _ ∨ _ ∨ _))

instance (t : TaskId) (w w' : World) : Decidable (Undisturbed t w w') :=
  decidable_of_iff
    ((∀ m ∈ w'.tasks.get? t, m.status ≠ .pending) ∧ (w'.redis.Queued t → w.redis.Queued t) ∧
      w'.redis.owners t = w.redis.owners t ∧ w'.redis.leases.get? t = w.redis.leases.get? t)
    ⟨fun ⟨h₁, h₂, h₃, h₄⟩ => ⟨h₁, h₂, h₃, h₄⟩, fun ⟨h₁, h₂, h₃, h₄⟩ => ⟨h₁, h₂, h₃, h₄⟩⟩

/-- The world, and how often the task has been claimed so far. -/
structure Watched where
  world : World
  claims : Nat

/-- Whether the operation makes a worker run the task, or writes the lease of one. -/
def Op.claims (t : TaskId) : Op → World → Bool
  | .claimTask j worker owner limit _, w =>
    j == t && ((w.tasks.get? t).bind (claimedBy worker (atLimit w.tasks owner limit))).isSome
  | .write j o, w => j == t && ((w.tasks.get? t).bind o.startsRun).isSome
  | .leasePipeline j .., _ => j == t
  | _, _ => false

abbrev ManagerSig : Sig := ProcessSig.tagged Actor Nat

section System

variable (u : Chars) (processOf : WorkerId → Process) (t : TaskId)

/-- One atomic step; its result carries the number of claims after it. -/
def managerHandle (e : Moment) : (o : ManagerSig.Op) → Watched → ManagerSig.Res o × Watched
  | (_, .inl o), s =>
    let result := handle u e.now o s.world
    let claims := s.claims + (o.claims t s.world).toNat
    ((result.1, claims), ⟨result.2, claims⟩)
  | (actor, .inr o), s =>
    let result := workerHandle processOf actor.process e o s.world
    ((result.1, s.claims), ⟨result.2, s.claims⟩)

/-- No other process's start-up or watchdog disturbs a live execution, and nobody makes another
worker run the task. -/
def NotTakenOver (e : Moment) (o : ManagerSig.Op) (s : Watched) : Prop :=
  ∀ worker ∈ s.world.liveWorker t e.now,
    let w' := (managerHandle u processOf t e o s).2.world
    (o.1.role ≠ .other → processOf worker ≠ o.1.process → Undisturbed t s.world w') ∧
      ∀ other ∈ (w'.tasks.get? t).bind runningAs, other = worker

instance (e : Moment) (o : ManagerSig.Op) (s : Watched) :
    Decidable (NotTakenOver u processOf t e o s) :=
  inferInstanceAs (Decidable (∀ worker ∈ s.world.liveWorker t e.now, _ ∧ _))

end System

/-! ### When a pass is right -/

/-- What the passes know: how often the task had been claimed when nobody executed it. -/
def passKnowledge (t : TaskId) : Knowledge ManagerSig (Option Nat) :=
  (processSignal t).stamped fun actor => actor.role ≠ .other

/-- Whether the task has a live worker in another process. -/
def World.liveElsewhere (w : World) (processOf : WorkerId → Process) (t : TaskId) (now : Int)
    (process : Process) : Bool :=
  (w.liveWorker t now).any fun worker => processOf worker != process

/-- A reset of a running task that was not submitted, and the retry of one that looks silent. -/
def Op.endsSilent (t : TaskId) : Op → Bool
  | .write j (.resetRunning wasSubmitted _ _) => j == t && !wasSubmitted
  | .write j (.recordInfrastructureRetry ..) => j == t
  | _ => false

/-- What puts the task back because nobody executes it. -/
def Op.putsBack (t : TaskId) : Op → Bool
  | .write j (.markPending ..) | .requeueScript _ j .. | .lpushReady _ j => j == t
  | _ => false

/-- The time that a recovery passes for the task. -/
def Op.recoversAt (t : TaskId) : Op → Option Int
  | .recoverScript j time => if j = t then some time else none
  | _ => none

/-- The condition on the operation of a start-up or a watchdog.

* A reset and a retry of a task that looks silent do not find it live in another process.
* A task is put back only while nobody has claimed it since the pass has seen that nobody
  executes it.
* A recovery does not pass a time that is yet to come. -/
def Fresh (processOf : WorkerId → Process) (t : TaskId) (known : Nat → Option Nat) (i : Nat)
    (e : Moment) (o : ManagerSig.Op) (s : Watched) : Prop :=
  match o with
  | (actor, .inl o) =>
    actor.role ≠ .other →
      (o.endsSilent t = true → s.world.liveElsewhere processOf t e.now actor.process = false) ∧
        (o.putsBack t = true → known i = some s.claims) ∧ ∀ time ∈ o.recoversAt t, time ≤ e.now
  | (_, .inr _) => True

instance (processOf : WorkerId → Process) (t : TaskId) (known : Nat → Option Nat) (i : Nat)
    (e : Moment) (o : ManagerSig.Op) (s : Watched) : Decidable (Fresh processOf t known i e o s) :=
  match o with
  | (actor, .inl o) =>
    inferInstanceAs (Decidable (actor.role ≠ .other →
      (o.endsSilent t = true → s.world.liveElsewhere processOf t e.now actor.process = false) ∧
        (o.putsBack t = true → known i = some s.claims) ∧ ∀ time ∈ o.recoversAt t, time ≤ e.now))
  | (_, .inr _) => .isTrue trivial

/-! ### What makes a worker hold a task -/

/-- The owner entry and the lease are the worker's. -/
def Redis.LeasedTo (r : Redis) (t : TaskId) (worker : WorkerId) : Prop :=
  r.owners t = some worker ∧ r.leases.contains t = true

/-- A worker runs the task and has a lease of it, lapsed or not. -/
def World.Held (w : World) (t : TaskId) : Prop :=
  ∃ worker, (w.tasks.get? t).bind runningAs = some worker ∧ w.redis.LeasedTo t worker

section Held

variable {u : Chars} {processOf : WorkerId → Process} {t j : TaskId} {worker : WorkerId}
  {r r' : Redis} {w w' : World} {now : Int}

theorem hdel_eq_some (h : r.hdel j t = some worker) : r.owners t = some worker := by
  by_cases hj : t = j
  · simp [Redis.hdel, hj] at h
  · simpa [Redis.hdel, hj] using h

theorem contains_of_erase {z : ZSet} (h : (z.erase j).contains t = true) : z.contains t = true := by
  simp only [Dict.contains_erase, Bool.and_eq_true] at h
  exact h.2

theorem Redis.LeasedTo.of_erased (h : r'.LeasedTo t worker) (howners : r'.owners = r.hdel j)
    (hleases : r'.leases = r.leases.erase j) : r.LeasedTo t worker := by
  obtain ⟨howner, hlease⟩ := h
  rw [howners] at howner
  rw [hleases] at hlease
  exact ⟨hdel_eq_some howner, contains_of_erase hlease⟩

theorem Redis.LeasedTo.of_same (h : r'.LeasedTo t worker) (howners : r'.owners = r.owners)
    (hleases : r'.leases = r.leases) : r.LeasedTo t worker := by
  obtain ⟨howner, hlease⟩ := h
  rw [howners] at howner
  rw [hleases] at hlease
  exact ⟨howner, hlease⟩

@[simp] theorem insert_owners (retrying : Bool) (score time : Int) :
    (r.insert retrying j score time).owners = r.owners := by
  simp only [Redis.insert]
  split <;> simp

@[simp] theorem lpushReady_leases (retrying : Bool) :
    (r.lpushReady retrying j).leases = r.leases := by
  cases retrying <;> rfl

@[simp] theorem zaddDelayed_leases (retrying : Bool) (score : Int) :
    (r.zaddDelayed retrying j score).leases = r.leases := by
  cases retrying <;> rfl

@[simp] theorem insert_leases (retrying : Bool) (score time : Int) :
    (r.insert retrying j score time).leases = r.leases := by
  simp only [Redis.insert]
  split <;> simp

/-- Only a claim and the lease that a claimer writes make a worker hold a task. -/
theorem held_of_handle (u : Chars) (now : Int) (o : Op) (h : (handle u now o w).2.Held t)
    (hclaims : o.claims t w = false) : w.Held t := by
  obtain ⟨worker, hruns, hleased⟩ := h
  cases o with
  | claimTask j claimer owner limit claimedAt =>
    simp only [handle] at hruns hleased
    cases hm : w.tasks.get? j with
    | none =>
      rw [hm] at hruns hleased
      exact ⟨worker, hruns, hleased⟩
    | some m =>
      rw [hm] at hruns hleased
      refine ⟨worker, ?_, hleased⟩
      by_cases hj : j = t
      · subst hj
        simp only [Op.claims, hm, beq_self_eq_true, Bool.true_and, Option.bind_some] at hclaims
        simp only [World.setTask, Dict.get?_set_self, Option.bind_some] at hruns
        rw [claimTask_runningAs] at hruns
        split at hruns
        · rw [hm]
          exact hruns
        · simp [hruns] at hclaims
      · simpa [World.setTask, hj] using hruns
  | write j o =>
    simp only [handle] at hruns hleased
    cases hm : w.tasks.get? j with
    | none =>
      rw [hm] at hruns hleased
      exact ⟨worker, hruns, hleased⟩
    | some m =>
      rw [hm] at hruns hleased
      refine ⟨worker, ?_, hleased⟩
      by_cases hj : j = t
      · subst hj
        simp only [Op.claims, hm, beq_self_eq_true, Bool.true_and, Option.bind_some] at hclaims
        simp only [World.setTask, Dict.get?_set_self, Option.bind_some] at hruns
        rw [storeOp_runningAs] at hruns
        split at hruns
        · split at hruns
          · cases hruns
          · rw [hm]
            exact hruns
        · simp [hruns] at hclaims
      · simpa [World.setTask, hj] using hruns
  | leasePipeline j claimer expiry =>
    have hj : j ≠ t := by simpa [Op.claims] using hclaims
    refine ⟨worker, hruns, ?_⟩
    simpa [handle, Redis.leasePipeline, Redis.LeasedTo, hj, Ne.symm hj] using hleased
  | heartbeatScript j claimer expiry =>
    refine ⟨worker, hruns, ?_⟩
    simp only [handle, Redis.heartbeatScript] at hleased
    split at hleased
    · rename_i howned
      refine ⟨hleased.1, ?_⟩
      by_cases hj : j = t
      · exact hj ▸ howned.2
      · simpa [Redis.LeasedTo, hj] using hleased.2
    · exact hleased
  | requeueScript retrying j score time =>
    exact ⟨worker, hruns, hleased.of_erased (j := j) (insert_owners ..) (insert_leases ..)⟩
  | enqueueScript retrying j score time =>
    refine ⟨worker, ?_, ?_⟩
    · simp only [handle] at hruns
      split at hruns <;> exact hruns
    · simp only [handle, Redis.enqueueScript] at hleased
      split at hleased
      · exact hleased
      · exact hleased.of_same (insert_owners ..) (insert_leases ..)
  | promoteScript retrying time =>
    refine ⟨worker, hruns, hleased.of_same ?_ ?_⟩ <;> cases retrying <;> rfl
  | lmove fromRetry =>
    refine ⟨worker, hruns, hleased.of_same ?_ ?_⟩ <;>
      (simp only [handle, Redis.lmove]; split <;> rfl)
  | lpushReady retrying j =>
    exact ⟨worker, hruns, hleased.of_same (lpushReady_owners ..) (lpushReady_leases ..)⟩
  | delayClaimedPipeline retrying j score => exact ⟨worker, hruns, hleased.of_erased rfl rfl⟩
  | ackPipeline j => exact ⟨worker, hruns, hleased.of_erased rfl rfl⟩
  | delayOwnedScript retrying j owner score =>
    refine ⟨worker, hruns, ?_⟩
    simp only [handle, Redis.delayOwnedScript] at hleased
    split at hleased
    · exact hleased.of_erased (zaddDelayed_owners ..) (zaddDelayed_leases ..)
    · exact hleased
  | ackOwnedScript j owner =>
    refine ⟨worker, hruns, ?_⟩
    simp only [handle, Redis.ackOwnedScript] at hleased
    split at hleased
    · exact hleased.of_erased rfl rfl
    · exact hleased
  | recoverScript j time =>
    refine ⟨worker, hruns, ?_⟩
    simp only [handle, Redis.recoverScript] at hleased
    split at hleased
    · exact hleased
    · split at hleased
      · exact hleased
      · exact hleased.of_erased rfl rfl
  | _ => exact ⟨worker, hruns, hleased⟩

theorem WaitReset.updates_runs (reset : WaitReset) (now : Int) (m : Meta) :
    (reset.updates now m).status = m.status ∧ (reset.updates now m).workerId = m.workerId := by
  cases reset with
  | platformGuard => exact ⟨rfl, rfl⟩
  | resourceWait allocationTimeout => cases allocationTimeout <;> exact ⟨rfl, rfl⟩

/-- The operations of the processes themselves make nobody run a task, and leave the queue. -/
theorem workerHandle_runs (processOf : WorkerId → Process) (t : TaskId) (process : Process)
    (e : Moment) (o : WorkerOp) (w : World) :
    ((workerHandle processOf process e o w).2.tasks.get? t).bind runningAs =
        (w.tasks.get? t).bind runningAs ∧
      (workerHandle processOf process e o w).2.redis = w.redis := by
  cases o with
  | resetWait j reset time =>
    simp only [workerHandle]
    cases hm : w.tasks.get? j with
    | none => exact ⟨rfl, rfl⟩
    | some m =>
      refine ⟨?_, rfl⟩
      by_cases hj : j = t
      · subst hj
        obtain ⟨hstatus, hworker⟩ := reset.updates_runs time m
        simp [World.setTask, updateMeta, runningAs, hm, hstatus, hworker]
      · simp [World.setTask, hj]
  | _ => exact ⟨rfl, rfl⟩

/-! ### What the evidence is worth -/

theorem not_held_of_not_running {m : Meta} (hm : w.tasks.get? t = some m)
    (hstatus : m.status ≠ .running) : ¬ w.Held t := by
  rintro ⟨worker, hruns, -⟩
  simp [hm, runningAs_of_ne hstatus] at hruns

theorem not_held_of_missing (hm : w.tasks.get? t = none) : ¬ w.Held t := by
  rintro ⟨worker, hruns, -⟩
  simp [hm] at hruns

theorem not_held_of_listed (rows : List (TaskId × Meta))
    (hrows : ∀ row ∈ rows, row ∈ pendingTasks w.tasks)
    (h : (rows.any fun row => row.1 == t) = true) : ¬ w.Held t := by
  obtain ⟨⟨j, m⟩, hrow, hj⟩ := List.any_eq_true.mp h
  obtain rfl : j = t := by simpa using hj
  obtain ⟨hmem, hstatus⟩ := List.mem_filter.mp (hrows _ hrow)
  refine not_held_of_not_running ((w.tasks.get?_eq_some_iff).mpr hmem) ?_
  simp at hstatus
  simp [hstatus]

/-- The retry of a silent task leaves its record not running. -/
theorem recordInfrastructureRetry_status (reason : String) (m : Meta) :
    (recordInfrastructureRetry u reason now m).2.status ≠ .running := by
  simp only [recordInfrastructureRetry]
  split
  · rename_i hclosed
    intro h
    have hrunning : m.status = .running := h
    simp [hrunning] at hclosed
  · split <;> simp

/-- Who has seen evidence knows that nobody holds the task at that moment. -/
theorem not_held_of_shows {o : Op} (h : (queueSignal t).shows o (handle u now o w).1 = true) :
    ¬ (handle u now o w).2.Held t := by
  cases o with
  | getMeta j =>
    simp only [queueSignal, handle, Bool.and_eq_true, beq_iff_eq] at h
    obtain ⟨rfl, hall⟩ := h
    cases hm : w.tasks.get? j with
    | none => exact not_held_of_missing hm
    | some m => exact not_held_of_not_running hm (by simpa [hm] using hall)
  | listPending limit =>
    refine not_held_of_listed (handle u now (.listPending limit) w).1 (fun row hrow => ?_) h
    cases limit with
    | none => exact hrow
    | some n => exact List.mem_of_mem_take hrow
  | recoverScript j time =>
    simp only [queueSignal, handle, Bool.and_eq_true, beq_iff_eq] at h
    obtain ⟨rfl, htaken⟩ := h
    rintro ⟨worker, -, howner, -⟩
    simp only [handle] at howner
    revert htaken howner
    simp only [Redis.recoverScript]
    split
    · simp
    · split
      · simp
      · simp [Redis.hdel]
  | write j o =>
    cases o with
    | recordInfrastructureRetry reason time =>
      obtain rfl : j = t := by simpa [queueSignal] using h
      simp only [handle]
      cases hm : w.tasks.get? j with
      | none => exact not_held_of_missing hm
      | some m =>
        refine not_held_of_not_running (by simp [World.setTask]; rfl) ?_
        exact recordInfrastructureRetry_status reason m
    | _ => exact absurd h Bool.false_ne_true
  | _ => exact absurd h Bool.false_ne_true

end Held

/-! ### One step -/

section Step

variable {u : Chars} {processOf : WorkerId → Process} {t : TaskId}

/-- What a pass knows is true as long as nobody has claimed the task since. -/
def PassesRight (t : TaskId) (s : Watched) (known : Nat → Option Nat) : Prop :=
  ∀ i n, known i = some n → n ≤ s.claims ∧ (n = s.claims → ¬ s.world.Held t)

/-- The number of claims does not fall, and a task that nobody held is held only after a claim. -/
theorem managerHandle_claims (u : Chars) (processOf : WorkerId → Process) (t : TaskId) (e : Moment)
    (o : ManagerSig.Op) (s : Watched) :
    s.claims ≤ (managerHandle u processOf t e o s).2.claims ∧
      ((managerHandle u processOf t e o s).2.claims = s.claims → ¬ s.world.Held t →
        ¬ (managerHandle u processOf t e o s).2.world.Held t) := by
  obtain ⟨actor, o⟩ := o
  cases o with
  | inl o =>
    refine ⟨Nat.le_add_right _ _, fun heq hfree hheld => hfree ?_⟩
    refine held_of_handle u e.now o hheld ?_
    have hcount : s.claims + (o.claims t s.world).toNat = s.claims := heq
    cases hclaims : o.claims t s.world with
    | false => rfl
    | true => simp [hclaims] at hcount
  | inr o =>
    refine ⟨Nat.le_refl _, fun _ hfree hheld => hfree ?_⟩
    obtain ⟨worker, hruns, hleased⟩ := hheld
    obtain ⟨htasks, hredis⟩ := workerHandle_runs processOf t actor.process e o s.world
    have hruns' : (s.world.tasks.get? t).bind runningAs = some worker := htasks ▸ hruns
    exact ⟨worker, hruns', hredis ▸ hleased⟩

/-- The value that a result carries is the number of claims after the operation. -/
theorem managerHandle_stamp (e : Moment) (o : ManagerSig.Op) (s : Watched) :
    (managerHandle u processOf t e o s).1.2 = (managerHandle u processOf t e o s).2.claims := by
  obtain ⟨actor, o⟩ := o
  cases o <;> rfl

theorem not_held_of_evidence {e : Moment} {o : ManagerSig.Op} {s : Watched}
    (h : (processSignal t).shows o.2 (managerHandle u processOf t e o s).1.1 = true) :
    ¬ (managerHandle u processOf t e o s).2.world.Held t := by
  obtain ⟨actor, o⟩ := o
  cases o with
  | inl o => exact not_held_of_shows h
  | inr o =>
    cases o with
    | listPendingDola limit =>
      refine not_held_of_listed (managerHandle u processOf t e
        (actor, .inr (.listPendingDola limit)) s).1.1 (fun row hrow => ?_) h
      exact (List.mem_filter.mp (List.mem_of_mem_take hrow)).1
    | _ => cases h

theorem passesRight_keeps :
    (passKnowledge t).KeepsWith (managerHandle u processOf t) (PassesRight t)
      (Fresh processOf t) := by
  intro i e o s known hright _ _
  refine ⟨trivial, fun j n hj => ?_⟩
  obtain ⟨hle, hfree⟩ := managerHandle_claims u processOf t e o s
  -- What was right before stays right, unless the task is claimed now.
  have holder : ∀ j n, known j = some n → n ≤ (managerHandle u processOf t e o s).2.claims ∧
      (n = (managerHandle u processOf t e o s).2.claims →
        ¬ (managerHandle u processOf t e o s).2.world.Held t) := by
    intro j n hj
    obtain ⟨hn, hnot⟩ := hright j n hj
    refine ⟨Nat.le_trans hn hle, fun heq => ?_⟩
    have hsame : (managerHandle u processOf t e o s).2.claims = s.claims := by omega
    exact hfree hsame (hnot (by omega))
  by_cases hji : j = i
  · subst hji
    rw [Function.update_self] at hj
    change (if (processSignal t).shows o.2 (managerHandle u processOf t e o s).1.1 = true then
      some (managerHandle u processOf t e o s).1.2 else known j) = some n at hj
    split at hj
    · rename_i hshows
      cases hj
      rw [managerHandle_stamp]
      exact ⟨Nat.le_refl _, fun _ => not_held_of_evidence hshows⟩
    · exact holder j n hj
  · rw [Function.update_of_ne hji] at hj
    exact holder j n hj

/-! ### A step leaves a live execution alone -/

theorem running_of_runs {w : World} {worker : WorkerId}
    (h : (w.tasks.get? t).bind runningAs = some worker) :
    ∃ m, w.tasks.get? t = some m ∧ m.status = .running ∧ m.workerId = worker := by
  obtain ⟨m, hm, hruns⟩ := Option.bind_eq_some_iff.mp h
  by_cases hstatus : m.status = .running
  · exact ⟨m, hm, hstatus, by simpa [runningAs, hstatus] using hruns⟩
  · simp [runningAs_of_ne hstatus] at hruns

/-- What a live worker has. -/
theorem liveWorker_eq_some {w : World} {worker : WorkerId} {now : Int}
    (h : worker ∈ w.liveWorker t now) :
    (w.tasks.get? t).bind runningAs = some worker ∧ w.redis.owners t = some worker ∧
      ∃ score, w.redis.leases.get? t = some score ∧ now < score := by
  obtain ⟨hruns, hlease⟩ := Option.filter_eq_some_iff.mp h
  simp only [Bool.and_eq_true, decide_eq_true_eq] at hlease
  obtain ⟨howner, hscore⟩ := hlease
  obtain ⟨score, hscore, hnow⟩ := (Option.any_eq_true _ _).mp hscore
  exact ⟨hruns, howner, score, hscore, of_decide_eq_true hnow⟩

/-- An operation that may be performed without evidence does not set a running record pending. -/
theorem not_pending_of_write {o : StoreOp} {m : Meta}
    (ho : o.setsPending = false ∨ o.requeueLimit.isSome = true) (hm : m.status = .running) :
    (o.apply u m).status ≠ .pending := by
  -- A record that goes on running is not pending.
  have hruns : o.endsRun m = false → (o.apply u m).status ≠ .pending := by
    intro hends hpending
    have hruns := storeOp_runningAs (u := u) o m
    simp [runningAs, hm, hends, hpending] at hruns
  cases o with
  | markFailed reason now =>
    simp only [StoreOp.apply, Store.markFailed]
    split <;> simp [hm]
  | markCanceled reason now =>
    simp only [StoreOp.apply, Store.markCanceled]
    rw [updateMetaIf_of_mem (by simp [hm])]
    simp
  | requestTaskCancel reason allowSubmitted now =>
    simp only [StoreOp.apply, Store.requestTaskCancel]
    split <;> simp [hm]
  | markSuccess hasUrl now =>
    cases hasUrl with
    | false => exact hruns rfl
    | true =>
      simp only [StoreOp.apply, Store.markSuccess]
      rw [updateMetaIf_of_mem (by simp [hm])]
      simp
  | markSubmitted resultPollDelaySeconds now =>
    simp only [StoreOp.apply, Store.markSubmitted]
    rw [updateMetaIf_of_mem (by simp [hm])]
    simp
  | markPending reason now => simp [StoreOp.setsPending, StoreOp.requeueLimit] at ho
  | deferTask reason category delaySeconds now =>
    simp [StoreOp.setsPending, StoreOp.requeueLimit] at ho
  | recordRetry retryLimit reason now => simp [StoreOp.setsPending, StoreOp.requeueLimit] at ho
  | recordInfrastructureRetry reason now =>
    simp [StoreOp.setsPending, StoreOp.requeueLimit] at ho
  | recordExecutionMiss retryLimit reason now =>
    simp [StoreOp.setsPending, StoreOp.requeueLimit] at ho
  | resetRunning wasSubmitted submittedAt now =>
    simp [StoreOp.setsPending, StoreOp.requeueLimit] at ho
  | _ => exact hruns rfl

/-- Whoever acts, the task goes on running under its worker, or stops running. -/
theorem handle_runs {now : Int} {o : Op} {w : World} {worker other : WorkerId}
    (hruns : (w.tasks.get? t).bind runningAs = some worker)
    (hother : ((handle u now o w).2.tasks.get? t).bind runningAs = some other) :
    other = worker := by
  obtain ⟨m, hm, hstatus, hworker⟩ := running_of_runs hruns
  have hself : runningAs m = some worker := by simp [runningAs, hstatus, hworker]
  have hsame : (w.tasks.get? t).bind runningAs = some other → other = worker := by
    intro h
    exact Option.some.inj (h.symm.trans hruns)
  cases o with
  | claimTask j claimer owner limit claimedAt =>
    simp only [handle] at hother
    by_cases hj : j = t
    · subst hj
      simp only [hm, World.setTask, Dict.get?_set_self, Option.bind_some] at hother
      rw [claimTask_runningAs, if_pos hstatus, hself] at hother
      exact (Option.some.inj hother).symm
    · split at hother
      · exact hsame hother
      · exact hsame (by simpa [World.setTask, hj] using hother)
  | write j o =>
    simp only [handle] at hother
    by_cases hj : j = t
    · subst hj
      simp only [hm, World.setTask, Dict.get?_set_self, Option.bind_some] at hother
      rw [storeOp_runningAs, if_pos hstatus, hself] at hother
      split at hother
      · cases hother
      · exact (Option.some.inj hother).symm
    · split at hother
      · exact hsame hother
      · exact hsame (by simpa [World.setTask, hj] using hother)
  | enqueueScript retrying j score time =>
    simp only [handle] at hother
    split at hother <;> exact hsame hother
  | _ => exact hsame hother

theorem Undisturbed.of_same {w w' : World} {worker : WorkerId}
    (hruns : (w.tasks.get? t).bind runningAs = some worker)
    (htasks : (w'.tasks.get? t).bind runningAs = (w.tasks.get? t).bind runningAs)
    (hqueued : w'.redis.Queued t → w.redis.Queued t)
    (howner : w'.redis.owners t = w.redis.owners t)
    (hlease : w'.redis.leases.get? t = w.redis.leases.get? t) : Undisturbed t w w' := by
  refine ⟨fun m hm => ?_, hqueued, howner, hlease⟩
  obtain ⟨m', hm', hstatus, -⟩ := running_of_runs (htasks.trans hruns)
  obtain rfl : m' = m := Option.some.inj (hm'.symm.trans hm)
  simp [hstatus]

/-- A write to a record. -/
theorem Undisturbed.setTask {w : World} {worker : WorkerId} {j : TaskId} {m : Meta}
    (hruns : (w.tasks.get? t).bind runningAs = some worker)
    (hm : j = t → m.status ≠ .pending) : Undisturbed t w (w.setTask j m) := by
  by_cases hj : j = t
  · subst hj
    refine ⟨fun m' hm' => ?_, id, rfl, rfl⟩
    obtain rfl : m = m' := by simpa [World.setTask] using hm'
    exact hm rfl
  · exact Undisturbed.of_same hruns (by simp [World.setTask, hj]) id rfl rfl

theorem queued_insert_of_ne {r : Redis} {j : TaskId} (hj : t ≠ j) (retrying : Bool)
    (score time : Int) : (r.insert retrying j score time).Queued t ↔ r.Queued t := by
  cases retrying <;> by_cases hscore : time < score <;>
    simp [Redis.insert, Redis.zaddDelayed, Redis.lpushReady, Redis.Queued, hscore, hj, Ne.symm hj]

/-- A start-up or a watchdog that meets the condition leaves a live execution alone. -/
theorem undisturbed_of_fresh {e : Moment} {o : Op} {actor : Actor} {s : Watched}
    {known : Nat → Option Nat} {i : Nat} {worker : WorkerId} (hright : PassesRight t s known)
    (hmay : (queueSignal t).may (known i).isSome o)
    (hfresh : Fresh processOf t known i e (actor, .inl o) s) (hrole : actor.role ≠ .other)
    (hlive : worker ∈ s.world.liveWorker t e.now) (hprocess : processOf worker ≠ actor.process) :
    Undisturbed t s.world (handle u e.now o s.world).2 := by
  obtain ⟨hruns, howner, score, hlease, hnow⟩ := liveWorker_eq_some hlive
  obtain ⟨m, hm, hstatus, -⟩ := running_of_runs hruns
  have hheld : s.world.Held t := ⟨worker, hruns, howner, by simp [Dict.contains, hlease]⟩
  -- Nobody has claimed the task since the pass has seen that nobody executes it.
  have hstale : known i ≠ some s.claims := fun hknown => (hright i _ hknown).2 rfl hheld
  have helsewhere : s.world.liveElsewhere processOf t e.now actor.process = true := by
    refine (Option.any_eq_true _ _).mpr ⟨worker, hlive, ?_⟩
    simpa using hprocess
  obtain ⟨hsilent, hback, hrecovers⟩ := hfresh hrole
  cases o with
  | requeueScript retrying j score time =>
    have hj : t ≠ j := fun hj => hstale (hback (by simp [Op.putsBack, hj]))
    refine .of_same hruns rfl (fun hqueued => ?_) ?_ ?_
    · have hrest := (queued_insert_of_ne hj retrying score time).mp hqueued
      simpa [Redis.Queued, mem_lrem, hj] using hrest
    · show (Redis.insert _ retrying j score time).owners t = _
      rw [insert_owners]
      exact Function.update_of_ne hj _ _
    · show (Redis.insert _ retrying j score time).leases.get? t = _
      rw [insert_leases]
      simp [hj]
  | lpushReady retrying j =>
    have hj : t ≠ j := fun hj => hstale (hback (by simp [Op.putsBack, hj]))
    refine .of_same hruns rfl (fun hqueued => ?_) (by simp [handle]) (by simp [handle])
    cases retrying <;> simpa [handle, Redis.lpushReady, Redis.Queued, hj] using hqueued
  | recoverScript j time =>
    by_cases hj : j = t
    · subst hj
      have htime : time < score := lt_of_le_of_lt (hrecovers time (by simp [Op.recoversAt])) hnow
      have hkept : (s.world.redis.recoverScript j time).2 = s.world.redis := by
        simp [Redis.recoverScript, hlease, htime]
      refine .of_same hruns rfl ?_ ?_ ?_ <;> simp [handle, hkept]
    · refine .of_same hruns rfl ?_ ?_ ?_ <;>
        simp only [handle, Redis.recoverScript] <;> split <;> try split
      all_goals simp [Redis.Queued, Redis.hdel, Ne.symm hj]
  | write j o =>
    simp only [handle]
    cases hjm : s.world.tasks.get? j with
    | none => exact .of_same hruns rfl id rfl rfl
    | some mj =>
      refine .setTask hruns fun hj => ?_
      subst hj
      obtain rfl : m = mj := Option.some.inj (hm.symm.trans hjm)
      cases o with
      | markPending reason now => exact absurd (hback (by simp [Op.putsBack])) hstale
      | recordInfrastructureRetry reason now =>
        have hfree := hsilent (by simp [Op.endsSilent])
        simp [hfree] at helsewhere
      | resetRunning wasSubmitted submittedAt now =>
        cases wasSubmitted with
        | false =>
          have hfree := hsilent (by simp [Op.endsSilent])
          simp [hfree] at helsewhere
        | true =>
          simp only [StoreOp.apply, Store.resetRunning, if_true]
          rw [updateMetaIf_of_mem (by simp [hstatus])]
          simp
      | _ => exact not_pending_of_write hmay hstatus
  | sremKnown j => exact .of_same hruns rfl id rfl rfl
  | clock about => exact .of_same hruns rfl id rfl rfl
  | readPaused j => exact .of_same hruns rfl id rfl rfl
  | getMeta j => exact .of_same hruns rfl id rfl rfl
  | loadResult j => exact .of_same hruns rfl id rfl rfl
  | listPending limit => exact .of_same hruns rfl id rfl rfl
  | expiredLeases time => exact .of_same hruns rfl id rfl rfl
  | _ => exact absurd hmay id

theorem notTakenOver_of_fresh {e : Moment} {o : ManagerSig.Op} {s : Watched}
    {known : Nat → Option Nat} {i : Nat} (hright : PassesRight t s known)
    (hmay : (passKnowledge t).may (known i) o) (hfresh : Fresh processOf t known i e o s) :
    NotTakenOver u processOf t e o s := by
  intro worker hlive
  obtain ⟨hruns, -⟩ := liveWorker_eq_some hlive
  obtain ⟨actor, o⟩ := o
  cases o with
  | inl o =>
    constructor
    · intro hrole hprocess
      exact undisturbed_of_fresh hright (hmay hrole) hfresh hrole hlive hprocess
    · intro other hother
      exact handle_runs hruns hother
  | inr o =>
    obtain ⟨htasks, hredis⟩ := workerHandle_runs processOf t actor.process e o s.world
    constructor
    · intro _ _
      refine .of_same hruns htasks ?_ ?_ ?_ <;> simp only [managerHandle, hredis]
      exact id
    · intro other hother
      exact Option.some.inj (hother.symm.trans (htasks.trans hruns))

end Step

/-! ### Runs -/

section Runs

variable (u : Chars) (processOf : WorkerId → Process) (t : TaskId)

/-- One step of any number of processes, with what their passes know of the task. -/
def managerStep :
    Label ManagerCall Moment → Knowledge.Tracked ManagerSig Watched (Option Nat) →
      Knowledge.Tracked ManagerSig Watched (Option Nat) :=
  (passKnowledge t).step (managerHandle u processOf t) fun call => call.prog.tagged call.actor

/-- No call is in progress. -/
def managersIdle (w : World) : Knowledge.Tracked ManagerSig Watched (Option Nat) where
  config := { shared := ⟨w, 0⟩, threads := fun _ => .ret () }
  known _ := none

theorem managerCall_ensures (call : ManagerCall) :
    (passKnowledge t).Ensures (fun _ _ => True) none (call.prog.tagged call.actor) := by
  by_cases hrole : call.actor.role = .other
  · exact Signal.ensures_unbound fun hbound => hbound hrole
  · have hcautious := cautious_call (t := t) (P := False) call hrole false (by simp)
    exact Signal.ensures_tagged (k := none) hcautious

/-- From any world, and in any run of any number of processes whose start-ups and watchdogs meet
the condition at every step, no live execution of the task is taken over. -/
theorem live_execution_kept (w : World) (labels : List (Label ManagerCall Moment))
    (h : AllSteps (managerStep u processOf t) (Knowledge.OnThreads (Fresh processOf t)) labels
      (managersIdle w)) :
    AllSteps (managerStep u processOf t)
      (Knowledge.OnThreads fun _ _ => NotTakenOver u processOf t) labels (managersIdle w) := by
  have hstart : (passKnowledge t).Follows (fun _ => True) (PassesRight t)
      (managersIdle w) := by
    refine ⟨fun i => trivial, fun i n hknown => ?_⟩
    cases hknown
  refine Knowledge.follows_allSteps_with (managerCall_ensures t) (fun s known i hright _ => ?_)
    passesRight_keeps (fun known i e o s hright hmay hfresh => ?_) hstart h
  · intro j n hj
    by_cases hji : j = i
    · subst hji
      rw [Function.update_self] at hj
      cases hj
    · rw [Function.update_of_ne hji] at hj
      exact hright j n hj
  · exact notTakenOver_of_fresh hright hmay hfresh

end Runs

/-- One pending task in the ready list. -/
def queuedWorld : World where
  redis := { ready := ["t"], known := fun t => t == "t" }
  tasks := Dict.empty.set "t" { status := .pending }
  results := fun _ => {}
  paused := false

/-- `n` operations of thread `i`, at one time. -/
def moments (i n : Nat) (now : Int) : List (Label ManagerCall Moment) :=
  List.replicate n (.act i { now })

/-- The second process starts and queues the pending task again; then the first claims it and
renews its lease, and the second runs a watchdog pass within the grace time. -/
def renewed : List (Label ManagerCall Moment) :=
  .spawn 1 (.start "b") :: moments 1 10 0 ++
    .spawn 0 (.other "a" (.claim "a-1" (fun _ => none) 0)) :: moments 0 15 0 ++
    .spawn 0 (.other "a" (.heartbeat [("t", "a-1")])) :: moments 0 2 (5 * second) ++
    .spawn 1 (.watch "b" true 100) :: moments 1 6 (10 * second)

theorem live_execution_kept_renewed :
    AllSteps (managerStep .ascii instanceOf "t")
        (Knowledge.OnThreads (Fresh instanceOf "t")) renewed (managersIdle queuedWorld) ∧
      AllSteps (managerStep .ascii instanceOf "t")
        (Knowledge.OnThreads fun _ _ => NotTakenOver .ascii instanceOf "t") renewed
        (managersIdle queuedWorld) := by
  have hfresh : AllSteps (managerStep .ascii instanceOf "t")
      (Knowledge.OnThreads (Fresh instanceOf "t")) renewed (managersIdle queuedWorld) := by
    decide +kernel
  exact ⟨hfresh, live_execution_kept .ascii instanceOf "t" queuedWorld renewed hfresh⟩

/-- The second process starts again. -/
def secondStart : List (Label ManagerCall Moment) :=
  renewed ++ .spawn 2 (.start "b") :: moments 2 8 (20 * second)

/-- Its reset finds the task running and sets it pending, under the live lease of the first. -/
theorem second_start_resets :
    ¬ AllSteps (managerStep .ascii instanceOf "t")
      (Knowledge.OnThreads fun _ _ => NotTakenOver .ascii instanceOf "t") secondStart
      (managersIdle queuedWorld) := by
  decide +kernel

/-- After the grace time, so does the watchdog: the worker is not in its process's table. -/
example : ¬ AllSteps (managerStep .ascii instanceOf "t")
    (Knowledge.OnThreads fun _ _ => NotTakenOver .ascii instanceOf "t")
    (renewed ++ .spawn 1 (.watch "b" false 100) :: moments 1 8 (100 * second))
    (managersIdle queuedWorld) := by
  decide +kernel

end FetchTask.Queue
