import FetchTask.Lib.Dict
import FetchTask.Lib.Rounding
import FetchTask.Lib.Runs

/-!
The pool of workers and its supervisor (`app/worker.py`, `_supervise`; the limit
under memory pressure is `adaptive_worker_limit` of `app/resilience.py`).

Every worker is a coroutine on one event loop, known by the number it was started
with. The manager's table has the workers that the supervisor counts on; a second
table has the task that each worker is at. A pass of the supervisor has no await
before its last sleep, so it is one event; the workers, the watchdog and whoever
cancels a task come in between.

What an iteration of a worker does with its task is elsewhere. Here it takes one
when it is free, and gives it up, with or without success.
-/

namespace FetchTask.Supervisor

open Runs

/-! ### The limit -/

inductive Level
  | normal
  | high
  | critical
  deriving DecidableEq

/-- The fields of `ResiliencePolicy` that the limit reads. -/
structure Policy where
  memoryHighRatio : Rat
  memoryCriticalRatio : Rat
  minimumWorkers : Nat
  one_le_minimum : 1 ≤ minimumWorkers

/-- How much of the span between the two ratios is left. -/
def remaining (R : Rounding) (policy : Policy) (ratio : Rat) : Rat :=
  max 0 (R.div (R.sub policy.memoryCriticalRatio ratio)
    (R.sub policy.memoryCriticalRatio policy.memoryHighRatio))

/-- `adaptive_worker_limit`, with the ratio that `memory_pressure` has read. -/
def adaptiveWorkerLimit (R : Rounding) (policy : Policy) (configured capacityLimit : Nat)
    (ratio : Rat) : Nat × Level :=
  let capacity := max 1 (min 999 capacityLimit)
  let capped := min configured capacity
  let minimum := min capped policy.minimumWorkers
  if policy.memoryCriticalRatio ≤ ratio then (minimum, .critical)
  else if policy.memoryHighRatio ≤ ratio then
    (max minimum ⌊R.mul capped (max (1 / 4) (remaining R policy ratio))⌋.toNat, .high)
  else (capped, .normal)

/-! ### The manager -/

inductive Coroutine
  | running
  /-- `CancelledError` is on its way to where the coroutine awaits. -/
  | cancelled
  | done
  deriving DecidableEq

/-- `task.cancel()`, which does nothing to a task that is done. -/
def Coroutine.cancel : Coroutine → Coroutine
  | .done => .done
  | _ => .cancelled

structure Manager where
  workerSeq : Nat
  /-- The keys of `_workers`, in the order they were put there. -/
  workers : List Nat
  coroutine : Nat → Coroutine
  /-- `_worker_task_ids`. -/
  workerTaskIds : Dict Nat String
  /-- Whether the watchdog is there and not done. -/
  watchdog : Bool
  /-- The level of the last `_resource_snapshot`. -/
  level : Option Level
  restartCount : Nat

/-- After `start`, before the supervisor has run. -/
def Manager.new : Manager where
  workerSeq := 0
  workers := []
  coroutine _ := .done
  workerTaskIds := .empty
  watchdog := true
  level := none
  restartCount := 0

def Manager.setCoroutine (worker : Nat) (c : Coroutine) (m : Manager) : Manager :=
  { m with coroutine := fun w => if w = worker then c else m.coroutine w }

def Manager.memoryClaimingPaused (m : Manager) : Bool := decide (m.level = some .critical)

/-- Whether the manager has a task for the worker in its table. -/
def Manager.busy (worker : Nat) (m : Manager) : Bool := m.workerTaskIds.contains worker

/-! ### A pass -/

def Manager.failed (m : Manager) : Manager := { m with restartCount := m.restartCount + 1 }

def Manager.restartWatchdog (m : Manager) : Manager :=
  if m.watchdog then m else { m with watchdog := true }.failed

def Manager.dropDone (m : Manager) : Manager :=
  { m with workers := m.workers.filter fun w => decide (m.coroutine w ≠ .done) }

def Manager.idleWorkersToTrim (desired : Nat) (m : Manager) : List Nat :=
  let excess := m.workers.length - max 1 desired
  (m.workers.filter fun w => !m.busy w).take excess

/-- The idle workers beyond the desired number are popped and cancelled. -/
def Manager.trim (desired : Nat) (m : Manager) : Manager :=
  { m with
    workers := m.workers.filter fun w => decide (w ∉ m.idleWorkersToTrim desired)
    coroutine := fun w =>
      if w ∈ m.idleWorkersToTrim desired then (m.coroutine w).cancel else m.coroutine w }

def Manager.spawn (m : Manager) : Manager :=
  { m with workerSeq := m.workerSeq + 1, workers := m.workers ++ [m.workerSeq + 1] }.setCoroutine
    (m.workerSeq + 1) .running

/-- `while len(self._workers) < desired`; every turn adds one. -/
def Manager.grow (desired : Nat) (m : Manager) : Manager :=
  Manager.spawn^[desired - m.workers.length] m

/-- Where a pass can raise: the daily reset and the settings, the heartbeat of the queue, the
record of the active tasks. -/
inductive Stage
  | maintenance
  | heartbeat
  | activeTasks
  deriving DecidableEq

/-- What a pass reads: the memory, and the number of tasks that are claimed or pending. -/
structure Reading where
  ratio : Rat
  demand : Nat

variable (R : Rounding) (policy : Policy) (concurrency : Nat)

def desired (reading : Reading) : Nat :=
  min (adaptiveWorkerLimit R policy concurrency concurrency reading.ratio).1 (max 1 reading.demand)

/-- One turn of `_supervise`. -/
def supervise (reading : Reading) (fault : Option Stage) (m : Manager) : Manager :=
  let m := m.restartWatchdog.dropDone
  if fault = some .maintenance then m.failed
  else
    let m := { m with
      level := some (adaptiveWorkerLimit R policy concurrency concurrency reading.ratio).2 }
    if fault = some .heartbeat then m.failed
    else
      let m := (m.trim (desired R policy concurrency reading)).grow
        (desired R policy concurrency reading)
      if fault = some .activeTasks then m.failed else m

/-! ### Everybody else -/

inductive Event
  | pass (reading : Reading) (fault : Option Stage)
  /-- A free worker takes a task; `fails` when the active tasks cannot be recorded, which is not
  inside the worker's `try`. -/
  | claim (worker : Nat) (task : String) (fails : Bool)
  /-- The `finally` of a worker that is at a task; `fails` when the queue cannot be told. -/
  | finish (worker : Nat) (fails : Bool)
  /-- What a worker runs for its task swallows the cancellation. -/
  | swallow (worker : Nat)
  /-- A worker that is at no task is cancelled for good, or cannot ask the queue. -/
  | ends (worker : Nat)
  /-- The watchdog, or `cancel_task`, cancels a worker of the table. -/
  | cancel (worker : Nat)
  /-- The watchdog finds a running task whose worker is gone. -/
  | missing (worker : Nat)
  | watchdogDies

def step : Event → Manager → Manager
  | .pass reading fault, m => supervise R policy concurrency reading fault m
  | .claim worker task fails, m =>
    if m.coroutine worker = .running ∧ m.busy worker = false ∧ m.memoryClaimingPaused = false then
      { m with workerTaskIds := m.workerTaskIds.set worker task }.setCoroutine worker
        (if fails then .done else .running)
    else m
  | .finish worker fails, m =>
    if m.coroutine worker ≠ .done ∧ m.busy worker = true then
      if fails then m.setCoroutine worker .done
      else { m with workerTaskIds := m.workerTaskIds.erase worker }
    else m
  | .swallow worker, m =>
    if m.coroutine worker = .cancelled ∧ m.busy worker = true then
      m.setCoroutine worker .running
    else m
  | .ends worker, m => if m.busy worker = false then m.setCoroutine worker .done else m
  | .cancel worker, m =>
    if worker ∈ m.workers then m.setCoroutine worker (m.coroutine worker).cancel else m
  | .missing worker, m =>
    if worker ∉ m.workers ∨ m.coroutine worker = .done then
      { m with workerTaskIds := m.workerTaskIds.erase worker }
    else m
  | .watchdogDies, m => { m with watchdog := false }

/-- The workers that are at a task and not over. -/
def Manager.atWork (m : Manager) : Finset Nat :=
  m.workerTaskIds.keysWhere fun w _ => decide (m.coroutine w ≠ .done)

theorem Manager.mem_atWork {m : Manager} {w : Nat} :
    w ∈ m.atWork ↔ m.busy w = true ∧ m.coroutine w ≠ .done := by
  rw [Manager.atWork, Dict.mem_keysWhere, Manager.busy, Dict.contains, Option.isSome_iff_exists]
  simp only [decide_eq_true_eq]
  constructor
  · rintro ⟨v, hv, hw⟩
    exact ⟨⟨v, hv⟩, hw⟩
  · rintro ⟨⟨v, hv⟩, hw⟩
    exact ⟨v, hv, hw⟩

/-! ### Bounds of the limit -/

variable {R policy concurrency}

theorem remaining_le_one (hR : 1 ≤ R.exact) {ratio : Rat} (hhigh : policy.memoryHighRatio ≤ ratio)
    (hcritical : ratio ≤ policy.memoryCriticalRatio) : remaining R policy ratio ≤ 1 := by
  have hspan : 0 ≤ R.sub policy.memoryCriticalRatio policy.memoryHighRatio :=
    R.sub_nonneg (hhigh.trans hcritical)
  exact max_le zero_le_one (Rounding.div_le_one hR hspan (Rounding.sub_le_sub le_rfl hhigh))

theorem floor_share_le {n : Nat} (hn : n ≤ R.exact) {x : Rat} (hx : x ≤ 1) :
    ⌊R.mul n x⌋ ≤ (n : Int) :=
  Int.floor_le_iff.mpr
    (lt_of_le_of_lt (Rounding.mul_le_self hn hx) (by exact_mod_cast Nat.lt_succ_self n))

/-- The limit is at least one and at most what is configured, however the arithmetic rounds. -/
theorem adaptiveWorkerLimit_bounds (hR : 999 ≤ R.exact) {configured capacityLimit : Nat}
    (hc : 1 ≤ configured) (ratio : Rat) :
    1 ≤ (adaptiveWorkerLimit R policy configured capacityLimit ratio).1 ∧
      (adaptiveWorkerLimit R policy configured capacityLimit ratio).1 ≤ configured := by
  have hmin := policy.one_le_minimum
  simp only [adaptiveWorkerLimit]
  generalize hcap : min configured (max 1 (min 999 capacityLimit)) = capped
  have hcapped : 1 ≤ capped ∧ capped ≤ configured ∧ capped ≤ 999 := by omega
  split
  · simp only
    omega
  · rename_i hcritical
    split
    · rename_i hhigh
      have hfloor := floor_share_le (R := R) (n := capped) (by omega)
        (max_le (by norm_num) (remaining_le_one (by omega) hhigh (le_of_not_ge hcritical)) :
          max (1 / 4) (remaining R policy ratio) ≤ 1)
      simp only
      omega
    · simp only
      omega

end FetchTask.Supervisor
