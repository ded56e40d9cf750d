import FetchTask.Lib.Dict
import Mathlib.Data.List.Count
import Mathlib.Data.List.Sort

/-!
The Redis structures of the task queue, and its scripts (`app/task_queue.py`).

Two ready lists, the list of tasks in processing, two sorted sets of delayed
tasks, the leases, the owner hash and the set of known ids. A list is written
from left to right: `LPUSH` puts an id in front and `LMOVE … RIGHT LEFT` takes
the last one. Scores are times in microseconds. Every definition here is one
atomic step of the server: a Lua script, a `MULTI` pipeline or one command.
-/

namespace FetchTask.Queue

abbrev TaskId := String
abbrev WorkerId := String

/-- A sorted set, by member. -/
abbrev ZSet := Dict TaskId Int

structure Redis where
  ready : List TaskId := []
  retryReady : List TaskId := []
  processing : List TaskId := []
  delayed : ZSet := .empty
  retryDelayed : ZSet := .empty
  leases : ZSet := .empty
  owners : TaskId → Option WorkerId := fun _ => none
  known : TaskId → Bool := fun _ => false

/-- `LREM key 0 id`. -/
def lrem (t : TaskId) (l : List TaskId) : List TaskId := l.filter (· ≠ t)

/-- The order of a sorted set: by score, then by member. -/
def ZBefore (p q : TaskId × Int) : Prop := p.2 < q.2 ∨ (p.2 = q.2 ∧ p.1 ≤ q.1)

instance : DecidableRel ZBefore := fun p q =>
  inferInstanceAs (Decidable (p.2 < q.2 ∨ (p.2 = q.2 ∧ p.1 ≤ q.1)))

/-- `ZRANGEBYSCORE key -inf max LIMIT 0 count`. -/
def zrangebyscore (z : ZSet) (max : Int) (count : Nat) : List TaskId :=
  (((z.items.filter fun p => decide (p.2 ≤ max)).insertionSort ZBefore).take count).map Prod.fst

namespace Redis

variable (r : Redis)

/-- `HDEL owners id`. -/
def hdel (t : TaskId) : TaskId → Option WorkerId := Function.update r.owners t none

/-- The delayed set of a task, by whether it is a retry. -/
def zaddDelayed (retrying : Bool) (t : TaskId) (score : Int) : Redis :=
  if retrying then { r with retryDelayed := r.retryDelayed.set t score }
  else { r with delayed := r.delayed.set t score }

/-- `LPUSH` on the ready list of a task, by whether it is a retry. -/
def lpushReady (retrying : Bool) (t : TaskId) : Redis :=
  if retrying then { r with retryReady := t :: r.retryReady } else { r with ready := t :: r.ready }

/-- The last lines of the two scripts that insert a task. -/
def insert (retrying : Bool) (t : TaskId) (score now : Int) : Redis :=
  if now < score then r.zaddDelayed retrying t score else r.lpushReady retrying t

/-- The script of `enqueue`. -/
def enqueueScript (retrying : Bool) (t : TaskId) (score now : Int) : Bool × Redis :=
  if r.known t then (false, r)
  else (true, { r with known := Function.update r.known t true }.insert retrying t score now)

/-- The script of `requeue`. -/
def requeueScript (retrying : Bool) (t : TaskId) (score now : Int) : Redis :=
  { ready := lrem t r.ready
    retryReady := lrem t r.retryReady
    processing := lrem t r.processing
    delayed := r.delayed.erase t
    retryDelayed := r.retryDelayed.erase t
    leases := r.leases.erase t
    owners := r.hdel t
    known := Function.update r.known t true : Redis }.insert retrying t score now

/-- The script of `_promote_queue`: the due tasks, latest first, are pushed on the right. -/
def promoteScript (retrying : Bool) (now : Int) : Redis :=
  if retrying then
    let due := zrangebyscore r.retryDelayed now 100
    { r with
      retryDelayed := r.retryDelayed.filter fun p => p.1 ∉ due
      retryReady := r.retryReady ++ due.reverse }
  else
    let due := zrangebyscore r.delayed now 100
    { r with
      delayed := r.delayed.filter fun p => p.1 ∉ due
      ready := r.ready ++ due.reverse }

/-- `LMOVE ready processing RIGHT LEFT`. -/
def lmove (fromRetry : Bool) : Option TaskId × Redis :=
  let source := if fromRetry then r.retryReady else r.ready
  match source.getLast? with
  | none => (none, r)
  | some t =>
    (some t,
      { r with
        ready := if fromRetry then r.ready else r.ready.dropLast
        retryReady := if fromRetry then r.retryReady.dropLast else r.retryReady
        processing := t :: r.processing })

/-- The pipeline of `claim` that writes the owner and the lease. -/
def leasePipeline (t : TaskId) (worker : WorkerId) (expiry : Int) : Redis :=
  { r with owners := Function.update r.owners t (some worker), leases := r.leases.set t expiry }

/-- The pipeline of `_delay_claimed`. -/
def delayClaimedPipeline (retrying : Bool) (t : TaskId) (score : Int) : Redis :=
  { r with
    processing := lrem t r.processing
    delayed := if retrying then r.delayed.erase t else r.delayed.set t score
    retryDelayed := if retrying then r.retryDelayed.set t score else r.retryDelayed.erase t
    leases := r.leases.erase t
    owners := r.hdel t }

/-- The pipeline of `_ack`. -/
def ackPipeline (t : TaskId) : Redis where
  ready := lrem t r.ready
  retryReady := lrem t r.retryReady
  processing := lrem t r.processing
  delayed := r.delayed.erase t
  retryDelayed := r.retryDelayed.erase t
  leases := r.leases.erase t
  owners := r.hdel t
  known := Function.update r.known t false

/-- The script of `heartbeat`. -/
def heartbeatScript (t : TaskId) (worker : WorkerId) (expiry : Int) : Bool × Redis :=
  if r.owners t = some worker ∧ r.leases.contains t then
    (true, { r with leases := r.leases.set t expiry })
  else (false, r)

/-- The script of `_delay_owned`. -/
def delayOwnedScript (retrying : Bool) (t : TaskId) (worker : WorkerId) (score : Int) :
    Bool × Redis :=
  if r.owners t = some worker then
    (true,
      { r with
        processing := lrem t r.processing
        leases := r.leases.erase t
        owners := r.hdel t : Redis }.zaddDelayed retrying t score)
  else (false, r)

/-- The script of `_ack_owned`; it leaves the ready lists and the second delayed set alone. -/
def ackOwnedScript (t : TaskId) (worker : WorkerId) : Bool × Redis :=
  if r.owners t = some worker then
    (true,
      { r with
        processing := lrem t r.processing
        leases := r.leases.erase t
        delayed := r.delayed.erase t
        owners := r.hdel t
        known := Function.update r.known t false })
  else (false, r)

/-- `LREM retry_ready 0 id`, after the script of `_ack_owned` whatever it returned. -/
def lremRetryReady (t : TaskId) : Redis := { r with retryReady := lrem t r.retryReady }

/-- `ZREM retry_delayed id`, likewise. -/
def zremRetryDelayed (t : TaskId) : Redis := { r with retryDelayed := r.retryDelayed.erase t }

/-- The script of `recover`: take a task whose lease has run out. -/
def recoverScript (t : TaskId) (now : Int) : Bool × Redis :=
  match r.leases.get? t with
  | none => (false, r)
  | some score =>
    if now < score then (false, r)
    else
      (true,
        { r with
          leases := r.leases.erase t, owners := r.hdel t, processing := lrem t r.processing })

/-- `SREM known id`. -/
def sremKnown (t : TaskId) : Redis := { r with known := Function.update r.known t false }

end Redis

/-! ### Reading the containers -/

theorem count_lrem (t j : TaskId) (l : List TaskId) :
    (lrem t l).count j = if j = t then 0 else l.count j := by
  by_cases h : j = t
  · subst h
    simp [lrem, List.count_eq_zero]
  · simp [lrem, h, List.count_filter]

theorem mem_lrem {t j : TaskId} {l : List TaskId} : j ∈ lrem t l ↔ j ∈ l ∧ j ≠ t := by
  simp [lrem]

theorem mem_of_mem_zrangebyscore {z : ZSet} {max : Int} {count : Nat} {j : TaskId}
    (h : j ∈ zrangebyscore z max count) : z.contains j = true := by
  obtain ⟨p, hp, rfl⟩ := List.mem_map.mp h
  have hitems := (List.mem_insertionSort _).mp (List.mem_of_mem_take hp)
  exact (z.contains_iff _).mpr ⟨p.2, (List.mem_filter.mp hitems).1⟩

theorem nodup_zrangebyscore (z : ZSet) (max : Int) (count : Nat) :
    (zrangebyscore z max count).Nodup := by
  have hsorted : ((((z.items.filter fun p => decide (p.2 ≤ max)).insertionSort ZBefore)).map
      Prod.fst).Nodup :=
    ((List.perm_insertionSort _ _).map _).nodup_iff.mpr
      ((List.filter_sublist.map Prod.fst).nodup z.nodup)
  exact ((List.take_sublist _ _).map Prod.fst).nodup hsorted

/-- What a promotion takes out of a delayed set it appends to the ready list. -/
theorem count_promoted (z : ZSet) (now : Int) (j : TaskId) :
    (zrangebyscore z now 100).reverse.count j +
      ((z.filter fun p => p.1 ∉ zrangebyscore z now 100).contains j).toNat =
        (z.contains j).toNat := by
  have hfilter := z.contains_filter_key (fun i => decide (i ∉ zrangebyscore z now 100)) j
  rw [hfilter, List.count_reverse]
  by_cases hj : j ∈ zrangebyscore z now 100
  · rw [List.count_eq_one_of_mem (nodup_zrangebyscore z now 100) hj, mem_of_mem_zrangebyscore hj]
    simp [hj]
  · simp [hj, List.count_eq_zero.mpr hj]

end FetchTask.Queue
