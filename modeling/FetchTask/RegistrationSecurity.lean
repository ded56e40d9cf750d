import FetchTask.Lib.Dict
import FetchTask.Lib.Expiring
import FetchTask.Lib.Runs

/-!
The registration blocker (`app/registration_security.py`).

Failures of a client are counted, and enough of them block the client for a
time. The counts are kept in Redis, in two keys of the client, or in a table of
the process.

Times are whole seconds, the same on both backends. The monotonic clock of the
table and the clock of Redis are one.
-/

namespace FetchTask.RegistrationSecurity

open Expiring

def failureThreshold : Nat := 5
def failureWindowSeconds : Nat := 10 * 60
def blockSeconds : Nat := 15 * 60
def maxLocalKeys : Nat := 10000

/-- What `record_failure` returns. -/
structure Recorded where
  failures : Int
  retryAfter : Int
  blockedNow : Bool
  deriving DecidableEq

inductive Call
  | recordFailure
  | blockRetryAfter
  | resetFailures

inductive Answer
  | recorded (r : Recorded)
  | retryAfter (seconds : Int)
  | done
  deriving DecidableEq

/-! ### Redis -/

/-- The two keys of a client. -/
structure RedisKeys where
  failures : Option (Key Nat Nat) := none
  blocked : Option (Key Nat String) := none

/-- The counter after one more failure; the first one gives it its deadline. -/
def countFailure (lasting : Bool) (window now : Nat) (failures : Option (Key Nat Nat)) :
    Key Nat Nat :=
  let failures := incr lasting now failures
  if failures.value = 1 then expire (now + window) failures else failures

/-- `_FAILURE_SCRIPT`. -/
def failureScript (lasting : Bool) (threshold window block now : Nat) (keys : RedisKeys) :
    (Int × Int × Int) × RedisKeys :=
  let blockedTtl := ttl lasting now keys.blocked
  if 0 < blockedTtl then ((threshold, blockedTtl, 0), keys)
  else
    let failures := countFailure lasting window now keys.failures
    if threshold ≤ failures.value then
      ((failures.value, block, 1), { failures := none, blocked := some ⟨"1", some (now + block)⟩ })
    else ((failures.value, 0, 0), { keys with failures := some failures })

/-- `_redis_block_retry`. -/
def redisBlockRetry (lasting : Bool) (now : Nat) (keys : RedisKeys) : Int :=
  max 0 (ttl lasting now keys.blocked)

def redisRecordFailure (lasting : Bool) (now : Nat) (keys : RedisKeys) : Recorded × RedisKeys :=
  let (result, keys) :=
    failureScript lasting failureThreshold failureWindowSeconds blockSeconds now keys
  (⟨result.1, result.2.1, result.2.2 != 0⟩, keys)

/-- A call of a client on Redis. -/
def redisCall (lasting : Bool) (now : Nat) (keys : RedisKeys) : Call → Answer × RedisKeys
  | .recordFailure =>
    let (recorded, keys) := redisRecordFailure lasting now keys
    (.recorded recorded, keys)
  | .blockRetryAfter => (.retryAfter (redisBlockRetry lasting now keys), keys)
  | .resetFailures => (.done, {})

/-! ### The table of the process -/

structure LocalState where
  failures : Nat := 0
  lastFailure : Nat := 0
  blockedUntil : Nat := 0
  deriving DecidableEq

abbrev Table := Dict String LocalState

/-- What `_local_state` makes of an entry. -/
def LocalState.refresh (now : Nat) (state : LocalState) : LocalState :=
  { state with
    blockedUntil := if state.blockedUntil ≤ now then 0 else state.blockedUntil
    failures := if failureWindowSeconds ≤ now - state.lastFailure then 0 else state.failures }

/-- The entry of a client, a new one when it has none. -/
def entry (client : String) (table : Table) : LocalState := (table.get? client).getD {}

/-- `_local_state`: the entry, which is in the table from then on. -/
def localState (client : String) (now : Nat) (table : Table) : LocalState × Table :=
  let state := (entry client table).refresh now
  (state, table.set client state)

/-- `max(0, int(blocked_until - now + 0.999))`. -/
def LocalState.retryAfter (now : Nat) (state : LocalState) : Int :=
  max 0 (((state.blockedUntil - now : Int) * 1000 + 999).tdiv 1000)

/-- The entries that are given up when there are too many: first the ones that say nothing any
more, then the oldest. -/
def prune (now : Nat) (table : Table) : Table :=
  if maxLocalKeys < table.size then
    let kept := table.filter fun item =>
      !(decide (failureWindowSeconds ≤ now - item.2.lastFailure) &&
        decide (item.2.blockedUntil ≤ now))
    kept.drop (kept.size - maxLocalKeys)
  else table

def localRecordFailure (client : String) (now : Nat) (table : Table) : Recorded × Table :=
  let (state, table) := localState client now table
  let retryAfter := state.retryAfter now
  if retryAfter ≠ 0 then
    (⟨if state.failures = 0 then failureThreshold else state.failures, retryAfter, false⟩, table)
  else
    let state := { state with failures := state.failures + 1, lastFailure := now }
    let blockedNow := decide (failureThreshold ≤ state.failures)
    let state := if blockedNow then { state with blockedUntil := now + blockSeconds, failures := 0 }
      else state
    (⟨if blockedNow then failureThreshold else state.failures,
      if blockedNow then blockSeconds else 0, blockedNow⟩, prune now (table.set client state))

def localBlockRetry (client : String) (now : Nat) (table : Table) : Int × Table :=
  let (state, table) := localState client now table
  (state.retryAfter now, table)

/-- A call of a client on the table. -/
def localCall (client : String) (now : Nat) (table : Table) : Call → Answer × Table
  | .recordFailure =>
    let (recorded, table) := localRecordFailure client now table
    (.recorded recorded, table)
  | .blockRetryAfter =>
    let (retryAfter, table) := localBlockRetry client now table
    (.retryAfter retryAfter, table)
  | .resetFailures => (.done, table.erase client)

/-! ### Both side by side -/

/-- Both backends after the same calls of a client, at the time of the last one. -/
structure World where
  now : Nat
  keys : RedisKeys := {}
  table : Table

/-- A call `wait` seconds after the one before. -/
structure TimedCall where
  wait : Nat
  call : Call

variable (lasting : Bool) (client : String)

def step (c : TimedCall) (w : World) : World :=
  let now := w.now + c.wait
  { now
    keys := (redisCall lasting now w.keys c.call).2
    table := (localCall client now w.table c.call).2 }

end FetchTask.RegistrationSecurity
