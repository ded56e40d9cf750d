import FetchTask.Lib.Binary64
import FetchTask.Lib.Dict
import FetchTask.Lib.Expiring
import FetchTask.Runtime
import Mathlib.Data.List.Sort
import Mathlib.Data.Rat.Floor

/-!
The limiter of requests (`_rate_limit`, `app/main.py`).

A request on a key is admitted when fewer than `limit` were in the last window.
Redis keeps the times of a key in a sorted set, in milliseconds; the process
keeps them in a table that is cut down when it has too many keys.

The limit and the window of a key are fixed and positive. The member that a
request adds to its sorted set is made unique by a random token, so the set is
the list of its scores, and the hash that names a key in Redis is the key. Both
backends are fed the same times, which start at 0. The process and the script
reckon with doubles: products, differences and quotients are rounded.
-/

namespace FetchTask.RateLimit

open Expiring

structure Rule where
  limit : Nat
  window : Nat
  limit_pos : 0 < limit
  window_pos : 0 < window

/-- Whether a request is admitted, and the seconds it is told to wait. -/
structure Answer where
  allowed : Bool
  retryAfter : Int
  deriving DecidableEq

/-! ### Redis -/

/-- `int(now * 1000)`. -/
def milliseconds (now : Rat) : Int := truncate (Rounding.binary64.mul now 1000)

abbrev SortedSet := Option (Key Int (List Int))

/-- The scores of a key, in order. -/
def scores (lasting : Bool) (now : Int) (key : SortedSet) : List Int :=
  ((live lasting now key).map Key.value).getD []

/-- `ZREMRANGEBYSCORE key -inf bound`: a key without members is gone. -/
def removeUpTo (lasting : Bool) (now bound : Int) (key : SortedSet) : SortedSet :=
  match live lasting now key with
  | none => none
  | some key =>
    let kept := key.value.filter fun score => decide (bound < score)
    if kept = [] then none else some { key with value := kept }

/-- `_RATE_LIMIT_SCRIPT`, with the times in milliseconds. -/
def rateLimitScript (lasting : Bool) (now window : Int) (limit : Nat) (key : SortedSet) :
    (Int × Int) × SortedSet :=
  let key := removeUpTo lasting now (now - window) key
  let members := scores lasting now key
  if limit ≤ members.length then
    let retry := match members.head? with
      | none => 1
      | some oldest => max 1 (Rounding.binary64.div ((oldest + window - now : Int) : Rat) 1000).ceil
    ((0, retry), key)
  else ((1, 0), some ⟨members.orderedInsert (· < ·) now, some (now + window)⟩)

/-- `_redis_rate_limit`. -/
def redisRateLimit (lasting : Bool) (rule : Rule) (now : Rat) (key : SortedSet) :
    Answer × SortedSet :=
  let (result, key) :=
    rateLimitScript lasting (milliseconds now) (rule.window * 1000) rule.limit key
  (⟨result.1 != 0, max 0 result.2⟩, key)

/-! ### The table of the process -/

def rateBucketLimit : Nat := 10000

abbrev RateBuckets := Dict String (List Rat)

/-- Whether the stamps of a key are given up when there are too many keys. -/
def stale (now : Rat) (window : Nat) (stamps : List Rat) : Bool :=
  match stamps.getLast? with
  | none => true
  | some last => decide ((window : Rat) ≤ Rounding.binary64.sub now last)

/-- With too many keys the stale ones are given up, then the oldest. -/
def evict (now : Rat) (window : Nat) (buckets : RateBuckets) : RateBuckets :=
  if rateBucketLimit < buckets.size then
    let kept := buckets.filter fun item => !stale now window item.2
    kept.drop (kept.size - rateBucketLimit)
  else buckets

/-- `_memory_rate_limit`. -/
def memoryRateLimit (key : String) (rule : Rule) (now : Rat) (buckets : RateBuckets) :
    Answer × RateBuckets :=
  let recent := ((buckets.get? key).getD []).filter fun stamp =>
    decide (Rounding.binary64.sub now stamp < rule.window)
  if rule.limit ≤ recent.length then
    let age := Rounding.binary64.sub now (recent.headD now)
    (⟨false, max 1 (truncate (Rounding.binary64.sub rule.window age))⟩, buckets)
  else (⟨true, 0⟩, evict now rule.window (buckets.set key (recent ++ [now])))

/-! ### Requests -/

structure Request where
  key : String
  now : Rat

/-- Both backends after the same requests, at the time of the last one, and when each of them
admitted a request on a key. -/
structure World where
  now : Rat := 0
  redis : String → SortedSet := fun _ => none
  buckets : RateBuckets := .empty
  redisLog : String → List Rat := fun _ => []
  memoryLog : String → List Rat := fun _ => []

variable (lasting : Bool) (rules : String → Rule)

def World.redisAnswer (w : World) (r : Request) : Answer :=
  (redisRateLimit lasting (rules r.key) r.now (w.redis r.key)).1

def World.memoryAnswer (w : World) (r : Request) : Answer :=
  (memoryRateLimit r.key (rules r.key) r.now w.buckets).1

/-- The log of a key with a request that was answered. -/
def logged (log : String → List Rat) (r : Request) (answer : Answer) : String → List Rat :=
  if answer.allowed then Function.update log r.key (log r.key ++ [r.now]) else log

def step (r : Request) (w : World) : World where
  now := r.now
  redis := Function.update w.redis r.key
    (redisRateLimit lasting (rules r.key) r.now (w.redis r.key)).2
  buckets := (memoryRateLimit r.key (rules r.key) r.now w.buckets).2
  redisLog := logged w.redisLog r (w.redisAnswer lasting rules r)
  memoryLog := logged w.memoryLog r (w.memoryAnswer rules r)

end FetchTask.RateLimit
