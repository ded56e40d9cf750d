import FetchTask.Lib.Runs
import FetchTask.Lib.Tally
import FetchTask.Runtime
import Mathlib.Data.List.MinMax
import Mathlib.Data.String.Basic
import Mathlib.Algebra.Order.Ring.Unbundled.Rat

/-!
The pool of API proxies of one process (`app/api_proxy_pool.py`).

An acquire leases a slot that is there or refreshes: it asks the fetcher for an
endpoint, probes it and adds a slot. A call runs until it waits and goes on when
what it waits for is there; a step of the model is one such stretch. Nothing waits
inside the lock of the condition, except on the condition itself, which gives the
lock back. So a call that enters the lock finds it free, and the lock is left out.

Slots have an identity, so they stand in a heap, and the pool is a list of their
numbers. Times are in seconds and exact.
-/

namespace FetchTask.ApiProxyPool

def duplicateRefreshBackoffSeconds : Rat := 1
def apiFetchMinIntervalSeconds : Rat := 3 / 4
def refreshFailureBackoffMaxSeconds : Rat := 15

/-- `_ApiProxySlot`. -/
structure Slot where
  server : String := ""
  hostPort : String := ""
  nodeId : String := ""
  active : Nat := 0
  invalid : Bool := false
  totalLeases : Nat := 0
  lastLeasedAt : Rat := 0
  cooldownUntil : Rat := 0
  deriving DecidableEq

/-- `ApiProxyLease`. -/
structure Lease where
  slot : Nat
  released : Bool := false
  deriving DecidableEq

structure Config where
  maxEndpoints : Nat
  contextsPerEndpoint : Nat
  maxConcurrentRefreshes : Nat
  fetchMinIntervalSeconds : Rat
  contexts_pos : 0 < contextsPerEndpoint

theorem toNat_max_one_pos (contexts : Int) : 0 < (max 1 contexts).toNat := by
  omega

/-- What `__init__` makes of its arguments. -/
def configure (maxEndpoints contextsPerEndpoint maxConcurrentRefreshes : Int)
    (fetchMinIntervalSeconds : Rat) : Config where
  maxEndpoints := (max 1 maxEndpoints).toNat
  contextsPerEndpoint := (max 1 contextsPerEndpoint).toNat
  maxConcurrentRefreshes := (max 1 (min (max 1 maxEndpoints) maxConcurrentRefreshes)).toNat
  fetchMinIntervalSeconds := max 0 fetchMinIntervalSeconds
  contexts_pos := toNat_max_one_pos contextsPerEndpoint

/-- What `acquire` is called with. The address, the time limit and the scheme are only passed
on to the fetcher and the probe. -/
structure Request where
  excludedNodeIds : List String := []
  randomSelect : Bool := false
  deriving DecidableEq

def Request.excluded (request : Request) : List String :=
  request.excludedNodeIds.filter (· != "")

/-- What a call finds when it runs: two readings of the clock, the time of day, and what
`secrets.choice` draws. -/
structure Turn where
  now : Rat := 0
  later : Rat := now
  wall : Rat := 0
  pick : Nat := 0

/-- An exception by the name of its type and its text. -/
structure Raised where
  typeName : String
  text : String
  deriving DecidableEq

def Raised.describe (u : Chars) (e : Raised) : String :=
  e.typeName ++ ": " ++ textOr (u.strip e.text) "no detail"

/-- What the fetcher returns. -/
structure Fetched where
  hostPort : Option String
  server : Option String

/-- The local variables of `_fetch_available_endpoint`; `seen` has no text twice. -/
structure Refresh where
  excludedNodeIds : List String
  seen : List String := []
  errors : List String := []
  fetchErrors : Nat := 0
  fetchCount : Nat := 0
  deriving DecidableEq

/-- Where a refresh waits: for the lock of the fetches, inside it for the interval to pass, for
the fetcher, or for the probe. -/
inductive Stage
  | queued
  | pacing
  | fetching
  | probing (server hostPort nodeId : String)
  deriving DecidableEq

inductive Phase
  /-- On the condition. -/
  | waiting (notified : Bool)
  | sleeping
  | refreshing (r : Refresh) (stage : Stage)
  | returned (lease : Nat)
  | raised (e : Raised)
  | cancelled
  deriving DecidableEq

/-- An `acquire` and where it is. -/
structure Call where
  request : Request
  phase : Phase
  deriving DecidableEq

/-- The call is inside `_fetch_available_endpoint`. -/
def Call.refreshing (call : Call) : Bool :=
  match call.phase with
  | .refreshing .. => true
  | _ => false

def Call.queued (call : Call) : Bool :=
  match call.phase with
  | .refreshing _ .queued => true
  | _ => false

def Call.notify (call : Call) : Call :=
  match call.phase with
  | .waiting _ => { call with phase := .waiting true }
  | _ => call

structure Pool where
  slots : Nat → Slot := fun _ => {}
  /-- How many slots were made. -/
  made : Nat := 0
  /-- `_slots`. -/
  pooled : List Nat := []
  launching : Nat := 0
  lastError : String := ""
  pacing : Bool := false
  lastFetchStartedAt : Rat := 0
  consecutiveRefreshFailures : Nat := 0
  refreshNotBefore : Rat := 0
  stopping : Bool := false
  calls : List Call := []
  leases : List Lease := []

namespace Pool

def setSlot (s : Pool) (i : Nat) (slot : Slot) : Pool :=
  { s with slots := Function.update s.slots i slot }

def setPhase (s : Pool) (k : Nat) (request : Request) (phase : Phase) : Pool :=
  { s with calls := s.calls.set k ⟨request, phase⟩ }

/-- `notify_all` of the condition. -/
def notifyAll (s : Pool) : Pool := { s with calls := s.calls.map Call.notify }

/-- Slots that are invalid and not in use leave the pool. -/
def prune (s : Pool) : Pool :=
  { s with pooled := s.pooled.filter fun i => !((s.slots i).invalid && (s.slots i).active == 0) }

/-- `_lease_slot`. -/
def leaseSlot (s : Pool) (turn : Turn) (i : Nat) : Pool :=
  let slot := s.slots i
  s.setSlot i { slot with
    active := slot.active + 1, totalLeases := slot.totalLeases + 1, lastLeasedAt := turn.wall }

/-- A slot is leased, and the call returns the lease. -/
def grant (s : Pool) (turn : Turn) (k : Nat) (request : Request) (i : Nat) : Pool :=
  let s := s.leaseSlot turn i
  { s with leases := s.leases ++ [Lease.mk i false] }.setPhase k request (.returned s.leases.length)

/-- A refresh did what it is for. -/
def refreshed (s : Pool) : Pool :=
  { s with lastError := "", consecutiveRefreshFailures := 0, refreshNotBefore := 0 }

/-- A slot that an acquire may use, as far as it is not cooling down. -/
def usable (cfg : Config) (s : Pool) (request : Request) (i : Nat) : Bool :=
  !(s.slots i).invalid && (s.slots i).nodeId ∉ request.excluded &&
    decide ((s.slots i).active < cfg.contextsPerEndpoint)

def candidates (cfg : Config) (s : Pool) (request : Request) (turn : Turn) : List Nat :=
  s.pooled.filter fun i => s.usable cfg request i && decide ((s.slots i).cooldownUntil ≤ turn.now)

/-- One of those with the fewest leases: a random one, or the first by its id. -/
def select (s : Pool) (request : Request) (turn : Turn) (candidates : List Nat) : Option Nat :=
  let minimum := (candidates.map fun i => (s.slots i).active).min?
  let leastActive := candidates.filter fun i => some (s.slots i).active == minimum
  if request.randomSelect then leastActive[turn.pick % leastActive.length]?
  else leastActive.argmin fun i => (s.slots i).nodeId

/-- How long until a slot has cooled down. -/
def coolingDelay (cfg : Config) (s : Pool) (request : Request) (turn : Turn) : Rat :=
  let cooling := s.pooled.filter fun i =>
    s.usable cfg request i && decide (turn.now < (s.slots i).cooldownUntil)
  (cooling.map fun i => (s.slots i).cooldownUntil - turn.now).min?.getD 0

/-! ### Refreshes -/

/-- The `except` of an acquire. -/
def refreshFailed (u : Chars) (s : Pool) (turn : Turn) (k : Nat) (request : Request) (e : Raised) :
    Pool :=
  let failures := s.consecutiveRefreshFailures + 1
  let backoff := min refreshFailureBackoffMaxSeconds ((2 : Rat) ^ min 3 failures)
  ({ s with
    lastError := takeText 500 (e.describe u)
    launching := s.launching - 1
    consecutiveRefreshFailures := failures
    refreshNotBefore := max s.refreshNotBefore (turn.now + backoff) }.notifyAll).setPhase k request
      (.raised e)

def stoppingError : Raised := ⟨"RuntimeError", "api proxy pool is stopping"⟩

/-- The error of a refresh that found no endpoint. -/
def noEndpointError (r : Refresh) : Raised :=
  let detail := String.intercalate "; " (r.errors.drop (r.errors.length - 6))
  ⟨"RuntimeError", "api proxy pool could not refresh an endpoint (" ++
    textOr detail "no distinct API proxy endpoint was available" ++ ")"⟩

/-- The fetch begins, and the lock of the fetches is given back. -/
def startFetch (s : Pool) (turn : Turn) (k : Nat) (request : Request) (r : Refresh) : Pool :=
  { s with lastFetchStartedAt := turn.later, pacing := false }.setPhase k request
    (.refreshing r .fetching)

/-- `_paced_fetch`, inside its lock. -/
def pace (cfg : Config) (s : Pool) (turn : Turn) (k : Nat) (request : Request) (r : Refresh) :
    Pool :=
  if 0 < cfg.fetchMinIntervalSeconds - (turn.now - s.lastFetchStartedAt) then
    { s with pacing := true }.setPhase k request (.refreshing r .pacing)
  else s.startFetch turn k request r

/-- The head of the loop of `_fetch_available_endpoint`. -/
def tryFetch (cfg : Config) (u : Chars) (s : Pool) (turn : Turn) (k : Nat) (request : Request)
    (r : Refresh) : Pool :=
  if r.seen.length < 3 ∧ r.fetchCount < 6 then
    let r := { r with fetchCount := r.fetchCount + 1 }
    if s.pacing || s.calls.any Call.queued then s.setPhase k request (.refreshing r .queued)
    else s.pace cfg turn k request r
  else s.refreshFailed u turn k request (noEndpointError r)

def fetchFailed (cfg : Config) (u : Chars) (s : Pool) (turn : Turn) (k : Nat) (request : Request)
    (r : Refresh) (e : Raised) : Pool :=
  let r := { r with
    fetchErrors := r.fetchErrors + 1, errors := r.errors ++ [takeText 160 (e.describe u)] }
  if 3 ≤ r.fetchErrors then s.refreshFailed u turn k request (noEndpointError r)
  else s.tryFetch cfg u turn k request r

def fetched (cfg : Config) (u : Chars) (s : Pool) (turn : Turn) (k : Nat) (request : Request)
    (r : Refresh) (proxy : Fetched) : Pool :=
  let hostPort := u.strip (proxy.hostPort.getD "")
  let server := u.strip (proxy.server.getD "")
  if hostPort = "" ∨ server = "" then
    s.tryFetch cfg u turn k request
      { r with errors := r.errors ++ ["proxy api returned an empty endpoint"] }
  else
    let nodeId := "api:" ++ hostPort
    if nodeId ∈ r.seen then s.tryFetch cfg u turn k request r
    else
      let r := { r with seen := r.seen ++ [nodeId] }
      if nodeId ∈ r.excludedNodeIds then s.tryFetch cfg u turn k request r
      else s.setPhase k request (.refreshing r (.probing server hostPort nodeId))

/-- The endpoint of a refresh is added, unless the pool has it. -/
def land (u : Chars) (cfg : Config) (s : Pool) (turn : Turn) (k : Nat) (request : Request)
    (server hostPort nodeId : String) : Pool :=
  let s := { s with launching := s.launching - 1 }
  if s.stopping then s.notifyAll.refreshFailed u turn k request stoppingError
  else
    match s.pooled.find? fun i => (s.slots i).nodeId == nodeId && !(s.slots i).invalid with
    | some i =>
      let duplicate := s.slots i
      if duplicate.nodeId ∉ request.excluded ∧ duplicate.active < cfg.contextsPerEndpoint then
        s.refreshed.notifyAll.grant turn k request i
      else s.notifyAll.setPhase k request .sleeping
    | none =>
      let i := s.made
      let s := { s.setSlot i { server, hostPort, nodeId } with
        made := s.made + 1, pooled := s.pooled ++ [i] }
      s.refreshed.notifyAll.grant turn k request i

/-! ### Calls -/

/-- The loop of an acquire, from its head until it waits. -/
def attempt (cfg : Config) (u : Chars) (s : Pool) (turn : Turn) (k : Nat) (request : Request) :
    Pool :=
  if s.stopping then s.setPhase k request (.raised stoppingError)
  else
    let s := s.prune
    match s.select request turn (s.candidates cfg request turn) with
    | some i => s.grant turn k request i
    | none =>
      if 0 < s.refreshNotBefore - turn.later then s.setPhase k request .sleeping
      else if s.pooled.length + s.launching < cfg.maxEndpoints ∧
          s.launching < cfg.maxConcurrentRefreshes then
        let known := s.pooled.map fun i => (s.slots i).nodeId
        { s with launching := s.launching + 1 }.tryFetch cfg u turn k request
          { excludedNodeIds := request.excluded ++ known }
      else if 0 < s.coolingDelay cfg request turn then s.setPhase k request .sleeping
      else s.setPhase k request (.waiting false)

/-- A call that waits goes on, if what it waits for is there. -/
def resume (cfg : Config) (u : Chars) (s : Pool) (turn : Turn) (k : Nat) (call : Call) : Pool :=
  match call.phase with
  | .waiting true | .sleeping => s.attempt cfg u turn k call.request
  | .refreshing r .queued => if s.pacing then s else s.pace cfg turn k call.request r
  | .refreshing r .pacing => s.startFetch turn k call.request r
  | _ => s

/-- The fetcher returns or raises. -/
def fetcherDone (cfg : Config) (u : Chars) (s : Pool) (turn : Turn) (k : Nat) (call : Call)
    (outcome : Except Raised Fetched) : Pool :=
  match call.phase, outcome with
  | .refreshing r .fetching, .error e => s.fetchFailed cfg u turn k call.request r e
  | .refreshing r .fetching, .ok proxy => s.fetched cfg u turn k call.request r proxy
  | _, _ => s

/-- The probe returns or raises. -/
def probeDone (cfg : Config) (u : Chars) (s : Pool) (turn : Turn) (k : Nat) (call : Call)
    (outcome : Except Raised Bool) : Pool :=
  match call.phase, outcome with
  | .refreshing _ (.probing ..), .error e => s.refreshFailed u turn k call.request e
  | .refreshing r (.probing _ hostPort _), .ok false =>
    s.tryFetch cfg u turn k call.request
      { r with errors := r.errors ++ [hostPort ++ ": unavailable for Dola"] }
  | .refreshing _ (.probing server hostPort nodeId), .ok true =>
    s.land u cfg turn k call.request server hostPort nodeId
  | _, _ => s

/-- `CancelledError` at what a call waits for. No `except` of an acquire catches it; only the
lock of the fetches is given back. -/
def cancel (s : Pool) (k : Nat) (call : Call) : Pool :=
  match call.phase with
  | .returned _ | .raised _ | .cancelled => s
  | .refreshing _ .pacing => { s with pacing := false }.setPhase k call.request .cancelled
  | _ => s.setPhase k call.request .cancelled

/-- `release` of a lease and of the pool. -/
def release (s : Pool) (j : Nat) (lease : Lease) : Pool :=
  if lease.released then s
  else
    let slot := s.slots lease.slot
    let s := { s with leases := s.leases.set j { lease with released := true } }.setSlot lease.slot
      { slot with active := slot.active - 1 }
    let pooled :=
      if (s.slots lease.slot).invalid && (s.slots lease.slot).active == 0 then
        s.pooled.erase lease.slot
      else s.pooled
    { s with pooled }.notifyAll

def invalidate (s : Pool) (i : Nat) : Pool := s.setSlot i { s.slots i with invalid := true }

def cooldown (s : Pool) (i : Nat) (now seconds : Rat) : Pool :=
  s.setSlot i { s.slots i with
    cooldownUntil := max (s.slots i).cooldownUntil (now + max 1 seconds) }

def stop (s : Pool) : Pool := { s with stopping := true, pooled := [] }.notifyAll

end Pool

/-- A call begins, goes on or is cancelled, the fetcher or the probe of a call is done, or
another method is called. -/
inductive Action
  | acquire (request : Request) (turn : Turn)
  | resume (k : Nat) (turn : Turn)
  | fetched (k : Nat) (outcome : Except Raised Fetched) (turn : Turn)
  | probed (k : Nat) (outcome : Except Raised Bool) (turn : Turn)
  | cancel (k : Nat)
  | release (lease : Nat)
  | invalidate (lease : Nat)
  | cooldown (lease : Nat) (now seconds : Rat)
  | stop

/-- What an action does to a call or a lease that is there. -/
def onEntry {α : Type} (table : List α) (k : Nat) (s : Pool) (f : α → Pool) : Pool :=
  match table[k]? with
  | some entry => f entry
  | none => s

def step (cfg : Config) (u : Chars) : Action → Pool → Pool
  | .acquire request turn, s =>
    { s with calls := s.calls ++ [Call.mk request .sleeping] }.attempt cfg u turn s.calls.length
      request
  | .resume k turn, s => onEntry s.calls k s (s.resume cfg u turn k)
  | .fetched k outcome turn, s => onEntry s.calls k s (s.fetcherDone cfg u turn k · outcome)
  | .probed k outcome turn, s => onEntry s.calls k s (s.probeDone cfg u turn k · outcome)
  | .cancel k, s => onEntry s.calls k s (s.cancel k)
  | .release j, s => onEntry s.leases j s (s.release j)
  | .invalidate j, s => onEntry s.leases j s fun lease => s.invalidate lease.slot
  | .cooldown j now seconds, s =>
    onEntry s.leases j s fun lease => s.cooldown lease.slot now seconds
  | .stop, s => s.stop

end FetchTask.ApiProxyPool
