import FetchTask.Lib.Held
import FetchTask.Lib.Runs
import FetchTask.Lib.Tally
import Mathlib.Algebra.Order.Ring.Unbundled.Rat
import Mathlib.Logic.Function.Basic

/-!
The pool of browser processes of one process (`app/browser_runtime.py`).

An acquire takes a slot of its key that has room, or launches a browser in a new
slot, and creates a context in it. A release closes the context and, when the slot
was marked to retire and nothing uses it, the browser. A call runs until it waits;
a step of the model is one such stretch. Nothing waits inside the lock of the
condition, except on the condition itself, which gives the lock back. So a call
that enters that lock finds it free, and the lock is left out. The lock of `start`
is held while Playwright starts.

`stop` is left out: what is modelled is the pool before it is stopped.
-/

namespace FetchTask.BrowserPool

def browserRecycleTasks : Nat := 80
def browserRecycleSeconds : Rat := 30 * 60

/-- `_BrowserSlot`; `browser` says whether there is one. -/
structure Slot where
  key : String := ""
  browser : Bool := false
  active : Nat := 0
  completed : Nat := 0
  createdAt : Rat := 0
  launching : Bool := true
  retiring : Bool := false
  retireRequested : Bool := false
  closing : Nat := 0
  deriving DecidableEq

/-- `BrowserContextLease`. -/
structure Lease where
  slot : Nat
  released : Bool := false
  deriving DecidableEq

structure Config where
  maxProcesses : Nat
  contextsPerProcess : Nat
  contexts_pos : 0 < contextsPerProcess

/-- What `__init__` makes of its arguments. -/
def configure (maxProcesses contextsPerProcess : Int) : Config where
  maxProcesses := (max 1 maxProcesses).toNat
  contextsPerProcess := (max 1 contextsPerProcess).toNat
  contexts_pos := by omega

/-- What a call finds when it runs: the clock, and for each slot whether `is_connected` of its
browser returns true. -/
structure Turn where
  now : Rat := 0
  connected : Nat → Bool := fun _ => true

/-- An exception by the name of its type and its text. -/
structure Raised where
  typeName : String
  text : String
  deriving DecidableEq

inductive Phase
  /-- On the lock of `start`. -/
  | startQueued
  | starting
  | waiting (notified : Bool)
  /-- Closing the browser of a slot that left the pool. -/
  | closing (held : Held)
  | launching (i : Nat)
  | creating (i : Nat)
  /-- Closing the browser of the slot that was given back after the error. -/
  | failing (e : Raised)
  | returned (lease : Nat)
  | raised (e : Raised)
  | cancelled
  deriving DecidableEq

/-- An `acquire_context` with the key that `_slot_key` makes of its arguments. -/
structure Call where
  key : String
  phase : Phase
  deriving DecidableEq

inductive ReleasePhase
  | closingContext
  | closingBrowser
  | done
  deriving DecidableEq

/-- A `release` and where it is. -/
structure Release where
  slot : Nat
  phase : ReleasePhase
  deriving DecidableEq

def Call.notify (call : Call) : Call :=
  match call.phase with
  | .waiting _ => { call with phase := .waiting true }
  | _ => call

structure Pool where
  slots : Nat → Slot := fun _ => {}
  /-- How many slots were made. -/
  made : Nat := 0
  /-- `_slots`. -/
  pooled : List Nat := []
  /-- Whether `_playwright` is there. -/
  playwright : Bool := false
  startLocked : Bool := false
  calls : List Call := []
  releases : List Release := []
  leases : List Lease := []

namespace Pool

def setSlot (s : Pool) (i : Nat) (slot : Slot) : Pool :=
  { s with slots := Function.update s.slots i slot }

def setPhase (s : Pool) (k : Nat) (key : String) (phase : Phase) : Pool :=
  { s with calls := s.calls.set k ⟨key, phase⟩ }

def setRelease (s : Pool) (k i : Nat) (phase : ReleasePhase) : Pool :=
  { s with releases := s.releases.set k ⟨i, phase⟩ }

/-- `notify_all` of the condition. -/
def notifyAll (s : Pool) : Pool := { s with calls := s.calls.map Call.notify }

/-- `_slots.remove`. -/
def remove (s : Pool) (i : Nat) : Pool := { s with pooled := s.pooled.erase i }

/-- `_browser_connected`. -/
def browserConnected (s : Pool) (turn : Turn) (i : Nat) : Bool :=
  (s.slots i).browser && turn.connected i

/-! ### Giving back -/

/-- A slot that is marked and not in use leaves the pool; the answer says whether its browser is
to be closed. -/
def retire (s : Pool) (i : Nat) : Pool × Bool :=
  let slot := s.slots i
  if i ∈ s.pooled ∧ slot.active = 0 ∧ slot.closing = 0 ∧ slot.retireRequested = true then
    ((s.remove i).notifyAll, slot.browser)
  else (s.notifyAll, false)

/-- `_finish_release`. -/
def finishRelease (s : Pool) (i : Nat) (closeFailed : Bool) : Pool × Bool :=
  let slot := s.slots i
  let closing := slot.closing - 1
  let retireRequested := slot.retireRequested || closeFailed
  (s.setSlot i { slot with
    closing, retireRequested, retiring := retireRequested || decide (0 < closing) }).retire i

/-- What `_release_slot` does before it waits. -/
def releaseSlot (s : Pool) (turn : Turn) (i : Nat) (context failed : Bool) : Pool × Bool :=
  let slot := s.slots i
  let completed := slot.completed + context.toNat
  let expired := decide (browserRecycleSeconds ≤ turn.now - slot.createdAt)
  let retireRequested := slot.retireRequested ||
    (failed || !s.browserConnected turn i || decide (browserRecycleTasks ≤ completed) || expired)
  let closing := slot.closing + context.toNat
  (s.setSlot i { slot with
    active := slot.active - 1
    completed, closing, retireRequested
    retiring := retireRequested || decide (0 < closing) }).retire i

/-- The `except` of an acquire: the slot is given back, and its browser closed. -/
def failed (s : Pool) (turn : Turn) (k : Nat) (key : String) (i : Nat) (e : Raised) : Pool :=
  let (s, close) := s.releaseSlot turn i false true
  s.setPhase k key (if close then .failing e else .raised e)

/-! ### Acquiring -/

def unavailableError : Raised := ⟨"RuntimeError", "browser pool is not available"⟩

/-- The part of an acquire after the browser of another slot is closed. -/
def proceed (s : Pool) (turn : Turn) (k : Nat) (key : String) : Held → Pool
  | .selected i => s.setPhase k key (.creating i)
  | .launch i =>
    if s.playwright then s.setPhase k key (.launching i)
    else s.failed turn k key i unavailableError

/-- The browser of a slot that left the pool is closed first. -/
def closeRetired (s : Pool) (turn : Turn) (k : Nat) (key : String) (retired : Option Nat)
    (held : Held) : Pool :=
  if retired.any fun i => (s.slots i).browser then s.setPhase k key (.closing held)
  else s.proceed turn k key held

/-- Not in use and not being launched. -/
def idle (s : Pool) (i : Nat) : Bool := !(s.slots i).launching && (s.slots i).active == 0

/-- A slot leaves the pool, if there is one to leave. -/
def removeAny (s : Pool) (retired : Option Nat) : Pool :=
  match retired with
  | some i => s.remove i
  | none => s

/-- A slot whose browser is gone. -/
def dead (s : Pool) (turn : Turn) : Option Nat :=
  s.pooled.find? fun i => s.idle i && !s.browserConnected turn i

/-- A slot that makes room in a pool that is full. -/
def spare (cfg : Config) (s : Pool) : Option Nat :=
  if cfg.maxProcesses ≤ s.pooled.length then s.pooled.find? s.idle else none

/-- A slot of the key that an acquire may use. -/
def usable (cfg : Config) (s : Pool) (turn : Turn) (key : String) (i : Nat) : Bool :=
  let slot := s.slots i
  slot.key == key && !slot.launching && !slot.retiring && s.browserConnected turn i &&
    decide (slot.active < cfg.contextsPerProcess)

/-- A slot is added, and the call is to launch its browser. -/
def addSlot (s : Pool) (turn : Turn) (k : Nat) (key : String) (retired : Option Nat) : Pool :=
  let i := s.made
  { s.setSlot i { key, active := 1, createdAt := turn.now } with
    made := i + 1, pooled := s.pooled ++ [i] }.closeRetired turn k key retired (.launch i)

/-- The loop of an acquire, from its head until it waits. -/
def attempt (cfg : Config) (s : Pool) (turn : Turn) (k : Nat) (key : String) : Pool :=
  let dead := s.dead turn
  let s := s.removeAny dead
  match s.pooled.find? (s.usable cfg turn key) with
  | some i =>
    (s.setSlot i { s.slots i with active := (s.slots i).active + 1 }).closeRetired turn k key dead
      (.selected i)
  | none =>
    if s.pooled.any fun i =>
        (s.slots i).key == key && (s.slots i).launching && !(s.slots i).retiring then
      s.setPhase k key (.waiting false)
    else
      let spare := s.spare cfg
      let s := s.removeAny spare
      if s.pooled.length < cfg.maxProcesses then s.addSlot turn k key (spare.or dead)
      else s.setPhase k key (.waiting false)

/-- `start`, once its lock is free. -/
def start (cfg : Config) (s : Pool) (turn : Turn) (k : Nat) (key : String) : Pool :=
  if s.playwright then s.attempt cfg turn k key
  else { s with startLocked := true }.setPhase k key .starting

/-- An `acquire_context` begins. -/
def acquire (cfg : Config) (s : Pool) (turn : Turn) (key : String) : Pool :=
  let k := s.calls.length
  let queued := s.calls.any fun call => call.phase == .startQueued
  let s := { s with calls := s.calls ++ [Call.mk key .startQueued] }
  if s.startLocked || queued then s else s.start cfg turn k key

/-- A call that waits for the lock of `start` or on the condition goes on, if it can. -/
def resume (cfg : Config) (s : Pool) (turn : Turn) (k : Nat) (call : Call) : Pool :=
  match call.phase with
  | .startQueued => if s.startLocked then s else s.start cfg turn k call.key
  | .waiting true => s.attempt cfg turn k call.key
  | _ => s

/-- Playwright has started, or raises. -/
def started (cfg : Config) (s : Pool) (turn : Turn) (k : Nat) (call : Call)
    (outcome : Except Raised Unit) : Pool :=
  match call.phase, outcome with
  | .starting, .error e => { s with startLocked := false }.setPhase k call.key (.raised e)
  | .starting, .ok _ =>
    { s with startLocked := false, playwright := true }.attempt cfg turn k call.key
  | _, _ => s

/-- The browser that a call closes is closed, or `close` raises what `safe_close` lets through.
`_close_retired_browser` lets nothing through. -/
def browserClosed (s : Pool) (turn : Turn) (k : Nat) (call : Call) (outcome : Except Raised Unit) :
    Pool :=
  match call.phase, outcome with
  | .closing held, .ok _ => s.proceed turn k call.key held
  | .closing _, .error e => s.setPhase k call.key (.raised e)
  | .failing e, _ => s.setPhase k call.key (.raised e)
  | _, _ => s

/-- The browser is launched, or `launch` raises. -/
def launched (s : Pool) (turn : Turn) (k : Nat) (call : Call) (outcome : Except Raised Unit) :
    Pool :=
  match call.phase, outcome with
  | .launching i, .ok _ =>
    ((s.setSlot i { s.slots i with browser := true, launching := false }).notifyAll).setPhase k
      call.key (.creating i)
  | .launching i, .error e => s.failed turn k call.key i e
  | _, _ => s

/-- The context is created, or `new_context` raises. -/
def created (s : Pool) (turn : Turn) (k : Nat) (call : Call) (outcome : Except Raised Unit) :
    Pool :=
  match call.phase, outcome with
  | .creating i, .ok _ =>
    { s with leases := s.leases ++ [Lease.mk i false] }.setPhase k call.key
      (.returned s.leases.length)
  | .creating i, .error e => s.failed turn k call.key i e
  | _, _ => s

/-- `CancelledError` at what an acquire waits for. No `except` of an acquire catches it; only the
lock of `start` is given back. -/
def cancel (s : Pool) (k : Nat) (call : Call) : Pool :=
  match call.phase with
  | .returned _ | .raised _ | .cancelled => s
  | .starting => { s with startLocked := false }.setPhase k call.key .cancelled
  | _ => s.setPhase k call.key .cancelled

/-! ### Releasing -/

/-- `release` of a lease, until it waits for the context to close. -/
def release (s : Pool) (turn : Turn) (j : Nat) (lease : Lease) : Pool :=
  if lease.released then s
  else
    ({ s with
      leases := s.leases.set j { lease with released := true }
      releases := s.releases ++ [Release.mk lease.slot .closingContext] }.releaseSlot turn lease.slot
        true false).1

/-- The context is closed, or not: closing it raised, took too long or was cancelled. -/
def contextClosed (s : Pool) (k : Nat) (release : Release) (closeFailed : Bool) : Pool :=
  match release.phase with
  | .closingContext =>
    let (s, close) := s.finishRelease release.slot closeFailed
    s.setRelease k release.slot (if close then .closingBrowser else .done)
  | _ => s

/-- The browser is closed, or not: nothing depends on it. -/
def releaseDone (s : Pool) (k : Nat) (release : Release) : Pool :=
  match release.phase with
  | .closingBrowser => s.setRelease k release.slot .done
  | _ => s

end Pool

/-- A call begins, goes on, is cancelled or gets the result it waits for. -/
inductive Action
  | acquire (key : String) (turn : Turn)
  | resume (k : Nat) (turn : Turn)
  | started (k : Nat) (outcome : Except Raised Unit) (turn : Turn)
  | browserClosed (k : Nat) (outcome : Except Raised Unit) (turn : Turn)
  | launched (k : Nat) (outcome : Except Raised Unit) (turn : Turn)
  | created (k : Nat) (outcome : Except Raised Unit) (turn : Turn)
  | cancel (k : Nat)
  | release (lease : Nat) (turn : Turn)
  | contextClosed (release : Nat) (closeFailed : Bool)
  | releaseDone (release : Nat)

/-- What an action does to a call, a lease or a release that is there. -/
def onEntry {α : Type} (table : List α) (k : Nat) (s : Pool) (f : α → Pool) : Pool :=
  match table[k]? with
  | some entry => f entry
  | none => s

def step (cfg : Config) : Action → Pool → Pool
  | .acquire key turn, s => s.acquire cfg turn key
  | .resume k turn, s => onEntry s.calls k s (s.resume cfg turn k)
  | .started k outcome turn, s => onEntry s.calls k s (s.started cfg turn k · outcome)
  | .browserClosed k outcome turn, s => onEntry s.calls k s (s.browserClosed turn k · outcome)
  | .launched k outcome turn, s => onEntry s.calls k s (s.launched turn k · outcome)
  | .created k outcome turn, s => onEntry s.calls k s (s.created turn k · outcome)
  | .cancel k, s => onEntry s.calls k s (s.cancel k)
  | .release j turn, s => onEntry s.leases j s (s.release turn j)
  | .contextClosed k closeFailed, s => onEntry s.releases k s (s.contextClosed k · closeFailed)
  | .releaseDone k, s => onEntry s.releases k s (s.releaseDone k)

end FetchTask.BrowserPool
