import FetchTask.Lib.Runs
import Mathlib.Algebra.Order.Ring.Unbundled.Rat
import Mathlib.Data.Rat.Floor
import Mathlib.Logic.Function.Basic

/-!
The circuit breaker of a platform in one process (`app/resilience.py`) and the
worker loops that ask it and report to it (`app/worker.py`).

A breaker opens after a number of failures, refuses for a recovery time and then
lets one iteration through as a probe; `probe` marks that one is under way. A
worker iteration reports at most a success or a failure of the platform, from
several places of a long loop; how an iteration ends is an `Exit`.

Times and tokens are exact. The zero that the source stores for "not opened" and
"no probe" is `none`.
-/

namespace FetchTask.Resilience

/-! ### The guard -/

structure ResiliencePolicy where
  platformRatePerMinute : Int := 30
  platformBurst : Int := 5
  circuitFailureThreshold : Int := 5
  circuitRecoverySeconds : Int := 60

structure Admission where
  allowed : Bool
  reason : String := ""
  retryAfter : Int := 0
  deriving DecidableEq

structure Circuit where
  failures : Int := 0
  opened : Option Rat := none
  probe : Option Rat := none
  deriving DecidableEq

structure Bucket where
  tokens : Rat
  updated : Rat

/-- The two tables of the process. -/
structure Guard where
  circuits : String → Option Circuit := fun _ => none
  buckets : String → Option Bucket := fun _ => none

def Guard.setCircuit (g : Guard) (platform : String) (c : Option Circuit) : Guard :=
  { g with circuits := Function.update g.circuits platform c }

def Guard.setBucket (g : Guard) (platform : String) (b : Bucket) : Guard :=
  { g with buckets := Function.update g.buckets platform (some b) }

/-- `_admit_circuit`. -/
def admitCircuit (policy : ResiliencePolicy) (now : Rat) (platform : String) (g : Guard) :
    Admission × Guard :=
  match g.circuits platform with
  | none => (⟨true, "", 0⟩, g)
  | some c =>
    match c.opened with
    | none => (⟨true, "", 0⟩, g)
    | some opened =>
      let elapsed := now - opened
      if elapsed < policy.circuitRecoverySeconds then
        (⟨false, "circuit_open", (policy.circuitRecoverySeconds - elapsed).ceil⟩, g)
      else if c.probe.isSome then (⟨false, "circuit_open", policy.circuitRecoverySeconds⟩, g)
      else
        (⟨true, "half_open", policy.circuitRecoverySeconds⟩,
          g.setCircuit platform (some { c with probe := some now }))

/-- `_take_token`. -/
def takeToken (policy : ResiliencePolicy) (now : Rat) (platform : String) (g : Guard) :
    Admission × Guard :=
  let refill : Rat := policy.platformRatePerMinute / 60
  let bucket := (g.buckets platform).getD ⟨policy.platformBurst, now⟩
  let tokens := min (policy.platformBurst : Rat)
    (bucket.tokens + max 0 (now - bucket.updated) * refill)
  if 1 ≤ tokens then (⟨true, "", 0⟩, g.setBucket platform ⟨tokens - 1, now⟩)
  else
    (⟨false, "rate_limited", max 1 ((1 - tokens) / refill).ceil⟩,
      g.setBucket platform ⟨tokens, now⟩)

/-- `_release_probe`. -/
def releaseProbe (platform : String) (g : Guard) : Guard :=
  match g.circuits platform with
  | none => g
  | some c => g.setCircuit platform (some { c with probe := none })

/-- `admit`: the answer, whether the caller is the probe, and the guard. -/
def admitPlatform (policy : ResiliencePolicy) (now : Rat) (platform : String) (g : Guard) :
    Admission × Bool × Guard :=
  let (circuit, g) := admitCircuit policy now platform g
  if !circuit.allowed then (circuit, false, g)
  else
    let (limited, g) := takeToken policy now platform g
    let halfOpen := circuit.reason == "half_open"
    if !limited.allowed && halfOpen then (limited, false, releaseProbe platform g)
    else (limited, limited.allowed && halfOpen, g)

def recordSuccess (platform : String) (g : Guard) : Guard := g.setCircuit platform none

def recordFailure (policy : ResiliencePolicy) (now : Rat) (platform : String) (g : Guard) : Guard :=
  let c := (g.circuits platform).getD {}
  let failures := c.failures + 1
  let opened := if policy.circuitFailureThreshold ≤ failures then some now else c.opened
  g.setCircuit platform (some { failures, opened, probe := none })

/-! ### The worker -/

/-- What an automation returns, as far as the report reads it. -/
structure Outcome where
  success : Bool := false
  retryable : Bool := false
  submitted : Bool := false
  accountFault : Bool := false
  infrastructureFault : Bool := false
  deriving DecidableEq

inductive Report
  | success
  | failure
  deriving DecidableEq

/-- The report of an outcome. -/
def Outcome.report (o : Outcome) : Option Report :=
  if o.success then some .success
  else if o.retryable && !o.submitted && !o.accountFault && !o.infrastructureFault then some .failure
  else none

/-- How control leaves the body of an iteration. `done` is its end and every `continue`;
`missing` is `FileNotFoundError` and `canceled` is `CancelledError`. -/
inductive Ending
  | done
  | missing
  | canceled
  | raised (infrastructureFault : Bool)
  deriving DecidableEq

/-- The end of an iteration: what its automation returned, if it came to that, and what came
after. -/
structure Exit where
  outcome : Option Outcome := none
  ending : Ending := .done
  deriving DecidableEq

def Ending.report : Ending → Option Report
  | .raised false => some .failure
  | _ => none

/-- Where an iteration is; `admitted probe` after the guard has let it through. -/
inductive Phase
  | idle
  | claimed
  | admitted (probe : Bool)
  deriving DecidableEq

/-- A worker loop. Its variable `platform` outlives an iteration. -/
structure Loop where
  platform : Option String := none
  phase : Phase := .idle
  deriving DecidableEq

abbrev WorkerId := Nat

structure World where
  guard : Guard := {}
  loops : WorkerId → Loop := fun _ => {}

def World.setLoop (w : World) (i : WorkerId) (l : Loop) : World :=
  { w with loops := Function.update w.loops i l }

inductive Event
  | claim (i : WorkerId)
  | setPlatform (i : WorkerId) (platform : String)
  | admitPlatform (i : WorkerId) (now : Rat)
  | finish (i : WorkerId) (exit : Exit) (now : Rat)

/-- The reports of an iteration on its platform, in order. The guard is not asked for Dola, and
no automation runs on another platform before it is. -/
def Loop.reports (l : Loop) (exit : Exit) : List Report :=
  match l.platform with
  | none => []
  | some platform =>
    if platform = "dola" then []
    else
      let outcome := match l.phase with
        | .admitted _ => exit.outcome.bind Outcome.report
        | _ => none
      outcome.toList ++ exit.ending.report.toList

def applyReport (policy : ResiliencePolicy) (now : Rat) (platform : String) (g : Guard) :
    Report → Guard
  | .success => recordSuccess platform g
  | .failure => recordFailure policy now platform g

/-- The guard after the reports of an exit. -/
def Loop.tell (policy : ResiliencePolicy) (now : Rat) (exit : Exit) (l : Loop) (g : Guard) : Guard :=
  (l.reports exit).foldl (applyReport policy now (l.platform.getD "")) g

/-- One event; one that does not fit the phase of its loop does nothing. -/
def step (policy : ResiliencePolicy) : Event → World → World
  | .claim i, w =>
    match (w.loops i).phase with
    | .idle => w.setLoop i { w.loops i with phase := .claimed }
    | _ => w
  | .setPlatform i platform, w =>
    match (w.loops i).phase with
    | .claimed => w.setLoop i { w.loops i with platform := some platform }
    | _ => w
  | .admitPlatform i now, w =>
    match (w.loops i).phase, (w.loops i).platform with
    | .claimed, some platform =>
      if platform = "dola" then w
      else
        let (admission, probe, guard) := admitPlatform policy now platform w.guard
        -- A refused task is deferred, which ends the iteration.
        let phase := if admission.allowed then Phase.admitted probe else .idle
        { w.setLoop i { w.loops i with phase } with guard }
    | _, _ => w
  | .finish i exit now, w =>
    match (w.loops i).phase with
    | .idle => w
    | _ =>
      { w.setLoop i { w.loops i with phase := .idle } with
        guard := (w.loops i).tell policy now exit w.guard }

end FetchTask.Resilience
