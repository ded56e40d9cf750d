import FetchTask.Lib.Dict
import FetchTask.Lib.Runs
import FetchTask.Runtime
import Mathlib.Algebra.Order.Ring.Unbundled.Rat
import Mathlib.Data.Rat.Floor
import Mathlib.Logic.Function.Basic

/-!
What is known of the nodes of a proxy subscription (`app/proxy_manager.py`).

Whoever runs a task through a node reports how it went, and whoever looks for a
node asks whether it is cooling down. A node cools down after it was marked
unavailable, which failures of a gateway and verifications by Doubao also lead to,
and after its delay could not be measured. The tables are those of one process, and
no function of this module awaits. Times are exact; a node's id is a digest, which
`strip` leaves as it is.
-/

namespace FetchTask.ProxyNodes

open Runs

def nodeDelayTtlSeconds : Rat := 300
def nodeFailureCooldownSeconds : Rat := 90
def nodeGatewayFailureCooldownSeconds : Int := 300
def nodeGatewayFailureWindowSeconds : Rat := 300
def nodeGatewayFailureThreshold : Nat := 2
def nodeDoubaoVerificationWindowSeconds : Rat := 600
def nodeDoubaoVerificationFirstCooldownSeconds : Int := 600
def nodeDoubaoVerificationRepeatCooldownSeconds : Int := 1800
def nodeDoubaoVerificationStrikeTtlSeconds : Rat := 86400

/-- The tables, from the id of a node. -/
structure Nodes where
  /-- `_NODE_DELAYS`: the delay or none, and when it was found. -/
  delays : String → Option (Option Nat × Rat)
  /-- `_NODE_LAST_GOOD`, without the wall time. -/
  lastGood : String → Option Nat
  dolaHealth : String → Option (Bool × Rat)
  /-- `_NODE_COOLDOWNS`: the deadline and the reason. -/
  cooldowns : String → Option (Rat × String)
  gatewayFailures : String → Option (Nat × Rat)
  /-- `_NODE_DOUBAO_VERIFICATIONS`: by account, when it was asked to verify. -/
  doubaoVerifications : String → Dict String Rat
  doubaoVerificationStrikes : String → Option (Nat × Rat)

def Nodes.new : Nodes where
  delays _ := none
  lastGood _ := none
  dolaHealth _ := none
  cooldowns _ := none
  gatewayFailures _ := none
  doubaoVerifications _ := .empty
  doubaoVerificationStrikes _ := none

/-- `str(reason or "runtime_failure")[:80]`. -/
def shortReason (reason : String) : String :=
  String.ofList ((textOr reason "runtime_failure").toList.take 80)

/-- The deadline that is stored for a node, zero if there is none. -/
def Nodes.deadline (node : String) (s : Nodes) : Rat := ((s.cooldowns node).map Prod.fst).getD 0

def markNodeUnavailable (now : Rat) (node : String) (cooldownSeconds : Int) (reason : String)
    (s : Nodes) : Nodes :=
  if node = "" then s
  else
    let deadline := now + max 1 cooldownSeconds
    { s with
      delays := Function.update s.delays node (some (none, now))
      dolaHealth := Function.update s.dolaHealth node (some (false, now))
      cooldowns := if s.deadline node ≤ deadline then
          Function.update s.cooldowns node (some (deadline, shortReason reason))
        else s.cooldowns }

/-- The seconds until a node may be used again, rounded up; a deadline that has passed is
forgotten. -/
def nodeRetryAfter (now : Rat) (node : String) (s : Nodes) : Int × Nodes :=
  if node = "" then (0, s)
  else if now < s.deadline node then (max 1 ⌈s.deadline node - now⌉, s)
  else
    let s := { s with
      cooldowns := if s.deadline node = 0 then s.cooldowns
        else Function.update s.cooldowns node none }
    match s.delays node with
    | some (none, checkedAt) =>
      if 0 < checkedAt then (max 0 ⌈nodeFailureCooldownSeconds - (now - checkedAt)⌉, s)
      else (0, s)
    | _ => (0, s)

/-- Whether the failure was one too many. -/
def recordNodeGatewayFailure (now : Rat) (node : String) (status : Int) (s : Nodes) :
    Bool × Nodes :=
  if node = "" ∨ status ∉ [502, 503, 504] then (false, s)
  else
    let (previousCount, previousAt) := (s.gatewayFailures node).getD (0, 0)
    let count := if now - previousAt ≤ nodeGatewayFailureWindowSeconds then previousCount + 1 else 1
    let s := { s with gatewayFailures := Function.update s.gatewayFailures node (some (count, now)) }
    if count < nodeGatewayFailureThreshold then (false, s)
    else
      let s := markNodeUnavailable now node nodeGatewayFailureCooldownSeconds
        s!"gateway_http_{status}" s
      (true, { s with gatewayFailures := Function.update s.gatewayFailures node none })

def recordNodeSuccess (node : String) (s : Nodes) : Nodes :=
  if node = "" then s
  else { s with gatewayFailures := Function.update s.gatewayFailures node none }

/-- The cooldown that a verification leads to, zero for none. -/
def recordNodeDoubaoVerification (now : Rat) (node account : String) (s : Nodes) : Int × Nodes :=
  if node = "" ∨ account = "" then (0, s)
  else
    let events := ((s.doubaoVerifications node).filter fun event =>
      decide (now - event.2 ≤ nodeDoubaoVerificationWindowSeconds)).set account now
    let s := { s with
      doubaoVerifications := Function.update s.doubaoVerifications node events }
    let (previousStrikes, previousAt) := (s.doubaoVerificationStrikes node).getD (0, 0)
    let previousStrikes :=
      if nodeDoubaoVerificationStrikeTtlSeconds < now - previousAt then 0 else previousStrikes
    if previousStrikes = 0 ∧ events.size < 2 then (0, s)
    else
      let strikes := previousStrikes + 1
      let cooldown := if strikes = 1 then nodeDoubaoVerificationFirstCooldownSeconds
        else nodeDoubaoVerificationRepeatCooldownSeconds
      let s := { s with
        doubaoVerificationStrikes :=
          Function.update s.doubaoVerificationStrikes node (some (strikes, now))
        doubaoVerifications := Function.update s.doubaoVerifications node .empty }
      (cooldown, markNodeUnavailable now node cooldown "doubao_verification_required" s)

def recordNodeDoubaoSuccess (now : Rat) (node : String) (s : Nodes) : Nodes :=
  if node = "" then s
  else
    { s with
      doubaoVerifications := Function.update s.doubaoVerifications node .empty
      doubaoVerificationStrikes := Function.update s.doubaoVerificationStrikes node none
      cooldowns := Function.update s.cooldowns node none
      delays := Function.update s.delays node ((s.lastGood node).map fun delay => (some delay, now))
      dolaHealth := Function.update s.dolaHealth node (some (true, now)) }

/-- What `measure` of `measure_node_delays` stores. -/
def recordDelay (now : Rat) (node : String) (delay : Option Nat) (s : Nodes) : Nodes :=
  { s with
    delays := Function.update s.delays node (some (delay, now))
    lastGood := if delay.isSome then Function.update s.lastGood node delay else s.lastGood }

/-- A node of `_load_persisted_node_delays`: measured by an earlier process. -/
def loadDelay (measuredAt : Rat) (node : String) (delay : Nat) (s : Nodes) : Nodes :=
  { s with
    lastGood := Function.update s.lastGood node (some delay)
    delays := if (s.delays node).isSome then s.delays
      else Function.update s.delays node (some (some delay, measuredAt)) }

/-! ### Runs -/

inductive Report
  | unavailable (cooldownSeconds : Int) (reason : String)
  | gatewayFailure (status : Int)
  | success
  | doubaoVerification (account : String)
  | doubaoSuccess
  | measured (delay : Option Nat)
  | loaded (measuredAt : Rat) (delay : Nat)
  /-- Somebody asks whether the node is cooling down. -/
  | asked

inductive Event
  | pass (time : Rat)
  | report (node : String) (report : Report)
  /-- `rebuild_mihomo_from_snapshot` forgets all delays. -/
  | forgetDelays

structure World where
  now : Rat
  nodes : Nodes

def Report.apply (now : Rat) (node : String) (s : Nodes) : Report → Nodes
  | .unavailable cooldownSeconds reason => markNodeUnavailable now node cooldownSeconds reason s
  | .gatewayFailure status => (recordNodeGatewayFailure now node status s).2
  | .success => recordNodeSuccess node s
  | .doubaoVerification account => (recordNodeDoubaoVerification now node account s).2
  | .doubaoSuccess => recordNodeDoubaoSuccess now node s
  | .measured delay => recordDelay now node delay s
  | .loaded measuredAt delay => loadDelay measuredAt node delay s
  | .asked => (nodeRetryAfter now node s).2

def step : Event → World → World
  | .pass time, w => if w.now ≤ time then { w with now := time } else w
  | .report node report, w => { w with nodes := report.apply w.now node w.nodes }
  | .forgetDelays, w => { w with nodes := { w.nodes with delays := fun _ => none } }

end FetchTask.ProxyNodes
