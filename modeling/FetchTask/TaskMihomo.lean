import FetchTask.Lib.Held
import FetchTask.Lib.Runs
import FetchTask.Lib.Tally
import FetchTask.Runtime

/-!
The Mihomo exits of the tasks (`app/proxy_manager.py`).

Two functions share one list of slots and one condition. `_acquire_task_mihomo_proxy`
keeps the lock of the condition while it chooses, checks and launches a node;
`acquire_authenticated_socks_proxy` launches without it. A call runs until it waits;
a step of the model is one such stretch. A call that enters the lock, also after a
wait on the condition, is at `locking` and goes on when no call holds the lock.

Slots have an identity, so they stand in a heap, and the list is one of their
numbers. What `secrets.token_hex` draws is new each time, so the number of a slot
stands for its id, and the least of random ids may be any of them. The choice of a
node, the checks of a node and a launch are results that a call waits for; ports,
configuration files and the counts in a proxy are left out.
-/

namespace FetchTask.TaskMihomo

structure ProxyNode where
  id : String
  name : String
  country : String
  protocol : String
  uri : String
  deriving DecidableEq

/-- Nodes that are proxies themselves. -/
def ProxyNode.native (node : ProxyNode) : Bool :=
  node.protocol ∈ ["http", "https", "socks5", "socks5h"]

/-- `uri.split("#", 1)[0]`. -/
def ProxyNode.server (node : ProxyNode) : String :=
  String.ofList (node.uri.toList.takeWhile (· != '#'))

/-- `_TaskMihomoSlot`; `process` says whether there is one, `byTask` whether
`_acquire_task_mihomo_proxy` made the slot. -/
structure Slot where
  nodeId : String := ""
  nodeName : String := ""
  subscriptionUrl : String := ""
  snapshotDigest : String := ""
  process : Bool := false
  server : String := ""
  native : Bool := false
  active : Nat := 1
  exitId : String := ""
  launching : Bool := true
  retiring : Bool := false
  byTask : Bool := false
  deriving DecidableEq

/-- A proxy that was handed out. -/
structure Proxy where
  slot : Nat
  server : String
  nodeId : String
  nodeName : String
  native : Bool
  exitId : String
  released : Bool := false
  deriving DecidableEq

structure Config where
  maxSlots : Nat
  contextsPerExit : Nat
  contexts_pos : 0 < contextsPerExit

/-- `_bounded_env_int`, of the number that the environment has. -/
def boundedEnvInt (value : Option Int) (default minimum maximum : Int) : Nat :=
  (max minimum (min maximum (value.getD default))).toNat

/-- `TASK_MIHOMO_MAX_SLOTS` and `TASK_MIHOMO_CONTEXTS_PER_EXIT`. -/
def config (exitSlots contextsPerExit : Option Int) : Config where
  maxSlots := boundedEnvInt exitSlots 15 1 15
  contextsPerExit := boundedEnvInt contextsPerExit 1 1 1
  contexts_pos := by
    unfold boundedEnvInt
    omega

/-- What a call finds when it runs: for each slot whether its process has ended, for each node
whether it cools down, and what `secrets.choice` draws or the order of the ids is. -/
structure Turn where
  ended : Nat → Bool := fun _ => false
  coolingDown : String → Bool := fun _ => false
  pick : Nat := 0

structure Raised where
  typeName : String
  text : String
  deriving DecidableEq

/-- What `proxy_exit_identity` returns. -/
inductive ExitIdentity
  | ip (address : String)
  | node (fallback : String)
  deriving DecidableEq

def ExitIdentity.text : ExitIdentity → String
  | .ip address => "ip:" ++ address
  | .node fallback => "node:" ++ fallback

/-- What a launch gives a slot. -/
structure Launched where
  server : String
  exitId : ExitIdentity

/-! ### Calls -/

/-- The arguments of `_acquire_task_mihomo_proxy`; `digest` is that of the provider, if there is
one. -/
structure TaskRequest where
  nodes : List ProxyNode
  subscriptionUrl : String
  digest : Option String
  autoSelect : Bool := false
  selectedNode : String := ""
  selectedCountries : List String := []
  excludedNodeIds : List String := []
  randomSelect : Bool := false
  excludedCountries : List String := []

/-- The local variables of its loop. -/
structure Task where
  nodeCount : Nat
  subscriptionUrl : String
  digest : String
  autoSelect : Bool
  randomSelect : Bool
  baseExcluded : List String
  allowed : List String
  failed : List String := []
  deriving DecidableEq

/-- The texts that are not blank, stripped. -/
def strippedSet (u : Chars) (texts : List String) : List String :=
  ((texts.map u.strip).filter (· != "")).dedup

/-- What `_acquire_task_mihomo_proxy` does before its loop. -/
def prepare (u : Chars) (r : TaskRequest) : Except Raised Task :=
  match r.digest with
  | none =>
    .error ⟨"RuntimeError", "proxy subscription cannot generate a local Mihomo configuration"⟩
  | some digest =>
    let selectedCountries := strippedSet u r.selectedCountries
    let excludedCountries := strippedSet u r.excludedCountries
    let country := ((r.nodes.find? fun node => node.id == r.selectedNode).map (·.country)).getD ""
    let blocked := r.selectedNode ≠ "" ∧ country ∈ excludedCountries
    let selectedNode := if blocked then "" else r.selectedNode
    let autoSelect := r.autoSelect || decide blocked
    let allowed := (r.nodes.filter fun node =>
      decide (node.country ∉ excludedCountries) &&
        (autoSelect && decide (node.country ∈ selectedCountries) ||
          r.randomSelect &&
            (selectedCountries.isEmpty || decide (node.country ∈ selectedCountries)) ||
          !autoSelect && !r.randomSelect && (selectedNode == "" || node.id == selectedNode))).map
      (·.id)
    if autoSelect && selectedCountries.isEmpty then
      .error ⟨"RuntimeError", "automatic proxy selection requires at least one selected country"⟩
    else if autoSelect && allowed.isEmpty then
      .error ⟨"RuntimeError", "selected proxy countries contain no usable nodes"⟩
    else .ok {
      nodeCount := r.nodes.length
      subscriptionUrl := r.subscriptionUrl
      digest, autoSelect
      randomSelect := r.randomSelect
      baseExcluded := strippedSet u r.excludedNodeIds
      allowed := allowed.dedup }

/-- What `acquire_authenticated_socks_proxy` has made of its arguments when its loop begins. -/
structure Socks where
  poolKey : String
  digest : String
  nodeId : String
  nodeName : String
  deriving DecidableEq

/-- Where `_acquire_task_mihomo_proxy` waits. From `terminating` on it holds the lock. -/
inductive TaskStage
  | locking
  | waiting (notified : Bool)
  /-- The processes of the slots that left the list. -/
  | terminating
  | choosing (ready : List Nat) (activeNodes : List String)
  | checking (chosen : ProxyNode) (activeNodes : List String)
  | identifying (chosen : ProxyNode) (activeNodes : List String)
  | launching (chosen : ProxyNode) (activeNodes : List String) (i : Nat)
  /-- The process of the slot whose exit another slot has. -/
  | dropping (activeNodes : List String) (duplicate : Nat)
  deriving DecidableEq

/-- Where `acquire_authenticated_socks_proxy` waits. It holds the lock nowhere. -/
inductive SocksStage
  | locking
  | waiting (notified retired : Bool)
  | terminating (held : Option Held)
  | launching (i : Nat)
  /-- For the lock, to remove the slot. -/
  | launchFailed (i : Nat) (e : Raised)
  /-- For the lock, to notify. -/
  | launched (i : Nat)
  deriving DecidableEq

/-- A call and where it is. -/
inductive Call
  | task (l : Task) (stage : TaskStage)
  | socks (l : Socks) (stage : SocksStage)
  | returned (proxy : Nat)
  | raised (e : Raised)
  | cancelled
  deriving DecidableEq

def Call.notify : Call → Call
  | .task l (.waiting _) => .task l (.waiting true)
  | .socks l (.waiting _ retired) => .socks l (.waiting true retired)
  | call => call

inductive ReleasePhase
  | locking
  | terminating
  | done
  deriving DecidableEq

/-- A `release_task_mihomo_proxy` and where it is. -/
structure Release where
  proxy : Nat
  phase : ReleasePhase
  deriving DecidableEq

structure Pool where
  slots : Nat → Slot := fun _ => {}
  /-- How many slots were made. -/
  made : Nat := 0
  /-- `_TASK_MIHOMO_SLOTS`. -/
  pooled : List Nat := []
  /-- A call that waits holds the lock of the condition. -/
  locked : Bool := false
  calls : List Call := []
  releases : List Release := []
  proxies : List Proxy := []

namespace Pool

def setSlot (s : Pool) (i : Nat) (slot : Slot) : Pool :=
  { s with slots := Function.update s.slots i slot }

def setCall (s : Pool) (k : Nat) (call : Call) : Pool := { s with calls := s.calls.set k call }

/-- The call waits and keeps the lock. -/
def holdLock (s : Pool) (k : Nat) (call : Call) : Pool := { s with locked := true }.setCall k call

/-- `notify_all`. -/
def notifyAll (s : Pool) : Pool := { s with calls := s.calls.map Call.notify }

def remove (s : Pool) (i : Nat) : Pool := { s with pooled := s.pooled.erase i }

def add (s : Pool) (slot : Slot) : Pool :=
  { s.setSlot s.made slot with made := s.made + 1, pooled := s.pooled ++ [s.made] }

/-- `slot.active += 1`. -/
def take (s : Pool) (i : Nat) : Pool :=
  s.setSlot i { s.slots i with active := (s.slots i).active + 1 }

/-- The call returns a proxy on a slot. -/
def handOut (s : Pool) (k i : Nat) : Pool :=
  let slot := s.slots i
  { s with proxies := s.proxies ++ [{
      slot := i
      server := slot.server
      nodeId := slot.nodeId
      nodeName := slot.nodeName
      native := slot.native
      exitId := textOr slot.exitId ("node:" ++ slot.nodeId) : Proxy }] }.setCall k
    (.returned s.proxies.length)

def disconnected (s : Pool) (turn : Turn) (i : Nat) : Bool :=
  (s.slots i).process && turn.ended i

/-- Slots are marked, and those that are marked and not in use leave the list; the answer says
whether any did. -/
def sweep (s : Pool) (retires : Nat → Bool) : Pool × Bool :=
  let slots := fun i =>
    if i ∈ s.pooled ∧ retires i = true then { s.slots i with retiring := true } else s.slots i
  let stays := fun i => !((slots i).retiring && (slots i).active == 0 && !(slots i).launching)
  ({ s with slots, pooled := s.pooled.filter stays }, !s.pooled.all stays)

/-- One of those with the fewest proxies. -/
def least (s : Pool) (turn : Turn) (ready : List Nat) : Option Nat :=
  let minimum := (ready.map fun i => (s.slots i).active).min?
  let leastActive := ready.filter fun i => some (s.slots i).active == minimum
  leastActive[turn.pick % leastActive.length]?

/-! ### `_acquire_task_mihomo_proxy` -/

def taskRetires (s : Pool) (turn : Turn) (l : Task) (i : Nat) : Bool :=
  let slot := s.slots i
  let stale := slot.subscriptionUrl != l.subscriptionUrl || slot.snapshotDigest != l.digest
  let unavailable := turn.coolingDown slot.nodeId
  let outsideSelection := !l.allowed.isEmpty && decide (slot.nodeId ∉ l.allowed)
  stale || unavailable || outsideSelection || s.disconnected turn i

def taskReady (cfg : Config) (s : Pool) (turn : Turn) (l : Task) : List Nat :=
  s.pooled.filter fun i =>
    let slot := s.slots i
    !slot.launching && !slot.retiring && decide (slot.nodeId ∉ l.baseExcluded) &&
      (l.allowed.isEmpty || decide (slot.nodeId ∈ l.allowed)) &&
      decide (slot.active < cfg.contextsPerExit) &&
      (slot.native || slot.process && !turn.ended i)

def canLaunch (cfg : Config) (s : Pool) (l : Task) : Bool :=
  let matching := s.pooled.filter fun i =>
    let slot := s.slots i
    slot.subscriptionUrl == l.subscriptionUrl && slot.snapshotDigest == l.digest && !slot.retiring
  let matchingAllowed := matching.any fun i =>
    l.allowed.isEmpty || decide ((s.slots i).nodeId ∈ l.allowed)
  decide (s.pooled.length < cfg.maxSlots) &&
    (l.autoSelect || l.randomSelect || matching.isEmpty || !matchingAllowed)

/-- No node was chosen: a slot that is ready is taken, or the call waits. -/
def taskUnchosen (s : Pool) (turn : Turn) (k : Nat) (l : Task) (ready : List Nat)
    (chooseError : Option Raised) : Pool :=
  match s.least turn ready with
  | some i => (s.take i).notifyAll.handOut k i
  | none =>
    match chooseError with
    | some e =>
      if s.pooled = [] then s.setCall k (.raised e) else s.setCall k (.task l (.waiting false))
    | none => s.setCall k (.task l (.waiting false))

def taskSelect (cfg : Config) (s : Pool) (turn : Turn) (k : Nat) (l : Task) : Pool :=
  let ready := s.taskReady cfg turn l
  let activeNodes := s.pooled.map fun i => (s.slots i).nodeId
  if s.canLaunch cfg l then s.holdLock k (.task l (.choosing ready activeNodes))
  else s.taskUnchosen turn k l ready none

/-- The loop from its head, inside the lock. -/
def taskHead (cfg : Config) (s : Pool) (turn : Turn) (k : Nat) (l : Task) : Pool :=
  let (s, retired) := s.sweep (s.taskRetires turn l)
  if retired then s.holdLock k (.task l .terminating) else s.taskSelect cfg turn k l

/-- A node is chosen. -/
def taskChosen (s : Pool) (k : Nat) (l : Task) (activeNodes : List String) (chosen : ProxyNode) :
    Pool :=
  if chosen.native then s.holdLock k (.task l (.checking chosen activeNodes))
  else
    (s.add {
      nodeId := chosen.id
      nodeName := chosen.name
      subscriptionUrl := l.subscriptionUrl
      snapshotDigest := l.digest
      byTask := true }).holdLock k (.task l (.launching chosen activeNodes s.made))

/-- The first slot in use or ready with this exit, other than one. -/
def duplicate (s : Pool) (exitId : String) (except : Option Nat) : Option Nat :=
  s.pooled.find? fun i =>
    some i != except && !(s.slots i).retiring && !(s.slots i).launching &&
      (s.slots i).exitId == exitId

/-- What follows from another slot having the exit. -/
def Task.settle (l : Task) (chosen : ProxyNode) (duplicate : Slot) : Task :=
  { l with
    allowed := l.allowed.insert duplicate.nodeId
    failed := l.failed.insert chosen.id }

/-- The call looks for another node, waits, or takes the slot that has the exit. -/
def taskShare (cfg : Config) (s : Pool) (k : Nat) (l : Task) (activeNodes : List String)
    (duplicate : Nat) (launched : Bool) : Pool :=
  let remaining := l.allowed.filter fun id =>
    decide (id ∉ activeNodes) && decide (id ∉ l.baseExcluded) && decide (id ∉ l.failed)
  if remaining ≠ [] then s.notifyAll.setCall k (.task l .locking)
  else if cfg.contextsPerExit ≤ (s.slots duplicate).active then
    (if launched then s.notifyAll else s).setCall k (.task l (.waiting false))
  else (s.take duplicate).notifyAll.handOut k duplicate

/-- The exit of a native node is known. -/
def taskIdentified (cfg : Config) (s : Pool) (k : Nat) (l : Task) (chosen : ProxyNode)
    (activeNodes : List String) (exitId : ExitIdentity) : Pool :=
  match s.duplicate exitId.text none with
  | some i => s.taskShare cfg k (Task.settle l chosen (s.slots i)) activeNodes i false
  | none =>
    (s.add {
      nodeId := chosen.id
      nodeName := chosen.name
      subscriptionUrl := l.subscriptionUrl
      snapshotDigest := l.digest
      server := chosen.server
      native := true
      exitId := exitId.text
      launching := false
      byTask := true }).notifyAll.handOut k s.made

/-- `_launch_task_mihomo_slot`, when it returns. -/
def setLaunched (s : Pool) (i : Nat) (result : Launched) : Pool :=
  s.setSlot i { s.slots i with
    process := true, exitId := result.exitId.text, server := result.server, launching := false }

def taskLaunched (s : Pool) (k : Nat) (l : Task) (chosen : ProxyNode) (activeNodes : List String)
    (i : Nat) (result : Launched) : Pool :=
  let s := s.setLaunched i result
  match s.duplicate result.exitId.text (some i) with
  | some d =>
    (s.remove i).holdLock k (.task (Task.settle l chosen (s.slots d)) (.dropping activeNodes d))
  | none => s.notifyAll.handOut k i

def taskLaunchFailed (s : Pool) (k : Nat) (l : Task) (chosen : ProxyNode) (i : Nat) (e : Raised) :
    Pool :=
  let l := { l with failed := l.failed.insert chosen.id }
  let s := (s.remove i).notifyAll
  if l.nodeCount ≤ (l.failed ++ l.baseExcluded).dedup.length then s.setCall k (.raised e)
  else s.setCall k (.task l .locking)

/-! ### `acquire_authenticated_socks_proxy` -/

def socksRetires (s : Pool) (turn : Turn) (i : Nat) : Bool :=
  s.disconnected turn i || turn.coolingDown (s.slots i).nodeId

def socksReady (cfg : Config) (s : Pool) (turn : Turn) (l : Socks) : List Nat :=
  s.pooled.filter fun i =>
    let slot := s.slots i
    slot.subscriptionUrl == l.poolKey && slot.snapshotDigest == l.digest && !slot.launching &&
      !slot.retiring && slot.process && !turn.ended i && decide (slot.active < cfg.contextsPerExit)

/-- The part of the call after the processes are terminated. -/
def socksProceed (s : Pool) (k : Nat) (l : Socks) : Option Held → Pool
  | some (.selected i) => s.handOut k i
  | some (.launch i) => s.setCall k (.socks l (.launching i))
  | none => s.setCall k (.socks l .locking)

/-- The lock is left, and the processes of the slots that left the list are terminated. -/
def socksLeave (s : Pool) (k : Nat) (l : Socks) (retired : Bool) (held : Option Held) : Pool :=
  if retired then s.setCall k (.socks l (.terminating held)) else s.socksProceed k l held

/-- A slot that makes room in a list that is full. -/
def socksIdle (cfg : Config) (s : Pool) : Option Nat :=
  if cfg.maxSlots ≤ s.pooled.length then
    s.pooled.find? fun i => !(s.slots i).launching && (s.slots i).active == 0
  else none

def removeAny (s : Pool) (i : Option Nat) : Pool :=
  match i with
  | some i => s.remove i
  | none => s

/-- The loop from its head, inside the lock. -/
def socksHead (cfg : Config) (s : Pool) (turn : Turn) (k : Nat) (l : Socks) : Pool :=
  let (s, retired) := s.sweep (s.socksRetires turn)
  match s.least turn (s.socksReady cfg turn l) with
  | some i => (s.take i).notifyAll.socksLeave k l retired (some (.selected i))
  | none =>
    let idle := s.socksIdle cfg
    let retired := retired || idle.isSome
    let s := s.removeAny idle
    if cfg.maxSlots ≤ s.pooled.length then s.setCall k (.socks l (.waiting false retired))
    else
      (s.add {
        nodeId := l.nodeId
        nodeName := l.nodeName
        subscriptionUrl := l.poolKey
        snapshotDigest := l.digest }).socksLeave k l retired (some (.launch s.made))

/-! ### Steps -/

/-- A call that waits for the lock enters it. -/
def enter (cfg : Config) (s : Pool) (turn : Turn) (k : Nat) (call : Call) : Pool :=
  if s.locked then s
  else
    match call with
    | .task l .locking | .task l (.waiting true) => s.taskHead cfg turn k l
    | .socks l .locking | .socks l (.waiting true false) => s.socksHead cfg turn k l
    | .socks l (.waiting true true) => s.setCall k (.socks l (.terminating none))
    | .socks _ (.launchFailed i e) => (s.remove i).notifyAll.setCall k (.raised e)
    | .socks _ (.launched i) => s.notifyAll.handOut k i
    | _ => s

/-- The call goes on with the lock, which is its own. -/
def unlock (s : Pool) : Pool := { s with locked := false }

/-- The processes are terminated. -/
def terminated (cfg : Config) (s : Pool) (turn : Turn) (k : Nat) (call : Call) : Pool :=
  match call with
  | .task l .terminating => s.unlock.taskSelect cfg turn k l
  | .task l (.dropping activeNodes d) => s.unlock.taskShare cfg k l activeNodes d true
  | .socks l (.terminating held) => s.socksProceed k l held
  | _ => s

/-- `_choose_subscription_node` returns or raises. -/
def chose (s : Pool) (turn : Turn) (k : Nat) (call : Call) (outcome : Except Raised ProxyNode) :
    Pool :=
  match call, outcome with
  | .task l (.choosing ready _), .error e => s.unlock.taskUnchosen turn k l ready (some e)
  | .task l (.choosing _ activeNodes), .ok chosen => s.unlock.taskChosen k l activeNodes chosen
  | _, _ => s

/-- `_node_dola_available` returns or raises. -/
def checked (s : Pool) (k : Nat) (call : Call) (outcome : Except Raised Bool) : Pool :=
  match call, outcome with
  | .task _ (.checking ..), .error e => s.unlock.setCall k (.raised e)
  | .task l (.checking ..), .ok false => s.unlock.setCall k (.task l .locking)
  | .task l (.checking chosen activeNodes), .ok true =>
    s.unlock.holdLock k (.task l (.identifying chosen activeNodes))
  | _, _ => s

/-- `proxy_exit_identity` returns or raises. -/
def identified (cfg : Config) (s : Pool) (k : Nat) (call : Call)
    (outcome : Except Raised ExitIdentity) : Pool :=
  match call, outcome with
  | .task _ (.identifying ..), .error e => s.unlock.setCall k (.raised e)
  | .task l (.identifying chosen activeNodes), .ok exitId =>
    s.unlock.taskIdentified cfg k l chosen activeNodes exitId
  | _, _ => s

/-- `_launch_task_mihomo_slot` returns or raises. -/
def launched (s : Pool) (k : Nat) (call : Call) (outcome : Except Raised Launched) : Pool :=
  match call, outcome with
  | .task l (.launching chosen _ i), .error e => s.unlock.taskLaunchFailed k l chosen i e
  | .task l (.launching chosen activeNodes i), .ok result =>
    s.unlock.taskLaunched k l chosen activeNodes i result
  | .socks l (.launching i), .error e => s.setCall k (.socks l (.launchFailed i e))
  | .socks l (.launching i), .ok result =>
    (s.setLaunched i result).setCall k (.socks l (.launched i))
  | _, _ => s

/-- The call waits and holds the lock. -/
def holdsLock : Call → Bool
  | .task _ .locking | .task _ (.waiting _) => false
  | .task _ _ => true
  | _ => false

/-- `CancelledError` at what a call waits for. No `except` catches it; only the lock is given
back. -/
def cancel (s : Pool) (k : Nat) (call : Call) : Pool :=
  match call with
  | .returned _ | .raised _ | .cancelled => s
  | call => { s with locked := s.locked && !holdsLock call }.setCall k .cancelled

/-- The part of `release_task_mihomo_proxy` inside the lock. -/
def enterRelease (s : Pool) (turn : Turn) (r : Nat) (release : Release) : Pool :=
  match release.phase, s.locked, s.proxies[release.proxy]? with
  | .locking, false, some proxy =>
    let i := proxy.slot
    let s := { s with proxies := s.proxies.set release.proxy { proxy with released := true } }
    if i ∈ s.pooled then
      let slot := s.slots i
      let active := slot.active - 1
      let retiring := slot.retiring || turn.coolingDown slot.nodeId
      let s := s.setSlot i { slot with active, retiring }
      if active = 0 ∧ retiring = true then
        { (s.remove i).notifyAll with releases := s.releases.set r ⟨release.proxy, .terminating⟩ }
      else { s.notifyAll with releases := s.releases.set r ⟨release.proxy, .done⟩ }
    else { s with releases := s.releases.set r ⟨release.proxy, .done⟩ }
  | _, _, _ => s

/-- The process is terminated, or the call is cancelled. -/
def releaseDone (s : Pool) (r : Nat) (release : Release) : Pool :=
  { s with releases := s.releases.set r ⟨release.proxy, .done⟩ }

end Pool

/-- A call begins, goes on, is cancelled or gets the result it waits for. -/
inductive Action
  | task (request : TaskRequest)
  | socks (l : Socks)
  | enter (k : Nat) (turn : Turn)
  | terminated (k : Nat) (turn : Turn)
  | chose (k : Nat) (outcome : Except Raised ProxyNode) (turn : Turn)
  | checked (k : Nat) (outcome : Except Raised Bool)
  | identified (k : Nat) (outcome : Except Raised ExitIdentity)
  | launched (k : Nat) (outcome : Except Raised Launched)
  | cancel (k : Nat)
  | release (proxy : Nat)
  | enterRelease (r : Nat) (turn : Turn)
  | releaseDone (r : Nat)

/-- What an action does to a call or a release that is there. -/
def onEntry {α : Type} (table : List α) (k : Nat) (s : Pool) (f : α → Pool) : Pool :=
  match table[k]? with
  | some entry => f entry
  | none => s

def step (cfg : Config) (u : Chars) : Action → Pool → Pool
  | .task request, s =>
    let call := match prepare u request with
      | .ok l => Call.task l .locking
      | .error e => Call.raised e
    { s with calls := s.calls ++ [call] }
  | .socks l, s => { s with calls := s.calls ++ [Call.socks l .locking] }
  | .enter k turn, s => onEntry s.calls k s (s.enter cfg turn k)
  | .terminated k turn, s => onEntry s.calls k s (s.terminated cfg turn k)
  | .chose k outcome turn, s => onEntry s.calls k s (s.chose turn k · outcome)
  | .checked k outcome, s => onEntry s.calls k s (s.checked k · outcome)
  | .identified k outcome, s => onEntry s.calls k s (s.identified cfg k · outcome)
  | .launched k outcome, s => onEntry s.calls k s (s.launched k · outcome)
  | .cancel k, s => onEntry s.calls k s (s.cancel k)
  | .release j, s => { s with releases := s.releases ++ [Release.mk j .locking] }
  | .enterRelease r turn, s => onEntry s.releases r s (s.enterRelease turn r)
  | .releaseDone r, s => onEntry s.releases r s (s.releaseDone r)

end FetchTask.TaskMihomo
