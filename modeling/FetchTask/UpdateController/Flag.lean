import FetchTask.Lib.Knowledge
import FetchTask.UpdateController.Rollback

/-!
The flag `updating`, and who has to clear it.

`start_deploy` sets the flag, asks for the status and starts a thread, and the
thread clears the flag when it has deployed. Requests and deployments are threads
that share `STATE`; how each of their commands ends is an input of the step that
performs it. An attempt that raises between the flag and the thread leaves a flag
that nobody clears: `Completes` says of a step that it is not the end of such an
attempt.
-/

namespace FetchTask.UpdateController

open Raising

/-! ### The state -/

/-- `STATE`; a value that it does not have yet is `none`. -/
structure State where
  updating : Bool := false
  phase : String := "空闲"
  error : String := ""
  updated : Option Bool := none
  updateAvailable : Option Bool := none

/-- The arguments of `set_state`. -/
structure Values where
  updating : Option Bool := none
  phase : Option String := none
  error : Option String := none
  updated : Option Bool := none
  updateAvailable : Option Bool := none

/-- `STATE.update(values)`. -/
def State.update (s : State) (values : Values) : State where
  updating := values.updating.getD s.updating
  phase := values.phase.getD s.phase
  error := values.error.getD s.error
  updated := values.updated.or s.updated
  updateAvailable := values.updateAvailable.or s.updateAvailable

/-- What `deploy` sets last. -/
def Progress.values (p : Progress) : Values where
  updating := some p.updating
  phase := some p.phase
  error := some p.error
  updated := some p.updated
  updateAvailable := p.updateAvailable

/-- What the threads share. A thread that has been started waits to begin. -/
structure Controller where
  state : State := {}
  fetching : Bool := false
  waiting : Nat := 0
  host : Host

/-! ### Operations -/

/-- `run` ends with the output of a command. `deploy` writes `updating` with its last
`set_state` only, so that all its commands are one operation here. -/
inductive Op
  | tryUpdating
  | readState
  | setState (values : Values)
  | acquireFetch
  | releaseFetch
  | run (arguments : List String)
  | readVersion
  | startThread
  | begin
  | sleep
  | deploy

def sig : Sig where
  Op := Op
  Res
    | .tryUpdating => Bool
    | .readState => State
    | .setState _ => Unit
    | .acquireFetch => Unit
    | .releaseFetch => Unit
    | .run _ => Except String String
    | .readVersion => Except String String
    | .startThread => Except String Unit
    | .begin => Bool
    | .sleep => Unit
    | .deploy => Progress

/-- The part of a call that may raise. -/
abbrev Action := ExceptT String (Prog sig)

/-- How a command ends, and what it does to the host. -/
structure Environment where
  output : Except String String
  started : Except String Unit
  outcomes : Outcomes
  effect : Host → Host

/-- The settings, with `BRANCH`. -/
structure Site extends Setting where
  branch : String

/-- The flag is tested and set under one lock; a started thread is waiting until it begins.
Nobody waits for `FETCH_LOCK` here, so there are more runs than the controller has. -/
def handle (S : Site) : Handler sig Controller Environment
  | _, .tryUpdating, c =>
    if c.state.updating then (false, c)
    else
      (true, { c with
        state := c.state.update
          { updating := some true, phase := some "准备更新", error := some "", updated := some false } })
  | _, .readState, c => (c.state, c)
  | _, .setState values, c => ((), { c with state := c.state.update values })
  | _, .acquireFetch, c => ((), { c with fetching := true })
  | _, .releaseFetch, c => ((), { c with fetching := false })
  | e, .run _, c => (e.output, { c with host := e.effect c.host })
  | e, .readVersion, c => (e.output, c)
  | e, .startThread, c =>
    match e.started with
    | .ok () => (.ok (), { c with waiting := c.waiting + 1 })
    | .error error => (.error error, c)
  | _, .begin, c => if 0 < c.waiting then (true, { c with waiting := c.waiting - 1 }) else (false, c)
  | _, .sleep, c => ((), c)
  | e, .deploy, c =>
    let (progress, host) := UpdateController.deploy S.toSetting e.outcomes c.host
    (progress, { c with host })

namespace Calls

def call (o : Op) : Action (sig.Res o) := Prog.act o fun r => .ret (.ok r)

/-- An operation that may raise. -/
def raising {α : Type} (o : Op) (f : sig.Res o → Except String α) : Action α :=
  Prog.act o fun r => .ret (f r)

def run (arguments : List String) : Action String := raising (.run arguments) id

def git (arguments : List String) : Action String := run ("git" :: arguments)

/-! ### The calls -/

/-- `with FETCH_LOCK`. -/
def withFetchLock {α : Type} (body : Action α) : Action α := do
  call .acquireFetch
  let a ← tryCatch body fun error => do
    call .releaseFetch
    throw error
  call .releaseFetch
  pure a

/-- What the repository says to a status query. -/
structure Revisions where
  revision : String
  latestRevision : String
  commitMessage : String
  latestCommitMessage : String
  latestVersion : String

structure Report extends State, Revisions where
  repository : String
  branch : String
  version : String
  sourceVersion : String

variable (S : Site)

def origin : String := "origin/" ++ S.branch

def fetchOrigin (fetch : Bool) : Action Unit :=
  if fetch then do
    let _ ← git ["fetch", "--prune", "origin", S.branch]
    pure ()
  else pure ()

def revisions (fetch : Bool) : Action Revisions := do
  fetchOrigin S fetch
  let revision ← git ["rev-parse", "--short", "HEAD"]
  let latestRevision ← git ["rev-parse", "--short", origin S]
  let commitMessage ← git ["log", "-1", "--format=%s", "HEAD"]
  let latestCommitMessage ← git ["log", "-1", "--format=%s", origin S]
  let latestVersion ← git ["show", origin S ++ ":VERSION"]
  pure { revision, latestRevision, commitMessage, latestCommitMessage, latestVersion }

def serviceContainerId (service : String) : Action String := do
  let containerId ← run ["docker", "compose", "ps", "-q", service]
  if containerId = "" then throw ("deployment service is not running: " ++ service)
  else pure containerId

/-- The version that runs; what the query raises is lost. -/
def runningServiceVersion (service : String) : Action String :=
  tryCatch
    (do
      let containerId ← serviceContainerId service
      run ["docker", "exec", containerId, "python", "-c",
        "from app import __version__; print(__version__)"])
    fun _ => pure ""

def status (refresh : Bool) : Action Report := do
  let current ← call .readState
  let found ← withFetchLock (revisions S (refresh && !current.updating))
  let sourceVersion ← raising .readVersion fun text => text.map S.chars.strip
  let running ← runningServiceVersion "api"
  let runtimeVersion := textOr running sourceVersion
  pure
    { current, found with
      repository := S.expectedOrigin
      branch := S.branch
      version := runtimeVersion
      sourceVersion
      updateAvailable := some
        (found.revision != found.latestRevision || runtimeVersion != sourceVersion) }

def startDeploy : Action Report := do
  let accepted : Bool ← call .tryUpdating
  if accepted then
    let response ← status S false
    raising .startThread id
    pure response
  else throw "repository update is already running"

/-- The thread; it has begun when one was waiting. -/
def deployAfterResponse : Action Unit := do
  let begun : Bool ← call .begin
  if begun then
    call .sleep
    call (.setState { phase := some "检查仓库", error := some "" })
    let progress ← call .deploy
    call (.setState progress.values)

/-- The reply to a request: what is raised becomes the code 409. -/
def reply (code : Nat) (body : Action Report) : Prog sig (Nat × Except String Report) :=
  Prog.bind (α := Except String Report) body fun result =>
    match result with
    | .ok report => .ret (code, .ok report)
    | .error error => .ret (409, .error (lastText maxErrorLength error))

end Calls

open Calls

inductive Call
  | doGet
  | doPost
  | deployment

def Call.prog (S : Site) : Call → Prog sig Unit
  | .doGet => reply 200 (status S true) >>= fun _ => .ret ()
  | .doPost => reply 202 (startDeploy S) >>= fun _ => .ret ()
  | .deployment => Prog.bind (α := Except String Unit) deployAfterResponse fun _ => .ret ()

/-! ### Roles -/

/-- What a thread has to do for the flag. An attempt ends with the thread that it starts, or
with the first command that raises. -/
inductive Role
  | idle
  | starting
  | running
  deriving DecidableEq

open Role

/-- `git` raises out of a status query, docker does not. -/
def isGit (arguments : List String) : Bool := arguments.head? == some "git"

def roles : Knowledge sig Role where
  start := idle
  may
    | role, .tryUpdating => role = idle
    | role, .setState values => values.updating = none ∨ role = running ∧ values.updating = some false
    | role, .startThread => role = starting
    | role, .begin => role = idle
    | role, .deploy => role = running
    | _, _ => True
  can
    | .deploy, (progress : Progress) => progress.updating = false
    | _, _ => True
  learn
    | role, .tryUpdating, (accepted : Bool) => if accepted then starting else role
    | role, .run arguments, (output : Except String String) =>
      match output with
      | .ok _ => role
      | .error _ => if isGit arguments ∧ role = starting then idle else role
    | role, .readVersion, (output : Except String String) =>
      match output with
      | .ok _ => role
      | .error _ => if role = starting then idle else role
    | _, .startThread, _ => idle
    | role, .begin, (begun : Bool) => if begun then running else role
    | role, .setState values, _ => if values.updating = some false then idle else role
    | role, _, _ => role

section Programs

open Knowledge

variable {α β : Type} {role : Role}

/-- The program returns with the role it had, and raises without one. -/
def Careful (role : Role) (p : Action α) : Prop :=
  roles.Does (fun _ role' => role' = role) (fun _ role' => role' = idle) role p

theorem Careful.bind {p : Action α} {f : α → Action β} (hp : Careful role p)
    (hf : ∀ a, Careful role (f a)) : Careful role (p >>= f) := by
  refine Does.bind hp ?_
  rintro a _ rfl
  exact hf a

theorem careful_pure (a : α) : Careful role (pure a) := rfl

theorem careful_call {o : Op} (ho : roles.Neutral role o) : Careful role (call o) :=
  does_act ho.1 ho.2

/-- An operation that may raise, and then ends an attempt. -/
theorem careful_raising {o : Op} {f : sig.Res o → Except String α} (hmay : roles.may role o)
    (hlearn : ∀ r, roles.can o r → roles.learn role o r =
      match f r with
      | .ok _ => role
      | .error _ => idle) : Careful role (raising o f) := by
  refine ⟨hmay, fun r hr => ?_⟩
  have hafter := hlearn r hr
  show roles.Ensures _ _ (Prog.ret (f r))
  cases hf : f r with
  | ok a =>
    rw [hf] at hafter
    exact hafter
  | error e =>
    rw [hf] at hafter
    exact hafter

theorem careful_git (h : role ≠ running) (arguments : List String) :
    Careful role (git arguments) := by
  refine careful_raising trivial fun r _ => ?_
  cases r with
  | ok text => rfl
  | error e =>
    show (if isGit ("git" :: arguments) = true ∧ role = starting then idle else role) = idle
    cases role with
    | idle => simp
    | starting => simp [isGit]
    | running => exact absurd rfl h

theorem careful_readVersion (h : role ≠ running) (f : String → String) :
    Careful role (raising .readVersion fun text => text.map f) := by
  refine careful_raising trivial fun r _ => ?_
  cases r with
  | ok text => rfl
  | error e =>
    show (if role = starting then idle else role) = idle
    cases role with
    | idle => rfl
    | starting => rfl
    | running => exact absurd rfl h

theorem careful_withFetchLock {body : Action α} (hbody : Careful role body) :
    Careful role (withFetchLock body) := by
  refine Careful.bind (careful_call ⟨trivial, fun _ _ => rfl⟩) fun _ => ?_
  refine Careful.bind ?_ fun a => ?_
  · refine Does.tryCatch hbody ?_
    rintro e _ rfl
    refine Does.bind (Q := fun _ role' => role' = idle) ⟨trivial, fun _ _ => rfl⟩ ?_
    rintro _ _ rfl
    exact rfl
  · exact Careful.bind (careful_call ⟨trivial, fun _ _ => rfl⟩) fun _ => careful_pure a

variable (S : Site)

theorem careful_revisions (h : role ≠ running) (fetch : Bool) :
    Careful role (revisions S fetch) := by
  have hgit := careful_git h
  refine Careful.bind ?_ fun _ => (hgit _).bind fun _ => (hgit _).bind fun _ =>
    (hgit _).bind fun _ => (hgit _).bind fun _ => (hgit _).bind fun _ => careful_pure _
  rw [fetchOrigin]
  split
  · exact (hgit _).bind fun _ => careful_pure ()
  · exact careful_pure ()

theorem still_docker (arguments : List String) :
    roles.Still role (run ("docker" :: arguments)) := by
  refine Still.act ⟨trivial, fun r _ => ?_⟩
  cases r with
  | ok text => rfl
  | error e =>
    show (if isGit ("docker" :: arguments) = true ∧ role = starting then idle else role) = role
    simp [isGit]

theorem careful_runningServiceVersion (service : String) :
    Careful role (runningServiceVersion service) := by
  have hquery : roles.Still role (do
      let containerId ← Calls.serviceContainerId service
      run ["docker", "exec", containerId, "python", "-c",
        "from app import __version__; print(__version__)"]) := by
    refine Still.bind ?_ fun containerId => still_docker _
    refine Still.bind (still_docker _) fun containerId => ?_
    split
    · exact Still.throw _
    · exact Still.pure containerId
  refine Does.tryCatch hquery ?_
  rintro e _ rfl
  exact rfl

theorem careful_status (h : role ≠ running) (refresh : Bool) : Careful role (status S refresh) := by
  refine Careful.bind (careful_call ⟨trivial, fun _ _ => rfl⟩) fun current => ?_
  refine (careful_withFetchLock (careful_revisions S h _)).bind fun found => ?_
  refine (careful_readVersion h S.chars.strip).bind fun sourceVersion => ?_
  exact (careful_runningServiceVersion "api").bind fun running => careful_pure _

/-- An accepted attempt ends without a role: what it owes has passed to the thread. -/
theorem does_startDeploy :
    roles.Does (fun _ role' => role' = idle) (fun _ role' => role' = idle) idle (startDeploy S) := by
  refine Does.bind (Q := fun accepted role' => role' = if accepted then starting else idle)
    (does_act rfl fun accepted _ => rfl) ?_
  rintro accepted role' rfl
  cases accepted with
  | false => exact does_throw rfl
  | true =>
    refine Does.bind (careful_status S (by decide) false) ?_
    rintro response role' rfl
    refine Does.bind (Q := fun _ role' => role' = idle) ⟨rfl, fun r _ => ?_⟩ ?_
    · cases r with
      | ok _ => rfl
      | error _ => rfl
    · rintro _ role' rfl
      exact does_pure rfl

/-- A thread that has begun clears the flag, whatever `deploy` runs into. -/
theorem does_deployAfterResponse :
    roles.Does (fun _ role' => role' = idle) (fun _ role' => role' = idle) idle
      deployAfterResponse := by
  refine Does.bind (Q := fun begun role' => role' = if begun then running else idle)
    (does_act rfl fun begun _ => rfl) ?_
  rintro begun role' rfl
  cases begun with
  | false => exact does_pure rfl
  | true =>
    have hcall : ∀ {o : Op}, roles.Neutral running o → Careful running (call o) := careful_call
    refine Does.bind (hcall ⟨trivial, fun _ _ => rfl⟩) ?_
    rintro _ role' rfl
    refine Does.bind (hcall ⟨.inl rfl, fun _ _ => rfl⟩) ?_
    rintro _ role' rfl
    refine Does.bind (Q := fun (progress : Progress) role' =>
      progress.updating = false ∧ role' = running) (does_act rfl fun _ hr => ⟨hr, rfl⟩) ?_
    rintro progress role' ⟨hcleared, rfl⟩
    have hvalues : progress.values.updating = some false := congrArg some hcleared
    refine does_act (.inr ⟨rfl, hvalues⟩) fun _ _ => ?_
    exact if_pos hvalues

theorem call_ensures (c : Call) : roles.Ensures (fun _ role => role = idle) idle (c.prog S) := by
  have hreply : ∀ code body, roles.Does (fun _ role' => role' = idle) (fun _ role' => role' = idle)
      idle body → roles.Ensures (fun _ role => role = idle) idle
        (reply code body >>= fun _ => .ret ()) := by
    intro code body hbody
    refine Ensures.bind (Q := fun _ role => role = idle) (Ensures.bind hbody ?_) fun _ _ h => h
    rintro (error | report) role h
    · exact h
    · exact h
  cases c with
  | doGet => exact hreply 200 _ (careful_status S (by decide) true)
  | doPost => exact hreply 202 _ (does_startDeploy S)
  | deployment =>
    refine Ensures.bind does_deployAfterResponse ?_
    rintro (error | u) role h
    · exact h
    · exact h

end Programs

/-! ### Every end of `deploy` -/

theorem ends_trivial {α : Type} (m : Command α) (h : Host) :
    Ends m h (fun _ _ => True) (fun _ _ => True) := by
  unfold Ends
  split <;> trivial

theorem update_clears (S : Setting) (o : Outcomes) (before : Commit) (h : Host) :
    Ends (UpdateController.update S o before) h (fun progress _ => progress.updating = false)
      (fun _ _ => True) := by
  refine Ends.bind (ends_trivial _ _) fun deployed h _ => ?_
  refine Ends.bind (ends_trivial _ _) fun _ h _ => ?_
  refine Ends.bind (ends_trivial _ _) fun _ h _ => ?_
  refine Ends.bind (ends_trivial _ _) fun target h _ => ?_
  refine Ends.bind (ends_trivial _ _) fun _ h _ => ?_
  refine Ends.bind (ends_trivial _ _) fun head h _ => ?_
  refine Ends.bind (ends_trivial _ _) fun targetVersion h _ => ?_
  refine Ends.bind (ends_trivial _ _) fun targetImage h _ => ?_
  split
  · exact Ends.bind (ends_trivial _ _) fun _ h _ => Ends.pure rfl
  · refine Ends.bind (ends_trivial _ _) fun _ h _ => ?_
    refine Ends.bind (ends_trivial _ _) fun _ h _ => ?_
    exact Ends.bind (ends_trivial _ _) fun _ h _ => Ends.pure rfl

/-- Current, updated, failed before or after the commit was read, rolled back or not. -/
theorem deploy_clears (S : Setting) (o : Outcomes) (h : Host) :
    (deploy S o h).1.updating = false := by
  rw [deploy]
  split
  · rfl
  · split
    next hupdate => exact (update_clears S o _ _).of_ok hupdate
    next =>
      split
      · rfl
      · rfl

/-! ### The flag over a run -/

/-- Some thread has a role, or has been started and waits. -/
def Owed (c : Controller) (known : Nat → Role) : Prop := 0 < c.waiting ∨ ∃ i, known i ≠ idle

/-- One attempt or deployment at most, and the flag is set while there is one. -/
structure Alone (c : Controller) (known : Nat → Role) : Prop where
  one : ∀ i j, known i ≠ idle → known j ≠ idle → i = j
  waits : 0 < c.waiting → ∀ i, known i = idle
  once : c.waiting ≤ 1
  flag : Owed c known → c.state.updating = true

/-- The flag is set only while someone is to clear it. -/
def Tight (c : Controller) (known : Nat → Role) : Prop := c.state.updating = true → Owed c known

/-- The step does not end an attempt that has no thread yet. -/
def Completes (role : Role) (e : Environment) : Op → Controller → Prop
  | .run arguments, _ => role = starting ∧ isGit arguments = true → ∃ text, e.output = .ok text
  | .readVersion, _ => role = starting → ∃ text, e.output = .ok text
  | .startThread, _ => e.started = .ok ()
  | _, _ => True

section Steps

variable {S : Site} {c c' : Controller} {known : Nat → Role} {i : Nat} {role : Role}

theorem owed_idle : Owed c (fun _ => idle) ↔ 0 < c.waiting := by simp [Owed]

theorem owed_thread (h : role ≠ idle) : Owed c (Function.update (fun _ => idle) i role) :=
  .inr ⟨i, by simpa using h⟩

theorem alone_idle (hwaiting : c.waiting ≤ 1) (hflag : 0 < c.waiting → c.state.updating = true) :
    Alone c (fun _ => idle) where
  one _ _ h := absurd rfl h
  waits _ _ := rfl
  once := hwaiting
  flag h := hflag (owed_idle.mp h)

theorem alone_thread (hwaiting : c.waiting = 0) (hflag : c.state.updating = true) :
    Alone c (Function.update (fun _ => idle) i role) where
  one j k hj hk := by
    have hthread : ∀ j, Function.update (fun _ => idle) i role j ≠ idle → j = i := by
      intro j hj
      by_contra hji
      simp [hji] at hj
    exact (hthread j hj).trans (hthread k hk).symm
  waits h := absurd h (by omega)
  once := by omega
  flag _ := hflag

theorem Alone.congr (h : Alone c known) (hwaiting : c'.waiting = c.waiting)
    (hflag : c'.state.updating = c.state.updating) : Alone c' known where
  one := h.one
  waits hw := h.waits (hwaiting ▸ hw)
  once := hwaiting ▸ h.once
  flag how := hflag ▸ h.flag (by rwa [Owed, hwaiting] at how)

theorem Tight.congr (h : Tight c known) (hwaiting : c'.waiting = c.waiting)
    (hflag : c'.state.updating = c.state.updating) : Tight c' known := by
  rw [Tight, Owed, hwaiting, hflag]
  exact h

/-- Where nothing is owed, no thread has a role. -/
theorem Alone.free (h : Alone c known) (hflag : c.state.updating = false) :
    c.waiting = 0 ∧ known = fun _ => idle := by
  have hnone : ¬ Owed c known := fun howed => by
    rw [h.flag howed] at hflag
    cases hflag
  refine ⟨Nat.eq_zero_of_not_pos fun hw => hnone (.inl hw), funext fun j => ?_⟩
  by_contra hj
  exact hnone (.inr ⟨j, hj⟩)

/-- Where a thread is to begin, no thread has a role. -/
theorem Alone.waiting (h : Alone c known) (hw : 0 < c.waiting) :
    c.waiting = 1 ∧ known = fun _ => idle :=
  ⟨Nat.le_antisymm h.once hw, funext (h.waits hw)⟩

/-- Where a thread has a role, it is the only one. -/
theorem Alone.thread (h : Alone c known) (hi : known i ≠ idle) :
    c.waiting = 0 ∧ c.state.updating = true ∧ Function.update known i idle = fun _ => idle := by
  refine ⟨Nat.eq_zero_of_not_pos fun hw => hi (h.waits hw i), h.flag (.inr ⟨i, hi⟩), ?_⟩
  funext j
  by_cases hji : j = i
  · simp [hji]
  · by_contra hj
    simp only [Function.update_of_ne hji] at hj
    exact hji (h.one j i hj hi)

/-- What an operation keeps, and when it keeps the flag from being left alone. -/
structure Kept (c : Controller) (known : Nat → Role) (c' : Controller) (known' : Nat → Role)
    (completes : Prop) : Prop where
  alone : Alone c' known'
  tight : Tight c known → (Tight c' known' ↔ completes)

/-- An operation that changes neither a role nor the flag. -/
theorem kept_same (h : Alone c known) (hrole : role = known i) (hwaiting : c'.waiting = c.waiting)
    (hflag : c'.state.updating = c.state.updating) {completes : Prop} (hcompletes : completes) :
    Kept c known c' (Function.update known i role) completes := by
  rw [hrole, Function.update_eq_self]
  exact ⟨h.congr hwaiting hflag, fun htight => iff_of_true (htight.congr hwaiting hflag) hcompletes⟩

/-- An attempt that ends without a thread leaves a flag that nobody clears. -/
theorem kept_lost (h : Alone c known) (hi : known i ≠ idle) (hrole : role = idle)
    (hwaiting : c'.waiting = c.waiting) (hflag : c'.state.updating = c.state.updating)
    {completes : Prop} (hnot : ¬ completes) :
    Kept c known c' (Function.update known i role) completes := by
  obtain ⟨hnone, hset, hidle⟩ := h.thread hi
  rw [hrole, hidle]
  refine ⟨alone_idle (by omega) fun _ => hflag.trans hset, fun _ =>
    iff_of_false (fun htight => ?_) hnot⟩
  have howed := owed_idle.mp (htight (hflag.trans hset))
  omega

theorem kept_command (h : Alone c known) (e : Environment) (arguments : List String) :
    Kept c known { c with host := e.effect c.host }
      (Function.update known i (roles.learn (known i) (.run arguments) e.output))
      (Completes (known i) e (.run arguments) c) := by
  cases hout : e.output with
  | ok text => exact kept_same h (by rfl) (by rfl) (by rfl) (fun _ => ⟨text, hout⟩)
  | error error =>
    by_cases hlost : isGit arguments = true ∧ known i = starting
    · refine kept_lost h (by rw [hlost.2]; decide) (if_pos hlost) (by rfl) (by rfl) fun hcompletes => ?_
      obtain ⟨text, htext⟩ := hcompletes hlost.symm
      cases hout.symm.trans htext
    · exact kept_same h (if_neg hlost) (by rfl) (by rfl) (fun hgit => absurd (And.symm hgit) hlost)

theorem kept_readVersion (h : Alone c known) (e : Environment) :
    Kept c known c (Function.update known i (roles.learn (known i) .readVersion e.output))
      (Completes (known i) e .readVersion c) := by
  cases hout : e.output with
  | ok text => exact kept_same h (by rfl) (by rfl) (by rfl) (fun _ => ⟨text, hout⟩)
  | error error =>
    by_cases hlost : known i = starting
    · refine kept_lost h (by rw [hlost]; decide) (if_pos hlost) (by rfl) (by rfl) fun hcompletes => ?_
      obtain ⟨text, htext⟩ := hcompletes hlost
      cases hout.symm.trans htext
    · exact kept_same h (if_neg hlost) (by rfl) (by rfl) (fun hrole => absurd hrole hlost)

/-- What every operation keeps, by a thread that may perform it. -/
theorem handle_kept (h : Alone c known) (e : Environment) (o : Op)
    (hmay : roles.may (known i) o) :
    Kept c known (handle S e o c).2
      (Function.update known i (roles.learn (known i) o (handle S e o c).1))
      (Completes (known i) e o c) := by
  cases o with
  | readState => exact kept_same h (by rfl) (by rfl) (by rfl) trivial
  | acquireFetch => exact kept_same h (by rfl) (by rfl) (by rfl) trivial
  | releaseFetch => exact kept_same h (by rfl) (by rfl) (by rfl) trivial
  | sleep => exact kept_same h (by rfl) (by rfl) (by rfl) trivial
  | deploy => exact kept_same h (by rfl) (by rfl) (by rfl) trivial
  | run arguments => exact kept_command h e arguments
  | readVersion => exact kept_readVersion h e
  | tryUpdating =>
    cases hflag : c.state.updating with
    | true =>
      have hsame : handle S e .tryUpdating c = (false, c) := if_pos hflag
      rw [hsame]
      exact kept_same h (by rfl) (by rfl) (by rfl) trivial
    | false =>
      obtain ⟨hwaiting, hidle⟩ := h.free hflag
      have hset : handle S e .tryUpdating c = (true, { c with
          state := c.state.update { updating := some true, phase := some "准备更新",
                                    error := some "", updated := some false } }) :=
        if_neg (by rw [hflag]; decide)
      rw [hset, hidle]
      exact ⟨alone_thread hwaiting rfl, fun _ =>
        iff_of_true (fun _ => owed_thread nofun) trivial⟩
  | startThread =>
    have hi : known i ≠ idle := by
      rw [show known i = starting from hmay]
      decide
    obtain ⟨hwaiting, hset, hidle⟩ := h.thread hi
    cases hstarted : e.started with
    | ok u =>
      have hstart : handle S e .startThread c = (.ok (), { c with waiting := c.waiting + 1 }) := by
        simp only [handle, hstarted]
      rw [hstart]
      show Kept c known _ (Function.update known i idle) _
      rw [hidle]
      refine ⟨alone_idle (by show c.waiting + 1 ≤ 1; omega) fun _ => hset, fun _ => ?_⟩
      exact iff_of_true (fun _ => owed_idle.mpr (Nat.succ_pos _)) hstarted
    | error error =>
      have hfail : handle S e .startThread c = (.error error, c) := by
        simp only [handle, hstarted]
      rw [hfail]
      refine kept_lost h hi rfl rfl rfl fun hcompletes => ?_
      cases hstarted.symm.trans hcompletes
  | begin =>
    by_cases hwaiting : 0 < c.waiting
    · have hbegin : handle S e .begin c = (true, { c with waiting := c.waiting - 1 }) :=
        if_pos hwaiting
      have hset := h.flag (.inl hwaiting)
      obtain ⟨hone, hidle⟩ := h.waiting hwaiting
      rw [hbegin, hidle]
      exact ⟨alone_thread (by show c.waiting - 1 = 0; omega) hset, fun _ =>
        iff_of_true (fun _ => owed_thread nofun) trivial⟩
    · have hnone : handle S e .begin c = (false, c) := if_neg hwaiting
      rw [hnone]
      exact kept_same h (by rfl) (by rfl) (by rfl) trivial
  | setState values =>
    rcases hmay with hkeep | ⟨hrunning, hclear⟩
    · refine kept_same h ?_ (by rfl) ?_ trivial
      · exact if_neg (by rw [hkeep]; decide)
      · show values.updating.getD c.state.updating = _
        rw [hkeep]
        rfl
    · have hi : known i ≠ idle := by
        rw [hrunning]
        decide
      obtain ⟨hwaiting, -, hidle⟩ := h.thread hi
      have hrole : roles.learn (known i) (.setState values) () = idle := if_pos hclear
      have hcleared : (c.state.update values).updating = false := by
        show values.updating.getD c.state.updating = false
        rw [hclear]
        rfl
      show Kept c known { c with state := c.state.update values }
        (Function.update known i (roles.learn (known i) (.setState values) ())) _
      rw [hrole, hidle]
      refine ⟨alone_idle (by show c.waiting ≤ 1; omega) fun hw => ?_, fun _ => ?_⟩
      · exact absurd hw (by show ¬ 0 < c.waiting; omega)
      · exact iff_of_true (fun hset => absurd (hcleared.symm.trans hset) (by decide)) trivial

end Steps

section Runs

open Knowledge Runs

variable (S : Site)

/-- The controller has started, and serves no request yet. -/
def booted (host : Host) : Tracked sig Controller Role where
  config := { shared := { host }, threads := fun _ => .ret () }
  known _ := idle

abbrev step : Label Call Environment → Tracked sig Controller Role → Tracked sig Controller Role :=
  roles.step (handle S) (Call.prog S)

/-- A deployment waits or runs, or a call is about to start one. -/
def UnderWay (t : Tracked sig Controller Role) : Prop :=
  0 < t.config.shared.waiting ∨ ∃ i, t.known i ≠ idle ∧ (t.config.threads i).isDone = false

/-- One deployment runs or waits at most. -/
structure AtMostOne (t : Tracked sig Controller Role) : Prop where
  runs : ∀ i j, t.known i = running → t.known j = running → i = j
  waits : 0 < t.config.shared.waiting → ∀ i, t.known i ≠ running
  once : t.config.shared.waiting ≤ 1

abbrev Proper : Tracked sig Controller Role → Prop := roles.Follows (fun role => role = idle) Alone

variable {S} {t : Tracked sig Controller Role} {labels : List (Label Call Environment)}

theorem booted_proper (host : Host) : Proper (booted host) where
  programs _ := rfl
  inv := alone_idle (Nat.zero_le 1) fun h => absurd h (Nat.lt_irrefl 0)

theorem alone_spawn (c : Controller) (known : Nat → Role) (i : Nat) (h : Alone c known)
    (hi : known i = idle) : Alone c (Function.update known i roles.start) := by
  have hsame : Function.update known i (known i) = known := Function.update_eq_self i known
  rw [hi] at hsame
  exact hsame.symm ▸ h

theorem keeps_alone : roles.Keeps (handle S) Alone fun _ _ _ _ => True := by
  intro i e o c known h hmay _
  refine ⟨?_, (handle_kept h e o hmay).alone⟩
  cases o with
  | deploy => exact deploy_clears S.toSetting e.outcomes c.host
  | _ => trivial

theorem onKnown_true {ε : Type} (label : Label Call ε) (t : Tracked sig Controller Role) :
    OnKnown (fun _ _ _ _ => True) label t := by
  cases label with
  | spawn i call => trivial
  | act i e =>
    cases hi : t.config.threads i with
    | ret u => simp [OnKnown, hi]
    | act o k => simp [OnKnown, hi]

theorem proper_step (label : Label Call Environment) (ht : Proper t) : Proper (step S label t) :=
  follows_step (call_ensures S) alone_spawn keeps_alone label t ht (onKnown_true label t)

/-- A thread with a role has not returned. -/
theorem underWay_iff (ht : Proper t) : UnderWay t ↔ Owed t.config.shared t.known := by
  refine or_congr_right ⟨fun ⟨i, hi, _⟩ => ⟨i, hi⟩, fun ⟨i, hi⟩ => ⟨i, hi, ?_⟩⟩
  by_contra hdone
  exact hi (ht.ended (Bool.not_eq_false _ ▸ hdone))

theorem atMostOne_of_proper (ht : Proper t) : AtMostOne t where
  runs i j hi hj := ht.inv.one i j (by rw [hi]; decide) (by rw [hj]; decide)
  waits hw i hi := by
    have hidle := ht.inv.waits hw i
    rw [hi] at hidle
    cases hidle
  once := ht.inv.once

/-- One step leaves the flag to someone exactly when it completes what it does. -/
theorem tight_step_iff (label : Label Call Environment) (ht : Proper t)
    (htight : Tight t.config.shared t.known) :
    Tight (step S label t).config.shared (step S label t).known ↔ OnKnown Completes label t := by
  cases label with
  | spawn i call =>
    refine iff_of_true ?_ trivial
    cases hi : t.config.threads i with
    | act o k =>
      rw [step, step_spawn_busy hi]
      exact htight
    | ret u =>
      have hidle := ht.ended (i := i) (by rw [hi]; rfl)
      have hsame : Function.update t.known i (t.known i) = t.known :=
        Function.update_eq_self i t.known
      rw [hidle] at hsame
      rw [step, step_spawn hi]
      show Tight t.config.shared (Function.update t.known i idle)
      rw [hsame]
      exact htight
  | act i e =>
    cases hi : t.config.threads i with
    | ret u =>
      rw [step, step_idle hi]
      exact iff_of_true htight (by simp [OnKnown, hi])
    | act o k =>
      have hkept := (handle_kept (S := S) ht.inv e o (ht.may hi)).tight htight
      rw [step, step_act hi]
      simpa only [OnKnown, hi] using hkept

/-- With the flag set and nobody to clear it, no operation changes that. -/
theorem handle_locked {c : Controller} {known : Nat → Role} {i : Nat} {e : Environment} {o : Op}
    (hset : c.state.updating = true) (hwaiting : c.waiting = 0) (hidle : known i = idle)
    (hmay : roles.may (known i) o) :
    (handle S e o c).2.state.updating = true ∧ (handle S e o c).2.waiting = 0 ∧
      roles.learn (known i) o (handle S e o c).1 = idle := by
  have hother : known i ≠ starting := by rw [hidle]; decide
  cases o with
  | readState => exact ⟨hset, hwaiting, hidle⟩
  | acquireFetch => exact ⟨hset, hwaiting, hidle⟩
  | releaseFetch => exact ⟨hset, hwaiting, hidle⟩
  | sleep => exact ⟨hset, hwaiting, hidle⟩
  | deploy => exact absurd (hidle.symm.trans hmay) (by decide)
  | startThread => exact absurd hmay hother
  | tryUpdating =>
    have hsame : handle S e .tryUpdating c = (false, c) := if_pos hset
    rw [hsame]
    exact ⟨hset, hwaiting, hidle⟩
  | begin =>
    have hnone : handle S e .begin c = (false, c) := if_neg (by omega)
    rw [hnone]
    exact ⟨hset, hwaiting, hidle⟩
  | setState values =>
    rcases hmay with hkeep | ⟨hrunning, -⟩
    · refine ⟨?_, hwaiting, ?_⟩
      · show values.updating.getD c.state.updating = true
        rw [hkeep]
        exact hset
      · show (if values.updating = some false then idle else known i) = idle
        rw [hkeep, hidle]
        rfl
    · exact absurd (hidle.symm.trans hrunning) (by decide)
  | run arguments =>
    refine ⟨hset, hwaiting, ?_⟩
    show (match e.output with
      | .ok _ => known i
      | .error _ => if isGit arguments = true ∧ known i = starting then idle else known i) = idle
    cases e.output with
    | ok text => exact hidle
    | error error => exact (if_neg fun h => hother h.2).trans hidle
  | readVersion =>
    refine ⟨hset, hwaiting, ?_⟩
    show (match e.output with
      | .ok _ => known i
      | .error _ => if known i = starting then idle else known i) = idle
    cases e.output with
    | ok text => exact hidle
    | error error => exact (if_neg hother).trans hidle

/-- A flag that is left alone stays set in every later run: no update is accepted any more. -/
theorem locked_for_ever (ht : Proper t) (hset : t.config.shared.state.updating = true)
    (hnot : ¬ UnderWay t) :
    Throughout (step S) (fun t => t.config.shared.state.updating = true ∧ ¬ UnderWay t) labels t := by
  refine Throughout.mono (P := fun t => Proper t ∧ t.config.shared.state.updating = true ∧
    ¬ UnderWay t) (fun t h => h.2) (throughout_of_step ?_ ⟨ht, hset, hnot⟩)
  rintro label t ⟨ht, hset, hnot⟩
  have hnext := proper_step (S := S) label ht
  refine ⟨hnext, ?_⟩
  rw [underWay_iff hnext]
  rw [underWay_iff ht] at hnot
  cases label with
  | spawn i call =>
    cases hi : t.config.threads i with
    | act o k =>
      rw [step, step_spawn_busy hi]
      exact ⟨hset, hnot⟩
    | ret u =>
      rw [step, step_spawn hi]
      refine ⟨hset, ?_⟩
      rintro (hwaiting | ⟨j, hj⟩)
      · exact hnot (.inl hwaiting)
      · by_cases hji : j = i
        · exact hj (by simp [hji, roles])
        · exact hnot (.inr ⟨j, by simpa [hji] using hj⟩)
  | act i e =>
    cases hi : t.config.threads i with
    | ret u =>
      rw [step, step_idle hi]
      exact ⟨hset, hnot⟩
    | act o k =>
      have hwaiting : t.config.shared.waiting = 0 := Nat.eq_zero_of_not_pos fun hw => hnot (.inl hw)
      have hidle : ∀ j, t.known j = idle := fun j => by
        by_contra hj
        exact hnot (.inr ⟨j, hj⟩)
      obtain ⟨hset', hwaiting', hlearn⟩ :=
        handle_locked (S := S) (e := e) hset hwaiting (hidle i) (ht.may hi)
      rw [step, step_act hi]
      refine ⟨hset', ?_⟩
      rintro (hw | ⟨j, hj⟩)
      · exact absurd (hwaiting' ▸ hw) (Nat.lt_irrefl 0)
      · by_cases hji : j = i
        · exact hj (by simp [hji, hlearn])
        · exact hj (by simp [hji, hidle j])

/-- In every run the flag is set only while a deployment is under way exactly when no attempt
ends before it has started its thread; two deployments never run at once. -/
theorem updating_underWay_iff (host : Host) (labels : List (Label Call Environment)) :
    (Throughout (step S) (fun t => t.config.shared.state.updating = true → UnderWay t) labels
        (booted host) ↔
      AllSteps (step S) (OnKnown Completes) labels (booted host)) ∧
    Throughout (step S) AtMostOne labels (booted host) := by
  refine ⟨?_, (throughout_of_step (fun label t ht => proper_step label ht)
    (booted_proper host)).mono fun t => atMostOne_of_proper⟩
  have hkept : ∀ label t, Proper t → Proper (step S label t) := fun label t ht => proper_step label ht
  refine throughout_iff_allSteps_of_invariant hkept
    (fun label t ht htight => ?_) (booted_proper host) (fun h => absurd h Bool.false_ne_true)
  rw [underWay_iff (proper_step label ht)]
  rw [underWay_iff ht] at htight
  exact tight_step_iff label ht htight

/-! ### An attempt whose status query fails -/

def releasedSite : Site := { released with branch := "main" }

/-- Every command raises. -/
def commandsFail : Environment where
  output := .error "command timed out after 15 seconds"
  started := .ok ()
  outcomes := buildFails
  effect := id

/-- A request for an update, up to `git rev-parse` and the end of its call. -/
def failedQuery : List (Label Call Environment) :=
  .spawn 0 .doPost :: List.replicate 5 (.act 0 commandsFail)

theorem failed_query_locks : ¬ ∀ (S : Site) (host : Host) (labels : List (Label Call Environment)),
    Throughout (step S) (fun t => t.config.shared.state.updating = true → UnderWay t) labels
      (booted host) := by
  intro hclaim
  have howed := (hclaim releasedSite updatedOnce failedQuery).final (by rfl)
  rcases howed with hwaiting | ⟨i, hrole, -⟩
  · exact absurd hwaiting (by decide)
  · match i with
    | 0 => exact hrole (by rfl)
    | i + 1 => exact hrole (by rfl)

end Runs

end FetchTask.UpdateController
