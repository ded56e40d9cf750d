import FetchTask.Scheduling.Tick

/-!
The creation of a task is all or nothing.

A call that has been given a task to create ends by making it runnable, or by giving
its charge back and deleting it, whatever raises on the way. What it does not take into
account is that a clean-up can fail, that an operation can raise after it has taken
effect, and that another call may have been given the same task; `Orderly` says where
none of this matters.
-/

namespace FetchTask.Scheduling

open Runs Knowledge Store Batch

/-! ### The law -/

namespace World

variable (w : World) (t : TaskId)

def openedIds : List TaskId := w.opened.map Prod.snd

/-- The task is there, has been made runnable once, and its charge is not given back. -/
def Completed : Prop :=
  (∃ task, w.tasks.get? t = some task ∧ task.status ≠ .initializing ∧ task.status ≠ .failed) ∧
    w.openedIds.count t = 1 ∧ w.reservations t = some .reserved

/-- The task is deleted or failed, and no charge of it is left. -/
def Undone : Prop :=
  (∀ task, w.tasks.get? t = some task → task.status = .failed) ∧
    w.reservations t ≠ some .reserved

def AllOrNothing : Prop := w.Completed t ∨ w.Undone t

/-- The task has been made runnable, is stored, and has not failed. -/
def Runnable : Prop :=
  t ∈ w.openedIds ∧ ∃ task, w.tasks.get? t = some task ∧ task.status ≠ .failed

end World

/-- No runnable task is refunded or deleted, and none becomes runnable whose charge has been given
back. -/
def Spares (e : Env) : ScheduleOp → World → Prop
  | .refund _ t, w | .refundFailed t, w | .delete _ t, w | .deleteOriginal t, w => ¬ w.Runnable t
  | .writePending t, w =>
    e.fault = none → ∀ task, w.tasks.get? t = some task → w.reservations t = some .reserved
  | _, _ => True

/-! ### What a call holds -/

/-- How far a call is with the task that it creates. -/
inductive Phase
  | idle
  /-- It has the task, and no charge of its own. -/
  | made (t : TaskId)
  /-- A reservation or a refund has raised. -/
  | unsure (t : TaskId)
  | charged (t : TaskId)
  deriving DecidableEq

/-- The task that a call creates. -/
def Phase.task : Phase → Option TaskId
  | .idle => none
  | .made t | .unsure t | .charged t => some t

/-- What the results of its operations have told a call. -/
structure Progress where
  phase : Phase := .idle
  /-- A task that it has read as failed, or failed itself. -/
  failed : Option TaskId := none
  deriving DecidableEq

def holdings : Knowledge ScheduleSig Progress where
  start := {}
  may
    | k, .createTask | k, .findOrCreate _ => k.phase = .idle
    | k, .reserve path t => k.phase.task = some t ∧ (path = .retry → k.phase = .made t)
    | k, .refund _ t => k.phase.task = some t
    | k, .delete _ t => k.phase = .made t
    | k, .writePending t => k.phase = .charged t
    | k, .deleteOriginal t | k, .refundFailed t => k.failed = some t
    | _, _ => True
  can
    | .refund left _, .error e => e.transient = true ∧ 0 < left
    | .deleteOriginal _, .error _ => False
    | .outside .submitCosts, .error e | .outside .submitActive, .error e
    | .outside .submitReservation, .error e => e.kind ≠ .valueError ∧ e.kind ≠ .quotaExceeded
    | .reserve path _, .error e =>
      (e.kind = .quotaExceeded → e.transient = false) ∧ (path = .submit → e.kind ≠ .valueError)
    | _, .error e => e.kind ≠ .quotaExceeded
    | _, .ok _ => True
  learn
    | k, .createTask, .ok t => { k with phase := .made t }
    | k, .findOrCreate _, .ok found =>
      if found.created = false ∧ found.status ≠ .initializing then k
      else { k with phase := .made found.task }
    | k, .reserve _ t, .ok _ => { k with phase := .charged t }
    | k, .reserve path t, .error e =>
      if e.kind = .quotaExceeded then { k with phase := .made t }
      else if path = .retry then k
      else { k with phase := .unsure t }
    | k, .refund _ t, .ok _ => { k with phase := .made t }
    | k, .refund _ t, .error _ => { k with phase := .unsure t }
    | k, .delete _ _, .ok _ | k, .writePending _, .ok _ => { k with phase := .idle }
    | k, .delete left _, .error e =>
      if e.transient = true ∧ 0 < left then k else { k with phase := .idle }
    | k, .readStatus t, .ok status => if status = .failed then { k with failed := some t } else k
    | k, .failInitializing t, .ok failed => if failed then { k with failed := some t } else k
    | k, _, _ => k

/-- No other call has the task in the making. -/
def Alone (known : Nat → Progress) (i : Nat) (t : TaskId) : Prop :=
  ∀ j, j ≠ i → (known j).phase.task ≠ some t

/-- Nothing raises that a creation does not undo, and a task becomes runnable where no other call
creates it and no starting process has failed it. -/
def Orderly (alone : TaskId → Prop) (e : Env) : ScheduleOp → World → Prop
  | .createTask, w => e.fresh.1 ∉ w.created ∧ ∀ fault ∈ e.fault, fault.done = false
  | .findOrCreate key, w => w.taskOf key = none →
    e.fresh.1 ∉ w.created ∧ ∀ fault ∈ e.fault, fault.done = false
  | .reserve .submit _, _ | .outside .submitCosts, _ | .outside .submitActive, _
  | .outside .submitReservation, _ => ∀ fault ∈ e.fault, fault.raised.1.kind ≠ .valueError
  | .reserve .retry _, _ => ∀ fault ∈ e.fault, fault.done = false
  | .refund left _, _ => ∀ fault ∈ e.fault, fault.raised.1.transient = true ∧ 0 < left
  | .delete left _, _ => ∀ fault ∈ e.fault,
    fault.done = true ∨ fault.raised.1.transient = true ∧ 0 < left
  | .deleteOriginal _, _ => e.fault = none
  | .writePending t, w => (∀ fault ∈ e.fault, fault.done = false) ∧
    (e.fault = none → ∀ task, w.tasks.get? t = some task → task.status = .initializing ∧ alone t)
  | _, _ => True

/-! ### The programs -/

section Programs

variable {k : Progress} {t : TaskId}

/-- The call keeps to what it may do; the postconditions are on the phase. -/
abbrev Goes {α : Type} (k : Progress) (p : Run α) (Q : α → Progress → Prop)
    (E : Raised → Progress → Prop) : Prop :=
  holdings.Does Q E k p

/-- What neither begins nor ends a creation, nor is between its charge and its images. -/
def ScheduleOp.isAside : ScheduleOp → Bool
  | .createTask | .findOrCreate _ | .reserve .. | .refund .. | .delete .. | .writePending _
  | .deleteOriginal _ | .refundFailed _ | .readStatus _ | .failInitializing _
  | .outside .submitCosts | .outside .submitActive | .outside .submitReservation => false
  | _ => true

theorem neutral_of_isAside {o : ScheduleOp} (h : o.isAside = true) : holdings.Neutral k o := by
  cases o with
  | reserve path t => cases h
  | _ => first | exact ⟨trivial, fun _ _ => rfl⟩ | cases h

theorem still_aside {o : ScheduleOp} (h : o.isAside = true) : holdings.Still k (op o) :=
  still_op (neutral_of_isAside h)

theorem goes_aside {o : ScheduleOp} (h : o.isAside = true) :
    Goes k (op o) (fun _ k' => k' = k) fun e k' => k' = k ∧ e.kind ≠ .quotaExceeded := by
  have hneutral := neutral_of_isAside (k := k) h
  refine does_op hneutral.1 (fun a ha => hneutral.2 _ ha) fun e he => ⟨hneutral.2 _ he, ?_⟩
  cases o with
  | outside what => cases what <;> first | exact he | cases h
  | reserve path t => cases h
  | _ => first | exact he | cases h

/-! #### Clean-ups -/

theorem goes_refund (left : Nat) (hk : k.phase.task = some t) :
    Goes k (storageCall (fun left => op (.refund left t)) left) (fun _ k' => k'.phase = .made t)
      fun _ _ => False := by
  refine does_storageCall (I := fun k => k.phase.task = some t) (fun left k hk => ?_) left hk
  refine does_op hk (fun _ _ => rfl) fun e he => ?_
  have hretried : e.transient = true ∧ 0 < left := he
  rw [if_pos hretried]
  rfl

theorem goes_delete (left : Nat) (hk : k.phase = .made t) :
    Goes k (storageCall (fun left => op (.delete left t)) left) (fun _ k' => k'.phase = .idle)
      fun _ k' => k'.phase = .idle := by
  refine does_storageCall (I := fun k => k.phase = .made t) (fun left k hk => ?_) left hk
  refine does_op hk (fun _ _ => rfl) fun e _ => ?_
  show if e.transient = true ∧ 0 < left then
      (if e.transient = true ∧ 0 < left then k else { k with phase := .idle }).phase = .made t
    else (if e.transient = true ∧ 0 < left then k else { k with phase := .idle }).phase = .idle
  split
  · exact hk
  · rfl

theorem goes_undo (left : Nat) (hk : k.phase.task = some t) :
    Goes k (undo left t) (fun _ k' => k'.phase = .idle) fun _ k' => k'.phase = .idle := by
  refine Does.bind (Does.mono (fun _ _ h => h) (fun _ _ h => h.elim) (goes_refund left hk)) ?_
  exact fun _ k' hk' => goes_delete left hk'

/-! #### Shared steps -/

theorem goes_finalize (hk : k.phase = .charged t) :
    Goes k (finalizeTaskCreation t) (fun _ k' => k' = { k with phase := .idle })
      fun e k' => k'.phase = .charged t ∧ e.kind ≠ .quotaExceeded := by
  have hread : Goes k (op (.readStatus t))
      (fun status k' => k'.phase = .charged t ∧ (status = .initializing → k' = k))
      fun e k' => k'.phase = .charged t ∧ e.kind ≠ .quotaExceeded := by
    refine does_op trivial (fun status _ => ?_) fun e he => ⟨hk, he⟩
    show (if status = .failed then { k with failed := some t } else k).phase = _ ∧
      (status = .initializing → (if status = .failed then { k with failed := some t } else k) = k)
    split
    next hfailed => exact ⟨hk, fun hstatus => by rw [hfailed] at hstatus; cases hstatus⟩
    next => exact ⟨hk, fun _ => rfl⟩
  refine Does.bind hread fun status k' hk' => ?_
  split
  next hstatus =>
    obtain rfl := hk'.2 hstatus
    exact does_op hk (fun _ _ => rfl) fun e he => ⟨hk, he⟩
  next => exact does_throw ⟨hk'.1, by simp⟩

theorem goes_finalizeCall (left : Nat) (hk : k.phase = .charged t) :
    Goes k (storageCall (fun _ => finalizeTaskCreation t) left) (fun _ k' => k'.phase = .idle)
      fun _ k' => k'.phase.task = some t := by
  refine does_storageCall (I := fun k => k.phase = .charged t) (fun left k hk => ?_) left hk
  refine Does.mono (fun _ _ h => h ▸ rfl) (fun e k' h => ?_) (goes_finalize hk)
  split
  · exact h.1
  · rw [h.1]
    rfl

/-- What a call has found or created. -/
def Obtained (found : Found) (k : Progress) : Prop :=
  k.phase = if found.created = false ∧ found.status ≠ .initializing then .idle else .made found.task

theorem goes_findOrCreate (key : TaskKey) (left : Nat) (hk : k.phase = .idle) :
    Goes k (storageCall (fun _ => op (.findOrCreate key)) left) Obtained
      fun _ k' => k'.phase = .idle := by
  refine does_storageCall (I := fun k => k.phase = .idle) (fun left k hk => ?_) left hk
  refine does_op hk (fun found _ => ?_) fun e _ => ?_
  · show (if found.created = false ∧ found.status ≠ .initializing then k
      else { k with phase := .made found.task }).phase = _
    split
    · exact hk
    · rfl
  · split <;> exact hk

theorem goes_reserve {path : Path} (hpath : path ≠ .retry) (left : Nat)
    (hk : k.phase.task = some t) :
    Goes k (storageCall (fun _ => op (.reserve path t)) left) (fun _ k' => k'.phase = .charged t)
      fun e k' => k'.phase.task = some t ∧ (path = .submit → e.kind ≠ .valueError) ∧
        (e.kind = .quotaExceeded → k'.phase = .made t) := by
  refine does_storageCall (I := fun k => k.phase.task = some t) (fun left k hk => ?_) left hk
  refine does_op ⟨hk, fun h => absurd h hpath⟩ (fun _ _ => rfl) fun e he => ?_
  have hlearn : holdings.learn k (.reserve path t) (.error e) =
      { k with phase := if e.kind = .quotaExceeded then .made t else .unsure t } := by
    show (if e.kind = .quotaExceeded then { k with phase := .made t }
      else if path = .retry then k else { k with phase := .unsure t }) = _
    rw [if_neg hpath]
    split <;> rfl
  have htask : (if e.kind = .quotaExceeded then Phase.made t else .unsure t).task = some t := by
    split <;> rfl
  rw [hlearn]
  split
  · exact htask
  · exact ⟨htask, he.2, fun hquota => if_pos hquota⟩

/-! #### The paths -/

/-- The call has a task and neither made it runnable nor deleted it. -/
abbrev Works (t : TaskId) (_ : Raised) (k : Progress) : Prop := k.phase.task = some t

theorem goes_still {α : Type} {p : Run α} (hp : holdings.Still k p) (hk : k.phase.task = some t) :
    Goes k p (fun _ k' => k' = k) (Works t) :=
  hp.does (fun _ => rfl) fun _ => hk

theorem still_requireActive (jobId owner : String) : holdings.Still k (requireActive jobId owner) :=
  .bind (still_aside rfl) fun _ => .ite (.pure _) (.throw _)

theorem goes_chargeBatchTask (job : Job) (hk : k.phase = .made t) :
    Goes k (chargeBatchTask job t) (fun _ k' => k'.phase = .charged t) (Works t) := by
  have htask : k.phase.task = some t := by rw [hk]; rfl
  refine Does.bind (goes_still (still_storageCall (fun _ => still_aside rfl) _) htask) ?_
  rintro _ _ rfl
  refine Does.bind (Does.mono (fun _ _ h => h) (fun _ _ h => h.1)
    (goes_reserve (by decide) 2 htask)) fun _ k hk => ?_
  have htask : k.phase.task = some t := by rw [hk]; rfl
  refine Does.bind (goes_still (still_requireActive _ _) htask) ?_
  rintro _ _ rfl
  exact Does.mono (fun _ _ h => h ▸ hk) (fun _ _ h => h)
    (goes_still (still_storageCall (fun _ => still_aside rfl) _) htask)

theorem goes_prepareBatchTask (job : Job) (hk : k.phase = .charged t) :
    Goes k (prepareBatchTask job t) (fun _ k' => k'.phase = .idle) (Works t) := by
  have htask : k.phase.task = some t := by rw [hk]; rfl
  refine Does.bind (goes_still (still_aside rfl) htask) ?_
  rintro _ _ rfl
  refine Does.bind (goes_still (still_storageCall (fun _ => still_aside rfl) _) htask) ?_
  rintro _ _ rfl
  refine Does.bind (goes_still (still_requireActive _ _) htask) ?_
  rintro _ _ rfl
  exact goes_finalizeCall 2 hk

/-- The call ends without a task in the making. -/
abbrev Ends {α : Type} (k : Progress) (p : Run α) : Prop :=
  Goes k p (fun _ k' => k'.phase = .idle) fun _ k' => k'.phase = .idle

theorem ends_still {α : Type} {p : Run α} (hp : holdings.Still k p) (hk : k.phase = .idle) :
    Ends k p :=
  hp.does (fun _ => hk) fun _ => hk

/-- What follows a creation that is complete. -/
theorem ends_activity {α : Type} (a : α) (hk : k.phase = .idle) :
    Ends k (do tryCatch (op (.outside .activity)) fun _ => pure (); pure a) :=
  ends_still (.bind (.tryCatch (still_aside rfl) fun _ => .pure _) fun _ => .pure _) hk

theorem goes_discardBatchTask (e : Raised) (hk : k.phase.task = some t) :
    Goes k (discardBatchTask t e) (fun _ _ => False) fun _ k' => k'.phase = .idle :=
  Does.bind (goes_undo 1 hk) fun _ _ hk' => does_throw hk'

theorem ends_createScheduledBatchTask (claim : Claim) (hk : k.phase = .idle) :
    Ends k (createScheduledBatchTask claim) := by
  have hstill : ∀ {α : Type} {p : Run α}, holdings.Still k p →
      Goes k p (fun _ k' => k' = k) fun _ k' => k'.phase = .idle := fun hp =>
    hp.does (fun _ => rfl) fun _ => hk
  refine Does.bind (hstill (still_storageCall (fun _ => still_aside rfl) _)) ?_
  rintro enabled _ rfl
  cases enabled with
  | false => exact does_throw hk
  | true =>
    refine Does.bind (hstill (still_storageCall (fun _ => still_aside rfl) _)) ?_
    rintro _ _ rfl
    refine Does.bind (hstill (still_requireActive _ _)) ?_
    rintro _ _ rfl
    refine Does.bind (hstill (still_aside rfl)) ?_
    rintro _ _ rfl
    refine Does.bind (hstill (still_aside rfl)) ?_
    rintro _ _ rfl
    refine Does.bind (goes_findOrCreate _ 2 hk) fun found k hfound => ?_
    unfold Obtained at hfound
    split
    next hold =>
      rw [if_pos hold] at hfound
      exact does_pure hfound
    next hnew =>
      rw [if_neg hnew] at hfound
      refine Does.bind (Does.tryCatch (goes_chargeBatchTask _ hfound) fun e k hk => ?_) ?_
      · exact Does.mono (fun _ _ h => h.elim) (fun _ _ h => h) (goes_discardBatchTask e hk)
      intro _ k hk
      refine Does.bind (Does.tryCatch (goes_prepareBatchTask _ hk) fun e k hk => ?_) ?_
      · exact Does.mono (fun _ _ h => h.elim) (fun _ _ h => h) (goes_discardBatchTask e hk)
      exact fun _ k hk => ends_activity _ hk

/-! #### Requests -/

theorem goes_submitAside {what : Outside}
    (hwhat : what = .submitCosts ∨ what = .submitActive ∨ what = .submitReservation) :
    Goes k (op (.outside what)) (fun _ k' => k' = k)
      fun e k' => k' = k ∧ e.kind ≠ .valueError ∧ e.kind ≠ .quotaExceeded := by
  rcases hwhat with rfl | rfl | rfl
  all_goals exact does_op trivial (fun _ _ => rfl) fun e he => ⟨rfl, he⟩

theorem goes_submitAsideCall {what : Outside} (left : Nat)
    (hwhat : what = .submitCosts ∨ what = .submitActive ∨ what = .submitReservation) :
    Goes k (storageCall (fun _ => op (.outside what)) left) (fun _ k' => k' = k)
      fun e k' => k' = k ∧ e.kind ≠ .valueError ∧ e.kind ≠ .quotaExceeded := by
  refine does_storageCall (I := fun k' => k' = k) (fun left k' hk' => ?_) left rfl
  subst hk'
  refine Does.mono (fun _ _ h => h) (fun e k' h => ?_) (goes_submitAside hwhat)
  split
  · exact h.1
  · exact h

/-- What the first `try` of a request can leave to its `except` branches. -/
structure Chargeable (t : TaskId) (e : Raised) (k : Progress) : Prop where
  task : k.phase.task = some t
  value : e.kind ≠ .valueError
  quota : e.kind = .quotaExceeded → k.phase = .made t

theorem goes_chargeSubmittedTask (hk : k.phase = .made t) :
    Goes k (chargeSubmittedTask t) (fun _ k' => k'.phase = .charged t) (Chargeable t) := by
  have htask : k.phase.task = some t := by rw [hk]; rfl
  have hleft : ∀ {k : Progress}, k.phase.task = some t → ∀ (e : Raised) (k' : Progress),
      k' = k ∧ e.kind ≠ .valueError ∧ e.kind ≠ .quotaExceeded → Chargeable t e k' := by
    rintro k htask e _ ⟨rfl, hvalue, hquota⟩
    exact ⟨htask, hvalue, fun h => absurd h hquota⟩
  refine Does.bind (Does.mono (fun _ _ h => h) (hleft htask)
    (goes_submitAsideCall 2 (.inl rfl))) ?_
  rintro _ _ rfl
  refine Does.bind (Does.mono (fun _ _ h => h) (fun e k' h => ⟨h.1, h.2.1 rfl, h.2.2⟩)
    (goes_reserve (by decide) 2 htask)) fun _ k hk => ?_
  have htask : k.phase.task = some t := by rw [hk]; rfl
  refine Does.bind (Does.mono (fun _ _ h => h) (hleft htask)
    (goes_submitAside (.inr (.inl rfl)))) ?_
  rintro _ _ rfl
  exact Does.mono (fun _ _ h => h ▸ hk) (hleft htask) (goes_submitAsideCall 2 (.inr (.inr rfl)))

theorem goes_discardUncharged {e : Raised} (h : Chargeable t e k) :
    Goes k (discardUncharged t e) (fun _ _ => False) fun _ k' => k'.phase = .idle := by
  have hundo : Ends k (undoUncharged t e.kind) := by
    cases hkind : e.kind with
    | valueError => exact absurd hkind h.value
    | quotaExceeded => exact goes_delete 0 (h.quota hkind)
    | httpException statusCode => exact goes_undo 1 h.task
    | other => exact goes_undo 0 h.task
  exact Does.bind hundo fun _ _ hk => does_throw hk

theorem goes_prepareSubmittedTask (hk : k.phase = .charged t) :
    Goes k (prepareSubmittedTask t) (fun _ k' => k'.phase = .idle) (Works t) := by
  have htask : k.phase.task = some t := by rw [hk]; rfl
  refine Does.bind (goes_still (still_aside rfl) htask) ?_
  rintro _ _ rfl
  refine Does.bind (goes_still (still_storageCall (fun _ => still_aside rfl) _) htask) ?_
  rintro _ _ rfl
  refine Does.bind (goes_still (still_aside rfl) htask) ?_
  rintro _ _ rfl
  exact goes_finalizeCall 2 hk

theorem goes_obtainTask (key : Option TaskKey) (hk : k.phase = .idle) :
    Goes k (obtainTask key) Obtained fun _ k' => k'.phase = .idle := by
  cases key with
  | some key => exact goes_findOrCreate key 2 hk
  | none =>
    have hcreate : Goes k (op .createTask) (fun t k' => k'.phase = .made t)
        fun _ k' => k'.phase = .idle :=
      does_op hk (fun _ _ => rfl) fun _ _ => hk
    exact Does.bind hcreate fun t k hk => does_pure hk

theorem ends_submitTask (key : Option TaskKey) (hk : k.phase = .idle) :
    Ends k (submitTask key) := by
  refine Does.bind (ends_still (still_aside rfl) hk) fun _ k hk => ?_
  refine Does.bind (Does.tryCatch (goes_obtainTask key hk) fun _ _ hk => does_throw hk)
    fun found k hfound => ?_
  unfold Obtained at hfound
  split
  next hold =>
    rw [if_pos hold] at hfound
    exact does_pure hfound
  next hnew =>
    rw [if_neg hnew] at hfound
    refine Does.bind (Does.tryCatch (goes_chargeSubmittedTask hfound) fun e k hk => ?_) ?_
    · exact Does.mono (fun _ _ h => h.elim) (fun _ _ h => h) (goes_discardUncharged hk)
    intro _ k hk
    refine Does.bind (Does.tryCatch (goes_prepareSubmittedTask hk) fun e k hk => ?_) ?_
    · exact Does.bind (goes_undo 0 hk) fun _ _ hk => does_throw hk
    exact fun _ k hk => ends_activity _ hk

/-! #### Retries by hand -/

theorem goes_discardRetry {reserved : Bool} {e : Raised} (htask : k.phase.task = some t)
    (hmade : reserved = false ∨ e.kind = .quotaExceeded → k.phase = .made t) :
    Goes k (discardRetry reserved t e) (fun _ _ => False) fun _ k' => k'.phase = .idle := by
  have hundo : Ends k (undoRetry reserved t e.kind) := by
    unfold undoRetry
    split
    next => exact goes_undo 0 htask
    next hquota =>
      refine goes_delete 0 (hmade ?_)
      cases reserved with
      | false => exact .inl rfl
      | true => exact .inr (by simpa using hquota)
  exact Does.bind hundo fun _ _ hk => does_throw hk

theorem goes_reserveRetry (hk : k.phase = .made t) :
    Goes k (op (.reserve .retry t)) (fun _ k' => k' = { k with phase := .charged t })
      fun _ k' => k'.phase = .made t := by
  refine does_op ⟨by rw [hk]; rfl, fun _ => hk⟩ (fun _ _ => rfl) fun e _ => ?_
  show (if e.kind = .quotaExceeded then { k with phase := .made t } else k).phase = .made t
  split
  · rfl
  · exact hk

theorem goes_prepareRetry {original : TaskId} {status : Status} (hk : k.phase = .charged t)
    (hfailed : status = .failed → k.failed = some original) :
    Goes k (prepareRetry original status t) (fun _ k' => k'.phase = .idle)
      fun e k' => k'.phase.task = some t ∧ e.kind ≠ .quotaExceeded := by
  have htask : k.phase.task = some t := by rw [hk]; rfl
  have haside : ∀ {o : ScheduleOp}, o.isAside = true → Goes k (op o) (fun _ k' => k' = k)
      fun e k' => k'.phase.task = some t ∧ e.kind ≠ .quotaExceeded := fun h =>
    Does.mono (fun _ _ h => h) (fun _ _ h => ⟨h.1 ▸ htask, h.2⟩) (goes_aside h)
  refine Does.bind (haside rfl) ?_
  rintro _ _ rfl
  refine Does.bind (haside rfl) ?_
  rintro _ _ rfl
  refine Does.bind (haside rfl) ?_
  rintro _ _ rfl
  refine Does.bind (Does.mono (fun _ _ h => h) (fun _ _ h => ⟨by rw [h.1]; rfl, h.2⟩)
    (goes_finalize hk)) ?_
  rintro _ _ rfl
  split
  next hstatus => exact does_op (hfailed hstatus) (fun _ _ => rfl) fun e he => he.elim
  next => exact does_pure rfl

theorem ends_retryCompletedTask (original : TaskId) (hk : k.phase = .idle) :
    Ends k (retryCompletedTask original) := by
  have hread : Goes k (op (.readStatus original))
      (fun status k' => k'.phase = .idle ∧ (status = .failed → k'.failed = some original))
      fun _ k' => k'.phase = .idle := by
    refine does_op trivial (fun status _ => ?_) fun _ _ => hk
    show (if status = .failed then { k with failed := some original } else k).phase = _ ∧
      (status = .failed →
        (if status = .failed then { k with failed := some original } else k).failed = _)
    split
    next => exact ⟨hk, fun _ => rfl⟩
    next hopen => exact ⟨hk, fun h => absurd h hopen⟩
  refine Does.bind hread fun status k ⟨hk, hfailed⟩ => ?_
  split
  next =>
    refine Does.bind (Still.does (still_aside rfl) (fun _ => (rfl : k = k)) fun _ => hk) ?_
    rintro _ _ rfl
    have hcreate : Goes k (op .createTask) (fun t k' => k' = { k with phase := .made t })
        fun _ k' => k'.phase = .idle :=
      does_op hk (fun _ _ => rfl) fun _ _ => hk
    refine Does.bind hcreate ?_
    rintro t _ rfl
    have hcharge : Goes { k with phase := .made t } (do
        op (.outside .costs)
        op (.reserve .retry t)) (fun _ k' => k' = { k with phase := .charged t })
        fun _ k' => k'.phase = .made t := by
      refine Does.bind (Still.does (still_aside rfl) (fun _ => rfl) fun _ => rfl) ?_
      rintro _ _ rfl
      exact goes_reserveRetry rfl
    refine Does.bind (Does.tryCatch hcharge fun e k hk => ?_) ?_
    · exact Does.mono (fun _ _ h => h.elim) (fun _ _ h => h)
        (goes_discardRetry (by rw [hk]; rfl) fun _ => hk)
    rintro _ _ rfl
    refine Does.bind (Does.tryCatch (goes_prepareRetry rfl hfailed) fun e k hk => ?_)
      fun _ k hk => does_pure hk
    exact Does.mono (fun _ _ h => h.elim) (fun _ _ h => h)
      (goes_discardRetry hk.1 fun h => absurd h (by simp [hk.2]))
  next => exact does_throw hk

/-! #### The system -/

theorem ends_batchSchedulerTick (tick : Tick) (hk : k.phase = .idle) :
    Ends k (batchSchedulerTick tick) := by
  have hstill : ∀ {α : Type} {p : Run α}, holdings.Still k p →
      Goes k p (fun _ k' => k' = k) fun _ k' => k'.phase = .idle := fun hp =>
    hp.does (fun _ => rfl) fun _ => hk
  have hclaim : ∀ jobs : List Job, holdings.Still k (claimFrom jobs) := by
    intro jobs
    induction jobs with
    | nil => exact .pure _
    | cons job jobs ih =>
      refine .bind (still_aside rfl) fun claim => ?_
      cases claim with
      | none => exact ih
      | some claim => exact .pure _
  refine Does.bind (hstill (recoverIfDue_still (fun _ _ _ => neutral_of_isAside rfl)
    (fun _ _ => neutral_of_isAside rfl) _)) ?_
  rintro _ _ rfl
  refine Does.bind (hstill (reconcileJobs_still (fun _ _ => neutral_of_isAside rfl) _)) ?_
  rintro _ _ rfl
  cases tick.owner with
  | none => exact does_pure hk
  | some owner =>
    refine Does.bind (hstill (.bind (still_aside rfl) fun jobs => hclaim _)) ?_
    rintro claim _ rfl
    cases claim with
    | none => exact does_pure hk
    | some claim =>
      dsimp only
      split
      · exact does_pure hk
      · refine Does.tryCatch (Does.bind (ends_createScheduledBatchTask claim hk) fun t k hk => ?_)
          fun e k hk => ends_still (still_aside rfl) hk
        exact ends_still (.bind (still_aside rfl) fun _ => still_aside rfl) hk

theorem ends_failAndRefund (t : TaskId) (hk : k.phase = .idle) : Ends k (failAndRefund t) := by
  have hfail : Goes k (op (.failInitializing t))
      (fun failed k' => k'.phase = .idle ∧ (failed = true → k'.failed = some t))
      fun _ k' => k'.phase = .idle := by
    refine does_op trivial (fun failed _ => ?_) fun _ _ => hk
    cases failed with
    | true => exact ⟨hk, fun _ => rfl⟩
    | false => exact ⟨hk, fun h => by cases h⟩
  refine Does.bind hfail fun failed k hk => ?_
  cases failed with
  | true => exact does_op (hk.2 rfl) (fun _ _ => hk.1) fun _ _ => hk.1
  | false => exact does_pure hk.1

/-- Every call ends without a task in the making. -/
theorem call_ends (call : ScheduleCall) :
    holdings.Ensures (fun _ k => k.phase = .idle) holdings.start call.prog := by
  have hstart : holdings.start.phase = .idle := rfl
  have hrun : Ends holdings.start call.run := by
    cases call with
    | tick choices => exact ends_batchSchedulerTick choices hstart
    | submitTask owner key =>
      exact Does.bind (ends_submitTask _ hstart) fun _ _ hk => does_pure hk
    | retryCompletedTask original =>
      exact Does.bind (ends_retryCompletedTask original hstart) fun _ _ hk => does_pure hk
    | cancelJob jobId owner reason => exact ends_still (still_aside rfl) hstart
    | markRowAssetsReady jobId owner index files names =>
      exact ends_still (.bind (still_aside rfl) fun _ => .pure _) hstart
    | setEnabled owner enabled => exact ends_still (still_aside rfl) hstart
    | failInitializing t => exact ends_failAndRefund t hstart
    | execute t status => exact ends_still (still_aside rfl) hstart
  refine Ensures.bind hrun fun r k hk => ?_
  cases r with
  | ok a => exact hk
  | error e => exact hk

end Programs

end FetchTask.Scheduling
