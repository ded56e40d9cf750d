import FetchTask.Lib.Knowledge
import FetchTask.Retrying

/-!
What a retry knows of its two tasks.

A retry has read a task as one that may be retried, then has a replacement in hand that
it charges, gives the images and makes pending, and then deletes either the original
or, after an exception, the replacement. The stages are what the results of its
operations tell it; every request performs an operation only in a stage in which a
retry may.
-/

namespace FetchTask.Retrying

open Knowledge Store Scheduling

/-! ### What a retry knows -/

/-- How far the images are copied: `copied` of those that were listed. -/
inductive Copying
  | unlisted
  | copying (names : List ImageFile) (copied : Nat)
  | spoiled
  deriving DecidableEq

structure Work where
  original : TaskId
  /-- The original was read as failed. -/
  failed : Bool
  task : TaskId
  paid : Bool := false
  copying : Copying := .unlisted
  counted : Bool := false
  deriving DecidableEq

inductive Stage
  | idle
  /-- It may retry the task. -/
  | read (original : TaskId) (failed : Bool)
  | working (k : Work)
  /-- The replacement is being deleted. -/
  | discarding (t : TaskId)
  /-- A replacement of the failed task is pending, and the failed one is to be deleted. -/
  | opened (original : TaskId)
  | rowGone (original : TaskId)
  /-- What is still to be removed of it. -/
  | deleting (original : TaskId) (entries : List Entry)
  deriving DecidableEq

namespace Stage

/-- The replacement that a retry has in hand. -/
def task : Stage → Option TaskId
  | .working k => some k.task
  | .discarding t => some t
  | _ => none

/-- The failed task that it retries: one that it has read as failed, until its next read or its
end, and until it has given up or removed the task. -/
def retries : Stage → Option TaskId
  | .read original true => some original
  | .working k => if k.failed then some k.original else none
  | .opened original | .rowGone original | .deleting original _ => some original
  | _ => none

/-- A request may end here, or go on to its next task. -/
def Rests : Stage → Prop
  | .idle | .read .. | .discarding _ => True
  | _ => False

/-- What is left to remove. -/
def delete (original : TaskId) : List Entry → Stage
  | [] => .idle
  | entry :: entries => .deleting original (entry :: entries)

/-- The replacement has become pending. -/
def finalized (k : Work) : Stage := if k.failed then .opened k.original else .idle

end Stage

def Work.copy (k : Work) : Except Raised ImageFile → Work
  | .ok _ =>
    match k.copying with
    | .copying names copied => { k with copying := .copying names (copied + 1) }
    | _ => k
  | .error _ => { k with copying := .spoiled }

def progress : Knowledge RetrySig Stage where
  start := .idle
  may
    | s, .readMeta _ => s.Rests
    | s, .createTask original _ => ∃ failed, s = .read original failed
    | s, .reserve t => ∃ k, s = .working k ∧ k.task = t ∧ k.paid = false
    | s, .listImages original =>
      ∃ k, s = .working k ∧ k.original = original ∧ k.copying = .unlisted ∧ k.counted = false
    | s, .copyImage original _ t index => ∃ k names copied, s = .working k ∧
      k.original = original ∧ k.task = t ∧ k.copying = .copying names copied ∧ index = copied + 1
    | s, .setTaskImages t imageCount => ∃ k names copied, s = .working k ∧ k.task = t ∧
      k.copying = .copying names copied ∧ imageCount = names.length
    | s, .finalize t => ∃ k names, s = .working k ∧ k.task = t ∧
      k.copying = .copying names names.length ∧ k.counted = true
    | s, .refund t => ∃ k, s = .working k ∧ k.task = t
    | s, .deleteRow .replacement t => ∃ k, s = .working k ∧ k.task = t ∧ k.paid = false
    | s, .listEntries .replacement t | s, .unlink .replacement t _ => s = .discarding t
    | s, .deleteRow .original t => s = .opened t
    | s, .listEntries .original t => s = .rowGone t
    | s, .unlink .original t entry => ∃ entries, s = .deleting t (entry :: entries)
    | _, _ => True
  can
    | .deleteRow .original _, .error _ | .listEntries .original _, .error _
    | .unlink .original .., .error _ => False
    | .reserve _, _ | _, .ok _ => True
    | _, .error e => e.kind ≠ .quotaExceeded
  learn
    | _, .readMeta t, .ok task =>
      if task.status = .success ∨ task.status = .failed then .read t (task.status = .failed)
      else .idle
    | _, .readMeta _, .error _ => .idle
    | .read original failed, .createTask .., .ok t => .working { original, failed, task := t }
    | .working k, .reserve _, .ok _ => .working { k with paid := true }
    | .working k, .refund _, .ok _ => .working { k with paid := false }
    | .working _, .refund _, .error _ => .idle
    | .working k, .listImages _, .ok names => .working { k with copying := .copying names 0 }
    | .working k, .copyImage .., r => .working (k.copy r)
    | .working k, .setTaskImages .., .ok _ => .working { k with counted := true }
    | .working k, .finalize _, .ok _ => .finalized k
    | .working _, .deleteRow .replacement t, _ => .discarding t
    | .opened original, .deleteRow .original _, .ok _ => .rowGone original
    | .rowGone original, .listEntries .original _, .ok entries => .delete original entries
    | .deleting original (_ :: entries), .unlink .original .., .ok _ => .delete original entries
    | s, _, _ => s

/-! ### The programs -/

section Programs

variable {s : Stage} {k : Work} {t o : TaskId}

/-- The retry keeps to what it may do. -/
abbrev Goes {α : Type} (s : Stage) (p : Run α) (Q : α → Stage → Prop) (E : Raised → Stage → Prop) :
    Prop :=
  progress.Does Q E s p

theorem goes_op {o : RetryOp} {Q : o.Answer → Stage → Prop} {E : Raised → Stage → Prop}
    (hmay : progress.may s o)
    (hok : ∀ a, progress.can o (.ok a) → Q a (progress.learn s o (.ok a)))
    (herror : ∀ e, progress.can o (.error e) → E e (progress.learn s o (.error e))) :
    Goes s (op o) Q E := by
  refine ⟨hmay, fun r hr => ?_⟩
  cases r with
  | ok a => exact hok a hr
  | error e => exact herror e hr

/-- Either way the request may end, or go on to its next task. -/
abbrev Passes {α : Type} (s : Stage) (p : Run α) : Prop :=
  Goes s p (fun _ s' => s'.Rests) fun _ s' => s'.Rests

/-- What reads or writes elsewhere teaches nothing. -/
theorem goes_outside (what : Outside) : Goes s (op (.outside what)) (fun _ s' => s' = s)
    fun e s' => s' = s ∧ e.kind ≠ .quotaExceeded := by
  refine goes_op trivial (fun _ _ => ?_) fun e he => ⟨?_, he⟩
  · cases s <;> rfl
  · cases s <;> rfl

/-! #### Deletions -/

theorem goes_unlinkAll_original (entries : List Entry) :
    Goes (.delete o entries) (unlinkAll .original o entries) (fun _ s' => s' = .idle)
      fun _ _ => False := by
  induction entries with
  | nil => exact does_pure rfl
  | cons entry entries ih =>
    have hunlink : Goes (.deleting o (entry :: entries)) (op (.unlink .original o entry))
        (fun _ s' => s' = .delete o entries) fun _ _ => False :=
      goes_op ⟨entries, rfl⟩ (fun _ _ => rfl) fun _ he => he
    refine Does.bind hunlink ?_
    rintro _ _ rfl
    exact ih

/-- The deletion of the original does not raise. -/
theorem goes_deleteOriginal : Goes (.opened o) (deleteTask .original o)
    (fun _ s' => s' = .idle) fun _ _ => False := by
  have hrow : Goes (.opened o) (op (.deleteRow .original o)) (fun _ s' => s' = .rowGone o)
      fun _ _ => False :=
    goes_op rfl (fun _ _ => rfl) fun _ he => he
  have hlist : Goes (.rowGone o) (op (.listEntries .original o))
      (fun entries s' => s' = .delete o entries) fun _ _ => False :=
    goes_op rfl (fun _ _ => rfl) fun _ he => he
  refine Does.bind hrow ?_
  rintro _ _ rfl
  refine Does.bind hlist ?_
  rintro entries _ rfl
  exact goes_unlinkAll_original entries

theorem goes_unlinkAll_replacement (entries : List Entry) :
    Passes (.discarding t) (unlinkAll .replacement t entries) := by
  induction entries with
  | nil => exact does_pure trivial
  | cons entry entries ih =>
    have hunlink : Goes (.discarding t) (op (.unlink .replacement t entry))
        (fun _ s' => s' = .discarding t) fun _ s' => s'.Rests :=
      goes_op rfl (fun _ _ => rfl) fun _ _ => trivial
    refine Does.bind hunlink ?_
    rintro _ _ rfl
    exact ih

theorem goes_deleteReplacement (htask : k.task = t) (hpaid : k.paid = false) :
    Passes (.working k) (deleteTask .replacement t) := by
  have hrow : Goes (.working k) (op (.deleteRow .replacement t))
      (fun _ s' => s' = .discarding t) fun _ s' => s'.Rests :=
    goes_op ⟨k, rfl, htask, hpaid⟩ (fun _ _ => rfl) fun _ _ => trivial
  have hlist : Goes (.discarding t) (op (.listEntries .replacement t))
      (fun _ s' => s' = .discarding t) fun _ s' => s'.Rests :=
    goes_op rfl (fun _ _ => rfl) fun _ _ => trivial
  refine Does.bind hrow ?_
  rintro _ _ rfl
  refine Does.bind hlist ?_
  rintro entries _ rfl
  exact goes_unlinkAll_replacement entries

theorem goes_discardRetry {reserved : Bool} {e : Raised} (htask : k.task = t)
    (hpaid : reserved = false ∨ e.kind = .quotaExceeded → k.paid = false) :
    Goes (.working k) (discardRetry reserved t e) (fun _ _ => False) fun _ s' => s'.Rests := by
  have hundo : Passes (.working k) (undoRetry reserved t e.kind) := by
    unfold undoRetry
    split
    next =>
      have hrefund : Goes (.working k) (op (.refund t))
          (fun _ s' => s' = .working { k with paid := false }) fun _ s' => s'.Rests :=
        goes_op ⟨k, rfl, htask⟩ (fun _ _ => rfl) fun _ _ => trivial
      refine Does.bind hrefund ?_
      rintro _ _ rfl
      exact goes_deleteReplacement htask rfl
    next hquota =>
      refine goes_deleteReplacement htask (hpaid ?_)
      cases reserved with
      | false => exact .inl rfl
      | true => exact .inr (by simpa using hquota)
  exact Does.bind hundo fun _ _ hrests => does_throw hrests

/-! #### The retry -/

/-- A retry still has its replacement, and knows whether it has paid. -/
def Has (t : TaskId) (paid : Bool) (s : Stage) : Prop :=
  ∃ k, s = .working k ∧ k.task = t ∧ k.paid = paid

theorem goes_chargeRetry {access : Access} {failed : Bool} :
    Goes (.working { original := o, failed, task := t }) (chargeRetry access t)
      (fun _ s' => s' = .working { original := o, failed, task := t, paid := access.isTemp })
      fun _ s' => Has t false s' := by
  unfold chargeRetry
  split
  next htemp =>
    refine Does.bind (Does.mono (fun _ _ h => h) ?_ (goes_outside .costs)) ?_
    · rintro _ _ ⟨rfl, -⟩
      exact ⟨_, rfl, rfl, rfl⟩
    rintro _ _ rfl
    refine goes_op ⟨_, rfl, rfl, rfl⟩ (fun _ _ => ?_) fun _ _ => ⟨_, rfl, rfl, rfl⟩
    rw [htemp]
    rfl
  next hadmin =>
    refine does_pure ?_
    rw [Bool.not_eq_true] at hadmin
    rw [hadmin]

/-- What an exception leaves after the reservation. -/
abbrev Leaves (t : TaskId) (paid : Bool) (e : Raised) (s : Stage) : Prop :=
  Has t paid s ∧ e.kind ≠ .quotaExceeded

theorem goes_copyImages {names sources : List ImageFile} {copied : Nat}
    (hcopying : k.copying = .copying names copied) (hsources : copied + sources.length = names.length) :
    Goes (.working k) (copyImages k.original k.task (copied + 1) sources)
      (fun targets s' => targets.length = sources.length ∧
        s' = .working { k with copying := .copying names names.length })
      (Leaves k.task k.paid) := by
  induction sources generalizing k copied with
  | nil =>
    refine does_pure ⟨rfl, ?_⟩
    rw [List.length_nil, Nat.add_zero] at hsources
    rw [← hsources, ← hcopying]
  | cons source sources ih =>
    rw [List.length_cons] at hsources
    have hlearn : ∀ file, k.copy (.ok file) = { k with copying := .copying names (copied + 1) } := by
      intro file
      rw [Work.copy, hcopying]
    have hcopy : Goes (.working k) (op (.copyImage k.original source k.task (copied + 1)))
        (fun _ s' => s' = .working { k with copying := .copying names (copied + 1) })
        (Leaves k.task k.paid) := by
      refine goes_op ⟨k, names, copied, rfl, rfl, rfl, hcopying, rfl⟩ (fun file _ => ?_)
        fun e he => ⟨⟨_, rfl, rfl, rfl⟩, he⟩
      exact congrArg Stage.working (hlearn file)
    refine Does.bind hcopy ?_
    rintro target _ rfl
    have hrest : copied + 1 + sources.length = names.length := by omega
    have hcopies := ih (k := { k with copying := .copying names (copied + 1) }) rfl hrest
    refine Does.bind hcopies ?_
    rintro targets _ ⟨hlength, rfl⟩
    exact does_pure ⟨congrArg (· + 1) hlength, rfl⟩

theorem goes_prepareRetry {original : Task} {access : Access} {paid failed : Bool}
    (hfailed : failed = true ↔ original.status = .failed) :
    Goes (.working { original := o, failed, task := t, paid }) (prepareRetry o original access t)
      (fun _ s' => s'.Rests) (Leaves t paid) := by
  have hledger : Goes (.working { original := o, failed, task := t, paid }) (recordRetry access)
      (fun _ s' => s' = .working { original := o, failed, task := t, paid }) (Leaves t paid) := by
    unfold recordRetry
    split
    · refine Does.mono (fun _ _ h => h) ?_ (goes_outside .ledger)
      rintro e _ ⟨rfl, he⟩
      exact ⟨⟨_, rfl, rfl, rfl⟩, he⟩
    · exact does_pure rfl
  refine Does.bind hledger ?_
  rintro _ _ rfl
  have hlist : Goes (.working { original := o, failed, task := t, paid }) (op (.listImages o))
      (fun names s' =>
        s' = .working { original := o, failed, task := t, paid, copying := .copying names 0 })
      (Leaves t paid) :=
    goes_op ⟨_, rfl, rfl, rfl, rfl⟩ (fun _ _ => rfl) fun e he => ⟨⟨_, rfl, rfl, rfl⟩, he⟩
  refine Does.bind hlist ?_
  rintro names _ rfl
  have hcopies := goes_copyImages
    (k := { original := o, failed, task := t, paid, copying := .copying names 0 }) rfl
    (Nat.zero_add _)
  refine Does.bind hcopies ?_
  rintro targets _ ⟨hlength, rfl⟩
  -- the number that is stored is that of the copies, as many as were listed
  rw [hlength]
  have hcount : Goes (.working
        { original := o, failed, task := t, paid, copying := .copying names names.length })
      (op (.setTaskImages t names.length))
      (fun _ s' => s' = .working
        { original := o, failed, task := t, paid, copying := .copying names names.length
          counted := true })
      (Leaves t paid) :=
    goes_op ⟨_, names, _, rfl, rfl, rfl, rfl⟩ (fun _ _ => rfl)
      fun e he => ⟨⟨_, rfl, rfl, rfl⟩, he⟩
  refine Does.bind hcount ?_
  rintro _ _ rfl
  refine Does.bind (goes_op trivial (fun _ _ => rfl) fun e he => ⟨⟨_, rfl, rfl, rfl⟩, he⟩) ?_
  rintro _ _ rfl
  have hfinalize : Goes (.working
        { original := o, failed, task := t, paid, copying := .copying names names.length
          counted := true })
      (op (.finalize t)) (fun _ s' => s' = if failed then .opened o else .idle)
      (Leaves t paid) :=
    goes_op ⟨_, names, rfl, rfl, rfl, rfl⟩ (fun _ _ => rfl) fun e he => ⟨⟨_, rfl, rfl, rfl⟩, he⟩
  refine Does.bind hfinalize ?_
  rintro _ _ rfl
  by_cases hstatus : original.status = .failed
  -- a successful original is retried too, and stays
  · rw [if_pos (hfailed.mpr hstatus), if_pos hstatus]
    refine Does.mono ?_ (fun _ _ h => h.elim) goes_deleteOriginal
    rintro _ _ rfl
    trivial
  · rw [if_neg (mt hfailed.mp hstatus), if_neg hstatus]
    exact does_pure trivial

theorem goes_createManualRetryTask (original : Task) (retryAccess : Access) :
    Passes (.read o (original.status = .failed)) (createManualRetryTask o original retryAccess) := by
  have hparameters : Goes (.read o (original.status = .failed)) (op (.outside .parameters))
      (fun _ s' => s' = .read o (original.status = .failed)) fun _ s' => s'.Rests := by
    refine Does.mono (fun _ _ h => h) ?_ (goes_outside .parameters)
    rintro _ _ ⟨rfl, -⟩
    trivial
  refine Does.bind hparameters ?_
  rintro _ _ rfl
  have hcreate : Goes (.read o (original.status = .failed))
      (op (.createTask o original.ownerTokenHash))
      (fun t s' => s' = .working { original := o, failed := original.status = .failed, task := t })
      fun _ s' => s'.Rests :=
    goes_op ⟨_, rfl⟩ (fun _ _ => rfl) fun _ _ => trivial
  refine Does.bind hcreate ?_
  rintro t _ rfl
  refine Does.bind (Does.tryCatch goes_chargeRetry ?_) ?_
  · rintro e _ ⟨k, rfl, htask, hpaid⟩
    exact Does.mono (fun _ _ h => h.elim) (fun _ _ h => h)
      (goes_discardRetry htask fun _ => hpaid)
  rintro _ _ rfl
  refine Does.bind (Does.tryCatch (goes_prepareRetry decide_eq_true_iff) ?_)
    fun _ _ hrests => does_pure hrests
  rintro e _ ⟨⟨k, rfl, htask, hpaid⟩, hquota⟩
  refine Does.mono (fun _ _ h => h.elim) (fun _ _ h => h) (goes_discardRetry htask fun h => ?_)
  rcases h with hadmin | hkind
  · exact hpaid.trans hadmin
  · exact absurd hkind hquota

/-! #### The requests -/

/-- What is retried has been read as one that may be. -/
theorem goes_readMeta (hrests : s.Rests) : Goes s (op (.readMeta t))
    (fun task s' => s'.Rests ∧ (task.status = .success ∨ task.status = .failed →
      s' = .read t (task.status = .failed)))
    fun _ s' => s'.Rests := by
  have hmay : progress.may s (.readMeta t) := by
    cases s <;> exact hrests
  refine goes_op hmay (fun task _ => ?_) fun e _ => ?_
  · have hlearn : progress.learn s (.readMeta t) (.ok task) =
        if task.status = .success ∨ task.status = .failed then .read t (task.status = .failed)
        else .idle := by
      cases s <;> rfl
    rw [hlearn]
    split_ifs with hstatus
    · exact ⟨trivial, fun _ => rfl⟩
    · exact ⟨trivial, fun h => absurd h hstatus⟩
  · cases s <;> exact trivial

theorem goes_retryAccessForOwner (ownerTokenHash : String) (fallback : Access) (hrests : s.Rests) :
    Goes s (retryAccessForOwner ownerTokenHash fallback) (fun _ s' => s' = s)
      fun _ s' => s'.Rests := by
  unfold retryAccessForOwner
  split
  · exact does_pure rfl
  · have haccess : Goes s (op (.outside .ownerAccess)) (fun _ s' => s' = s)
        fun _ s' => s'.Rests := by
      refine Does.mono (fun _ _ h => h) ?_ (goes_outside .ownerAccess)
      rintro _ _ ⟨rfl, -⟩
      exact hrests
    refine Does.bind haccess ?_
    rintro _ _ rfl
    exact does_pure rfl

theorem goes_retryFor {original : Task} (fallback : Access) :
    Passes (.read t (original.status = .failed)) (do
      let retryAccess ← retryAccessForOwner original.ownerTokenHash fallback
      let _ ← createManualRetryTask t original retryAccess
      pure ()) := by
  refine Does.bind (goes_retryAccessForOwner _ _ trivial) ?_
  rintro retryAccess _ rfl
  exact Does.bind (goes_createManualRetryTask _ _) fun _ _ hrests => does_pure hrests

/-- What reads or writes elsewhere leaves the request where it rests. -/
theorem passes_outside (what : Outside) (hrests : s.Rests) : Passes s (op (.outside what)) := by
  refine Does.mono ?_ ?_ (goes_outside what)
  · rintro _ _ rfl
    exact hrests
  · rintro _ _ ⟨rfl, -⟩
    exact hrests

theorem goes_retryCompletedTask (access : Access) (hrests : s.Rests) :
    Passes s (retryCompletedTask access t) := by
  refine Does.bind (goes_readMeta hrests) ?_
  rintro original s' ⟨hrests', hread⟩
  split
  · exact does_throw hrests'
  · split
    next hstatus =>
      rw [hread hstatus]
      have hlimit : Goes (.read t (original.status = .failed)) (op (.outside .rateLimit))
          (fun _ s' => s' = .read t (original.status = .failed)) fun _ s' => s'.Rests := by
        refine Does.mono (fun _ _ h => h) ?_ (goes_outside .rateLimit)
        rintro _ _ ⟨rfl, -⟩
        trivial
      refine Does.bind hlimit ?_
      rintro _ _ rfl
      exact goes_retryFor access
    next => exact does_throw hrests'

theorem goes_bulkRetryTask (hrests : s.Rests) : Passes s (bulkRetryTask t) := by
  refine Does.bind (goes_readMeta hrests) ?_
  rintro original s' ⟨hrests', hread⟩
  split
  · exact does_throw hrests'
  · split
    next hstatus =>
      rw [hread (.inr hstatus)]
      exact goes_retryFor .admin
    next => exact does_pure hrests'

theorem goes_batchRetryTask (tokenHash : String) (hrests : s.Rests) :
    Passes s (batchRetryTask tokenHash t) := by
  refine Does.bind (goes_readMeta hrests) ?_
  rintro original s' ⟨hrests', hread⟩
  split
  · exact does_throw hrests'
  · split
    next hstatus =>
      rw [hread (.inr hstatus)]
      exact Does.bind (goes_createManualRetryTask _ _) fun _ _ h => does_pure h
    next => exact does_pure hrests'

theorem goes_tryEach {retry : TaskId → Run Unit}
    (hretry : ∀ s : Stage, s.Rests → ∀ t, Passes s (retry t)) (targets : List TaskId)
    (hrests : s.Rests) : Passes s (tryEach retry targets) := by
  induction targets generalizing s with
  | nil => exact does_pure hrests
  | cons t ts ih =>
    exact Does.bind (Does.tryCatch (hretry s hrests t) fun _ _ h => does_pure h) fun _ _ h => ih h

/-- Every request keeps to what a retry may do, and leaves nothing half done. -/
theorem call_rests (call : RetryCall) :
    progress.Ensures (fun _ s => s.Rests) progress.start call.prog := by
  have hrun : Passes progress.start call.run := by
    have hstart : progress.start.Rests := trivial
    cases call with
    | retryCompletedTask access t => exact goes_retryCompletedTask access hstart
    | bulkRetryFailedTasks targets =>
      refine Does.bind (passes_outside _ hstart) fun _ _ h₁ => ?_
      refine Does.bind (passes_outside _ h₁) fun _ _ h₂ => ?_
      exact goes_tryEach (fun _ h _ => goes_bulkRetryTask h) targets h₂
    | retryFailedPersistentBatchRows tokenHash targets =>
      refine Does.bind (passes_outside _ hstart) fun _ _ h₁ => ?_
      refine Does.bind (goes_tryEach (fun _ h _ => goes_batchRetryTask tokenHash h) targets h₁)
        fun _ _ h₂ => ?_
      exact passes_outside _ h₂
  refine Ensures.bind hrun fun r s h => ?_
  cases r with
  | ok _ => exact h
  | error _ => exact h

end Programs

end FetchTask.Retrying
