import FetchTask.Scheduling.Linked

/-!
The invariant of rows and tasks.

Besides the link itself, the invariant says what the rows of a job and the tasks of
a key keep, and that the rows of a key which a tick has claimed, or for which a task
exists, have their reference images: such a row is never asked for them again. Of a
tick it says that, while its row is being created since its claim, the task that it
makes has not become runnable and is the only one of the key, and that none is left
when its clean-up has ended.
-/

namespace FetchTask.Scheduling

open Runs Knowledge Store Batch

/-! ### The invariant -/

/-- The rows of a stored job. -/
structure JobOk (jobId : String) (job : Job) : Prop where
  named : job.id = jobId
  nodup : (job.rows.map (·.index)).Nodup
  index : ∀ row ∈ job.rows, 1 ≤ row.index
  early : ∀ row ∈ job.rows, row.Early
  stops : StopsWithJob job

/-- The rows of the key have their reference images. -/
def HasAssets (jobs : Jobs) (key : RowKey) : Prop :=
  ∀ job, jobs.get? key.1 = some job → ∀ row ∈ job.rows, row.index = key.2 → lacksAssets row = false

namespace World

variable (w : World)

/-- A stored task with the key of a row. -/
def HasKey (t : TaskId) (key : RowKey) : Prop :=
  ∃ task, w.tasks.get? t = some task ∧ task.key = some (.row key)

/-- A task of the row that is or was runnable is stored, unless the job is canceled and the row has
no task at all. -/
def Stored (key : RowKey) (t : TaskId) : Prop :=
  (∃ task, w.tasks.get? t = some task ∧ task.key = some (.row key) ∧
      task.status ≠ .initializing) ∨
    (∃ job, w.jobs.get? key.1 = some job ∧ job.canceledAt ≠ none) ∧ ∀ t', ¬ w.HasKey t' key

end World

/-- What holds of the stores. -/
structure Tied (w : World) : Prop where
  jobs : ∀ jobId job, w.jobs.get? jobId = some job → JobOk jobId job
  ids : ∀ t task, w.tasks.get? t = some task → t ≠ ""
  given : ∀ t task, w.tasks.get? t = some task → t ∈ w.created
  single : ∀ key t t', w.HasKey t key → w.HasKey t' key → t = t'
  once : ∀ key t t', (some (.row key), t) ∈ w.opened → (some (.row key), t') ∈ w.opened → t = t'
  opened : ∀ key t, (some (.row key), t) ∈ w.opened → w.Stored key t
  held : ∀ key t, w.Alive key t → ∀ row, w.RowOf key row → Holds t row
  assets : ∀ key t, w.HasKey t key → HasAssets w.jobs key

/-- What holds of the task and the row at a stage of a tick. -/
def Stage.Ok (w : World) (key : RowKey) (claimedAt : Option Stamp) : Stage → Prop
  | .claimed | .active => True
  | .making t | .opening t | .torn t => t ∈ w.created ∧
    (∀ task, w.tasks.get? t = some task → task.key = some (.row key)) ∧
    (w.Creating key claimedAt →
      (some (.row key), t) ∉ w.opened ∧ ∀ t', w.HasKey t' key → t' = t)
  | .discarded => w.Creating key claimedAt → ∀ t', ¬ w.HasKey t' key
  | .ready t => t ∈ w.created ∧ ∀ task, w.tasks.get? t = some task → task.key = some (.row key)

/-- What holds of that which a call works on. -/
def Work.Ok (w : World) : Work → Prop
  | .idle => True
  | .other t => t ∈ w.created ∧ ∀ key, ¬ w.HasKey t key
  | .row key claimedAt stage => HasAssets w.jobs key ∧ stage.Ok w key claimedAt

structure Inv (w : World) (known : Nat → Work) : Prop where
  tied : Tied w
  works : ∀ i, (known i).Ok w
  apart : ∀ i j claim, (known i).claim = some claim → (known j).claim = some claim → i = j

section Invariant

variable {w w' : World} {known : Nat → Work} {e : Env} {i : Nat} {key : RowKey} {t : TaskId}
  {task : Task} {status : Status} {m : Mutation} {job job' : Job} {row row' : Row} {k k' : Work}
  {claimedAt : Option Stamp} {stage : Stage}

/-- What is linked under the invariant. -/
theorem Tied.linked (h : Tied w) : Linked w where
  single key t t' task task' htask htask' hkey hkey' :=
    h.single key t t' ⟨task, htask, hkey⟩ ⟨task', htask', hkey'⟩
  once := h.once
  held := h.held
  kept key t row halive _ hrow hended := by
    have hid : t ≠ "" := by
      obtain ⟨task, htask, -⟩ := halive
      exact h.ids t task htask
    rcases h.held key t halive row hrow with hheld | hqueued | hcreating
    · rw [hheld]
      exact hid
    · rw [hqueued] at hended
      simp at hended
    · rw [hcreating] at hended
      simp at hended

/-- Only one row has the key. -/
theorem Tied.row_unique (h : Tied w) (hrow : w.RowOf key row) (hrow' : w.RowOf key row') :
    row = row' := by
  obtain ⟨job, hjob, hmem, hindex⟩ := hrow
  obtain ⟨job', hjob', hmem', hindex'⟩ := hrow'
  obtain rfl := Option.some.inj (hjob.symm.trans hjob')
  exact List.inj_on_of_nodup_map (h.jobs _ _ hjob).nodup hmem hmem' (hindex.trans hindex'.symm)

/-- A row is being created since one claim, and not while it is canceled. -/
theorem Tied.claim_of_stands (h : Tied w) {claimedAt' : Option Stamp} (hstands : w.Stands key claimedAt)
    (hcreating : w.Creating key claimedAt') : claimedAt' = claimedAt := by
  obtain ⟨row', hrow', hstatus', hclaimed'⟩ := hcreating
  rcases hstands with ⟨row, hrow, hstatus, hclaimed⟩ | ⟨row, hrow, hstatus, -⟩
  · obtain rfl := h.row_unique hrow hrow'
    exact hclaimed'.symm.trans hclaimed
  · obtain rfl := h.row_unique hrow hrow'
    cases hstatus.symm.trans hstatus'

/-- The claim of a call that has its row still is that of no other. -/
theorem Inv.alone (h : Inv w known) {j : Nat} (hstands : w.Stands key claimedAt)
    (hi : (known i).claim = some (key, claimedAt)) (hj : j ≠ i) :
    ∀ claimedAt', (known j).claim = some (key, claimedAt') → ¬ w.Creating key claimedAt' := by
  intro claimedAt' hclaim hcreating
  obtain rfl := h.tied.claim_of_stands hstands hcreating
  exact hj (h.apart j i _ hclaim hi)

/-- A call goes on, and the others know what they knew. -/
theorem Inv.step (h : Inv w known) (htied : Tied w') (hothers : ∀ j, j ≠ i → (known j).Ok w')
    (hself : k'.Ok w') (hclaim : ∀ claim, k'.claim = some claim →
      ∀ j, j ≠ i → (known j).claim ≠ some claim) : Inv w' (Function.update known i k') := by
  refine ⟨htied, fun j => ?_, fun j l claim hj hl => ?_⟩
  · by_cases hji : j = i
    · subst hji
      rwa [Function.update_self]
    · rw [Function.update_of_ne hji]
      exact hothers j hji
  · by_cases hji : j = i
    · subst hji
      by_cases hlj : l = j
      · exact hlj.symm
      · rw [Function.update_self] at hj
        rw [Function.update_of_ne hlj] at hl
        exact absurd hl (hclaim claim hj l hlj)
    · rw [Function.update_of_ne hji] at hj
      by_cases hli : l = i
      · subst hli
        rw [Function.update_self] at hl
        exact absurd hj (hclaim claim hl j hji)
      · rw [Function.update_of_ne hli] at hl
        exact h.apart j l claim hj hl

/-- The claim of a call is that of no other. -/
theorem Inv.claim_ne (h : Inv w known) (hclaim : k'.claim = (known i).claim) :
    ∀ claim, k'.claim = some claim → ∀ j, j ≠ i → (known j).claim ≠ some claim := by
  intro claim hk j hj hother
  exact hj (h.apart j i claim hother (hclaim ▸ hk))

/-- The stores keep the keys of tasks and the images of rows. -/
structure Framed (w w' : World) : Prop where
  created : ∀ t ∈ w.created, t ∈ w'.created
  keys : ∀ t ∈ w.created, ∀ task, w'.tasks.get? t = some task →
    ∃ old, w.tasks.get? t = some old ∧ old.key = task.key
  assets : ∀ key, HasAssets w.jobs key → HasAssets w'.jobs key

/-- What holds of a call's work is kept where nothing has happened to the row of its claim. -/
theorem Work.Ok.mono (h : k.Ok w) (hframed : Framed w w')
    (hrow : ∀ key claimedAt, k.claim = some (key, claimedAt) → w'.Creating key claimedAt →
      w.Creating key claimedAt ∧ (∀ t, w'.HasKey t key → w.HasKey t key) ∧
        ∀ t, (some (.row key), t) ∈ w'.opened → (some (.row key), t) ∈ w.opened) : k.Ok w' := by
  have hkey : ∀ t key,
      t ∈ w.created ∧ (∀ task, w.tasks.get? t = some task → task.key = some (.row key)) →
      t ∈ w'.created ∧ ∀ task, w'.tasks.get? t = some task → task.key = some (.row key) := by
    rintro t key ⟨hcreated, hkey⟩
    refine ⟨hframed.created t hcreated, fun task htask => ?_⟩
    obtain ⟨old, hold, hsame⟩ := hframed.keys t hcreated task htask
    exact hsame.symm.trans (hkey old hold)
  cases k with
  | idle => trivial
  | other t =>
    refine ⟨hframed.created t h.1, fun key ⟨task, htask, hrowKey⟩ => ?_⟩
    obtain ⟨old, hold, hsame⟩ := hframed.keys t h.1 task htask
    exact h.2 key ⟨old, hold, hsame.trans hrowKey⟩
  | row key claimedAt stage =>
    refine ⟨hframed.assets key h.1, ?_⟩
    have hmakes : ∀ t, (t ∈ w.created ∧
        (∀ task, w.tasks.get? t = some task → task.key = some (.row key)) ∧
        (w.Creating key claimedAt →
          (some (.row key), t) ∉ w.opened ∧ ∀ t', w.HasKey t' key → t' = t)) →
        t ∈ w'.created ∧ (∀ task, w'.tasks.get? t = some task → task.key = some (.row key)) ∧
        (w'.Creating key claimedAt →
          (some (.row key), t) ∉ w'.opened ∧ ∀ t', w'.HasKey t' key → t' = t) := by
      rintro t ⟨hcreated, htask, hclosed⟩
      obtain ⟨hcreated', htask'⟩ := hkey t key ⟨hcreated, htask⟩
      refine ⟨hcreated', htask', fun hcreating => ?_⟩
      obtain ⟨hbefore, hkeys, hopened⟩ := hrow key claimedAt rfl hcreating
      obtain ⟨hnot, honly⟩ := hclosed hbefore
      exact ⟨fun hmem => hnot (hopened t hmem), fun t' ht' => honly t' (hkeys t' ht')⟩
    cases stage with
    | claimed | active => trivial
    | making t | opening t | torn t => exact hmakes t h.2
    | ready t => exact hkey t key h.2
    | discarded =>
      intro hcreating t' ht'
      obtain ⟨hbefore, hkeys, -⟩ := hrow key claimedAt rfl hcreating
      exact h.2 hbefore t' (hkeys t' ht')

/-! ### Tasks -/

theorem taskOf_none {key : TaskKey} (h : w.taskOf key = none) (htask : w.tasks.get? t = some task) :
    task.key ≠ some key := by
  have hnone := List.find?_eq_none.mp h (t, task) ((Dict.get?_eq_some_iff _).mp htask)
  simpa using hnone

theorem taskOf_some {key : TaskKey} (h : w.taskOf key = some (t, task)) :
    w.tasks.get? t = some task ∧ task.key = some key := by
  have hkey : task.key = some key := by simpa using List.find?_some h
  exact ⟨(Dict.get?_eq_some_iff _).mpr (List.mem_of_find?_eq_some h), hkey⟩

theorem setTask_get? {t' : TaskId} :
    (w.setTask t task).tasks.get? t' = if t = t' then some task else w.tasks.get? t' :=
  Dict.get?_set ..

theorem Framed.refl : Framed w w :=
  ⟨fun _ h => h, fun _ _ task h => ⟨task, h, rfl⟩, fun _ h => h⟩

section SetStatus

variable (htask : w.tasks.get? t = some task)

include htask

/-- Every task of the new state is one of the old state, up to its status. -/
theorem setStatus_old {t' : TaskId} {task' : Task}
    (hget : (w.setTask t { task with status }).tasks.get? t' = some task') :
    ∃ old, w.tasks.get? t' = some old ∧ old.key = task'.key ∧
      (task' = old ∨ t' = t ∧ task'.status = status) := by
  rw [setTask_get?] at hget
  split at hget
  next heq =>
    cases hget
    exact ⟨task, heq ▸ htask, rfl, .inr ⟨heq.symm, rfl⟩⟩
  next => exact ⟨task', hget, rfl, .inl rfl⟩

theorem hasKey_setStatus {t' : TaskId} :
    (w.setTask t { task with status }).HasKey t' key ↔ w.HasKey t' key := by
  constructor
  · rintro ⟨task', hget, hkey⟩
    obtain ⟨old, hold, hsame, -⟩ := setStatus_old htask hget
    exact ⟨old, hold, hsame.trans hkey⟩
  · rintro ⟨task', hget, hkey⟩
    by_cases heq : t = t'
    · subst heq
      obtain rfl := Option.some.inj (htask.symm.trans hget)
      exact ⟨{ task with status }, by rw [setTask_get?, if_pos rfl], hkey⟩
    · exact ⟨task', by rw [setTask_get?, if_neg heq, hget], hkey⟩

theorem framed_setStatus : Framed w (w.setTask t { task with status }) := by
  refine ⟨fun _ h => h, fun t' _ task' hget => ?_, fun _ h => h⟩
  obtain ⟨old, hold, hsame, -⟩ := setStatus_old htask hget
  exact ⟨old, hold, hsame⟩

/-- A task that is stored under its id again, with another status. -/
theorem Tied.setStatus (h : Tied w) (hstatus : status ≠ .initializing)
    (hrevived : status ≠ .failed → task.status = .failed → ∀ key, task.key ≠ some (.row key)) :
    Tied (w.setTask t { task with status }) := by
  refine ⟨h.jobs, fun t' task' hget => ?_, fun t' task' hget => ?_, fun key t₁ t₂ h₁ h₂ => ?_,
    h.once, fun key t' hopened => ?_, fun key t' halive => ?_, fun key t' hkey => ?_⟩
  · obtain ⟨old, hold, -⟩ := setStatus_old htask hget
    exact h.ids t' old hold
  · obtain ⟨old, hold, -⟩ := setStatus_old htask hget
    exact h.given t' old hold
  · exact h.single key t₁ t₂ ((hasKey_setStatus htask).mp h₁) ((hasKey_setStatus htask).mp h₂)
  · rcases h.opened key t' hopened with ⟨task', hget, hkey, hnot⟩ | ⟨hcanceled, hnone⟩
    · by_cases heq : t = t'
      · subst heq
        obtain rfl := Option.some.inj (htask.symm.trans hget)
        exact .inl ⟨{ task with status }, by rw [setTask_get?, if_pos rfl], hkey, hstatus⟩
      · exact .inl ⟨task', by rw [setTask_get?, if_neg heq, hget], hkey, hnot⟩
    · exact .inr ⟨hcanceled, fun t'' ht'' => hnone t'' ((hasKey_setStatus htask).mp ht'')⟩
  · obtain ⟨task', hget, hkey, hnot⟩ := halive
    obtain ⟨old, hold, hsame, hcase⟩ := setStatus_old htask hget
    refine h.held key t' ⟨old, hold, hsame.trans hkey, fun hfailed => ?_⟩
    rcases hcase with rfl | ⟨rfl, hset⟩
    · exact hnot hfailed
    -- a failed task of a row does not come back
    · obtain rfl := Option.some.inj (htask.symm.trans hold)
      exact hrevived (hset ▸ hnot) hfailed key (hsame.trans hkey)
  · exact h.assets key t' ((hasKey_setStatus htask).mp hkey)

/-- A stored task that is not initializing becomes runnable. -/
theorem Tied.open (h : Tied w) (hstatus : task.status ≠ .initializing) :
    Tied { w with opened := w.opened ++ [(task.key, t)] } := by
  have hcases : ∀ {key t'}, (some (.row key), t') ∈ w.opened ++ [(task.key, t)] →
      (some (.row key), t') ∈ w.opened ∨ t' = t ∧ w.HasKey t key := by
    intro key t' hmem
    rcases List.mem_append.mp hmem with hold | hnew
    · exact .inl hold
    · obtain ⟨hkey, rfl⟩ := Prod.mk.inj (List.mem_singleton.mp hnew)
      exact .inr ⟨rfl, task, htask, hkey.symm⟩
  -- The runnable tasks of the key were stored, and the key has only this one.
  have hsame : ∀ {key t'}, (some (.row key), t') ∈ w.opened → w.HasKey t key → t' = t := by
    intro key t' hopened hkey
    rcases h.opened key t' hopened with ⟨task', hget, hkey', -⟩ | ⟨-, hnone⟩
    · exact h.single key t' t ⟨task', hget, hkey'⟩ hkey
    · exact absurd hkey (hnone t)
  refine ⟨h.jobs, h.ids, h.given, h.single, fun key t₁ t₂ h₁ h₂ => ?_, fun key t' hopened => ?_,
    h.held, h.assets⟩
  · rcases hcases h₁ with hold₁ | ⟨rfl, hkey₁⟩
    · rcases hcases h₂ with hold₂ | ⟨rfl, hkey₂⟩
      · exact h.once key t₁ t₂ hold₁ hold₂
      · exact hsame hold₁ hkey₂
    · rcases hcases h₂ with hold₂ | ⟨rfl, -⟩
      · exact (hsame hold₂ hkey₁).symm
      · rfl
  · rcases hcases hopened with hold | ⟨rfl, task', hget, hkey⟩
    · exact h.opened key t' hold
    · obtain rfl := Option.some.inj (htask.symm.trans hget)
      exact .inl ⟨task, htask, hkey, hstatus⟩

end SetStatus

/-- The tasks of a state in which one has been added. -/
theorem addTask_get? {taskKey : Option TaskKey} {t' : TaskId} :
    (w.addTask t taskKey).tasks.get? t' =
      if t = t' then some ⟨taskKey, .initializing⟩ else w.tasks.get? t' :=
  Dict.get?_set ..

theorem hasKey_addTask {taskKey : Option TaskKey} {t' : TaskId}
    (h : (w.addTask t taskKey).HasKey t' key) :
    t' = t ∧ taskKey = some (.row key) ∨ w.HasKey t' key := by
  obtain ⟨task', hget, hkey⟩ := h
  rw [addTask_get?] at hget
  split at hget
  next heq =>
    cases hget
    exact .inl ⟨heq.symm, hkey⟩
  next => exact .inr ⟨task', hget, hkey⟩

theorem framed_addTask {taskKey : Option TaskKey} (hfresh : t ∉ w.created) :
    Framed w (w.addTask t taskKey) := by
  refine ⟨fun _ h => List.mem_cons_of_mem _ h, fun t' ht' task' hget => ?_, fun _ h => h⟩
  have hne : t ≠ t' := fun heq => hfresh (heq ▸ ht')
  rw [addTask_get?, if_neg hne] at hget
  exact ⟨task', hget, rfl⟩

/-- A task is stored, and no other with its key; its row waits for it. -/
theorem Tied.create (h : Tied w) {taskKey : Option TaskKey} (ht : t ≠ "") (hfresh : t ∉ w.created)
    (hrow : ∀ key, taskKey = some (.row key) → w.taskOf (.row key) = none ∧
      HasAssets w.jobs key ∧
      (∀ row, w.RowOf key row → row.status = .queued ∨ row.status = .creating) ∧
      ∀ job, w.jobs.get? key.1 = some job → job.canceledAt = none) :
    Tied (w.addTask t taskKey) := by
  have hnone : ∀ task, w.tasks.get? t ≠ some task := fun task hget => hfresh (h.given t task hget)
  have hold : ∀ {t' task'}, (w.addTask t taskKey).tasks.get? t' = some task' →
      t' = t ∧ task' = ⟨taskKey, .initializing⟩ ∨ w.tasks.get? t' = some task' := by
    intro t' task' hget
    rw [addTask_get?] at hget
    split at hget
    next heq => exact .inl ⟨heq.symm, (Option.some.inj hget).symm⟩
    next => exact .inr hget
  have hkeyless : ∀ {key t'}, taskKey = some (.row key) → ¬ w.HasKey t' key := by
    rintro key t' hkey ⟨task', hget, hkey'⟩
    exact taskOf_none (hrow key hkey).1 hget hkey'
  refine ⟨h.jobs, fun t' task' hget => ?_, fun t' task' hget => ?_, fun key t₁ t₂ h₁ h₂ => ?_,
    h.once, fun key t' hopened => ?_, fun key t' halive row hmem => ?_, fun key t' hkey => ?_⟩
  · rcases hold hget with ⟨rfl, -⟩ | hget'
    · exact ht
    · exact h.ids t' task' hget'
  · rcases hold hget with ⟨rfl, -⟩ | hget'
    · exact List.mem_cons_self
    · exact List.mem_cons_of_mem _ (h.given t' task' hget')
  · rcases hasKey_addTask h₁ with ⟨rfl, hkey⟩ | hold₁
    · rcases hasKey_addTask h₂ with ⟨rfl, -⟩ | hold₂
      · rfl
      · exact absurd hold₂ (hkeyless hkey)
    · rcases hasKey_addTask h₂ with ⟨rfl, hkey⟩ | hold₂
      · exact absurd hold₁ (hkeyless hkey)
      · exact h.single key t₁ t₂ hold₁ hold₂
  · -- no task comes for a canceled job, so that the tasks of its keys stay away
    rcases h.opened key t' hopened with ⟨task', hget, hkey, hnot⟩ | ⟨⟨job, hjob, hcanceled⟩, hkeys⟩
    · have hne : t ≠ t' := fun heq => hnone task' (heq ▸ hget)
      exact .inl ⟨task', by rw [addTask_get?, if_neg hne, hget], hkey, hnot⟩
    · refine .inr ⟨⟨job, hjob, hcanceled⟩, fun t'' ht'' => ?_⟩
      rcases hasKey_addTask ht'' with ⟨-, hkey⟩ | hold
      · exact hcanceled ((hrow key hkey).2.2.2 job hjob)
      · exact hkeys t'' hold
  · obtain ⟨task', hget, hkey, hstatus⟩ := halive
    rcases hold hget with ⟨-, rfl⟩ | hget'
    · exact .inr ((hrow key hkey).2.2.1 row hmem)
    · exact h.held key t' ⟨task', hget', hkey, hstatus⟩ row hmem
  · rcases hasKey_addTask hkey with ⟨-, hkey⟩ | hold
    · exact (hrow key hkey).2.1
    · exact h.assets key t' hold

theorem erase_get? {t' : TaskId} (h : (w.tasks.erase t).get? t' = some task) :
    t' ≠ t ∧ w.tasks.get? t' = some task := by
  rw [Dict.get?_erase] at h
  split at h
  · cases h
  next hne => exact ⟨hne, h⟩

theorem hasKey_erase {t' : TaskId}
    (h : ({ w with tasks := w.tasks.erase t } : World).HasKey t' key) :
    t' ≠ t ∧ w.HasKey t' key := by
  obtain ⟨task', hget, hkey⟩ := h
  obtain ⟨hne, hold⟩ := erase_get? hget
  exact ⟨hne, task', hold, hkey⟩

theorem framed_erase : Framed w { w with tasks := w.tasks.erase t } :=
  ⟨fun _ h => h, fun _ _ task' hget => ⟨task', (erase_get? hget).2, rfl⟩, fun _ h => h⟩

/-- A task is deleted that never became runnable, or whose job is canceled. -/
theorem Tied.delete (h : Tied w) (hclosed : ∀ key, (some (.row key), t) ∈ w.opened →
      ∃ job, w.jobs.get? key.1 = some job ∧ job.canceledAt ≠ none) :
    Tied { w with tasks := w.tasks.erase t } := by
  refine ⟨h.jobs, fun t' task' hget => h.ids t' task' (erase_get? hget).2,
    fun t' task' hget => h.given t' task' (erase_get? hget).2,
    fun key t₁ t₂ h₁ h₂ => h.single key t₁ t₂ (hasKey_erase h₁).2 (hasKey_erase h₂).2, h.once,
    fun key t' hopened => ?_, fun key t' halive => ?_,
    fun key t' hkey => h.assets key t' (hasKey_erase hkey).2⟩
  · rcases h.opened key t' hopened with ⟨task', hget, hkey, hnot⟩ | ⟨hcanceled, hnone⟩
    · by_cases heq : t' = t
      · -- it was the only task of the key, and its job is canceled
        subst heq
        refine .inr ⟨hclosed key hopened, fun t'' ht'' => ?_⟩
        obtain ⟨hne, hkey'⟩ := hasKey_erase ht''
        exact hne (h.single key t'' t' hkey' ⟨task', hget, hkey⟩)
      · exact .inl ⟨task', by rw [Dict.get?_erase, if_neg heq, hget], hkey, hnot⟩
    · exact .inr ⟨hcanceled, fun t'' ht'' => hnone t'' (hasKey_erase ht'').2⟩
  · obtain ⟨task', hget, hkey, hstatus⟩ := halive
    exact h.held key t' ⟨task', (erase_get? hget).2, hkey, hstatus⟩

/-- Reservations and users play no part. -/
theorem Tied.frame (h : Tied w) {reservations : TaskId → Option Reservation}
    {enabled : String → Bool} :
    Tied { w with reservations := reservations, enabled := enabled } :=
  ⟨h.jobs, h.ids, h.given, h.single, h.once, h.opened, h.held, h.assets⟩

theorem Tied.refund (h : Tied w) (t : TaskId) : Tied (w.refund t) := by
  unfold World.refund
  split
  · exact h.frame
  · exact h

/-! ### Jobs -/

/-- The rows of a changed job, each with the row that it comes from. -/
theorem rows_of_mutation (h : Tied w) {jobId : String} {result : m.Result}
    (hjob : w.jobs.get? jobId = some job)
    (hmutate : mutateJob e.now (m.closure e.chars e.now) job = .ok (result, job')) :
    JobOk jobId job' ∧
      ∀ row' ∈ job'.rows, ∃ row ∈ job.rows, RowKept row row' ∧ RowStep e.now m job row row' := by
  have hok := h.jobs jobId job hjob
  have hsteps := mutateJob_rowsStep hok.early hmutate
  obtain ⟨hid, hindex⟩ := mutateJob_keeps hmutate
  refine ⟨⟨hid.trans hok.named, hindex ▸ hok.nodup, fun row' hrow' => ?_, fun row' hrow' => ?_,
    mutateJob_stops hok.early hok.stops hmutate⟩, hsteps⟩
  · obtain ⟨row, hrow, hkept, -⟩ := hsteps row' hrow'
    rw [hkept.index]
    exact hok.index row hrow
  · obtain ⟨row, -, hkept, -⟩ := hsteps row' hrow'
    exact hkept.early

/-- No mutation takes the images of a row. -/
theorem HasAssets.set {jobs : Jobs} (h : HasAssets jobs key) {jobId : String}
    (hjob : jobs.get? jobId = some job)
    (hsteps : ∀ row' ∈ job'.rows, ∃ row ∈ job.rows, RowKept row row') :
    HasAssets (jobs.set jobId job') key := by
  intro after hafter row' hrow' hindex
  rw [Dict.get?_set] at hafter
  split at hafter
  next heq =>
    cases hafter
    obtain ⟨row, hrow, hkept⟩ := hsteps row' hrow'
    exact hkept.assets (h job (heq ▸ hjob) row hrow (hkept.index.symm.trans hindex))
  next => exact h after hafter row' hrow' hindex

section Mutate

variable (h : Tied w) {jobId : String} {result : m.Result} (hjob : w.jobs.get? jobId = some job)
  (hmutate : mutateJob e.now (m.closure e.chars e.now) job = .ok (result, job'))

include h hjob hmutate

theorem framed_mutate : Framed w { w with jobs := w.jobs.set jobId job' } := by
  obtain ⟨-, hsteps⟩ := rows_of_mutation h hjob hmutate
  refine ⟨fun _ h => h, fun _ _ task h => ⟨task, h, rfl⟩, fun key hkey => ?_⟩
  refine hkey.set hjob fun row' hrow' => ?_
  obtain ⟨row, hrow, hkept, -⟩ := hsteps row' hrow'
  exact ⟨row, hrow, hkept⟩

/-- The rows of a key after the mutation. -/
theorem rowOf_mutate (hrow' : ({ w with jobs := w.jobs.set jobId job' } : World).RowOf key row') :
    w.RowOf key row' ∨ key = (jobId, row'.index) ∧
      ∃ row ∈ job.rows, row.index = row'.index ∧ row'.Early ∧ RowStep e.now m job row row' := by
  obtain ⟨after, hafter, hmem, hindex⟩ := hrow'
  rw [Dict.get?_set] at hafter
  split at hafter
  next heq =>
    cases hafter
    obtain ⟨-, hsteps⟩ := rows_of_mutation h hjob hmutate
    obtain ⟨row, hrow, hkept, hstep⟩ := hsteps row' hmem
    exact .inr ⟨Prod.ext heq.symm hindex.symm, row, hrow, hkept.index.symm, hkept.early, hstep⟩
  next => exact .inl ⟨after, hafter, hmem, hindex⟩

/-- A row that is being created has been, unless it has just been claimed. -/
theorem creating_mutate
    (hcreating : ({ w with jobs := w.jobs.set jobId job' } : World).Creating key claimedAt) :
    w.Creating key claimedAt ∨
      m = .claimNextRow ∧ key.1 = jobId ∧ claimedAt = some (some e.now) := by
  obtain ⟨row', hrow', hstatus, hclaimed⟩ := hcreating
  rcases rowOf_mutate h hjob hmutate hrow' with hsame | ⟨rfl, row, hrow, hindex, hearly, hstep⟩
  · exact .inl ⟨row', hsame, hstatus, hclaimed⟩
  · rcases hstep.creating hearly hstatus with ⟨hwas, hsince⟩ | ⟨hm, hnow⟩
    · exact .inl ⟨row, ⟨job, hjob, hrow, hindex⟩, hwas, hsince.trans hclaimed⟩
    · exact .inr ⟨hm, rfl, hclaimed.symm.trans hnow⟩

end Mutate

/-- A tick that gives its row up leaves no task. -/
theorem not_alive_of_givesUp (h : Tied w) (hok : k.Ok w) {jobId : String} {index : Int}
    {error : String} {retry : Bool} (hindex : 1 ≤ index)
    (hmay : works.may k (.mutate jobId (.failOrRequeueRow index error retry)))
    (hgives : k.GivesUpRow w) (hrow : w.RowOf (jobId, index) row)
    (hopen : row.status.isTerminal = false) : ¬ w.Alive (jobId, index) t := by
  cases k with
  | idle => exact hmay.elim
  | other t' => exact hmay.elim
  | row key claimedAt stage =>
    obtain ⟨hkey, hsettled⟩ := hmay
    rw [max_eq_right hindex] at hkey
    subst hkey
    cases stage with
    | making t' | opening t' => cases hsettled
    | claimed | active | torn t' | ready t' => exact hgives rfl t
    -- the clean-up has left no task while the row was the tick's, and a canceled row is not given up
    | discarded =>
      rintro ⟨task, htask, hkey, -⟩
      rcases hgives with hcreating | ⟨row', hrow', hstatus, -⟩
      · exact hok.2 hcreating t ⟨task, htask, hkey⟩
      · obtain rfl := h.row_unique hrow hrow'
        rw [hstatus] at hopen
        cases hopen

/-- A row keeps its task in a careful mutation. -/
theorem holds_of_rowStep {alone : String → Int → Prop} (h : Tied w) (hok : k.Ok w)
    {jobId : String} (hjob : w.jobs.get? jobId = some job) (hrow : row ∈ job.rows)
    (hstep : RowStep e.now m job row row') (hmay : works.may k (.mutate jobId m))
    (hcareful : Careful alone k e (.mutate jobId m) w) (halive : w.Alive (jobId, row.index) t) :
    Holds t row' := by
  have hheld : Holds t row := h.held _ t halive row ⟨job, hjob, hrow, rfl⟩
  have hindex : 1 ≤ row.index := (h.jobs jobId job hjob).index row hrow
  cases hstep with
  | queued hstatus htask => exact .inr (.inl hstatus)
  | claimed hm hstatus htask hclaimed => exact .inr (.inr hstatus)
  | kept htask hstatus hclaimed =>
    rcases hheld with hid | hwaits
    · exact .inl (htask.trans hid)
    -- a row that waits has no task id yet, so that its status cannot be that of an attached one
    · have hempty : row.taskId = "" := by
        refine (h.jobs jobId job hjob).early row hrow ?_
        rcases hwaits with hqueued | hcreating
        · exact .inl hqueued
        · exact .inr (.inr hcreating)
      rcases hstatus with hsame | hattached
      · rw [← hsame] at hwaits
        exact .inr hwaits
      · exact absurd hempty hattached
  | canceled owner reason hm howner hcancels hstatus =>
    -- `cancel_job` looks at the rows only
    subst hm
    exact absurd halive (hcareful job hjob howner row hrow hcancels t)
  | asked hlacks htask hstatus =>
    -- A row that has a task has its images.
    obtain ⟨task, hget, hkey, -⟩ := halive
    have hready := h.assets _ t ⟨task, hget, hkey⟩ job hjob row hrow rfl
    rw [hlacks] at hready
    cases hready
  | attached t' hm htask hstatus =>
    subst hm
    obtain ⟨task', hget'⟩ := Option.isSome_iff_exists.mp hcareful
    cases k with
    | idle => exact hmay.elim
    | other t'' => exact hmay.elim
    | row key claimedAt stage =>
      obtain ⟨hkey, rfl⟩ := hmay
      rw [max_eq_right hindex] at hkey
      subst hkey
      -- The key has only the task that the tick attaches.
      obtain ⟨task, hget, hkey, -⟩ := halive
      have hsame := h.single _ t' t ⟨task', hget', hok.2.2 task' hget'⟩ ⟨task, hget, hkey⟩
      exact .inl (htask.trans hsame)
  | failed error retry hm hopen hgiven hstatus =>
    subst hm
    have hgives := hcareful job hjob row hrow rfl ⟨hopen, hgiven⟩
    exact absurd halive
      (not_alive_of_givesUp h hok hindex hmay hgives ⟨job, hjob, hrow, rfl⟩ hopen)

theorem Tied.mutate {alone : String → Int → Prop} (h : Tied w) (hok : k.Ok w) {jobId : String}
    {result : m.Result} (hjob : w.jobs.get? jobId = some job)
    (hmutate : mutateJob e.now (m.closure e.chars e.now) job = .ok (result, job'))
    (hmay : works.may k (.mutate jobId m)) (hcareful : Careful alone k e (.mutate jobId m) w) :
    Tied { w with jobs := w.jobs.set jobId job' } := by
  obtain ⟨hok', -⟩ := rows_of_mutation h hjob hmutate
  have hframed := framed_mutate h hjob hmutate
  refine ⟨fun id after hafter => ?_, h.ids, h.given, h.single, h.once, fun key t hopened => ?_,
    fun key t halive row' hrow' => ?_, fun key t hkey => hframed.assets key (h.assets key t hkey)⟩
  · rw [Dict.get?_set] at hafter
    split at hafter
    next heq =>
      cases hafter
      exact heq ▸ hok'
    next => exact h.jobs id after hafter
  · rcases h.opened key t hopened with hstored | ⟨⟨before, hbefore, hcanceled⟩, hnone⟩
    · exact .inl hstored
    · refine .inr ⟨?_, hnone⟩
      by_cases heq : jobId = key.1
      · subst heq
        obtain rfl := Option.some.inj (hjob.symm.trans hbefore)
        exact ⟨job', Dict.get?_set_self .., (mutateJob_canceledAt hmutate).1 hcanceled⟩
      · exact ⟨before, by rw [Dict.get?_set, if_neg heq, hbefore], hcanceled⟩
  · rcases rowOf_mutate h hjob hmutate hrow' with hsame | ⟨rfl, row, hrow, hindex, -, hstep⟩
    · exact h.held key t halive row' hsame
    · rw [← hindex] at halive
      exact holds_of_rowStep h hok hjob hrow hstep hmay hcareful halive

/-- The rows of a claimed key have their images. -/
theorem hasAssets_claimed (h : Tied w) {jobId : String} {claim : Claim}
    (hjob : w.jobs.get? jobId = some job)
    (hmutate : mutateJob e.now ((Mutation.claimNextRow).closure e.chars e.now) job =
      .ok (some claim, job'))
    (hready : claim.awaitingAssets = false) :
    claim.job.id = jobId ∧ claim.row.claimedAt = some (some e.now) ∧
      HasAssets (w.jobs.set jobId job') (claim.job.id, max 1 claim.row.index) := by
  have hok := h.jobs jobId job hjob
  obtain ⟨hid, hclaimed, row, hrow, hindex, hlacks⟩ := claimNextRow_claim hmutate hready
  refine ⟨hid.trans hok.named, hclaimed, ?_⟩
  have hmax : max 1 claim.row.index = row.index := by
    have := hok.index row hrow
    omega
  rw [hid, hok.named, hmax]
  refine (framed_mutate h hjob hmutate).assets _ ?_
  intro job₁ hjob₁ row₁ hrow₁ hindex₁
  obtain rfl := Option.some.inj (hjob.symm.trans hjob₁)
  -- Only one row of the job has the index.
  obtain rfl := List.inj_on_of_nodup_map hok.nodup hrow₁ hrow hindex₁
  exact hlacks

/-! ### Operations -/

/-- What a creation does, where it does something. -/
theorem perform_findOrCreate (taskKey : TaskKey) :
    (perform e (.findOrCreate taskKey) w).2 = w ∨
      w.taskOf taskKey = none ∧
        (perform e (.findOrCreate taskKey) w).2 = w.addTask e.fresh.1 (some taskKey) := by
  simp only [perform]
  split
  · exact .inl rfl
  next hnone =>
    split
    · exact .inl rfl
    · exact .inr ⟨hnone, rfl⟩

theorem perform_writePending (t : TaskId) :
    (perform e (.writePending t) w).2 = w ∨ ∃ task, w.tasks.get? t = some task ∧
      (perform e (.writePending t) w).2 =
        { w.setTask t { task with status := .pending } with
          opened := w.opened ++ [(task.key, t)] } := by
  simp only [perform]
  split
  · exact .inl rfl
  next task htask => exact .inr ⟨task, htask, rfl⟩

theorem perform_mutate (jobId : String) (m : Mutation) :
    (∃ error, perform e (.mutate jobId m) w = (.error error, w)) ∨
      ∃ job result job', w.jobs.get? jobId = some job ∧
        mutateJob e.now (m.closure e.chars e.now) job = .ok (result, job') ∧
        perform e (.mutate jobId m) w = (.ok result, { w with jobs := w.jobs.set jobId job' }) := by
  simp only [perform]
  split
  · exact .inl ⟨_, rfl⟩
  next job hjob =>
    split
    · exact .inl ⟨_, rfl⟩
    next result job' hmutate => exact .inr ⟨job, result, job', hjob, hmutate, rfl⟩

/-- What changes the status of one task, if anything of the tasks, and nothing of the jobs. -/
def ScheduleOp.isMove : ScheduleOp → Bool
  | .createTask | .findOrCreate _ | .delete .. | .deleteOriginal _ | .writePending _
  | .mutate .. => false
  | _ => true

/-- What such an operation leaves as it is. -/
structure Moved (w w' : World) : Prop where
  tied : Tied w'
  framed : Framed w w'
  keys : ∀ t key, w'.HasKey t key → w.HasKey t key
  jobs : w'.jobs = w.jobs
  opened : w'.opened = w.opened

theorem Tied.moved (h : Tied w) : Moved w w :=
  ⟨h, .refl, fun _ _ h => h, rfl, rfl⟩

theorem Tied.moved_setStatus (h : Tied w) (htask : w.tasks.get? t = some task)
    (hstatus : status ≠ .initializing) (hfailed : status ≠ .failed → task.status ≠ .failed) :
    Moved w (w.setTask t { task with status }) :=
  ⟨h.setStatus htask hstatus fun hnot hwas => absurd hwas (hfailed hnot),
    framed_setStatus htask, fun _ _ hkey => (hasKey_setStatus htask).mp hkey, rfl, rfl⟩

theorem Moved.refund (h : Moved w w') (t : TaskId) : Moved w (w'.refund t) := by
  unfold World.refund
  split
  · exact ⟨h.tied.frame, ⟨h.framed.created, h.framed.keys, h.framed.assets⟩, h.keys, h.jobs, h.opened⟩
  · exact h

theorem perform_isMove {o : ScheduleOp} (h : Tied w) (ho : o.isMove = true) :
    Moved w (perform e o w).2 := by
  cases o with
  | createTask | findOrCreate | delete | deleteOriginal | writePending | mutate => cases ho
  | outside what => exact h.moved
  | context owner => exact h.moved
  | isActive jobId owner => exact h.moved
  | listJobs owner activeOnly limit => exact h.moved
  | setEnabled owner enabled =>
    exact ⟨h.frame, ⟨fun _ h => h, fun _ _ task h => ⟨task, h, rfl⟩, fun _ h => h⟩,
      fun _ _ h => h, rfl, rfl⟩
  | refund left t => exact h.moved.refund t
  | refundFailed t => exact h.moved.refund t
  | reserve path t =>
    simp only [perform]
    split
    · exact h.moved
    · exact h.moved
    · split
      · exact h.moved
      · exact ⟨h.frame, ⟨fun _ h => h, fun _ _ task h => ⟨task, h, rfl⟩, fun _ h => h⟩,
          fun _ _ h => h, rfl, rfl⟩
  | updateTask t =>
    simp only [perform]
    split <;> exact h.moved
  | readStatus t =>
    simp only [perform]
    split <;> exact h.moved
  | failInitializing t =>
    simp only [perform]
    split
    · exact h.moved
    next task htask =>
      split
      · exact h.moved_setStatus htask (by decide) fun hnot => absurd rfl hnot
      · exact h.moved
  | execute t status =>
    simp only [perform]
    split
    · exact h.moved
    next task htask =>
      split
      next hmoves =>
        have hmoved := h.moved_setStatus htask hmoves.2.2 fun _ => hmoves.2.1
        dsimp only
        split
        · exact hmoved.refund t
        · exact hmoved
      next => exact h.moved

section Careful

variable {o : ScheduleOp} {alone : String → Int → Prop}

theorem framed_perform (h : Tied w) (hcareful : Careful alone k e o w) :
    Framed w (perform e o w).2 := by
  by_cases ho : o.isMove = true
  · exact (perform_isMove h ho).framed
  cases o with
  | createTask =>
    simp only [perform]
    split
    · exact .refl
    · exact framed_addTask hcareful
  | findOrCreate taskKey =>
    rcases perform_findOrCreate (e := e) (w := w) taskKey with hsame | ⟨hnone, hnew⟩
    · rw [hsame]
      exact .refl
    · rw [hnew]
      exact framed_addTask (hcareful hnone).1
  | delete left t => exact framed_erase
  | deleteOriginal t => exact framed_erase
  | writePending t =>
    rcases perform_writePending (e := e) (w := w) t with hsame | ⟨task, htask, hnew⟩
    · rw [hsame]
      exact .refl
    · rw [hnew]
      have hset : Framed w (w.setTask t { task with status := .pending }) := framed_setStatus htask
      exact ⟨hset.created, hset.keys, hset.assets⟩
  | mutate jobId m =>
    rcases perform_mutate (e := e) (w := w) jobId m with
      ⟨error, hsame⟩ | ⟨job, result, job', hjob, hmutate, hnew⟩
    · rw [hsame]
      exact .refl
    · rw [hnew]
      exact framed_mutate h hjob hmutate
  | _ => exact absurd rfl ho

/-- A row is being created since a claim that it had, unless it has just been claimed. -/
theorem creating_perform (h : Tied w) (hcreating : (perform e o w).2.Creating key claimedAt) :
    w.Creating key claimedAt ∨
      o = .mutate key.1 .claimNextRow ∧ claimedAt = some (some e.now) := by
  have hjobs : (perform e o w).2.jobs = w.jobs → w.Creating key claimedAt := by
    intro hsame
    obtain ⟨row, ⟨job, hjob, hrow⟩, hstatus⟩ := hcreating
    exact ⟨row, ⟨job, hsame ▸ hjob, hrow⟩, hstatus⟩
  by_cases ho : o.isMove = true
  · exact .inl (hjobs (perform_isMove h ho).jobs)
  cases o with
  | createTask =>
    refine .inl (hjobs ?_)
    simp only [perform]
    split <;> rfl
  | findOrCreate taskKey =>
    rcases perform_findOrCreate (e := e) (w := w) taskKey with hsame | ⟨-, hnew⟩
    · exact .inl (hjobs (by rw [hsame]))
    · exact .inl (hjobs (by rw [hnew]; rfl))
  | delete left t => exact .inl (hjobs rfl)
  | deleteOriginal t => exact .inl (hjobs rfl)
  | writePending t =>
    rcases perform_writePending (e := e) (w := w) t with hsame | ⟨task, -, hnew⟩
    · exact .inl (hjobs (by rw [hsame]))
    · exact .inl (hjobs (by rw [hnew]; rfl))
  | mutate jobId m =>
    rcases perform_mutate (e := e) (w := w) jobId m with
      ⟨error, hsame⟩ | ⟨job, result, job', hjob, hmutate, hnew⟩
    · exact .inl (hjobs (by rw [hsame]))
    · rw [hnew] at hcreating
      rcases creating_mutate h hjob hmutate hcreating with hwas | ⟨rfl, rfl, hnow⟩
      · exact .inl hwas
      · exact .inr ⟨rfl, hnow⟩
  | _ => exact absurd rfl ho

/-- A task has the key of a row as before, unless it has just been created. -/
theorem hasKey_perform (h : Tied w) (hkey : (perform e o w).2.HasKey t key) :
    w.HasKey t key ∨ o = .findOrCreate (.row key) ∧ w.taskOf (.row key) = none := by
  by_cases ho : o.isMove = true
  · exact .inl ((perform_isMove h ho).keys t key hkey)
  cases o with
  | createTask =>
    simp only [perform] at hkey
    split at hkey
    · exact .inl hkey
    · rcases hasKey_addTask hkey with ⟨-, hno⟩ | hwas
      · cases hno
      · exact .inl hwas
  | findOrCreate taskKey =>
    rcases perform_findOrCreate (e := e) (w := w) taskKey with hsame | ⟨hnone, hnew⟩
    · rw [hsame] at hkey
      exact .inl hkey
    · rw [hnew] at hkey
      rcases hasKey_addTask hkey with ⟨-, hkey⟩ | hwas
      · cases hkey
        exact .inr ⟨rfl, hnone⟩
      · exact .inl hwas
  | delete left t => exact .inl (hasKey_erase hkey).2
  | deleteOriginal t => exact .inl (hasKey_erase hkey).2
  | writePending t =>
    rcases perform_writePending (e := e) (w := w) t with hsame | ⟨task, htask, hnew⟩
    · rw [hsame] at hkey
      exact .inl hkey
    · rw [hnew] at hkey
      exact .inl ((hasKey_setStatus htask).mp hkey)
  | mutate jobId m =>
    rcases perform_mutate (e := e) (w := w) jobId m with
      ⟨error, hsame⟩ | ⟨job, result, job', -, -, hnew⟩
    · rw [hsame] at hkey
      exact .inl hkey
    · rw [hnew] at hkey
      exact .inl hkey
  | _ => exact absurd rfl ho

/-- The tasks of a row that have become runnable are those of before, and one that has just. -/
theorem opened_perform (h : Tied w) (hmem : (some (.row key), t) ∈ (perform e o w).2.opened) :
    (some (.row key), t) ∈ w.opened ∨ o = .writePending t ∧ w.HasKey t key := by
  by_cases ho : o.isMove = true
  · rw [(perform_isMove h ho).opened] at hmem
    exact .inl hmem
  cases o with
  | createTask =>
    simp only [perform] at hmem
    split at hmem <;> exact .inl hmem
  | findOrCreate taskKey =>
    rcases perform_findOrCreate (e := e) (w := w) taskKey with hsame | ⟨-, hnew⟩
    · exact .inl (hsame ▸ hmem)
    · rw [hnew] at hmem
      exact .inl hmem
  | delete left t => exact .inl hmem
  | deleteOriginal t => exact .inl hmem
  | writePending t' =>
    rcases perform_writePending (e := e) (w := w) t' with hsame | ⟨task, htask, hnew⟩
    · exact .inl (hsame ▸ hmem)
    · rw [hnew] at hmem
      rcases List.mem_append.mp hmem with hold | hnow
      · exact .inl hold
      · obtain ⟨hkey, rfl⟩ := Prod.mk.inj (List.mem_singleton.mp hnow)
        exact .inr ⟨rfl, task, htask, hkey.symm⟩
  | mutate jobId m =>
    rcases perform_mutate (e := e) (w := w) jobId m with
      ⟨error, hsame⟩ | ⟨job, result, job', -, -, hnew⟩
    · rw [hsame] at hmem
      exact .inl hmem
    · rw [hnew] at hmem
      exact .inl hmem
  | _ => exact absurd rfl ho

end Careful

end Invariant

end FetchTask.Scheduling
