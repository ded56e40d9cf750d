import FetchTask.Scheduling.Tied

/-!
Rows keep their tasks.

What an operation does to the stores, to the work of the other calls and to that of
its own call is each a lemma of its own; the step lemma and the run lemma follow.
-/

namespace FetchTask.Scheduling

open Runs Knowledge Store Batch

section Invariant

variable {w w' : World} {known : Nat → Work} {e : Env} {i : Nat} {key : RowKey} {t : TaskId}
  {k : Work} {claimedAt : Option Stamp} {stage : Stage}

section Careful

variable {o : ScheduleOp}

/-! ### Steps -/

theorem Stage.Ok.of_task {key : RowKey} (h : stage.Ok w key claimedAt) (ht : stage.task = some t) :
    (Stage.torn t).Ok w key claimedAt := by
  cases stage with
  | making t' | opening t' | torn t' =>
    obtain rfl := Option.some.inj ht
    exact h
  | _ => cases ht

section Step

variable (h : Inv w known) (hmay : works.may (known i) o)
  (hcareful : Careful (ClaimsAlone known i) (known i) e o w)

include h hmay hcareful

/-- What an operation does to the stores. -/
theorem tied_perform : Tied (perform e o w).2 := by
  by_cases ho : o.isMove = true
  · exact (perform_isMove h.tied ho).tied
  have hok := h.works i
  cases o with
  | createTask =>
    simp only [perform]
    split
    · exact h.tied
    · exact h.tied.create e.fresh.2 hcareful (by simp)
  | findOrCreate taskKey =>
    rcases perform_findOrCreate (e := e) (w := w) taskKey with hsame | ⟨hnone, hnew⟩
    · rw [hsame]
      exact h.tied
    · rw [hnew]
      obtain ⟨hfresh, hstands, hactive⟩ := hcareful hnone
      refine h.tied.create e.fresh.2 hfresh fun key hkey => ?_
      cases hkey
      obtain ⟨claimedAt, hk⟩ := hmay
      rw [hk] at hok hstands hactive
      refine ⟨hnone, hok.1, fun row hrow => ?_, hactive⟩
      rcases hstands with ⟨row', hrow', hstatus, -⟩ | ⟨row', hrow', hstatus, htask⟩
      · obtain rfl := h.tied.row_unique hrow' hrow
        exact .inr hstatus
      · -- Its job would have been canceled before the tick has read that it is active.
        obtain ⟨job, hjob, hmem, -⟩ := hrow'
        exact absurd (hactive job hjob) ((h.tied.jobs _ _ hjob).stops row' hmem hstatus htask)
  | delete left t =>
    refine h.tied.delete fun key hopened => ?_
    rcases h.tied.opened key t hopened with ⟨task, htask, hkey, -⟩ | ⟨hcanceled, -⟩
    swap
    · exact hcanceled
    cases hk : known i with
    | idle =>
      rw [hk] at hmay
      exact hmay.elim
    | other t' =>
      rw [hk] at hmay hok
      obtain rfl : t' = t := hmay
      exact absurd ⟨task, htask, hkey⟩ (hok.2 key)
    | row key' claimedAt stage =>
      rw [hk] at hmay hok
      have hstands : w.Stands key' claimedAt := by
        have hcareful' : (known i).Stands w := hcareful
        rwa [hk] at hcareful'
      obtain ⟨-, hkeys, hclosed⟩ := hok.2.of_task hmay
      obtain rfl : key' = key := by
        have hsame := (hkeys task htask).symm.trans hkey
        injection hsame with hsame
        injection hsame
      -- the row is the tick's, whose task has not become runnable, or the job is canceled
      rcases hstands with hcreating | ⟨row, ⟨job, hjob, hrow, -⟩, hstatus, hempty⟩
      · exact absurd hopened (hclosed hcreating).1
      · exact ⟨job, hjob, (h.tied.jobs _ _ hjob).stops row hrow hstatus hempty⟩
  | deleteOriginal t => exact h.tied.delete fun key hopened => absurd hopened (hcareful key)
  | writePending t =>
    rcases perform_writePending (e := e) (w := w) t with hsame | ⟨task, htask, hnew⟩
    · rw [hsame]
      exact h.tied
    · rw [hnew]
      have hset : Tied (w.setTask t { task with status := .pending }) := by
        refine h.tied.setStatus htask (by decide) fun _ hfailed key hkey => ?_
        cases hk : known i with
        | idle =>
          rw [hk] at hmay
          exact hmay.elim
        | other t' =>
          rw [hk] at hmay hok
          obtain rfl : t' = t := hmay
          exact hok.2 key ⟨task, htask, hkey⟩
        | row key' claimedAt stage =>
          have hopens : (known i).Opens e w := hcareful.2
          rw [hk] at hmay hopens
          obtain rfl : stage = .opening t := hmay
          -- the write does not look at the status, but nobody has failed the task since the read
          have hinitializing := hopens.2 task htask
          rw [hfailed] at hinitializing
          cases hinitializing
      have hget : (w.setTask t { task with status := .pending }).tasks.get? t =
          some { task with status := .pending } := by
        rw [setTask_get?, if_pos rfl]
      have hopened := hset.open hget (by simp)
      exact hopened
  | mutate jobId m =>
    rcases perform_mutate (e := e) (w := w) jobId m with
      ⟨error, hsame⟩ | ⟨job, result, job', hjob, hmutate, hnew⟩
    · rw [hsame]
      exact h.tied
    · rw [hnew]
      exact h.tied.mutate hok hjob hmutate hmay hcareful
  | _ => exact absurd rfl ho

/-- What it does to the work of the other calls. -/
theorem others_perform {j : Nat} (hj : j ≠ i) : (known j).Ok (perform e o w).2 := by
  refine (h.works j).mono (framed_perform h.tied hcareful) fun key claimedAt hclaim hafter => ?_
  have hcreating : w.Creating key claimedAt := by
    rcases creating_perform h.tied hafter with hwas | ⟨rfl, rfl⟩
    · exact hwas
    · -- Two calls would have claimed rows of the job at one time.
      have hnone := hcareful j hj
      cases hk : known j with
      | idle | other => rw [hk] at hclaim; cases hclaim
      | row key' claimedAt' stage =>
        rw [hk] at hclaim hnone
        cases hclaim
        simp [Work.claims] at hnone
  refine ⟨hcreating, fun t ht => ?_, fun t ht => ?_⟩
  · rcases hasKey_perform h.tied ht with hwas | ⟨rfl, hnone⟩
    · exact hwas
    · -- the row of a new task is that of the tick which creates it, and of no other
      obtain ⟨claimedAt', hk⟩ := hmay
      have hstands := (hcareful hnone).2.1
      rw [hk] at hstands
      exact absurd hcreating (h.alone hstands (by rw [hk]; rfl) hj claimedAt hclaim)
  · rcases opened_perform h.tied ht with hwas | ⟨rfl, task, htask, hkey⟩
    · exact hwas
    · have hok := h.works i
      cases hk : known i with
      | idle =>
        rw [hk] at hmay
        exact hmay.elim
      | other t' =>
        rw [hk] at hmay hok
        obtain rfl : t' = t := hmay
        exact absurd ⟨task, htask, hkey⟩ (hok.2 key)
      | row key' claimedAt' stage =>
        have hstands : (known i).Stands w := hcareful.1
        rw [hk] at hmay hok hstands
        obtain rfl : stage = .opening t := hmay
        obtain rfl : key' = key := by
          have hsame := (hok.2.2.1 task htask).symm.trans hkey
          injection hsame with hsame
          injection hsame
        exact absurd hcreating (h.alone hstands (by rw [hk]; rfl) hj claimedAt hclaim)

/-- What it does to the work of the call itself, before it learns of it. -/
theorem self_perform (ho : ∀ t, o = .writePending t → (known i).claim = none) :
    (known i).Ok (perform e o w).2 := by
  have hframed := framed_perform h.tied hcareful
  by_cases hactive : ∃ key claimedAt, known i = .row key claimedAt .active
  · obtain ⟨key, claimedAt, hk⟩ := hactive
    have hok := h.works i
    rw [hk] at hok ⊢
    exact ⟨hframed.assets key hok.1, trivial⟩
  refine (h.works i).mono hframed fun key claimedAt hclaim hafter =>
    ⟨?_, fun t ht => ?_, fun t ht => ?_⟩
  · rcases creating_perform h.tied hafter with hwas | ⟨rfl, -⟩
    · exact hwas
    · have hidle : known i = .idle := hmay
      rw [hidle] at hclaim
      cases hclaim
  · rcases hasKey_perform h.tied ht with hwas | ⟨rfl, -⟩
    · exact hwas
    · obtain ⟨claimedAt', hk⟩ := hmay
      exact absurd ⟨key, claimedAt', hk⟩ hactive
  · rcases opened_perform h.tied ht with hwas | ⟨rfl, -⟩
    · exact hwas
    · rw [ho t rfl] at hclaim
      cases hclaim

end Step

end Careful

/-! ### What a call learns -/

theorem Stage.Ok.tear (h : stage.Ok w key claimedAt) : stage.tear.Ok w key claimedAt := by
  cases stage with
  | making t | opening t | torn t => exact h
  | claimed | active | discarded | ready t => exact h

theorem Stage.Ok.read (h : stage.Ok w key claimedAt) (t : TaskId) (status : Status) :
    (stage.read t status).Ok w key claimedAt := by
  unfold Stage.read
  split
  next hmakes =>
    rcases hmakes with rfl | rfl
    · split <;> exact h
    · split <;> exact h
  next => exact h

/-- What the status of a task or of a job teaches a tick. -/
theorem Stage.Ok.learn_isMove {o : ScheduleOp} (h : stage.Ok w key claimedAt)
    (ho : o.isMove = true) (r : Except Raised o.Answer) :
    (stage.learn key o r).Ok w key claimedAt := by
  cases o with
  | createTask | findOrCreate | delete | deleteOriginal | writePending | mutate => cases ho
  | isActive jobId owner =>
    cases r with
    | error e => exact h
    | ok answer =>
      show (if _ then Stage.active else stage).Ok w key claimedAt
      split
      · trivial
      · exact h
  | readStatus t =>
    cases r with
    | error e => exact h
    | ok status => exact h.read t status
  | refund left t =>
    cases r with
    | error e => exact h.tear
    | ok _ => exact h
  | _ => exact h

section Step

variable {o : ScheduleOp} (h : Inv w known) (hmay : works.may (known i) o)
  (hcareful : Careful (ClaimsAlone known i) (known i) e o w) {r : Except Raised o.Answer}
  (hr : r = (perform e o w).1 ∨ e.fault ≠ none ∧ ∃ error, r = .error error)

include h hmay hcareful hr

/-- A call that has worked on nothing. -/
theorem learned_idle (hk : known i = .idle) : (works.learn .idle o r).Ok (perform e o w).2 := by
  have htied := tied_perform h hmay hcareful
  cases o with
  | createTask =>
    rcases hr with rfl | ⟨-, error, rfl⟩
    swap
    · trivial
    simp only [perform] at htied ⊢
    split
    · trivial
    · refine ⟨List.mem_cons_self, fun key hkey => ?_⟩
      obtain ⟨task, hget, hkey⟩ := hkey
      rw [addTask_get?, if_pos rfl] at hget
      cases hget
      cases hkey
  | findOrCreate taskKey =>
    rcases hr with rfl | ⟨-, error, rfl⟩
    swap
    · trivial
    cases taskKey with
    | row key =>
      obtain ⟨claimedAt, hrow⟩ := hmay
      cases hk.symm.trans hrow
    | request owner key =>
      -- The task that is stored under the id has the key of the request.
      have hother : ∀ {w' : World} {t : TaskId} {task : Task}, Tied w' → w'.tasks.get? t = some task →
          task.key = some (.request owner key) → (Work.other t).Ok w' := by
        rintro w' t task htied' hget hkey
        refine ⟨htied'.given t task hget, ?_⟩
        rintro key' ⟨task', hget', hkey'⟩
        obtain rfl := Option.some.inj (hget.symm.trans hget')
        cases hkey.symm.trans hkey'
      simp only [perform] at htied ⊢
      split
      next t task hfound =>
        obtain ⟨hget, hkey⟩ := taskOf_some hfound
        exact hother h.tied hget hkey
      next hnone =>
        split
        · trivial
        next hfree =>
          simp only [hnone, hfree] at htied
          exact hother htied (by rw [addTask_get?, if_pos rfl]) rfl
  | mutate jobId m =>
    cases m with
    | claimNextRow =>
      rcases hr with rfl | ⟨-, error, rfl⟩
      swap
      · trivial
      rcases perform_mutate (e := e) (w := w) jobId .claimNextRow with
        ⟨error, hsame⟩ | ⟨job, result, job', hjob, hmutate, hnew⟩
      · rw [hsame]
        trivial
      · rw [hnew]
        cases result with
        | none => trivial
        | some claim =>
          show (if claim.awaitingAssets then Work.idle else _).Ok _
          split
          · trivial
          next hready =>
            exact ⟨(hasAssets_claimed h.tied hjob hmutate (by simpa using hready)).2.2, trivial⟩
    | _ => trivial
  | _ => trivial

/-- A tick, of its row and task. -/
theorem learned_row (hk : known i = .row key claimedAt stage) :
    (stage.learn key o r).Ok (perform e o w).2 key claimedAt := by
  have hself : (∀ t, o ≠ .writePending t) → stage.Ok (perform e o w).2 key claimedAt := by
    intro ho
    have hok := self_perform h hmay hcareful fun t heq => absurd heq (ho t)
    rw [hk] at hok
    exact hok.2
  by_cases ho : o.isMove = true
  · exact (hself fun t heq => by subst heq; cases ho).learn_isMove ho r
  have hok := h.works i
  rw [hk] at hmay hok
  cases o with
  | createTask => cases hmay
  | findOrCreate taskKey =>
    cases taskKey with
    | request owner key' => cases hmay
    | row key' =>
      obtain ⟨claimedAt', hsame⟩ := hmay
      cases hsame
      rcases hr with rfl | ⟨-, error, rfl⟩
      swap
      · trivial
      have htied := tied_perform h (hk ▸ ⟨claimedAt, rfl⟩) hcareful
      simp only [perform] at htied ⊢
      split
      next t task hfound =>
        obtain ⟨hget, hkey⟩ := taskOf_some hfound
        have hkeys :
            t ∈ w.created ∧ ∀ task, w.tasks.get? t = some task → task.key = some (.row key) := by
          refine ⟨h.tied.given t task hget, fun task' hget' => ?_⟩
          obtain rfl := Option.some.inj (hget.symm.trans hget')
          exact hkey
        show (if _ then Stage.ready t else .making t).Ok w key claimedAt
        split
        next => exact hkeys
        next hstatus =>
          refine ⟨hkeys.1, hkeys.2, fun _ => ⟨fun hopened => ?_, fun t' ht' =>
            h.tied.single key t' t ht' ⟨task, hget, hkey⟩⟩⟩
          -- A runnable task is not initializing.
          rcases h.tied.opened key t hopened with ⟨task', hget', -, hnot⟩ | ⟨-, hnone⟩
          · obtain rfl := Option.some.inj (hget.symm.trans hget')
            exact hstatus ⟨rfl, hnot⟩
          · exact hnone t ⟨task, hget, hkey⟩
      next hnone =>
        split
        · trivial
        next hfree =>
          obtain ⟨hfresh, -, hactive⟩ := hcareful hnone
          rw [hk] at hactive
          refine ⟨List.mem_cons_self, fun task hget => ?_, fun _ => ⟨fun hopened => ?_, fun t' ht' => ?_⟩⟩
          · rw [addTask_get?, if_pos rfl] at hget
            cases hget
            rfl
          · rcases h.tied.opened key _ hopened with ⟨task, hget, -⟩ | ⟨⟨job, hjob, hcanceled⟩, -⟩
            · exact hfresh (h.tied.given _ task hget)
            · exact hcanceled (hactive job hjob)
          · rcases hasKey_addTask ht' with ⟨rfl, -⟩ | ⟨task, hget, hkey⟩
            · rfl
            · exact absurd hkey (taskOf_none hnone hget)
  | delete left t =>
    rcases hr with rfl | ⟨-, error, rfl⟩
    swap
    · exact (hself (by simp)).tear
    intro hcreating t' ht'
    obtain ⟨hne, hkey⟩ := hasKey_erase ht'
    exact hne (((hok.2.of_task hmay).2.2 hcreating).2 t' hkey)
  | deleteOriginal t => exact hself (by simp)
  | writePending t =>
    obtain rfl : stage = .opening t := hmay
    have hopens : (known i).Opens e w := hcareful.2
    rw [hk] at hopens
    rcases hr with rfl | ⟨hfault, -⟩
    swap
    · exact absurd hopens.1 hfault
    have hframed := framed_perform h.tied hcareful
    simp only [perform] at hframed ⊢
    split
    next hnone => exact hok.2
    next task htask =>
      simp only [htask] at hframed
      refine ⟨hframed.created t hok.2.1, fun task' hget => ?_⟩
      obtain ⟨old, hold, hsame⟩ := hframed.keys t hok.2.1 task' hget
      exact hsame.symm.trans (hok.2.2.1 old hold)
  | mutate jobId m => exact hself (by simp)
  | _ => exact absurd rfl ho

/-- The claim of a call is that of no other, when it has learned. -/
theorem claim_learned : ∀ claim, (works.learn (known i) o r).claim = some claim →
    ∀ j, j ≠ i → (known j).claim ≠ some claim := by
  have hsame : (works.learn (known i) o r).claim = (known i).claim →
      ∀ claim, (works.learn (known i) o r).claim = some claim →
        ∀ j, j ≠ i → (known j).claim ≠ some claim := h.claim_ne
  cases hk : known i with
  | other t => exact hk ▸ hsame (by rw [hk]; rfl)
  | row key claimedAt stage => exact hk ▸ hsame (by rw [hk]; rfl)
  | idle =>
    rw [hk] at hsame
    cases o with
    | mutate jobId m =>
      cases m with
      | claimNextRow =>
        rcases hr with rfl | ⟨-, error, rfl⟩
        swap
        · exact hsame rfl
        rcases perform_mutate (e := e) (w := w) jobId .claimNextRow with
          ⟨error, hnothing⟩ | ⟨job, result, job', hjob, hmutate, hnew⟩
        · rw [hnothing]
          exact nofun
        rw [hnew]
        cases result with
        | none => exact fun claim hclaim => by cases hclaim
        | some claimed =>
          intro claim hclaim j hj hother
          change (if claimed.awaitingAssets then Work.idle else _).claim = some claim at hclaim
          split at hclaim
          · cases hclaim
          next hready =>
            obtain ⟨hid, hnow, -⟩ := hasAssets_claimed h.tied hjob hmutate (by simpa using hready)
            cases hclaim
            have hnone := hcareful j hj
            cases hkj : known j with
            | idle | other t => rw [hkj] at hother; cases hother
            | row key claimedAt stage =>
              rw [hkj] at hother hnone
              cases hother
              simp [Work.claims, hid, hnow] at hnone
      | _ => exact hsame rfl
    | createTask =>
      intro claim hclaim
      cases r <;> cases hclaim
    | findOrCreate taskKey =>
      intro claim hclaim
      cases r <;> cases hclaim
    | _ => exact hsame rfl

/-- One operation that takes effect. -/
theorem inv_perform :
    Inv (perform e o w).2 (Function.update known i (works.learn (known i) o r)) := by
  refine h.step (tied_perform h hmay hcareful) (fun j hj => others_perform h hmay hcareful hj) ?_
    (claim_learned h hmay hcareful hr)
  cases hk : known i with
  | idle => exact learned_idle h hmay hcareful hr hk
  | other t =>
    have hself := self_perform h hmay hcareful fun _ _ => by rw [hk]; rfl
    rw [hk] at hself
    exact hself
  | row key claimedAt stage =>
    have hself : HasAssets (perform e o w).2.jobs key := by
      have hok := h.works i
      rw [hk] at hok
      exact (framed_perform h.tied hcareful).assets key hok.1
    exact ⟨hself, learned_row h hmay hcareful hr hk⟩

end Step

theorem learn_idle_error (o : ScheduleOp) (error : Raised) :
    works.learn .idle o (.error error) = .idle := by
  cases o with
  | mutate jobId m => cases m <;> rfl
  | _ => rfl

/-- An operation without an effect, which raises. -/
theorem inv_raised (h : Inv w known) (o : ScheduleOp) (error : Raised) :
    Inv w (Function.update known i (works.learn (known i) o (.error error))) := by
  have hok := h.works i
  refine h.step h.tied (fun j _ => h.works j) ?_ (h.claim_ne ?_)
  · cases hk : known i with
    | idle =>
      rw [learn_idle_error]
      trivial
    | other t =>
      rw [hk] at hok
      exact hok
    | row key claimedAt stage =>
      rw [hk] at hok
      refine ⟨hok.1, ?_⟩
      cases o with
      | refund left t | delete left t => exact hok.2.tear
      | _ => exact hok.2
  · cases hk : known i with
    | idle => rw [learn_idle_error]
    | other t => rfl
    | row key claimedAt stage => rfl

/-- Every operation that a call may perform keeps the invariant, if one that takes effect is
careful. -/
theorem handle_keeps : works.KeepsWith handle Inv fun known i e o w =>
    Undisturbed (ClaimsAlone known i) (known i) e o w := by
  intro i e o w known h hmay hcareful
  refine ⟨trivial, ?_⟩
  unfold handle
  cases hfault : e.fault with
  | none => exact inv_perform h hmay (hcareful fun fault hmem => by simp [hfault] at hmem) (.inl rfl)
  | some fault =>
    dsimp only
    split
    next hdone =>
      have heffective : e.effective := by
        intro fault' hmem
        rw [hfault, Option.mem_some_iff] at hmem
        exact hmem ▸ hdone
      exact inv_perform h hmay (hcareful heffective) (.inr ⟨by simp [hfault], _, rfl⟩)
    next => exact inv_raised h o fault.raised

end Invariant

/-! ### Runs -/

/-- The jobs are new. -/
def NewJobs (jobs : Jobs) : Prop :=
  ∀ jobId job, jobs.get? jobId = some job → ∃ u, Made u job ∧ job.id = jobId

theorem jobOk_of_made {u : Chars} {job : Job} (h : Made u job) : JobOk job.id job := by
  have hearly : ∀ row ∈ job.rows, row.Early := by
    intro row hrow
    exact (h.inv (List.ne_nil_of_mem hrow)).unattached row hrow
  refine ⟨rfl, h.indexed.nodup, ?_, hearly, h.stops⟩
  cases h with
  | @createJob _ _ now spec _ h =>
    simp only [createJob] at h
    split at h
    · cases h
    · cases h
      exact map_index_enumerate (f := RowSpec.row u now) (fun _ _ => rfl) 1 spec.rows
  | @createRetryJob _ _ now _ retries _ h =>
    simp only [createRetryJob] at h
    split at h
    · cases h
    · cases h
      intro row hrow
      have hall := map_index_enumerate (f := Retry.row u now) (fun _ _ => rfl) 1 retries
      exact hall row (List.mem_of_mem_filter hrow)

theorem ScheduleConfig.Start.inv {c : ScheduleConfig} (h : c.Start)
    (hjobs : NewJobs c.shared.jobs) : Inv c.shared fun _ => .idle := by
  have hnone : ∀ t task, c.shared.tasks.get? t ≠ some task := by
    intro t task hget
    rw [h.tasks] at hget
    cases hget
  have hkeyless : ∀ t key, ¬ c.shared.HasKey t key := fun t key ⟨task, hget, _⟩ => hnone t task hget
  have hclosed : ∀ e, e ∉ c.shared.opened := by
    rw [h.opened]
    exact fun e => List.not_mem_nil
  refine ⟨⟨fun jobId job hjob => ?_, fun t task hget => absurd hget (hnone t task),
    fun t task hget => absurd hget (hnone t task), fun key t _ ht => absurd ht (hkeyless t key),
    fun key t _ ht => absurd ht (hclosed _), fun key t ht => absurd ht (hclosed _),
    fun key t halive => ?_, fun key t ht => absurd ht (hkeyless t key)⟩, fun _ => trivial,
    fun i j claim hclaim => by cases hclaim⟩
  · obtain ⟨u, hmade, rfl⟩ := hjobs jobId job hjob
    exact jobOk_of_made hmade
  · obtain ⟨task, hget, -⟩ := halive
    exact absurd hget (hnone t task)

/-- In any interleaving of ticks, uploads, cancellations and the workers, wherever a tick stops
and whichever operation raises: if nothing falls between what a tick has read and what it
writes, and no operation that looks at one store only ends a row that has a task, then rows and
tasks are linked in every state. -/
theorem rows_keep_their_tasks (labels : List (Label ScheduleCall Env)) (c : ScheduleConfig)
    (hstart : c.Start) (hjobs : NewJobs c.shared.jobs)
    (hcareful : AllSteps (works.step handle ScheduleCall.prog)
      (works.OnCurrent fun known i e o w => Undisturbed (ClaimsAlone known i) (known i) e o w) labels
      ⟨c, fun _ => .idle⟩) :
    Throughout step (fun c => Linked c.shared) labels c := by
  have hattends : works.Attends (fun _ => True) Inv ⟨c, fun _ => .idle⟩ := by
    refine ⟨fun i => ?_, ?_⟩
    · show works.Ensures _ _ (c.threads i)
      cases hi : c.threads i with
      | ret u => trivial
      | act o k =>
        have hdone := hstart.idle i
        simp [hi, Prog.isDone] at hdone
    · have hcurrent : works.current ⟨c, fun _ => .idle⟩ = fun _ => Work.idle :=
        funext fun i => current_start rfl
      rw [hcurrent]
      exact hstart.inv hjobs
  have hend : ∀ w known i, Inv w known → True → Inv w (Function.update known i .idle) :=
    fun w known i h _ => h.step h.tied (fun j _ => h.works j) trivial fun claim hclaim => by
      cases hclaim
  have hall := attends_run call_ensures hend handle_keeps hattends hcareful
  exact throughout_config.mp (hall.mono fun t ht => ht.inv.tied.linked)

/-! ### A job that is canceled -/

section Sample

section Decidable

variable {w : World} {key : RowKey}

theorem forall_alive_iff {P : TaskId → Prop} : (∀ t, w.Alive key t → P t) ↔
    ∀ e ∈ w.tasks.items, e.2.key = some (.row key) → e.2.status ≠ .failed → P e.1 := by
  constructor
  · intro h e he hkey hstatus
    exact h e.1 ⟨e.2, (Dict.get?_eq_some_iff _).mpr he, hkey, hstatus⟩
  · rintro h t ⟨task, hget, hkey, hstatus⟩
    exact h (t, task) ((Dict.get?_eq_some_iff _).mp hget) hkey hstatus

theorem exists_rowOf_iff {P : Row → Prop} : (∃ row, w.RowOf key row ∧ P row) ↔
    ∃ job ∈ w.jobs.get? key.1, ∃ row ∈ job.rows, row.index = key.2 ∧ P row := by
  constructor
  · rintro ⟨row, ⟨job, hjob, hrow, hindex⟩, hP⟩
    exact ⟨job, hjob, row, hrow, hindex, hP⟩
  · rintro ⟨job, hjob, row, hrow, hindex, hP⟩
    exact ⟨row, ⟨job, hjob, hrow, hindex⟩, hP⟩

def TaskKey.isRow : Option TaskKey → Bool
  | some (.row _) => true
  | _ => false

theorem forall_opened_iff {t : TaskId} : (∀ key, (some (.row key), t) ∉ w.opened) ↔
    ∀ e ∈ w.opened, e.2 = t → TaskKey.isRow e.1 = false := by
  constructor
  · rintro h ⟨key, t'⟩ hmem rfl
    cases key with
    | none => rfl
    | some key =>
      cases key with
      | row key => exact absurd hmem (h key)
      | request owner key => rfl
  · intro h key hmem
    cases h _ hmem rfl

instance {P : TaskId → Prop} [DecidablePred P] : Decidable (∀ t, w.Alive key t → P t) :=
  decidable_of_iff _ forall_alive_iff.symm

instance (job : Job) (row : Row) (retry : Bool) : Decidable (GivesUp job row retry) :=
  inferInstanceAs (Decidable (_ ∧ _))

instance (e : Env) : Decidable e.effective :=
  inferInstanceAs (Decidable (∀ fault ∈ e.fault, _))

instance (key : RowKey) (P : Row → Prop) [DecidablePred P] :
    Decidable (∃ row, w.RowOf key row ∧ P row) :=
  decidable_of_iff _ exists_rowOf_iff.symm

instance (claimedAt : Option Stamp) : Decidable (w.Stands key claimedAt) := by
  unfold World.Stands World.Creating World.Stopped
  infer_instance

instance (k : Work) : Decidable (k.Stands w) :=
  match k with
  | .row key claimedAt _ => inferInstanceAs (Decidable (w.Stands key claimedAt))
  | .idle | .other _ => inferInstanceAs (Decidable True)

instance (k : Work) : Decidable (k.StillActive w) := by
  unfold Work.StillActive
  split <;> infer_instance

instance (e : Env) (k : Work) : Decidable (k.Opens e w) := by
  unfold Work.Opens
  split <;> infer_instance

instance (k : Work) : Decidable (k.GivesUpRow w) := by
  unfold Work.GivesUpRow
  split
  · infer_instance
  · exact inferInstanceAs (Decidable (_ → ∀ t, w.Alive _ t → False))
  · infer_instance

instance Careful.decidable (alone : String → Int → Prop) [∀ jobId now, Decidable (alone jobId now)]
    (k : Work) (e : Env) (o : ScheduleOp) (w : World) : Decidable (Careful alone k e o w) :=
  match o with
  | .mutate jobId (.cancelJob owner _) =>
    inferInstanceAs (Decidable (∀ job ∈ w.jobs.get? jobId, job.ownerTokenHash = owner →
      ∀ row ∈ job.rows, cancelsRow row = true → ∀ t, w.Alive (jobId, row.index) t → False))
  | .mutate jobId (.failOrRequeueRow index _ retry) =>
    inferInstanceAs (Decidable (∀ job ∈ w.jobs.get? jobId, ∀ row ∈ job.rows,
      row.index = index → GivesUp job row retry → k.GivesUpRow w))
  | .mutate jobId .claimNextRow => inferInstanceAs (Decidable (alone jobId e.now))
  | .mutate _ (.finishRowCreation _ t) =>
    inferInstanceAs (Decidable ((w.tasks.get? t).isSome = true))
  | .createTask => inferInstanceAs (Decidable (e.fresh.1 ∉ w.created))
  | .findOrCreate key =>
    inferInstanceAs (Decidable (w.taskOf key = none →
      e.fresh.1 ∉ w.created ∧ k.Stands w ∧ k.StillActive w))
  | .delete .. => inferInstanceAs (Decidable (k.Stands w))
  | .writePending _ => inferInstanceAs (Decidable (k.Stands w ∧ k.Opens e w))
  | .deleteOriginal _ => decidable_of_iff _ forall_opened_iff.symm
  | .mutate _ (.recoverStaleCreatingRows _) | .mutate _ (.markRowAssetsReady ..)
  | .mutate _ (.reconcileJob _) | .outside _ | .context _ | .isActive .. | .reserve .. | .refund ..
  | .updateTask _ | .readStatus _ | .listJobs .. | .setEnabled .. | .failInitializing _
  | .refundFailed _ | .execute .. =>
    inferInstanceAs (Decidable True)

instance (alone : String → Int → Prop) [∀ jobId now, Decidable (alone jobId now)] (k : Work)
    (e : Env) (o : ScheduleOp) (w : World) : Decidable (Undisturbed alone k e o w) :=
  inferInstanceAs (Decidable (e.effective → Careful alone k e o w))

end Decidable

/-- One job of two rows. -/
def oneJob : ScheduleConfig where
  shared := { jobs := sampleJobs }
  threads _ := .ret ()

theorem oneJob_start : oneJob.Start :=
  ⟨fun _ => rfl, rfl, fun _ => rfl, rfl, rfl⟩

theorem oneJob_new : NewJobs oneJob.shared.jobs := by
  intro jobId job hjob
  change sampleJobs.get? jobId = some job at hjob
  rw [sampleJobs, Dict.get?_set] at hjob
  split at hjob
  next heq =>
    cases hjob
    exact ⟨.ascii, sampleJob_made, heq⟩
  next => cases hjob

theorem freshId_ne_empty : ("t" : TaskId) ≠ "" := by
  decide

/-- Steps of one thread that nothing disturbs. -/
def operations (thread count : Nat) : List (Label ScheduleCall Env) :=
  List.replicate count (.act thread { chars := .ascii, now := 1, fresh := ⟨"t", freshId_ne_empty⟩ })

def oneTick : Tick := ⟨none, [], some "a"⟩

/-- The job is canceled after the task of its first row is attached. -/
def cancelAfterwards : List (Label ScheduleCall Env) :=
  .spawn 0 (.tick oneTick) :: operations 0 20 ++
    .spawn 1 (.cancelJob sampleJob.id "a" "") :: operations 1 1

/-- The job is canceled when the task has become runnable; the tick that would attach it takes
no further step. -/
def cancelBefore : List (Label ScheduleCall Env) :=
  .spawn 0 (.tick oneTick) :: operations 0 17 ++
    .spawn 1 (.cancelJob sampleJob.id "a" "") :: operations 1 1

/-- Threads that never run have claimed nothing. -/
theorem careful_of_bounded {n : Nat} {labels : List (Label ScheduleCall Env)} {c : ScheduleConfig}
    (hthreads : ∀ label ∈ labels, label.thread < n)
    (h : AllSteps (works.step handle ScheduleCall.prog)
      (works.OnCurrent fun known i e o w => Undisturbed (fun jobId now =>
        ∀ j < n, j ≠ i → (known j).claims jobId now = false) (known i) e o w) labels
      ⟨c, fun _ => .idle⟩) :
    AllSteps (works.step handle ScheduleCall.prog)
      (works.OnCurrent fun known i e o w => Undisturbed (ClaimsAlone known i) (known i) e o w) labels
      ⟨c, fun _ => .idle⟩ := by
  refine allSteps_current_of_idle hthreads (fun _ _ => rfl) (fun known i e o w hrest hsome => ?_) h
  have halone : (fun jobId now => ∀ j < n, j ≠ i → (known j).claims jobId now = false) =
      ClaimsAlone known i := by
    funext jobId now
    refine propext ⟨fun hsome j hj => ?_, fun hall j _ => hall j⟩
    by_cases hjn : j < n
    · exact hsome j hjn hj
    · rw [hrest j (not_lt.mp hjn)]
      rfl
  rwa [halone] at hsome

theorem rows_keep_their_tasks_canceled :
    Throughout step (fun c => Linked c.shared) cancelAfterwards oneJob :=
  rows_keep_their_tasks cancelAfterwards oneJob oneJob_start oneJob_new
    (careful_of_bounded (n := 2) (by decide +kernel) (by decide +kernel))

example : (run step cancelAfterwards oneJob).shared.opened =
    [(some (.row (sampleJob.id, 1)), "t")] := by
  decide +kernel

/-- The row is canceled without a task, which is charged and pending. -/
theorem canceled_row_loses_task :
    oneJob.Start ∧ NewJobs oneJob.shared.jobs ∧
      ¬ Throughout step (fun c => Linked c.shared) cancelBefore oneJob := by
  refine ⟨oneJob_start, oneJob_new, fun h => ?_⟩
  have hlinked : Linked (run step cancelBefore oneJob).shared := h.final
  have hrow : ((run step cancelBefore oneJob).shared.jobs.get? sampleJob.id).any (fun job =>
      job.rows.any fun row =>
        decide (row.index = 1 ∧ row.status = .canceled ∧ row.taskId = "")) = true := by
    decide +kernel
  have htask : ((run step cancelBefore oneJob).shared.tasks.get? "t").any (fun task =>
      decide (task.key = some (.row (sampleJob.id, 1)) ∧ task.status ≠ .failed)) = true := by
    decide +kernel
  have hcharged : (run step cancelBefore oneJob).shared.reservations "t" = some .reserved := by
    decide +kernel
  obtain ⟨job, hjob, hany⟩ := (Option.any_eq_true ..).mp hrow
  obtain ⟨row, hmem, hvalues⟩ := List.any_eq_true.mp hany
  obtain ⟨hindex, hstatus, hempty⟩ := of_decide_eq_true hvalues
  obtain ⟨task, hget, htaskValues⟩ := (Option.any_eq_true ..).mp htask
  obtain ⟨hkey, hopen⟩ := of_decide_eq_true htaskValues
  exact hlinked.kept (sampleJob.id, 1) "t" row ⟨task, hget, hkey, hopen⟩ hcharged
    ⟨job, hjob, hmem, hindex⟩ (.inr hstatus) hempty

end Sample

end FetchTask.Scheduling
