import FetchTask.Batch.StatusFollows

/-!
What mutations do to the rows of a job.

`RowStep` lists the fates that a row can have in one mutation, with the reason that
the mutation has for each.
-/

namespace FetchTask.Batch

/-- A row that is not started has no task. -/
def Row.Early (row : Row) : Prop :=
  row.status = .queued ∨ row.status = .awaitingAssets ∨ row.status = .creating → row.taskId = ""

/-- The fate of one row in a mutation. -/
inductive RowStep (now : Int) (m : Mutation) (job : Job) (row row' : Row) : Prop
  | queued (hstatus : row'.status = .queued) (htask : row'.taskId = "")
  | claimed (hm : m = .claimNextRow) (hstatus : row'.status = .creating) (htask : row'.taskId = "")
      (hclaimed : row'.claimedAt = some (some now))
  | kept (htask : row'.taskId = row.taskId) (hstatus : row'.status = row.status ∨ row.taskId ≠ "")
      (hclaimed : row'.claimedAt = row.claimedAt)
  | canceled (owner reason : String) (hm : m = .cancelJob owner reason)
      (howner : job.ownerTokenHash = owner) (hrow : cancelsRow row = true)
      (hstatus : row'.status = .canceled)
  | asked (hrow : lacksAssets row = true) (htask : row'.taskId = "")
      (hstatus : row'.status = .awaitingAssets)
  | attached (t : String) (hm : m = .finishRowCreation row.index t) (htask : row'.taskId = t)
      (hstatus : row'.status = .running)
  | failed (error : String) (retry : Bool) (hm : m = .failOrRequeueRow row.index error retry)
      (hrow : row.status.isTerminal = false)
      (hgiven : ¬ ((retry && job.canceledAt.isNone) = true ∧
        max 0 (row.createAttempts.getD 0) + 1 < 5))
      (hstatus : row'.status = .failed)

/-- What every mutation keeps of a row. -/
structure RowKept (row row' : Row) : Prop where
  index : row'.index = row.index
  assets : lacksAssets row = false → lacksAssets row' = false
  early : row'.Early

section

variable {u : Chars} {now : Int} {m : Mutation} {before job : Job} {row row' row'' : Row}

theorem lacksAssets_congr (h : row''.toRowData = row'.toRowData) :
    lacksAssets row'' = lacksAssets row' := by
  have hcount : row''.imageCount = row'.imageCount := congrArg RowData.imageCount h
  have hready : row''.assetsReady = row'.assetsReady := congrArg RowData.assetsReady h
  have hfiles : row''.imageFiles = row'.imageFiles := congrArg RowData.imageFiles h
  unfold lacksAssets
  rw [hcount, hready, hfiles]

theorem RowKept.stamped (hk : RowKept row row') (h : row''.toRowData = row'.toRowData) :
    RowKept row row'' := by
  have hindex : row''.index = row'.index := congrArg RowData.index h
  have hstatus : row''.status = row'.status := congrArg RowData.status h
  have htask : row''.taskId = row'.taskId := congrArg RowData.taskId h
  refine ⟨hindex.trans hk.index, fun hrow => (lacksAssets_congr h).trans (hk.assets hrow), ?_⟩
  have hearly := hk.early
  unfold Row.Early at hearly ⊢
  rwa [hstatus, htask]

theorem RowStep.stamped (hs : RowStep now m before row row')
    (h : row''.toRowData = row'.toRowData) : RowStep now m before row row'' := by
  have hstatus : row''.status = row'.status := congrArg RowData.status h
  have htask : row''.taskId = row'.taskId := congrArg RowData.taskId h
  have hclaimed : row''.claimedAt = row'.claimedAt := congrArg RowData.claimedAt h
  cases hs with
  | queued hw ht => exact .queued (hstatus.trans hw) (htask.trans ht)
  | claimed hm hw ht hc => exact .claimed hm (hstatus.trans hw) (htask.trans ht) (hclaimed.trans hc)
  | kept ht hw hc => exact .kept (htask.trans ht) (hstatus ▸ hw) (hclaimed.trans hc)
  | canceled owner reason hm howner hrow hw =>
    exact .canceled owner reason hm howner hrow (hstatus.trans hw)
  | asked hrow ht hw => exact .asked hrow (htask.trans ht) (hstatus.trans hw)
  | attached t hm ht hw => exact .attached t hm (htask.trans ht) (hstatus.trans hw)
  | failed error retry hm hrow hgiven hw =>
    exact .failed error retry hm hrow hgiven (hstatus.trans hw)

/-- A row of the changed document comes from one of the document. -/
def RowsStep (now : Int) (m : Mutation) (before job : Job) : Prop :=
  ∀ row' ∈ job.rows, ∃ row ∈ before.rows, RowKept row row' ∧ RowStep now m before row row'

theorem RowsStep.refl (hearly : ∀ row ∈ before.rows, row.Early) : RowsStep now m before before :=
  fun row hrow => ⟨row, hrow, ⟨rfl, id, hearly row hrow⟩, .kept rfl (.inl rfl) rfl⟩

theorem RowsStep.map {f : Row → Row}
    (h : ∀ row ∈ before.rows, RowKept row (f row) ∧ RowStep now m before row (f row))
    (hjob : job.rows = before.rows.map f) : RowsStep now m before job := by
  intro row' hrow'
  rw [hjob] at hrow'
  obtain ⟨row, hrow, rfl⟩ := List.mem_map.mp hrow'
  exact ⟨row, hrow, h row hrow⟩

theorem RowsStep.updateFirst {p : Row → Bool} {f : Row → Row}
    (hearly : ∀ row ∈ before.rows, row.Early)
    (h : ∀ row ∈ before.rows, p row = true → RowKept row (f row) ∧ RowStep now m before row (f row))
    (hjob : job.rows = Batch.updateFirst p f before.rows) : RowsStep now m before job := by
  intro row' hrow'
  rw [hjob] at hrow'
  rcases mem_updateFirst hrow' with hmem | ⟨row, hfound, rfl⟩
  · exact RowsStep.refl hearly row' hmem
  · have hrow := List.mem_of_find?_eq_some hfound
    exact ⟨row, hrow, h row hrow (by simpa using List.find?_some hfound)⟩

theorem finishJobIfTerminal_id : (finishJobIfTerminal now job).id = job.id := by
  unfold finishJobIfTerminal
  split
  · rfl
  · split <;> rfl

theorem map_eq_of_forall₂ {rows rows' : List Row}
    (h : List.Forall₂ (fun row row' : Row => row'.index = row.index) rows rows') :
    rows'.map (·.index) = rows.map (·.index) := by
  induction h with
  | nil => rfl
  | cons hindex _ ih => rw [List.map_cons, List.map_cons, hindex, ih]

theorem lacksAssets_readyRow {imageFiles imageNames : List String} :
    lacksAssets (readyRow u now imageFiles imageNames row) = false := by
  simp [lacksAssets, readyRow]

theorem reconcileRow_step {payloads : TaskPayloads} (hearly : row.Early) :
    RowKept row (reconcileRow now payloads row) ∧
      RowStep now m before row (reconcileRow now payloads row) := by
  have hsame : RowKept row row ∧ RowStep now m before row row :=
    ⟨⟨rfl, id, hearly⟩, .kept rfl (.inl rfl) rfl⟩
  unfold reconcileRow
  split
  next => exact hsame
  next task htask =>
    have hheld : row.taskId ≠ "" := by
      intro hempty
      rw [reconcilesRow, if_pos (.inl hempty)] at htask
      cases htask
    have hlate : ∀ row' : Row, row'.index = row.index → lacksAssets row' = lacksAssets row →
        row'.taskId = row.taskId → row'.claimedAt = row.claimedAt →
        (¬ (row'.status = .queued ∨ row'.status = .awaitingAssets ∨ row'.status = .creating)) →
          RowKept row row' ∧ RowStep now m before row row' := by
      intro row' hindex hassets htask' hclaimed hstatus
      exact ⟨⟨hindex, fun hrow => hassets.trans hrow, fun h => absurd h hstatus⟩,
        .kept htask' (.inr hheld) hclaimed⟩
    split_ifs
    all_goals exact hlate _ rfl rfl rfl rfl (by simp)

/-- What a closure does to the rows. -/
theorem closure_rowsStep {result : m.Result} (hearly : ∀ row ∈ before.rows, row.Early)
    (h : m.closure u now before = .ok (result, job)) : RowsStep now m before job := by
  cases m with
  | cancelJob owner reason =>
    simp only [Mutation.closure, cancelJob] at h
    split at h
    · cases h
    next howner =>
      cases h
      refine .map (fun row hrow => ?_) rfl
      unfold cancelRow
      split
      next hcancels =>
        exact ⟨⟨rfl, id, fun h => by rcases h with h | h | h <;> cases h⟩,
          .canceled owner reason rfl (not_not.mp howner) hcancels rfl⟩
      next => exact ⟨⟨rfl, id, hearly row hrow⟩, .kept rfl (.inl rfl) rfl⟩
  | recoverStaleCreatingRows cutoff =>
    cases h
    refine .map (fun row hrow => ?_) rfl
    unfold recoverRow
    split
    next hstale =>
      have htask : row.taskId = "" := by
        simp only [isStale, Bool.and_eq_true, decide_eq_true_eq] at hstale
        exact hstale.1.2
      exact ⟨⟨rfl, id, fun _ => htask⟩, .queued rfl htask⟩
    next => exact ⟨⟨rfl, id, hearly row hrow⟩, .kept rfl (.inl rfl) rfl⟩
  | claimNextRow =>
    have hqueued : ∀ row, isDue now row = true → row.status = .queued := fun row hdue => by
      simp only [isDue, Bool.and_eq_true, decide_eq_true_eq] at hdue
      exact hdue.1
    simp only [Mutation.closure, claimNextRow] at h
    split at h
    · cases h
      exact .refl hearly
    split at h
    · cases h
      refine .updateFirst hearly (fun row hrow hp => ?_) rfl
      rw [Bool.and_eq_true] at hp
      have htask : row.taskId = "" := hearly row hrow (.inl (hqueued row hp.1))
      exact ⟨⟨rfl, id, fun _ => htask⟩, .claimed rfl rfl htask rfl⟩
    -- no due row has its images: the first one without them is asked for them
    split at h
    · cases h
      refine .updateFirst hearly (fun row hrow hp => ?_) rfl
      rw [Bool.and_eq_true] at hp
      have htask : row.taskId = "" := hearly row hrow (.inl (hqueued row hp.1))
      exact ⟨⟨rfl, id, fun _ => htask⟩, .asked hp.2 htask rfl⟩
    · cases h
      exact .refl hearly
  | markRowAssetsReady owner rowIndex imageFiles imageNames =>
    simp only [Mutation.closure, markRowAssetsReady] at h
    split at h
    · cases h
    split at h
    · cases h
    split at h
    · cases h
    next found hfound =>
      split_ifs at h with htask
      cases h
      intro row' hrow'
      rcases mem_updateFirst hrow' with hmem | ⟨row, hrow, rfl⟩
      · exact RowsStep.refl hearly row' hmem
      · obtain rfl := Option.some.inj (hfound.symm.trans hrow)
        have hempty : found.taskId = "" := not_not.mp htask
        exact ⟨found, List.mem_of_find?_eq_some hfound,
          ⟨rfl, fun _ => lacksAssets_readyRow, fun _ => hempty⟩, .queued rfl hempty⟩
  | finishRowCreation rowIndex taskId =>
    simp only [Mutation.closure, finishRowCreation] at h
    split at h
    · cases h
    next =>
      cases h
      refine .updateFirst hearly (fun row hrow hp => ?_) rfl
      have hindex : row.index = rowIndex := by simpa using hp
      refine ⟨⟨rfl, id, fun h => by rcases h with h | h | h <;> cases h⟩, ?_⟩
      exact .attached taskId (by rw [hindex]) rfl rfl
  | failOrRequeueRow rowIndex error retry =>
    simp only [Mutation.closure, failOrRequeueRow] at h
    split at h
    · cases h
      exact .refl hearly
    next found hfound =>
      split at h
      · cases h
        exact .refl hearly
      next hopen =>
        cases h
        intro row' hrow'
        rw [finishJobIfTerminal_rows] at hrow'
        rcases mem_updateFirst hrow' with hmem | ⟨row, hrow, rfl⟩
        · exact RowsStep.refl hearly row' hmem
        · obtain rfl := Option.some.inj (hfound.symm.trans hrow)
          have hindex : found.index = rowIndex := by
            simpa using List.find?_some hfound
          refine ⟨found, List.mem_of_find?_eq_some hfound, ?_⟩
          unfold failRow
          dsimp only
          split
          next => exact ⟨⟨rfl, id, fun _ => rfl⟩, .queued rfl rfl⟩
          next hgiven =>
            refine ⟨⟨rfl, id, fun _ => rfl⟩, ?_⟩
            exact .failed error retry (by rw [hindex]) (by simpa using hopen) hgiven rfl
  | reconcileJob payloads =>
    cases h
    exact .map (f := reconcileRow now payloads)
      (fun row hrow => reconcileRow_step (hearly row hrow)) (finishJobIfTerminal_rows ..)

/-- What a mutation does to the rows. -/
theorem mutateJob_rowsStep {result : m.Result} (hearly : ∀ row ∈ before.rows, row.Early)
    (h : mutateJob now (m.closure u now) before = .ok (result, job)) : RowsStep now m before job := by
  unfold mutateJob at h
  split at h
  · cases h
  next result' job' hclosure =>
    cases h
    obtain ⟨stamp, hrows, hdata, -⟩ := stampChanges_rows now before job'
    intro row'' hrow''
    rw [hrows] at hrow''
    obtain ⟨row', hrow', rfl⟩ := List.mem_map.mp hrow''
    obtain ⟨row, hrow, hkept, hstep⟩ := closure_rowsStep hearly hclosure row' hrow'
    exact ⟨row, hrow, hkept.stamped (hdata row'), hstep.stamped (hdata row')⟩

/-- A closure keeps the id of the job, and only a cancellation cancels it. -/
theorem closure_job {result : m.Result} (h : m.closure u now before = .ok (result, job)) :
    job.id = before.id ∧
      (job.canceledAt = before.canceledAt ∧ (∀ owner reason, m ≠ .cancelJob owner reason) ∨
        job.canceledAt = some now) := by
  cases m with
  | cancelJob owner reason =>
    simp only [Mutation.closure, cancelJob] at h
    split at h <;> cases h
    exact ⟨rfl, .inr rfl⟩
  | recoverStaleCreatingRows cutoff =>
    cases h
    exact ⟨rfl, .inl ⟨rfl, by simp⟩⟩
  | claimNextRow =>
    simp only [Mutation.closure, claimNextRow] at h
    split at h
    · cases h
      exact ⟨rfl, .inl ⟨rfl, by simp⟩⟩
    split at h
    · cases h
      exact ⟨rfl, .inl ⟨rfl, by simp⟩⟩
    split at h <;> cases h <;> exact ⟨rfl, .inl ⟨rfl, by simp⟩⟩
  | markRowAssetsReady owner rowIndex imageFiles imageNames =>
    simp only [Mutation.closure, markRowAssetsReady] at h
    split at h
    · cases h
    split at h
    · cases h
    split at h
    · cases h
    split_ifs at h
    cases h
    exact ⟨rfl, .inl ⟨rfl, by simp⟩⟩
  | finishRowCreation rowIndex taskId =>
    simp only [Mutation.closure, finishRowCreation] at h
    split at h <;> cases h
    exact ⟨rfl, .inl ⟨rfl, by simp⟩⟩
  | failOrRequeueRow rowIndex error retry =>
    simp only [Mutation.closure, failOrRequeueRow] at h
    split at h
    · cases h
      exact ⟨rfl, .inl ⟨rfl, by simp⟩⟩
    split at h
    · cases h
      exact ⟨rfl, .inl ⟨rfl, by simp⟩⟩
    · cases h
      exact ⟨finishJobIfTerminal_id, .inl ⟨finishJobIfTerminal_canceledAt, by simp⟩⟩
  | reconcileJob payloads =>
    cases h
    exact ⟨finishJobIfTerminal_id, .inl ⟨finishJobIfTerminal_canceledAt, by simp⟩⟩

/-- A mutation keeps the id of the job and the indices of its rows. -/
theorem mutateJob_keeps {result : m.Result}
    (h : mutateJob now (m.closure u now) before = .ok (result, job)) :
    job.id = before.id ∧ job.rows.map (·.index) = before.rows.map (·.index) := by
  unfold mutateJob at h
  split at h
  · cases h
  next result' job' hclosure =>
    cases h
    have hstamps := closure_keepsStamps hclosure
    obtain ⟨stamp, hrows, hdata, -⟩ := stampChanges_rows now before job'
    have hsame := stampChanges_data now before job'
    refine ⟨(congrArg JobData.id hsame).trans (closure_job hclosure).1, ?_⟩
    rw [hrows, List.map_map]
    have hindex : ∀ row, (stamp row).index = row.index := fun row =>
      congrArg RowData.index (hdata row)
    have hfirst : job'.rows.map ((·.index) ∘ stamp) = job'.rows.map (·.index) :=
      List.map_congr_left fun row _ => hindex row
    rw [hfirst]
    exact map_eq_of_forall₂ (hstamps.rows.imp fun _ _ h => h.1)

/-- A job stays canceled, and is canceled by its cancellation. -/
theorem mutateJob_canceledAt {result : m.Result}
    (h : mutateJob now (m.closure u now) before = .ok (result, job)) :
    (before.canceledAt ≠ none → job.canceledAt ≠ none) ∧
      ∀ owner reason, m = .cancelJob owner reason → job.canceledAt ≠ none := by
  unfold mutateJob at h
  split at h
  · cases h
  next result' job' hclosure =>
    cases h
    have hstamped : (stampChanges now before job').canceledAt = job'.canceledAt :=
      congrArg JobData.canceledAt (stampChanges_data now before job')
    rw [hstamped]
    rcases (closure_job hclosure).2 with ⟨hsame, hother⟩ | hnow
    · rw [hsame]
      exact ⟨id, fun owner reason hm => absurd hm (hother owner reason)⟩
    · rw [hnow]
      exact ⟨fun _ => Option.some_ne_none now, fun _ _ _ => Option.some_ne_none now⟩

/-- Rows that are canceled without a task are in a canceled job. -/
def StopsWithJob (job : Job) : Prop :=
  ∀ row ∈ job.rows, row.status = .canceled → row.taskId = "" → job.canceledAt ≠ none

/-- No row of a new job is canceled. -/
theorem Made.stops (h : Made u job) : StopsWithJob job := by
  have hrows : ∀ row ∈ job.rows, row.status = .queued ∨ row.status = .running := by
    cases h with
    | @createJob _ _ now spec _ h =>
      simp only [Batch.createJob] at h
      split at h
      · cases h
      · cases h
        exact forall_enumerate (f := RowSpec.row u now) (fun _ _ => .inl rfl) 1 spec.rows
    | @createRetryJob _ _ now _ retries _ h =>
      simp only [Batch.createRetryJob] at h
      split at h
      · cases h
      · cases h
        have hrunning : ∀ row ∈ enumerate (Retry.row u now) 1 retries, row.status = .running :=
          forall_enumerate (P := fun row => row.status = .running) (fun _ _ => rfl) 1 retries
        exact fun row hrow => .inr (hrunning row (List.mem_of_mem_filter hrow))
  intro row hrow hstatus
  rcases hrows row hrow with hopen | hopen <;> cases hopen.symm.trans hstatus

theorem mutateJob_stops {result : m.Result} (hearly : ∀ row ∈ before.rows, row.Early)
    (hstops : StopsWithJob before)
    (h : mutateJob now (m.closure u now) before = .ok (result, job)) : StopsWithJob job := by
  obtain ⟨hstays, hcancels⟩ := mutateJob_canceledAt h
  intro row' hrow' hstatus' htask'
  obtain ⟨row, hrow, -, hstep⟩ := mutateJob_rowsStep hearly h row' hrow'
  cases hstep with
  | kept htask hstatus hclaimed =>
    rw [htask] at htask'
    have hsame := hstatus.resolve_right (not_not.mpr htask')
    exact hstays (hstops row hrow (hsame ▸ hstatus') htask')
  | canceled owner reason hm => exact hcancels owner reason hm
  | queued hstatus => cases hstatus.symm.trans hstatus'
  | claimed hm hstatus => cases hstatus.symm.trans hstatus'
  | asked hrow htask hstatus => cases hstatus.symm.trans hstatus'
  | attached t hm htask hstatus => cases hstatus.symm.trans hstatus'
  | failed error retry hm hrow hgiven hstatus => cases hstatus.symm.trans hstatus'

/-- A row that is being created has been, since the same claim, or has just been claimed. -/
theorem RowStep.creating (hstep : RowStep now m before row row') (hearly : row'.Early)
    (hstatus' : row'.status = .creating) :
    row.status = .creating ∧ row.claimedAt = row'.claimedAt ∨
      m = .claimNextRow ∧ row'.claimedAt = some (some now) := by
  cases hstep with
  | kept htask hstatus hclaimed =>
    have hempty : row.taskId = "" := htask.symm.trans (hearly (.inr (.inr hstatus')))
    have hsame := hstatus.resolve_right (not_not.mpr hempty)
    exact .inl ⟨hsame.symm.trans hstatus', hclaimed.symm⟩
  | claimed hm hstatus htask hclaimed => exact .inr ⟨hm, hclaimed⟩
  | queued hstatus => cases hstatus.symm.trans hstatus'
  | canceled owner reason hm howner hrow hstatus => cases hstatus.symm.trans hstatus'
  | asked hrow htask hstatus => cases hstatus.symm.trans hstatus'
  | attached t hm htask hstatus => cases hstatus.symm.trans hstatus'
  | failed error retry hm hrow hgiven hstatus => cases hstatus.symm.trans hstatus'

/-- The row that is claimed for a creation has its images. -/
theorem claimNextRow_claim {claim : Claim}
    (h : mutateJob now ((Mutation.claimNextRow).closure u now) before = .ok (some claim, job))
    (hassets : claim.awaitingAssets = false) :
    claim.job.id = before.id ∧ claim.row.claimedAt = some (some now) ∧
      ∃ row ∈ before.rows, claim.row.index = row.index ∧ lacksAssets row = false := by
  unfold mutateJob at h
  split at h
  · cases h
  next result' job' hclosure =>
    cases h
    simp only [Mutation.closure, claimNextRow] at hclosure
    split at hclosure
    · cases hclosure
    split at hclosure
    next row hfound =>
      cases hclosure
      have hp := List.find?_some hfound
      rw [Bool.and_eq_true, Bool.not_eq_true'] at hp
      exact ⟨rfl, rfl, row, List.mem_of_find?_eq_some hfound, rfl, hp.2⟩
    next =>
      split at hclosure
      · cases hclosure
        cases hassets
      · cases hclosure

end

end FetchTask.Batch
