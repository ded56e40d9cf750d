import FetchTask.Batch
import FetchTask.Lib.Stamped

/-!
Progress of a batch job, as its clients follow it.

A mutation stamps the rows that it changes, and only those, with a revision of
its own. So a client that has seen the job at some revision needs only the rows
stamped later, whatever was done to the job in between.
-/

namespace FetchTask.Batch

open Runs Stamped

/-- The jobs that the program makes. -/
inductive Made (u : Chars) : Job → Prop
  | createJob {fresh ownerTokenHash : String} {now : Int} {spec : JobSpec} {job : Job}
      (h : createJob u now fresh ownerTokenHash spec = .ok job) : Made u job
  | createRetryJob {jobId ownerTokenHash : String} {now : Int} {source : Job}
      {retries : List Retry} {job : Job}
      (h : createRetryJob u now jobId ownerTokenHash source retries = .ok job) : Made u job

/-! ### New jobs -/

section Made

variable {u : Chars} {now : Int} {job : Job}

theorem map_index_enumerate {α : Type} {f : Int → α → Row} (hf : ∀ index a, (f index a).index = index)
    (start : Int) (as : List α) :
    ∀ row ∈ enumerate f start as, start ≤ row.index := by
  induction as generalizing start with
  | nil =>
    intro row hrow
    cases hrow
  | cons a as ih =>
    intro row hrow
    rcases List.mem_cons.mp hrow with rfl | htail
    · rw [hf]
    · have := ih (start + 1) row htail
      omega

theorem nodup_index_enumerate {α : Type} {f : Int → α → Row}
    (hf : ∀ index a, (f index a).index = index) (start : Int) (as : List α) :
    ((enumerate f start as).map (·.index)).Nodup := by
  induction as generalizing start with
  | nil => exact List.nodup_nil
  | cons a as ih =>
    rw [enumerate, List.map_cons, List.nodup_cons, hf]
    refine ⟨fun hmem => ?_, ih (start + 1)⟩
    obtain ⟨row, hrow, hindex⟩ := List.mem_map.mp hmem
    have := map_index_enumerate hf (start + 1) as row hrow
    omega

/-- What every operation keeps of a job: its rows have an index each, and no revision is below 1. -/
structure Indexed (job : Job) : Prop where
  nodup : (job.rows.map (·.index)).Nodup
  revision : 1 ≤ job.revision

theorem Made.indexed (h : Made u job) : Indexed job := by
  cases h with
  | createJob h =>
    simp only [Batch.createJob] at h
    split at h
    · cases h
    · cases h
      exact ⟨nodup_index_enumerate (fun _ _ => rfl) 1 _, by simp⟩
  | @createRetryJob _ _ now _ retries _ h =>
    simp only [Batch.createRetryJob] at h
    split at h
    · cases h
    · cases h
      have hall := nodup_index_enumerate (f := Retry.row u now) (fun _ _ => rfl) 1 retries
      exact ⟨hall.sublist (List.filter_sublist.map _), by simp⟩

end Made

/-! ### One mutation -/

section Mutation

variable {u : Chars} {now : Int} {before job : Job}

/-- What a closure leaves to `_mutate_job`. -/
structure KeepsStamps (before job : Job) : Prop where
  revision : job.revision = before.revision
  updatedAt : job.updatedAt = before.updatedAt
  rows : List.Forall₂ (fun row row' =>
    row'.index = row.index ∧ row'.revision = row.revision ∧ row'.updatedAt = row.updatedAt)
      before.rows job.rows

theorem forall₂_map {R : Row → Row → Prop} {f : Row → Row} (h : ∀ row, R row (f row))
    (rows : List Row) : List.Forall₂ R rows (rows.map f) :=
  List.forall₂_map_right_iff.mpr (List.forall₂_same.mpr fun row _ => h row)

theorem forall₂_updateFirst {R : Row → Row → Prop} {p : Row → Bool} {f : Row → Row}
    {rows : List Row} (hrefl : ∀ row, R row row)
    (h : ∀ row, rows.find? p = some row → R row (f row)) :
    List.Forall₂ R rows (updateFirst p f rows) := by
  induction rows with
  | nil => exact .nil
  | cons row rows ih =>
    unfold updateFirst
    split
    · rename_i hp
      exact .cons (h row (List.find?_cons_of_pos hp)) (List.forall₂_same.mpr fun row _ => hrefl row)
    · rename_i hp
      refine .cons (hrefl row) (ih fun r hr => h r ?_)
      rw [List.find?_cons_of_neg hp]
      exact hr

theorem KeepsStamps.map {f : Row → Row} {status : JobStatus} {canceledAt : Stamp}
    (h : ∀ row, (f row).index = row.index ∧ (f row).revision = row.revision ∧
      (f row).updatedAt = row.updatedAt) :
    KeepsStamps before { before with rows := before.rows.map f, status, canceledAt } :=
  ⟨rfl, rfl, forall₂_map h before.rows⟩

theorem KeepsStamps.updateFirst {p : Row → Bool} {f : Row → Row} {status : JobStatus}
    (h : ∀ row, (f row).index = row.index ∧ (f row).revision = row.revision ∧
      (f row).updatedAt = row.updatedAt) :
    KeepsStamps before { before with rows := Batch.updateFirst p f before.rows, status } :=
  ⟨rfl, rfl, forall₂_updateFirst (fun _ => ⟨rfl, rfl, rfl⟩) fun row _ => h row⟩

theorem KeepsStamps.finishJobIfTerminal (h : KeepsStamps before job) :
    KeepsStamps before (finishJobIfTerminal now job) := by
  unfold Batch.finishJobIfTerminal
  split
  · exact ⟨h.revision, h.updatedAt, h.rows⟩
  · split
    · exact ⟨h.revision, h.updatedAt, h.rows⟩
    · exact ⟨h.revision, h.updatedAt, h.rows⟩

theorem KeepsStamps.refl (job : Job) : KeepsStamps job job :=
  ⟨rfl, rfl, List.forall₂_same.mpr fun _ _ => ⟨rfl, rfl, rfl⟩⟩

theorem reconcileRow_stamps (payloads : TaskPayloads) (row : Row) :
    (reconcileRow now payloads row).index = row.index ∧
      (reconcileRow now payloads row).revision = row.revision ∧
      (reconcileRow now payloads row).updatedAt = row.updatedAt := by
  unfold reconcileRow
  split
  · exact ⟨rfl, rfl, rfl⟩
  · split_ifs <;> exact ⟨rfl, rfl, rfl⟩

/-- No closure adds, removes or moves a row, and none touches a stamp. -/
theorem closure_keepsStamps {m : Mutation} {result : m.Result}
    (h : m.closure u now before = .ok (result, job)) : KeepsStamps before job := by
  cases m with
  | cancelJob ownerTokenHash reason =>
    simp only [Mutation.closure, cancelJob] at h
    split at h
    · cases h
    · cases h
      exact .map fun row => by unfold cancelRow; split <;> exact ⟨rfl, rfl, rfl⟩
  | recoverStaleCreatingRows cutoff =>
    cases h
    exact .map fun row => by unfold recoverRow; split <;> exact ⟨rfl, rfl, rfl⟩
  | claimNextRow =>
    simp only [Mutation.closure, claimNextRow] at h
    split at h
    · cases h
      exact .refl before
    · split at h
      · cases h
        exact .updateFirst fun _ => ⟨rfl, rfl, rfl⟩
      · split at h
        · cases h
          exact .updateFirst fun _ => ⟨rfl, rfl, rfl⟩
        · cases h
          exact .refl before
  | markRowAssetsReady ownerTokenHash rowIndex imageFiles imageNames =>
    simp only [Mutation.closure, markRowAssetsReady] at h
    split at h
    · cases h
    · split at h
      · cases h
      · split at h
        · cases h
        · split_ifs at h
          cases h
          exact .updateFirst fun _ => ⟨rfl, rfl, rfl⟩
  | finishRowCreation rowIndex taskId =>
    simp only [Mutation.closure, finishRowCreation] at h
    split at h
    · cases h
    · cases h
      exact .updateFirst fun _ => ⟨rfl, rfl, rfl⟩
  | failOrRequeueRow rowIndex error retry =>
    simp only [Mutation.closure, failOrRequeueRow] at h
    split at h
    · cases h
      exact .refl before
    · split at h
      · cases h
        exact .refl before
      · cases h
        refine KeepsStamps.finishJobIfTerminal (.updateFirst fun row => ?_)
        unfold failRow
        dsimp only
        split <;> exact ⟨rfl, rfl, rfl⟩
  | reconcileJob payloads =>
    cases h
    exact .finishJobIfTerminal (.map (reconcileRow_stamps payloads))

/-! ### Stamps -/

theorem previousRow_of_mem {row : Row} (hnodup : (before.rows.map (·.index)).Nodup)
    (hrow : row ∈ before.rows) : previousRow before row.index = some row := by
  refine find?_key (fun row : Row => row.index) (List.mem_reverse.mpr hrow) ?_
  rw [List.map_reverse]
  exact List.nodup_reverse.mpr hnodup

/-- The comparison of `_mutate_job` finds the rows that a closure has changed. -/
theorem rowChanged_iff {row row' : Row} (hnodup : (before.rows.map (·.index)).Nodup)
    (hrow : row ∈ before.rows) (hindex : row'.index = row.index) :
    rowChanged before row' = true ↔ row'.toRowData ≠ row.toRowData := by
  rw [rowChanged, hindex, previousRow_of_mem hnodup hrow, decide_eq_true_iff, Option.map_some]
  exact not_congr ⟨fun h => (Option.some.inj h).symm, fun h => congrArg some h.symm⟩

theorem Row.eq_of_data {row row' : Row} (hdata : row'.toRowData = row.toRowData)
    (hrevision : row'.revision = row.revision) (hupdated : row'.updatedAt = row.updatedAt) :
    row' = row := by
  cases row
  cases row'
  simp only at hdata hrevision hupdated
  rw [hdata, hrevision, hupdated]

theorem Job.eq_of_data {job job' : Job} (hdata : job'.toJobData = job.toJobData)
    (hrows : job'.rows = job.rows) (hrevision : job'.revision = job.revision)
    (hupdated : job'.updatedAt = job.updatedAt) : job' = job := by
  cases job
  cases job'
  simp only at hdata hrows hrevision hupdated
  rw [hdata, hrows, hrevision, hupdated]

/-- How a mutation leaves a job: as it was, or at the next revision, with the rows that have
changed stamped with it. -/
theorem stampChanges_cases (now : Int) (hnodup : (before.rows.map (·.index)).Nodup)
    (h : KeepsStamps before job) :
    stampChanges now before job = before ∨
      ((stampChanges now before job).revision = max 0 before.revision + 1 ∧
        Follows (fun row : Row => row.index) (·.revision) (max 0 before.revision) before.rows
          (stampChanges now before job).rows) := by
  have hrows : List.Forall₂ (fun row row' : Row => row'.index = row.index ∧
      (rowChanged before row' = false → row' = row)) before.rows job.rows := by
    have hmem := (List.forall₂_and_left before.rows job.rows).mpr ⟨fun _ hrow => hrow, h.rows⟩
    refine hmem.imp ?_
    rintro row row' ⟨hrow, hindex, hrevision, hupdated⟩
    refine ⟨hindex, fun hsame => Row.eq_of_data ?_ hrevision hupdated⟩
    by_contra hne
    rw [(rowChanged_iff hnodup hrow hindex).mpr hne] at hsame
    cases hsame
  unfold stampChanges
  split
  · refine .inr ⟨rfl, ?_⟩
    refine List.forall₂_map_right_iff.mpr (hrows.imp fun row row' hrow => ?_)
    split
    · exact ⟨hrow.1, .inr (Int.lt_succ _)⟩
    · rename_i hsame
      exact ⟨hrow.1, .inl (hrow.2 (Bool.eq_false_iff.mpr hsame))⟩
  · rename_i hnone
    obtain ⟨hany, hdata⟩ := not_or.mp hnone
    have hsame : job.rows = before.rows := by
      have hall : ∀ row ∈ job.rows, rowChanged before row = false := by simpa using hany
      have hmap := map_eq_map_of_forall₂ (f := id) (g := id) hrows fun row row' hrow hmem =>
        (hrow.2 (hall row' hmem)).symm
      rw [List.map_id, List.map_id] at hmap
      exact hmap.symm
    exact .inl (Job.eq_of_data (not_not.mp hdata) hsame h.revision h.updatedAt)

/-- A mutation keeps the indexes, and unless it changes nothing it moves to the next revision. -/
theorem after_cases (u : Chars) (now : Int) (m : Mutation) (h : Indexed job) :
    m.after u now job = job ∨
      ((m.after u now job).revision = job.revision + 1 ∧
        Follows (fun row : Row => row.index) (·.revision) job.revision job.rows
          (m.after u now job).rows) := by
  have hmax : max 0 job.revision = job.revision := max_eq_right (by have := h.revision; omega)
  unfold Mutation.after mutateJob
  cases hresult : m.closure u now job with
  | error e => exact .inl rfl
  | ok answer =>
    obtain ⟨result, job'⟩ := answer
    have hcases := stampChanges_cases now h.nodup (closure_keepsStamps hresult)
    rwa [hmax] at hcases

theorem Indexed.after (u : Chars) (now : Int) (m : Mutation) (h : Indexed job) : Indexed (m.after u now job) := by
  rcases after_cases u now m h with hsame | ⟨hrevision, hfollows⟩
  · rwa [hsame]
  · refine ⟨?_, by have := h.revision; omega⟩
    rw [hfollows.keys]
    exact h.nodup

end Mutation

/-! ### Any number of mutations -/

section Runs

variable (u : Chars)

/-- A mutation at its time. -/
def progress (m : Mutation × Int) (job : Job) : Job := m.1.after u m.2 job

variable {u} {job : Job} (ms : List (Mutation × Int))

theorem Indexed.run (h : Indexed job) : Indexed (run (progress u) ms job) := by
  induction ms generalizing job with
  | nil => exact h
  | cons m ms ih => exact ih (h.after u m.2 m.1)

/-- After any number of mutations, the rows are those of the revision before them, or stamped
later. -/
theorem run_follows (h : Indexed job) :
    job.revision ≤ (run (progress u) ms job).revision ∧
      Follows (fun row : Row => row.index) (·.revision) job.revision job.rows
        (run (progress u) ms job).rows := by
  induction ms generalizing job with
  | nil => exact ⟨le_refl _, .refl _ _⟩
  | cons m ms ih =>
    obtain ⟨hle, hfollows⟩ := @ih (progress u m job) (h.after u m.2 m.1)
    rcases after_cases u m.2 m.1 h with hsame | ⟨hrevision, hfirst⟩
    · rw [show progress u m job = job from hsame] at hle hfollows
      rw [Runs.run, show progress u m job = job from hsame]
      exact ⟨hle, hfollows⟩
    · have hstep : (progress u m job).revision = job.revision + 1 := hrevision
      have hgrow : job.revision ≤ (progress u m job).revision := by omega
      exact ⟨hgrow.trans hle, Follows.trans hgrow hfirst hfollows⟩

/-- A job that is at the same revision is the same job. -/
theorem run_eq_of_revision (h : Indexed job)
    (hsame : (run (progress u) ms job).revision = job.revision) :
    run (progress u) ms job = job := by
  induction ms generalizing job with
  | nil => rfl
  | cons m ms ih =>
    have hle := (run_follows (u := u) ms (h.after u m.2 m.1)).1
    rcases after_cases u m.2 m.1 h with hkept | ⟨hrevision, -⟩
    · rw [Runs.run, show progress u m job = job from hkept] at hsame ⊢
      exact ih h hsame
    · have hrest : (run (progress u) ms (progress u m job)).revision = job.revision := hsame
      have hfirst : (progress u m job).revision = job.revision + 1 := hrevision
      have hlater : (progress u m job).revision ≤
        (run (progress u) ms (progress u m job)).revision := hle
      omega

end Runs

/-! ### Deltas -/

/-- What a client does with the rows of a delta. -/
def applyDelta (rows news : List PublicRow) : List PublicRow :=
  merge (fun row : PublicRow => row.index) rows news

/-- What a client gets who has seen `known` and asks again when the job is `current`. -/
structure DeltaComplete (known current : Job) : Prop where
  rows : applyDelta (publicJob known none).rows
      (publicJob current (some (publicJob known none).revision)).rows =
    (publicJob current none).rows
  counts : (publicJob current (some (publicJob known none).revision)).counts =
    (publicJob current none).counts
  total : (publicJob current (some (publicJob known none).revision)).total =
    (publicJob current none).total
  /-- Revisions never decrease. -/
  revision : (publicJob known none).revision ≤ (publicJob current none).revision
  /-- They increase whenever something public has changed. -/
  changed : (publicJob current none).rows ≠ (publicJob known none).rows ∨
    (publicJob current none).status ≠ (publicJob known none).status →
      (publicJob known none).revision < (publicJob current none).revision

/-- Whatever is done to a job between two looks at it, the delta of the second look brings the
rows of the first one up to date. -/
theorem delta_complete (u : Chars) (job : Job) (hjob : Made u job)
    (seen later : List (Mutation × Int)) :
    DeltaComplete (run (progress u) seen job) (run (progress u) (seen ++ later) job) := by
  rw [run_append]
  have hknown : Indexed (run (progress u) seen job) := hjob.indexed.run seen
  generalize run (progress u) seen job = known at hknown
  obtain ⟨hle, hfollows⟩ := run_follows (u := u) later hknown
  have hcurrent : Indexed (run (progress u) later known) := hknown.run later
  have hsame := run_eq_of_revision (u := u) later hknown
  generalize run (progress u) later known = current at hle hfollows hcurrent hsame
  have hpublic : ∀ {job : Job}, Indexed job → (publicJob job none).revision = job.revision :=
    fun h => max_eq_right (by have := h.revision; omega)
  have hfull : ∀ job : Job, (publicJob job none).rows = job.rows.map publicRow := by
    intro job
    simp [publicJob]
  refine ⟨?_, rfl, rfl, ?_, fun hdiff => ?_⟩
  · have hdelta : (publicJob current (some known.revision)).rows =
        (current.rows.filter fun row => decide (known.revision < row.revision)).map publicRow := by
      have hnotfull : ¬ max 0 current.revision < known.revision := by omega
      simp only [publicJob, Option.all_some, Option.getD_some, decide_eq_false hnotfull,
        Bool.false_or]
    rw [hpublic hknown, hfull, hfull, hdelta]
    exact merge_changes publicRow (fun row : PublicRow => row.index) hfollows
      hcurrent.nodup
  · rw [hpublic hknown, hpublic hcurrent]
    exact hle
  · rw [hpublic hknown, hpublic hcurrent]
    refine lt_of_le_of_ne hle fun heq => ?_
    rw [hsame heq.symm] at hdiff
    simp at hdiff

/-- A job of two rows. -/
def sampleJob : Job where
  id := "0123456789abcdef0123456789abcdef"
  ownerTokenHash := "a"
  status := .queued
  ratio := "9:16"
  duration := 15
  platform := "dola"
  model := "Seedance 2.0"
  concurrency := 1
  referenceId := ""
  referenceCount := 0
  referenceBatchId := ""
  referenceIsRealPerson := false
  createdAt := 0
  rows := [RowSpec.row .ascii 0 1 { prompt := "p" }, RowSpec.row .ascii 0 2 { prompt := "q" }]
  revision := 1
  updatedAt := 0

theorem sampleJob_made : Made .ascii sampleJob := by
  have h : createJob .ascii 0 "0123456789abcdef0123456789abcdef" "a"
      { rows := [{ prompt := "p" }, { prompt := "q" }], ratio := "9:16", concurrency := 1 } =
        .ok sampleJob := by
    rw [createJob, if_neg (by decide +kernel)]
    rfl
  exact .createJob h

/-- The first row is claimed; a client looks; its task is attached, and the second is claimed. -/
theorem delta_complete_claims :
    DeltaComplete (run (progress .ascii) [(.claimNextRow, 1)] sampleJob)
      (run (progress .ascii)
        ([(.claimNextRow, 1)] ++ [(.finishRowCreation 1 "t", 2), (.claimNextRow, 3)]) sampleJob) :=
  delta_complete .ascii sampleJob sampleJob_made [(.claimNextRow, 1)]
    [(.finishRowCreation 1 "t", 2), (.claimNextRow, 3)]

end FetchTask.Batch
