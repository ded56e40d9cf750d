import FetchTask.Batch.Progress

/-!
The status of a batch job and the statuses of its rows.

Five operations write the status of a job, each by a rule of its own. What they
agree on is that a job has ended exactly when all of its rows have. That a row
has ended is not for good: a creation that was under way when its row was
canceled still attaches its task.
-/

namespace FetchTask.Batch

open Runs

/-! ### The law -/

/-- The job has ended exactly when every row has. -/
def FollowsRows (job : Job) : Prop :=
  job.status.isTerminal = true ↔ ∀ row ∈ job.rows, row.status.isTerminal = true

/-- The mutations that may change a row that has ended: the attachment of its task, and an upload
for a row without a task. -/
def Mutation.MayRevive : Mutation → Row → Prop
  | .finishRowCreation rowIndex _, row => row.index = rowIndex
  | .markRowAssetsReady _ rowIndex _ _, row => row.index = rowIndex ∧ row.taskId = ""
  | _, _ => False

/-- The mutations that set the status by `_finish_job_if_terminal`. -/
def Mutation.recomputes : Mutation → Bool
  | .failOrRequeueRow .. | .reconcileJob _ => true
  | _ => false

def JobStatus.isOpen (s : JobStatus) : Bool := s = .queued || s = .running

theorem JobStatus.ne_of_not_open {s : JobStatus} (h : s.isOpen = false) : s ≠ .queued ∧ s ≠ .running := by
  constructor <;> rintro rfl <;> cases h

/-- What is left of a canceled job: rows that run and rows that have ended. -/
structure Settled (job : Job) : Prop where
  rows : ∀ row ∈ job.rows, row.status = .running ∨ row.status.isTerminal = true
  status : job.status ≠ .queued

/-- What a mutation does to rows that have ended and to a canceled job. -/
structure StepRight (m : Mutation) (before after : Job) : Prop where
  rows : List.Forall₂ (fun row row' =>
    row.status.isTerminal = true → m.MayRevive row ∨ row' = row) before.rows after.rows
  canceled : before.canceledAt.isSome = true → after.canceledAt.isSome = true
  status : before.canceledAt.isSome = true → after.status ≠ .queued ∧
    (after.status = .running → before.status = .running ∨ m.recomputes = true)

def BatchOp.StepRight (u : Chars) (now : Int) : BatchOp → Jobs → Prop
  | .mutateJob jobId m, jobs => ∀ job ∈ jobs.get? jobId,
      ∀ job' ∈ (handle u now (.mutateJob jobId m) jobs).2.get? jobId, Batch.StepRight m job job'
  | _, _ => True

/-! ### The invariant -/

/-- A row before its creation has no task, and a canceled job has no such row. -/
structure JobInv (job : Job) : Prop where
  indexed : Indexed job
  nonempty : job.rows ≠ []
  unattached : ∀ row ∈ job.rows,
    row.status = .queued ∨ row.status = .awaitingAssets ∨ row.status = .creating → row.taskId = ""
  follows : FollowsRows job
  settled : job.canceledAt.isSome = true → Settled job

theorem forall_enumerate {α : Type} {f : Int → α → Row} {P : Row → Prop}
    (h : ∀ index a, P (f index a)) (start : Int) (as : List α) :
    ∀ row ∈ enumerate f start as, P row := by
  induction as generalizing start with
  | nil =>
    intro row hrow
    cases hrow
  | cons a as ih =>
    intro row hrow
    rcases List.mem_cons.mp hrow with rfl | htail
    · exact h start a
    · exact ih (start + 1) row htail

/-- No row of a new job has ended. -/
theorem Made.inv {u : Chars} {job : Job} (h : Made u job) (hrows : job.rows ≠ []) : JobInv job := by
  have hindexed := h.indexed
  obtain ⟨row, hrow⟩ := List.exists_mem_of_ne_nil _ hrows
  cases h with
  | @createJob _ _ now spec _ h =>
    have hqueued := forall_enumerate (f := RowSpec.row u now)
      (P := fun row => row.status = .queued ∧ row.taskId = "") (fun _ _ => ⟨rfl, rfl⟩) 1 spec.rows
    simp only [Batch.createJob] at h
    split at h
    · cases h
    · cases h
      refine ⟨hindexed, hrows, fun row hrow _ => (hqueued row hrow).2, ?_, fun h => by cases h⟩
      refine iff_of_false (by simp [JobStatus.isTerminal]) fun hall => ?_
      have hterminal := hall row hrow
      rw [(hqueued row hrow).1] at hterminal
      cases hterminal
  | @createRetryJob _ _ now _ retries _ h =>
    have hrunning : ∀ row ∈ retryRows u now retries, row.status = .running := fun row hrow =>
      forall_enumerate (f := Retry.row u now) (P := fun row => row.status = .running)
        (fun _ _ => rfl) 1 retries row (List.mem_of_mem_filter hrow)
    simp only [Batch.createRetryJob] at h
    split at h
    · cases h
    · cases h
      refine ⟨hindexed, hrows, fun row hrow hstatus => ?_, ?_, fun h => by cases h⟩
      · rw [hrunning row hrow] at hstatus
        simp at hstatus
      · refine iff_of_false (by simp [JobStatus.isTerminal]) fun hall => ?_
        have hterminal := hall row hrow
        rw [hrunning row hrow] at hterminal
        cases hterminal

/-! ### The closures -/

section Closures

variable {u : Chars} {now : Int} {before job : Job} {row row' : Row}

theorem mem_updateFirst {p : Row → Bool} {f : Row → Row} {rows : List Row}
    (h : row' ∈ updateFirst p f rows) :
    row' ∈ rows ∨ ∃ row, rows.find? p = some row ∧ row' = f row := by
  induction rows with
  | nil => cases h
  | cons row rows ih =>
    unfold updateFirst at h
    split at h
    · rename_i hp
      rcases List.mem_cons.mp h with rfl | htail
      · exact .inr ⟨row, List.find?_cons_of_pos hp, rfl⟩
      · exact .inl (List.mem_cons_of_mem _ htail)
    · rename_i hp
      rcases List.mem_cons.mp h with rfl | htail
      · exact .inl List.mem_cons_self
      · rw [List.find?_cons_of_neg hp]
        rcases ih htail with hmem | hfound
        · exact .inl (List.mem_cons_of_mem _ hmem)
        · exact .inr hfound

theorem updateFirst_mem {p : Row → Bool} {f : Row → Row} {rows : List Row}
    (h : rows.find? p = some row) : f row ∈ updateFirst p f rows := by
  induction rows with
  | nil => cases h
  | cons r rows ih =>
    unfold updateFirst
    split
    · rename_i hp
      rw [List.find?_cons_of_pos hp, Option.some.injEq] at h
      rw [h]
      exact List.mem_cons_self
    · rename_i hp
      rw [List.find?_cons_of_neg hp] at h
      exact List.mem_cons_of_mem _ (ih h)

/-- The common recomputation follows the rows. -/
theorem finishJobIfTerminal_follows (hrows : job.rows ≠ []) :
    FollowsRows (finishJobIfTerminal now job) := by
  unfold finishJobIfTerminal FollowsRows
  by_cases hall : job.rows.all (·.status.isTerminal) = true
  · rw [if_pos ⟨hrows, hall⟩]
    refine iff_of_true ?_ (by simpa using hall)
    show JobStatus.isTerminal (if _ then _ else _) = true
    split <;> rfl
  · rw [if_neg fun h => hall h.2]
    have hsome : ¬ ∀ row ∈ job.rows, row.status.isTerminal = true := by simpa using hall
    split
    · exact iff_of_false (by simp [JobStatus.isTerminal]) hsome
    · exact iff_of_false (by simp [JobStatus.isTerminal]) hsome

@[simp] theorem finishJobIfTerminal_rows : (finishJobIfTerminal now job).rows = job.rows := by
  unfold finishJobIfTerminal
  split
  · rfl
  · split <;> rfl

@[simp] theorem finishJobIfTerminal_canceledAt :
    (finishJobIfTerminal now job).canceledAt = job.canceledAt := by
  unfold finishJobIfTerminal
  split
  · rfl
  · split <;> rfl

/-- Where rows run or have ended, the common recomputation queues nothing. -/
theorem finishJobIfTerminal_settled
    (h : ∀ row ∈ job.rows, row.status = .running ∨ row.status.isTerminal = true)
    (hrows : job.rows ≠ []) : Settled (finishJobIfTerminal now job) := by
  refine ⟨by rwa [finishJobIfTerminal_rows], ?_⟩
  unfold finishJobIfTerminal
  by_cases hall : job.rows.all (·.status.isTerminal) = true
  · rw [if_pos ⟨hrows, hall⟩]
    show (if _ then _ else _) ≠ JobStatus.queued
    split <;> exact nofun
  · have hany : job.rows.any (fun row => row.status = .creating || row.status = .running) = true := by
      obtain ⟨row, hrow, hopen⟩ := List.all_eq_false.mp (Bool.eq_false_iff.mpr hall)
      exact List.any_eq_true.mpr ⟨row, hrow, by simp [(h row hrow).resolve_right hopen]⟩
    rw [if_neg fun h => hall h.2, if_pos hany]
    exact nofun

/-- What a closure has to do for the law. -/
structure ClosureRight (m : Mutation) (before job : Job) : Prop extends StepRight m before job where
  unattached : ∀ row ∈ job.rows,
    row.status = .queued ∨ row.status = .awaitingAssets ∨ row.status = .creating → row.taskId = ""
  follows : FollowsRows job
  settled : job.canceledAt.isSome = true → Settled job

/-- A status that has not ended, over a row that has not ended. -/
theorem followsRows_of_open (hstatus : job.status.isTerminal = false) (hrow : row ∈ job.rows)
    (hopen : row.status.isTerminal = false) : FollowsRows job := by
  refine iff_of_false (by simp [hstatus]) fun hall => ?_
  rw [hall row hrow] at hopen
  cases hopen

theorem JobInv.stepRight (m : Mutation) (h : JobInv job) : StepRight m job job :=
  ⟨List.forall₂_same.mpr fun _ _ _ => .inr rfl, id, fun hset => ⟨(h.settled hset).status, .inl⟩⟩

theorem JobInv.closureRight (m : Mutation) (h : JobInv job) : ClosureRight m job job :=
  ⟨h.stepRight m, h.unattached, h.follows, h.settled⟩

theorem ne_nil_of_forall₂ {R : Row → Row → Prop} {rows rows' : List Row}
    (h : List.Forall₂ R rows rows') (hrows : rows ≠ []) : rows' ≠ [] := by
  cases h with
  | nil => exact absurd rfl hrows
  | cons => exact List.cons_ne_nil _ _

theorem cancelRow_of_ended {reason : String} (h : row.status.isTerminal = true) :
    cancelRow now reason row = row := by
  refine if_neg fun hcancels => ?_
  simp only [cancelsRow, Bool.and_eq_true, Bool.or_eq_true, decide_eq_true_iff] at hcancels
  rcases hcancels.1 with (hstatus | hstatus) | hstatus <;> rw [hstatus] at h <;> cases h

theorem cancelRow_early {reason : String} (h : (cancelRow now reason row).status = .queued ∨
    (cancelRow now reason row).status = .awaitingAssets ∨
    (cancelRow now reason row).status = .creating) : cancelRow now reason row = row := by
  refine if_neg fun hcancels => ?_
  simp [cancelRow, hcancels] at h

/-- A cancellation leaves nothing between the rows that run and those that have ended. -/
theorem cancelRow_status {reason : String}
    (h : row.status = .queued ∨ row.status = .awaitingAssets ∨ row.status = .creating →
      row.taskId = "") :
    (cancelRow now reason row).status = .running ∨
      (cancelRow now reason row).status.isTerminal = true := by
  unfold cancelRow
  split
  · exact .inr rfl
  · rename_i hkept
    cases hstatus : row.status with
    | running => exact .inl rfl
    | completed | failed | canceled => exact .inr rfl
    | queued | awaitingAssets | creating =>
      rw [hstatus] at h
      have htask := h (by simp)
      simp [cancelsRow, hstatus, htask] at hkept

theorem cancelJob_right {ownerTokenHash reason : String} {result : Unit} (hbefore : JobInv before)
    (h : cancelJob now ownerTokenHash reason before = .ok (result, job)) :
    ClosureRight (.cancelJob ownerTokenHash reason) before job := by
  unfold cancelJob at h
  split at h
  · cases h
  · cases h
    have hclosed : ∀ running : Bool,
        (if running then JobStatus.canceling else .canceled).isOpen = false := by decide
    have hstatus := JobStatus.ne_of_not_open
      (hclosed ((before.rows.map (cancelRow now reason)).any (·.status = .running)))
    refine ⟨⟨forall₂_map (fun row hended => .inr (cancelRow_of_ended hended)) _, fun _ => rfl,
      fun _ => ⟨hstatus.1, fun hrunning => absurd hrunning hstatus.2⟩⟩,
      fun row hrow hearly => ?_, ?_, fun _ => ⟨fun row hrow => ?_, hstatus.1⟩⟩
    · obtain ⟨old, hold, rfl⟩ := List.mem_map.mp hrow
      have hsame := cancelRow_early hearly
      rw [hsame] at hearly ⊢
      exact hbefore.unattached old hold hearly
    · by_cases hany : (before.rows.map (cancelRow now reason)).any (·.status = .running) = true
      · obtain ⟨row, hrow, hrunning⟩ := List.any_eq_true.mp hany
        refine followsRows_of_open ?_ hrow ?_
        · show JobStatus.isTerminal (if _ then _ else _) = false
          rw [if_pos hany]
          rfl
        · rw [of_decide_eq_true hrunning]
          rfl
      · refine iff_of_true ?_ fun row hrow => ?_
        · show JobStatus.isTerminal (if _ then _ else _) = true
          rw [if_neg hany]
          rfl
        · obtain ⟨old, hold, rfl⟩ := List.mem_map.mp hrow
          rcases cancelRow_status (hbefore.unattached old hold) with hrunning | hended
          · exact absurd (List.any_eq_true.mpr ⟨_, hrow, by simpa using hrunning⟩) hany
          · exact hended
    · obtain ⟨old, hold, rfl⟩ := List.mem_map.mp hrow
      exact cancelRow_status (hbefore.unattached old hold)

theorem isStale_iff {cutoff : Int} : isStale cutoff row = true ↔
    row.status = .creating ∧ row.taskId = "" ∧
      (row.claimedAt.getD none).all (fun time => decide (time ≤ cutoff)) = true := by
  simp [isStale, and_assoc]

theorem recoverStaleCreatingRows_right {cutoff : Int} {result : Nat} (hbefore : JobInv before)
    (h : recoverStaleCreatingRows cutoff before = .ok (result, job)) :
    ClosureRight (.recoverStaleCreatingRows cutoff) before job := by
  cases h
  have hended : ∀ row, (recoverRow cutoff row).status.isTerminal = row.status.isTerminal := by
    intro row
    unfold recoverRow
    split
    · rename_i hstale
      rw [(isStale_iff.mp hstale).1]
      rfl
    · rfl
  have hkept : ∀ row, row.status = .running ∨ row.status.isTerminal = true →
      recoverRow cutoff row = row := by
    rintro row hrow
    refine if_neg fun hstale => ?_
    rw [(isStale_iff.mp hstale).1] at hrow
    rcases hrow with hrow | hrow <;> cases hrow
  refine ⟨⟨forall₂_map (fun row hrow => .inr (hkept row (.inr hrow))) _, id,
    fun hset => ⟨(hbefore.settled hset).status, .inl⟩⟩, fun row hrow hearly => ?_, ?_,
    fun hset => ⟨fun row hrow => ?_, (hbefore.settled hset).status⟩⟩
  · obtain ⟨old, hold, rfl⟩ := List.mem_map.mp hrow
    unfold recoverRow at hearly ⊢
    split
    · rename_i hstale
      exact (isStale_iff.mp hstale).2.1
    · rename_i hfresh
      rw [if_neg hfresh] at hearly
      exact hbefore.unattached old hold hearly
  · have hfollows := hbefore.follows
    unfold FollowsRows at hfollows ⊢
    simpa only [List.forall_mem_map, hended] using hfollows
  · obtain ⟨old, hold, rfl⟩ := List.mem_map.mp hrow
    have hleft := (hbefore.settled hset).rows old hold
    rw [hkept old hleft]
    exact hleft

/-- A closure that opens the status over a row that it has opened. -/
theorem updateFirst_right {m : Mutation} {p : Row → Bool} {f : Row → Row} {status : JobStatus}
    (hbefore : JobInv before) (hfind : before.rows.find? p = some row)
    (hkept : row.status.isTerminal = true → m.MayRevive row)
    (hearly : (f row).status = .queued ∨ (f row).status = .awaitingAssets ∨
      (f row).status = .creating → (f row).taskId = "")
    (hrow : (f row).status.isTerminal = false) (hstatus : status.isTerminal = false)
    (hcanceled : before.canceledAt.isSome = true → status.isOpen = false ∧ (f row).status = .running) :
    ClosureRight m before { before with rows := updateFirst p f before.rows, status } := by
  have hclosed := fun hset => JobStatus.ne_of_not_open (hcanceled hset).1
  refine ⟨⟨forall₂_updateFirst (fun _ _ => .inr rfl) fun old hold hended => .inl ?_, id,
    fun hset => ⟨(hclosed hset).1, fun hrunning => absurd hrunning (hclosed hset).2⟩⟩,
    fun old hold => ?_, ?_, fun hset => ⟨fun old hold => ?_, (hclosed hset).1⟩⟩
  · cases hfind.symm.trans hold
    exact hkept hended
  · rcases mem_updateFirst hold with hmem | ⟨found, hfound, rfl⟩
    · exact hbefore.unattached old hmem
    · cases hfind.symm.trans hfound
      exact hearly
  · exact followsRows_of_open hstatus (updateFirst_mem hfind) hrow
  · rcases mem_updateFirst hold with hmem | ⟨found, hfound, rfl⟩
    · exact (hbefore.settled hset).rows old hmem
    · cases hfind.symm.trans hfound
      exact .inl (hcanceled hset).2

theorem isDue_queued (h : isDue now row = true) : row.status = .queued := by
  simp only [isDue, Bool.and_eq_true, decide_eq_true_iff] at h
  exact h.1

theorem claimNextRow_right {result : Option Claim} (hbefore : JobInv before)
    (h : claimNextRow now before = .ok (result, job)) : ClosureRight .claimNextRow before job := by
  have hqueued : ∀ row b, (isDue now row && b) = true → row.status = .queued :=
    fun row b hrow => isDue_queued ((Bool.and_eq_true _ _).mp hrow).1
  have hopen : ∀ row b, (isDue now row && b) = true → row.status.isTerminal = true → False := by
    intro row b hrow hended
    rw [hqueued row b hrow] at hended
    cases hended
  unfold claimNextRow at h
  split at h
  · cases h
    exact hbefore.closureRight _
  · rename_i hguard
    have hcanceled : ¬ before.canceledAt.isSome = true := fun hset => hguard (.inr hset)
    split at h
    · rename_i row hfind
      have hrow := List.find?_some hfind
      have htask := hbefore.unattached row (List.mem_of_find?_eq_some hfind)
        (.inl (hqueued row _ hrow))
      cases h
      exact updateFirst_right hbefore hfind (fun hended => (hopen row _ hrow hended).elim)
        (fun _ => htask) rfl rfl fun hset => absurd hset hcanceled
    · split at h
      · rename_i row hfind
        have hrow := List.find?_some hfind
        have htask := hbefore.unattached row (List.mem_of_find?_eq_some hfind)
          (.inl (hqueued row _ hrow))
        cases h
        exact updateFirst_right hbefore hfind (fun hended => (hopen row _ hrow hended).elim)
          (fun _ => htask) rfl rfl fun hset => absurd hset hcanceled
      · cases h
        exact hbefore.closureRight _

theorem markRowAssetsReady_right {ownerTokenHash : String} {rowIndex : Int}
    {imageFiles imageNames : List String} {result : Row} (hbefore : JobInv before)
    (h : markRowAssetsReady u now ownerTokenHash rowIndex imageFiles imageNames before =
      .ok (result, job)) :
    ClosureRight (.markRowAssetsReady ownerTokenHash rowIndex imageFiles imageNames) before
      job := by
  unfold markRowAssetsReady at h
  split at h
  · cases h
  · split at h
    · cases h
    · rename_i hactive
      split at h
      · cases h
      · rename_i row hfind
        split_ifs at h with htask
        cases h
        have hindex : row.index = rowIndex := by simpa using List.find?_some hfind
        exact updateFirst_right hbefore hfind (fun _ => ⟨hindex, not_not.mp htask⟩)
          (fun _ => not_not.mp htask) rfl rfl fun hset => absurd hset hactive

theorem finishRowCreation_right {rowIndex : Int} {taskId : String} {result : Unit}
    (hbefore : JobInv before)
    (h : finishRowCreation now rowIndex taskId before = .ok (result, job)) :
    ClosureRight (.finishRowCreation rowIndex taskId) before job := by
  unfold finishRowCreation at h
  split at h
  · cases h
  · rename_i row hfind
    cases h
    have hindex : row.index = rowIndex := by simpa using List.find?_some hfind
    refine updateFirst_right hbefore hfind (fun _ => hindex) (fun hearly => ?_) rfl ?_ fun hset => ?_
    · simp [attachTask] at hearly
    · split <;> rfl
    · rw [if_pos hset]
      exact ⟨rfl, rfl⟩

/-- A closure that ends with the common recomputation. -/
theorem finish_right {m : Mutation} (hm : m.recomputes = true)
    (hrows : job.rows ≠ []) (hcanceled : job.canceledAt = before.canceledAt)
    (hkept : List.Forall₂ (fun row row' =>
      row.status.isTerminal = true → m.MayRevive row ∨ row' = row) before.rows job.rows)
    (hearly : ∀ row ∈ job.rows,
      row.status = .queued ∨ row.status = .awaitingAssets ∨ row.status = .creating →
        row.taskId = "")
    (hsettled : before.canceledAt.isSome = true →
      ∀ row ∈ job.rows, row.status = .running ∨ row.status.isTerminal = true) :
    ClosureRight m before (finishJobIfTerminal now job) := by
  have hleft : before.canceledAt.isSome = true → Settled (finishJobIfTerminal now job) :=
    fun hset => finishJobIfTerminal_settled (hsettled hset) hrows
  refine ⟨⟨?_, fun hset => ?_, fun hset => ⟨(hleft hset).status, fun _ => .inr hm⟩⟩, ?_,
    finishJobIfTerminal_follows hrows, fun hset => hleft ?_⟩
  · rw [finishJobIfTerminal_rows]
    exact hkept
  · rw [finishJobIfTerminal_canceledAt, hcanceled]
    exact hset
  · rw [finishJobIfTerminal_rows]
    exact hearly
  · rwa [finishJobIfTerminal_canceledAt, hcanceled] at hset

theorem failRow_taskId {error : String} {retry : Bool} : (failRow now error retry row).taskId = "" := by
  unfold failRow
  dsimp only
  split <;> rfl

theorem failOrRequeueRow_right {rowIndex : Int} {error : String} {retry : Bool} {result : Unit}
    (hbefore : JobInv before)
    (h : failOrRequeueRow now rowIndex error retry before = .ok (result, job)) :
    ClosureRight (.failOrRequeueRow rowIndex error retry) before job := by
  unfold failOrRequeueRow at h
  split at h
  · cases h
    exact hbefore.closureRight _
  · rename_i row hfind
    split at h
    · cases h
      exact hbefore.closureRight _
    · rename_i hopen
      cases h
      have hkept : List.Forall₂ (fun row row' => row.status.isTerminal = true →
          (Mutation.failOrRequeueRow rowIndex error retry).MayRevive row ∨ row' = row) before.rows
            (updateFirst (·.index = rowIndex)
              (failRow now error (retry && before.canceledAt.isNone)) before.rows) := by
        refine forall₂_updateFirst (fun _ _ => .inr rfl) fun old hold hended => ?_
        cases hfind.symm.trans hold
        exact absurd hended hopen
      refine finish_right rfl (ne_nil_of_forall₂ hkept hbefore.nonempty) rfl hkept ?_ ?_
      · intro old hold hearly
        rcases mem_updateFirst hold with hmem | ⟨found, -, rfl⟩
        · exact hbefore.unattached old hmem hearly
        · exact failRow_taskId
      · intro hset old hold
        rcases mem_updateFirst hold with hmem | ⟨found, -, rfl⟩
        · exact (hbefore.settled hset).rows old hmem
        · -- a canceled job does not try again
          rw [Option.isNone_eq_false_iff.mpr hset, Bool.and_false]
          exact .inr rfl

theorem reconcileRow_early {payloads : TaskPayloads}
    (h : (reconcileRow now payloads row).status = .queued ∨
      (reconcileRow now payloads row).status = .awaitingAssets ∨
      (reconcileRow now payloads row).status = .creating) : reconcileRow now payloads row = row := by
  unfold reconcileRow at h ⊢
  split
  · rfl
  · rename_i task hpayload
    rw [hpayload] at h
    dsimp only at h
    split_ifs at h <;> simp at h

theorem reconcileRow_settled {payloads : TaskPayloads}
    (h : row.status = .running ∨ row.status.isTerminal = true) :
    (reconcileRow now payloads row).status = .running ∨
      (reconcileRow now payloads row).status.isTerminal = true := by
  unfold reconcileRow
  split
  · exact h
  · split_ifs
    · exact .inr rfl
    · exact .inr rfl
    · exact .inr rfl
    · exact .inl rfl

theorem reconcileJob_right {payloads : TaskPayloads} {result : Unit} (hbefore : JobInv before)
    (h : reconcileJob now payloads before = .ok (result, job)) :
    ClosureRight (.reconcileJob payloads) before job := by
  cases h
  have hkept : List.Forall₂ (fun row row' => row.status.isTerminal = true →
      (Mutation.reconcileJob payloads).MayRevive row ∨ row' = row) before.rows
        (before.rows.map (reconcileRow now payloads)) := by
    refine forall₂_map (fun row hended => .inr ?_) _
    have hnone : reconcilesRow payloads row = none := if_pos (.inr hended)
    rw [reconcileRow, hnone]
  refine finish_right rfl (ne_nil_of_forall₂ hkept hbefore.nonempty) rfl hkept ?_ ?_
  · intro row hrow hearly
    obtain ⟨old, hold, rfl⟩ := List.mem_map.mp hrow
    have hsame := reconcileRow_early hearly
    rw [hsame] at hearly ⊢
    exact hbefore.unattached old hold hearly
  · intro hset row hrow
    obtain ⟨old, hold, rfl⟩ := List.mem_map.mp hrow
    exact reconcileRow_settled ((hbefore.settled hset).rows old hold)

theorem closure_right {m : Mutation} {result : m.Result} (hbefore : JobInv before)
    (h : m.closure u now before = .ok (result, job)) : ClosureRight m before job := by
  cases m with
  | cancelJob => exact cancelJob_right hbefore h
  | recoverStaleCreatingRows => exact recoverStaleCreatingRows_right hbefore h
  | claimNextRow => exact claimNextRow_right hbefore h
  | markRowAssetsReady => exact markRowAssetsReady_right hbefore h
  | finishRowCreation => exact finishRowCreation_right hbefore h
  | failOrRequeueRow => exact failOrRequeueRow_right hbefore h
  | reconcileJob => exact reconcileJob_right hbefore h

/-! ### Stamps -/

/-- A stamp touches nothing but stamps. -/
theorem stampChanges_rows (now : Int) (before job : Job) : ∃ stamp : Row → Row,
    (stampChanges now before job).rows = job.rows.map stamp ∧
      (∀ row, (stamp row).toRowData = row.toRowData) ∧
      ∀ row, rowChanged before row = false → stamp row = row := by
  unfold stampChanges
  split
  · refine ⟨_, rfl, fun row => ?_, fun row hsame => ?_⟩
    · split <;> rfl
    · rw [if_neg (by simp [hsame])]
  · exact ⟨id, (List.map_id _).symm, fun _ => rfl, fun _ _ => rfl⟩

theorem stampChanges_data (now : Int) (before job : Job) :
    (stampChanges now before job).toJobData = job.toJobData := by
  unfold stampChanges
  split <;> rfl

theorem ClosureRight.stamped {m : Mutation} (hbefore : JobInv before)
    (hstamps : KeepsStamps before job) (h : ClosureRight m before job)
    (hindexed : Indexed (stampChanges now before job)) :
    JobInv (stampChanges now before job) ∧ StepRight m before (stampChanges now before job) := by
  obtain ⟨stamp, hrows, hdata, hsame⟩ := stampChanges_rows now before job
  have hjob := stampChanges_data now before job
  have hstatus : (stampChanges now before job).status = job.status := congrArg JobData.status hjob
  have hcanceled : (stampChanges now before job).canceledAt = job.canceledAt :=
    congrArg JobData.canceledAt hjob
  have hrow : ∀ row, (stamp row).status = row.status := fun row =>
    congrArg RowData.status (hdata row)
  have htask : ∀ row, (stamp row).taskId = row.taskId := fun row =>
    congrArg RowData.taskId (hdata row)
  refine ⟨⟨hindexed, ?_, fun row hmem hearly => ?_, ?_, fun hset => ?_⟩,
    ⟨?_, fun hset => ?_, fun hset => ?_⟩⟩
  · rw [hrows]
    simpa using ne_nil_of_forall₂ hstamps.rows hbefore.nonempty
  · rw [hrows] at hmem
    obtain ⟨old, hold, rfl⟩ := List.mem_map.mp hmem
    rw [hrow] at hearly
    rw [htask]
    exact h.unattached old hold hearly
  · have hfollows := h.follows
    unfold FollowsRows at hfollows ⊢
    rw [hstatus, hrows]
    simpa only [List.forall_mem_map, hrow] using hfollows
  · rw [hcanceled] at hset
    have hleft := h.settled hset
    refine ⟨?_, by rw [hstatus]; exact hleft.status⟩
    rw [hrows]
    simpa only [List.forall_mem_map, hrow] using hleft.rows
  · -- A row that the closure has left alone is not stamped.
    rw [hrows]
    have hmem := (List.forall₂_and_left before.rows job.rows).mpr ⟨fun _ hrow => hrow, h.rows⟩
    refine List.forall₂_map_right_iff.mpr (hmem.imp ?_)
    rintro row row' ⟨hin, hkept⟩ hended
    rcases hkept hended with hrevive | rfl
    · exact .inl hrevive
    · refine .inr (hsame row' ?_)
      have hchanged : rowChanged before row' = true ↔ row'.toRowData ≠ row'.toRowData :=
        rowChanged_iff hbefore.indexed.nodup hin rfl
      exact Bool.eq_false_iff.mpr fun hne => hchanged.mp hne rfl
  · rw [hcanceled]
    exact h.canceled hset
  · rw [hstatus]
    exact h.status hset

/-- One mutation of one job. -/
theorem mutateJob_right {m : Mutation} {result : m.Result} (hbefore : JobInv before)
    (h : mutateJob now (m.closure u now) before = .ok (result, job)) :
    JobInv job ∧ StepRight m before job := by
  have hafter : m.after u now before = job := by
    unfold Mutation.after
    rw [h]
  have hindexed : Indexed job := hafter ▸ hbefore.indexed.after u now m
  unfold mutateJob at h
  split at h
  · cases h
  · rename_i hclosure
    cases h
    exact (closure_right hbefore hclosure).stamped hbefore (closure_keepsStamps hclosure) hindexed

end Closures

/-! ### Runs -/

section Runs

variable (u : Chars)

/-- Every job of the store meets the invariant. -/
def JobsInv (jobs : Jobs) : Prop := ∀ jobId, ∀ job ∈ jobs.get? jobId, JobInv job

variable {u} {now : Int} {jobs : Jobs}

theorem handle_mutateJob_none {jobId : String} {m : Mutation} (h : jobs.get? jobId = none) :
    (handle u now (.mutateJob jobId m) jobs).2 = jobs := by
  simp only [handle, h]

theorem handle_mutateJob_error {jobId : String} {m : Mutation} {job : Job} {e : BatchError}
    (h : jobs.get? jobId = some job) (hresult : mutateJob now (m.closure u now) job = .error e) :
    (handle u now (.mutateJob jobId m) jobs).2 = jobs := by
  simp only [handle, h, hresult]

theorem handle_mutateJob_ok {jobId : String} {m : Mutation} {job job' : Job} {result : m.Result}
    (h : jobs.get? jobId = some job)
    (hresult : mutateJob now (m.closure u now) job = .ok (result, job')) :
    (handle u now (.mutateJob jobId m) jobs).2 = jobs.set jobId job' := by
  simp only [handle, h, hresult]

theorem handle_inv (o : BatchOp) (h : JobsInv jobs) : JobsInv (handle u now o jobs).2 := by
  cases o with
  | now => exact h
  | listJobs ownerTokenHash activeOnly limit => exact h
  | mutateJob jobId m =>
    cases hjob : jobs.get? jobId with
    | none =>
      rw [handle_mutateJob_none hjob]
      exact h
    | some job =>
      cases hresult : mutateJob now (m.closure u now) job with
      | error e =>
        rw [handle_mutateJob_error hjob hresult]
        exact h
      | ok answer =>
        obtain ⟨result, job'⟩ := answer
        rw [handle_mutateJob_ok hjob hresult]
        intro id after hafter
        rw [Dict.get?_set] at hafter
        split at hafter
        · cases hafter
          exact (mutateJob_right (h jobId job hjob) hresult).1
        · exact h id after hafter

theorem handle_stepRight (o : BatchOp) (h : JobsInv jobs) : o.StepRight u now jobs := by
  cases o with
  | now => trivial
  | listJobs ownerTokenHash activeOnly limit => trivial
  | mutateJob jobId m =>
    intro job hjob job' hjob'
    cases hresult : mutateJob now (m.closure u now) job with
    | error e =>
      rw [handle_mutateJob_error hjob hresult] at hjob'
      cases hjob.symm.trans hjob'
      exact (h jobId job hjob).stepRight m
    | ok answer =>
      obtain ⟨result, after⟩ := answer
      rw [handle_mutateJob_ok hjob hresult, Dict.get?_set_self] at hjob'
      cases hjob'
      exact (mutateJob_right (h jobId job hjob) hresult).2

/-- No call is in progress. -/
def Jobs.atRest (jobs : Jobs) : BatchConfig where
  shared := jobs
  threads := fun _ => .ret ()

/-- From any store of new jobs that have rows, and in any interleaving of the operations: a job
has ended exactly when its rows have; a row that has ended is changed by an attachment or an
upload only; a canceled job stays canceled and is never queued again, and no operation but the
common recomputation sets it running again. -/
theorem status_follows_rows (u : Chars) (labels : List (Label BatchCall Int)) (jobs : Jobs)
    (hnew : ∀ jobId, ∀ job ∈ jobs.get? jobId, Made u job ∧ job.rows ≠ []) :
    Throughout (step u) (fun c => ∀ jobId, ∀ job ∈ c.shared.get? jobId,
        FollowsRows job ∧ (job.canceledAt.isSome = true → job.status ≠ .queued)) labels
        jobs.atRest ∧
      AllSteps (step u) (OnAct fun _ now o c => o.StepRight u now c.shared) labels
        jobs.atRest := by
  have hstart : JobsInv jobs := fun jobId job hjob =>
    (hnew jobId job hjob).1.inv (hnew jobId job hjob).2
  have hall : Throughout (step u) (fun c => JobsInv c.shared) labels jobs.atRest :=
    throughout_of_step (Config.step_inv fun now o jobs h => handle_inv o h) hstart
  refine ⟨hall.mono fun c hc jobId job hjob =>
    ⟨(hc jobId job hjob).follows, fun hset => ((hc jobId job hjob).settled hset).status⟩, ?_⟩
  exact hall.allSteps fun label c hc => onAct_of_forall (fun _ now o => handle_stepRight o hc) label

end Runs

/-! ### What canceled jobs and rows do -/

section Sample

def sampleJobs : Jobs := Dict.empty.set sampleJob.id sampleJob

/-- A call that thread 0 performs to its end. -/
def call (request : BatchCall) (operations : Nat) (now : Int) : List (Label BatchCall Int) :=
  .spawn 0 request :: List.replicate operations (.act 0 now)

/-- The first row runs when the job is canceled; then it is reconciled while its task runs. -/
def reopening : List (Label BatchCall Int) :=
  call (.claimNextRow "a") 2 1 ++ call (.finishRowCreation sampleJob.id 1 "t") 1 2 ++
    call (.cancelJob sampleJob.id "a" "") 1 3 ++
    call (.reconcileJob sampleJob.id fun _ => some ⟨.running, "", ""⟩) 1 4

/-- The first row is being created when the job is canceled; then its task is attached. -/
def reviving : List (Label BatchCall Int) :=
  call (.claimNextRow "a") 2 1 ++ call (.cancelJob sampleJob.id "a" "") 1 2 ++
    call (.finishRowCreation sampleJob.id 1 "t") 1 3

theorem status_follows_rows_reopening :
    Throughout (step .ascii) (fun c => ∀ jobId, ∀ job ∈ c.shared.get? jobId,
        FollowsRows job ∧ (job.canceledAt.isSome = true → job.status ≠ .queued))
        reopening sampleJobs.atRest ∧
      AllSteps (step .ascii) (OnAct fun _ now o c => o.StepRight .ascii now c.shared) reopening
        sampleJobs.atRest := by
  refine status_follows_rows .ascii reopening sampleJobs fun jobId job hjob => ?_
  have hsample : job = sampleJob := by
    rw [sampleJobs, Dict.get?_set] at hjob
    split at hjob
    · exact (Option.some.inj hjob).symm
    · cases hjob
  rw [hsample]
  exact ⟨sampleJob_made, List.cons_ne_nil _ _⟩

/-- No mutation changes a row that has ended. -/
def BatchOp.KeepsEnded (u : Chars) (now : Int) : BatchOp → Jobs → Prop
  | .mutateJob jobId m, jobs => ∀ job ∈ jobs.get? jobId,
      ∀ job' ∈ (handle u now (.mutateJob jobId m) jobs).2.get? jobId,
        List.Forall₂ (fun row row' : Row => row.status.isTerminal = true → row' = row) job.rows
          job'.rows
  | _, _ => True

instance (u : Chars) (now : Int) (o : BatchOp) (jobs : Jobs) :
    Decidable (o.KeepsEnded u now jobs) := by
  unfold BatchOp.KeepsEnded
  split <;> infer_instance

theorem emptyJob_made : Made .ascii { sampleJob with rows := [] } := by
  have h : createJob .ascii 0 sampleJob.id "a" { rows := [], ratio := "9:16", concurrency := 1 } =
      .ok { sampleJob with rows := [] } := by
    rw [createJob, if_neg (by decide +kernel)]
    rfl
  exact .createJob h

/-- A job without rows is queued; the status of a canceled job opens again; and a canceled row
changes. -/
theorem canceled_job_reopens :
    (Made .ascii { sampleJob with rows := [] } ∧ ¬ FollowsRows { sampleJob with rows := [] }) ∧
      Made .ascii sampleJob ∧ ¬ Throughout (step .ascii) (fun c => ∀ jobId, ∀ job ∈ c.shared.get? jobId,
        job.canceledAt.isSome = true → job.status.isOpen = false) reopening sampleJobs.atRest ∧
      ¬ AllSteps (step .ascii) (OnAct fun _ now o c => o.KeepsEnded .ascii now c.shared) reviving
        sampleJobs.atRest := by
  refine ⟨⟨emptyJob_made, fun h => ?_⟩, sampleJob_made, fun h => ?_, ?_⟩
  · exact Bool.false_ne_true (h.mpr fun row hrow => by cases hrow)
  · have hend : ((run (step .ascii) reopening sampleJobs.atRest).shared.get? sampleJob.id).map
        (fun job => (job.canceledAt.isSome, job.status.isOpen)) = some (true, true) := by
      decide +kernel
    obtain ⟨job, hjob, hvalues⟩ := Option.map_eq_some_iff.mp hend
    have hclosed := h.final sampleJob.id job hjob (congrArg Prod.fst hvalues)
    rw [show job.status.isOpen = true from congrArg Prod.snd hvalues] at hclosed
    cases hclosed
  · decide +kernel

end Sample

end FetchTask.Batch
