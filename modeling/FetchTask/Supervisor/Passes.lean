import FetchTask.Supervisor.Pool

/-!
The supervisor over whole runs.

Whatever the workers and the watchdog do in between, the pool stays within its
limit, a worker that has left the table never takes a task again, and every pass
leaves the workers that are at a task alone. A pass that does not raise leaves as
many live workers as it wants, or as are at a task when these are more.
-/

namespace FetchTask.Supervisor

open Runs

variable {R : Rounding} {policy : Policy} {concurrency : Nat} {m m' : Manager}

/-! ### Counting -/

/-- The table without those that are in a part of it. -/
theorem length_filter_notMem {l L : List Nat} (hl : l.Nodup) (hL : L.Sublist l) :
    (l.filter fun w => decide (w ∉ L)).length = l.length - L.length := by
  have hfilter : (l.filter fun w => decide (w ∉ L)).toFinset = l.toFinset \ L.toFinset := by
    ext w
    simp
  rw [← List.toFinset_card_of_nodup (hl.filter _), hfilter,
    Finset.card_sdiff_of_subset fun w hw => List.mem_toFinset.mpr
      (hL.subset (List.mem_toFinset.mp hw)),
    List.toFinset_card_of_nodup hl, List.toFinset_card_of_nodup (hL.nodup hl)]

namespace Manager

/-- Nobody in the table is over. -/
def Alive (m : Manager) : Prop := ∀ w ∈ m.workers, m.coroutine w ≠ .done

theorem length_busy (h : m.Kept concurrency) (halive : m.Alive) :
    (m.workers.filter fun w => m.busy w).length = m.atWork.card := by
  rw [← List.toFinset_card_of_nodup (h.nodup.filter _)]
  congr 1
  ext w
  simp only [List.mem_toFinset, List.mem_filter, mem_atWork]
  constructor
  · exact fun ⟨hmem, hbusy⟩ => ⟨hbusy, halive w hmem⟩
  · exact fun hat => ⟨h.mem_of_atWork (mem_atWork.mpr hat), hat.1⟩

theorem length_idle (h : m.Kept concurrency) (halive : m.Alive) :
    (m.workers.filter fun w => !m.busy w).length = m.workers.length - m.atWork.card := by
  have hsplit := List.length_eq_length_filter_add (l := m.workers) (m.busy ·)
  rw [length_busy h halive] at hsplit
  omega

/-- As many as are wanted stay, or as many as are at a task. -/
theorem trim_length (h : m.Kept concurrency) (halive : m.Alive) (d : Nat) :
    (m.trim d).workers.length = max (min m.workers.length (max 1 d)) m.atWork.card := by
  have hsub : (m.idleWorkersToTrim d).Sublist m.workers :=
    (List.take_sublist _ _).trans List.filter_sublist
  have hle := h.card_atWork_le
  have hidle : (m.idleWorkersToTrim d).length =
      min (m.workers.length - max 1 d) (m.workers.length - m.atWork.card) := by
    rw [idleWorkersToTrim, List.length_take, length_idle h halive]
  rw [trim, length_filter_notMem h.nodup hsub, hidle]
  omega

/-! ### One pass -/

/-- The workers that are at a task are left alone. -/
structure Spared (m m' : Manager) : Prop where
  atWork : m'.atWork = m.atWork
  coroutine : ∀ w ∈ m.atWork, m'.coroutine w = m.coroutine w

theorem Spared.of_eq (hids : m'.workerTaskIds = m.workerTaskIds)
    (hco : ∀ w, m.busy w = true → m'.coroutine w = m.coroutine w) : Spared m m' where
  atWork := by
    ext w
    rw [mem_atWork, mem_atWork, busy, busy, hids]
    exact and_congr_right fun hbusy => by rw [hco w hbusy]
  coroutine w hw := hco w (mem_atWork.mp hw).1

theorem Spared.trans {m'' : Manager} (h : Spared m m') (h' : Spared m' m'') : Spared m m'' where
  atWork := h'.atWork.trans h.atWork
  coroutine w hw := (h'.coroutine w (h.atWork ▸ hw)).trans (h.coroutine w hw)

theorem spared_dropDone : Spared m m.restartWatchdog.dropDone := by
  obtain ⟨-, hco, hids⟩ := restartWatchdog_rest (m := m)
  exact .of_eq hids fun w _ => congrFun hco w

theorem spared_trim (d : Nat) : Spared m (m.trim d) :=
  .of_eq rfl fun _ hw => trim_coroutine (notMem_idleWorkersToTrim hw)

theorem spared_grow (h : m.Kept concurrency) (d : Nat) : Spared m (m.grow d) := by
  refine .of_eq (grown d).taskIds fun w hw => ((grown d).old w ?_).1
  -- A worker with a task has been started.
  by_contra habs
  rw [(h.unborn w (Nat.not_le.mp habs)).2] at hw
  cases hw

end Manager

open Manager

/-- What a pass that does not raise leaves, when it wants `d` workers. -/
structure Fits (d : Nat) (m m' : Manager) : Prop where
  size : m'.workers.length = max d m.atWork.card
  alive : m'.Alive
  watchdog : m'.watchdog = true

theorem alive_dropDone : m.dropDone.Alive := fun _ hw => (mem_dropDone.mp hw).2

theorem alive_trim (halive : m.Alive) (d : Nat) : (m.trim d).Alive := by
  intro w hw
  obtain ⟨hmem, htrim⟩ := mem_trim.mp hw
  rw [trim_coroutine htrim]
  exact halive w hmem

/-- The part of a pass that changes the pool, on a table without those that are over. -/
theorem fits_resize (h : m.Kept concurrency) (halive : m.Alive) (hwatch : m.watchdog = true)
    {d : Nat} (hd : 1 ≤ d) : Fits d m ((m.trim d).grow d) where
  size := by
    rw [(grown d).length, trim_length h halive]
    omega
  alive := (grown d).alive (alive_trim halive d)
  watchdog := (grown d).watchdog.trans hwatch

theorem supervise_fits (hR : 999 ≤ R.exact) (hc : 1 ≤ concurrency) (h : m.Kept concurrency)
    (reading : Reading) : Fits (desired R policy concurrency reading) m
      (supervise R policy concurrency reading none m) := by
  have hkept := h.restartWatchdog.dropDone.withLevel
    (some (adaptiveWorkerLimit R policy concurrency concurrency reading.ratio).2)
  have hfits := fits_resize hkept alive_dropDone restartWatchdog_watchdog
    (one_le_desired policy hR hc reading)
  exact ⟨hfits.size.trans (by rw [← (spared_dropDone (m := m)).atWork]; rfl), hfits.alive,
    hfits.watchdog⟩

theorem supervise_spared (h : m.Kept concurrency) (reading : Reading) (fault : Option Stage) :
    Spared m (supervise R policy concurrency reading fault m) := by
  have hkept := h.restartWatchdog.dropDone.withLevel
    (some (adaptiveWorkerLimit R policy concurrency concurrency reading.ratio).2)
  have hgrow := spared_dropDone.trans (((Spared.of_eq rfl fun _ _ => rfl : Spared
    m.restartWatchdog.dropDone { m.restartWatchdog.dropDone with
      level := some (adaptiveWorkerLimit R policy concurrency concurrency reading.ratio).2 }).trans
    (spared_trim (desired R policy concurrency reading))).trans
    (spared_grow (hkept.trim _) (desired R policy concurrency reading)))
  simp only [supervise]
  split
  · exact spared_dropDone.trans (.of_eq rfl fun _ _ => rfl)
  · split
    · exact spared_dropDone.trans (.of_eq rfl fun _ _ => rfl)
    · split
      · exact hgrow.trans (.of_eq rfl fun _ _ => rfl)
      · exact hgrow

/-! ### Runs -/

theorem kept_throughout (hR : 999 ≤ R.exact) (hc : 1 ≤ concurrency) (events : List Event) :
    Throughout (step R policy concurrency) (Manager.Kept concurrency) events .new :=
  throughout_of_step (step_kept hR hc) kept_new

/-- In every run the table has no worker twice and at most as many as are configured, and every
worker that is at a task is in it. So at most that many tasks are worked on at once. -/
theorem pool_bounded (hR : 999 ≤ R.exact) (hc : 1 ≤ concurrency) (events : List Event) :
    Throughout (step R policy concurrency)
      (fun m => m.workers.Nodup ∧ m.workers.length ≤ concurrency ∧
        (∀ w ∈ m.atWork, w ∈ m.workers) ∧ m.atWork.card ≤ concurrency) events .new :=
  (kept_throughout hR hc events).mono fun _ h =>
    ⟨h.nodup, h.size, fun _ hw => h.mem_of_atWork hw, h.card_atWork_le.trans h.size⟩

/-- Every pass of a run, whatever it raises, leaves the workers at a task alone; one that does not
raise leaves a live watchdog and a table of live workers, as many as it wants or as are at a
task. -/
theorem passes_settle (hR : 999 ≤ R.exact) (hc : 1 ≤ concurrency) (events : List Event) :
    AllSteps (step R policy concurrency)
      (fun event m => ∀ reading fault, event = .pass reading fault →
        Spared m (step R policy concurrency event m) ∧
          (fault = none → Fits (desired R policy concurrency reading) m
            (step R policy concurrency event m))) events .new := by
  refine (kept_throughout hR hc events).allSteps fun event m h => ?_
  rintro reading fault rfl
  exact ⟨supervise_spared h reading fault, by rintro rfl; exact supervise_fits hR hc h reading⟩

/-- The defaults of the environment, with three workers. -/
def samplePolicy : Policy where
  memoryHighRatio := 81 / 100
  memoryCriticalRatio := 9 / 10
  minimumWorkers := 1
  one_le_minimum := le_rfl

/-- Two workers are at a task when the memory gets short. -/
def sampleEvents : List Event :=
  [.pass ⟨1 / 2, 5⟩ none, .claim 1 "a" false, .claim 3 "b" false, .pass ⟨19 / 20, 5⟩ none]

theorem sample_bounded :
    1 ≤ 3 ∧ Throughout (step (.ideal 999) samplePolicy 3)
      (fun m => m.workers.Nodup ∧ m.workers.length ≤ 3 ∧
        (∀ w ∈ m.atWork, w ∈ m.workers) ∧ m.atWork.card ≤ 3) sampleEvents .new :=
  ⟨by omega, pool_bounded le_rfl (by omega) sampleEvents⟩

theorem sample_settles :
    AllSteps (step (.ideal 999) samplePolicy 3)
      (fun event m => ∀ reading fault, event = .pass reading fault →
        Spared m (step (.ideal 999) samplePolicy 3 event m) ∧
          (fault = none → Fits (desired (.ideal 999) samplePolicy 3 reading) m
            (step (.ideal 999) samplePolicy 3 event m))) sampleEvents .new :=
  passes_settle le_rfl (by omega) sampleEvents

-- The free worker goes, and the two others stay although one would do.
example : (run (step (.ideal 999) samplePolicy 3) sampleEvents .new).workers = [1, 3] := by
  decide +kernel

/-! ### Under critical pressure -/

theorem supervise_level (reading : Reading) (fault : Option Stage)
    (hcritical : policy.memoryCriticalRatio ≤ reading.ratio) (h : m.level = some .critical) :
    (supervise R policy concurrency reading fault m).level = some .critical := by
  have hlimit : (adaptiveWorkerLimit R policy concurrency concurrency reading.ratio).2 =
      .critical := by
    simp [adaptiveWorkerLimit, hcritical]
  have hdrop : m.restartWatchdog.dropDone.level = m.level := by
    rw [Manager.dropDone, restartWatchdog]
    split <;> rfl
  simp only [supervise]
  split
  · exact hdrop.trans h
  · split
    · exact congrArg some hlimit
    · have hgrow := (grown (m := { m.restartWatchdog.dropDone with
        level := some (adaptiveWorkerLimit R policy concurrency concurrency reading.ratio).2 }.trim
          (desired R policy concurrency reading)) (desired R policy concurrency reading)).level
      have hlast := hgrow.trans (congrArg some hlimit)
      split <;> exact hlast

/-- Nobody comes to be at work by losing a task, or by a change that only ends workers. -/
theorem atWork_subset (hids : ∀ w, m'.busy w = true → m.busy w = true)
    (hco : ∀ w, m.coroutine w = .done → m'.coroutine w = .done) : m'.atWork ⊆ m.atWork := by
  intro w hw
  obtain ⟨hbusy, hdone⟩ := mem_atWork.mp hw
  exact mem_atWork.mpr ⟨hids w hbusy, fun hover => hdone (hco w hover)⟩

theorem atWork_setCoroutine_subset {worker : Nat} {c : Coroutine}
    (h : m.coroutine worker = .done → c = .done) :
    (m.setCoroutine worker c).atWork ⊆ m.atWork := by
  refine atWork_subset (fun _ hw => hw) fun w hw => ?_
  rw [coroutine_setCoroutine]
  split
  · rename_i heq
    exact h (heq ▸ hw)
  · exact hw

theorem atWork_eraseTask_subset (worker : Nat) :
    { m with workerTaskIds := m.workerTaskIds.erase worker }.atWork ⊆ m.atWork :=
  atWork_subset (fun w hw => by
    have hboth : (m.workerTaskIds.erase worker).contains w = true := hw
    rw [Dict.contains_erase, Bool.and_eq_true] at hboth
    exact hboth.2) fun _ hw => hw

/-- At the critical level no event gives anybody a task. -/
theorem step_drains (event : Event) (h : m.Kept concurrency) (hlevel : m.level = some .critical)
    (hpass : ∀ reading fault, event = .pass reading fault →
      policy.memoryCriticalRatio ≤ reading.ratio) :
    (step R policy concurrency event m).level = some .critical ∧
      (step R policy concurrency event m).atWork ⊆ m.atWork := by
  cases event with
  | pass reading fault =>
    exact ⟨supervise_level reading fault (hpass reading fault rfl) hlevel,
      (supervise_spared h reading fault).atWork.subset⟩
  | claim worker task fails =>
    have hpaused : m.memoryClaimingPaused = true := decide_eq_true hlevel
    simp [step, hpaused, hlevel]
  | finish worker fails =>
    simp only [step]
    split
    · cases fails with
      | false => exact ⟨hlevel, atWork_eraseTask_subset worker⟩
      | true => exact ⟨hlevel, atWork_setCoroutine_subset fun _ => rfl⟩
    · exact ⟨hlevel, subset_rfl⟩
  | swallow worker =>
    simp only [step]
    split
    · rename_i hat
      exact ⟨hlevel, atWork_setCoroutine_subset fun hdone => by simp [hat.1] at hdone⟩
    · exact ⟨hlevel, subset_rfl⟩
  | ends worker =>
    simp only [step]
    split
    · exact ⟨hlevel, atWork_setCoroutine_subset fun _ => rfl⟩
    · exact ⟨hlevel, subset_rfl⟩
  | cancel worker =>
    simp only [step]
    split
    · exact ⟨hlevel, atWork_setCoroutine_subset cancel_eq_done.mpr⟩
    · exact ⟨hlevel, subset_rfl⟩
  | missing worker =>
    simp only [step]
    split
    · exact ⟨hlevel, atWork_eraseTask_subset worker⟩
    · exact ⟨hlevel, subset_rfl⟩
  | watchdogDies => exact ⟨hlevel, subset_rfl⟩

/-- Once a pass has read critical memory, and as long as every further pass does, no worker takes
a task: those at work can only become fewer. -/
theorem critical_drains (hR : 999 ≤ R.exact) (hc : 1 ≤ concurrency) (before after : List Event)
    (hlevel : (run (step R policy concurrency) before .new).level = some .critical)
    (hafter : ∀ reading fault, .pass reading fault ∈ after →
      policy.memoryCriticalRatio ≤ reading.ratio) :
    Throughout (step R policy concurrency)
      (fun m => m.atWork ⊆ (run (step R policy concurrency) before .new).atWork)
      after (run (step R policy concurrency) before .new) := by
  have hstart : (run (step R policy concurrency) before .new).Kept concurrency :=
    (kept_throughout hR hc before).final
  refine (throughout_of_forall (P := fun m => m.Kept concurrency ∧ m.level = some .critical ∧
    m.atWork ⊆ (run (step R policy concurrency) before .new).atWork) ?_
    ⟨hstart, hlevel, subset_rfl⟩).mono fun _ h => h.2.2
  rintro event hmem m ⟨hkept, hcritical, hsub⟩
  have hstep := step_drains (R := R) event hkept hcritical fun reading fault heq =>
    hafter reading fault (heq ▸ hmem)
  exact ⟨step_kept hR hc event m hkept, hstep.1, hstep.2.trans hsub⟩

theorem sample_drains :
    (run (step (.ideal 999) samplePolicy 3) sampleEvents .new).level = some .critical ∧
      Throughout (step (.ideal 999) samplePolicy 3)
        (fun m => m.atWork ⊆ (run (step (.ideal 999) samplePolicy 3) sampleEvents .new).atWork)
        [.finish 1 false, .pass ⟨9 / 10, 9⟩ none, .claim 1 "c" false]
        (run (step (.ideal 999) samplePolicy 3) sampleEvents .new) := by
  have hlevel : (run (step (.ideal 999) samplePolicy 3) sampleEvents .new).level =
      some .critical := by
    decide +kernel
  refine ⟨hlevel, critical_drains le_rfl (by omega) _ _ hlevel fun reading fault hmem => ?_⟩
  have heq : reading = ⟨9 / 10, 9⟩ ∧ fault = none := by
    simpa using hmem
  rw [heq.1]
  exact le_rfl

end FetchTask.Supervisor
