import FetchTask.Supervisor

/-!
What holds of the pool in every run, and what a pass does to it.

`Kept` is the invariant. Whoever is not in the table is over, or free and on its
way out; so a worker that is at a task is in the table, and the size of the table
bounds how many there are. A pass takes out only workers that are over or free.
-/

namespace FetchTask.Supervisor

open Runs

variable {R : Rounding} {policy : Policy} {concurrency : Nat} {m : Manager}

structure Manager.Kept (concurrency : Nat) (m : Manager) : Prop where
  nodup : m.workers.Nodup
  born : ∀ w ∈ m.workers, w ≤ m.workerSeq
  unborn : ∀ w, m.workerSeq < w → m.coroutine w = .done ∧ m.busy w = false
  gone : ∀ w, w ∉ m.workers →
    m.coroutine w = .done ∨ m.coroutine w = .cancelled ∧ m.busy w = false
  size : m.workers.length ≤ concurrency

namespace Manager

theorem kept_new : (new).Kept concurrency where
  nodup := List.nodup_nil
  born _ hw := by cases hw
  unborn _ _ := ⟨rfl, rfl⟩
  gone _ _ := .inl rfl
  size := Nat.zero_le _

theorem Kept.mem_of_atWork (h : m.Kept concurrency) {w : Nat} (hw : w ∈ m.atWork) :
    w ∈ m.workers := by
  obtain ⟨hbusy, hdone⟩ := mem_atWork.mp hw
  by_contra habs
  rcases h.gone w habs with hover | ⟨-, hfree⟩
  · exact hdone hover
  · rw [hbusy] at hfree
    cases hfree

theorem Kept.card_atWork_le (h : m.Kept concurrency) : m.atWork.card ≤ m.workers.length := by
  rw [← List.toFinset_card_of_nodup h.nodup]
  exact Finset.card_le_card fun w hw => List.mem_toFinset.mpr (h.mem_of_atWork hw)

theorem Kept.free_of_gone (h : m.Kept concurrency) {w : Nat} (hw : w ∉ m.workers) :
    m.coroutine w ≠ .running := by
  rcases h.gone w hw with hc | ⟨hc, -⟩ <;> simp [hc]

/-! ### The parts of a pass -/

@[simp] theorem busy_setCoroutine (worker w : Nat) (c : Coroutine) :
    (m.setCoroutine worker c).busy w = m.busy w := rfl

theorem coroutine_setCoroutine (worker w : Nat) (c : Coroutine) :
    (m.setCoroutine worker c).coroutine w = if w = worker then c else m.coroutine w := rfl

theorem Kept.restartWatchdog (h : m.Kept concurrency) : m.restartWatchdog.Kept concurrency := by
  rw [Manager.restartWatchdog]
  split
  · exact h
  · exact ⟨h.nodup, h.born, h.unborn, h.gone, h.size⟩

theorem restartWatchdog_watchdog : m.restartWatchdog.watchdog = true := by
  rw [restartWatchdog]
  split
  · assumption
  · rfl

theorem restartWatchdog_rest : m.restartWatchdog.workers = m.workers ∧
    m.restartWatchdog.coroutine = m.coroutine ∧
    m.restartWatchdog.workerTaskIds = m.workerTaskIds := by
  rw [restartWatchdog]
  split <;> exact ⟨rfl, rfl, rfl⟩

theorem mem_dropDone {w : Nat} :
    w ∈ m.dropDone.workers ↔ w ∈ m.workers ∧ m.coroutine w ≠ .done := by
  simp [dropDone]

theorem Kept.dropDone (h : m.Kept concurrency) : m.dropDone.Kept concurrency where
  nodup := h.nodup.filter _
  born w hw := h.born w (mem_dropDone.mp hw).1
  unborn := h.unborn
  gone w hw := by
    by_cases hmem : w ∈ m.workers
    · exact .inl (by_contra fun hdone => hw (mem_dropDone.mpr ⟨hmem, hdone⟩))
    · exact h.gone w hmem
  size := (List.length_filter_le _ _).trans h.size

theorem of_mem_idleWorkersToTrim {d w : Nat} (hw : w ∈ m.idleWorkersToTrim d) :
    w ∈ m.workers ∧ m.busy w = false := by
  have hmem := List.mem_of_mem_take hw
  simpa using hmem

theorem mem_trim {d w : Nat} :
    w ∈ (m.trim d).workers ↔ w ∈ m.workers ∧ w ∉ m.idleWorkersToTrim d := by
  simp [trim]

theorem trim_coroutine {d w : Nat} (hw : w ∉ m.idleWorkersToTrim d) :
    (m.trim d).coroutine w = m.coroutine w := if_neg hw

/-- Nothing that is at a task is trimmed. -/
theorem notMem_idleWorkersToTrim {d w : Nat} (hw : m.busy w = true) :
    w ∉ m.idleWorkersToTrim d := by
  intro habs
  rw [(of_mem_idleWorkersToTrim habs).2] at hw
  cases hw

theorem cancel_cases (c : Coroutine) : c.cancel = .done ∨ c.cancel = .cancelled := by
  cases c <;> simp [Coroutine.cancel]

theorem cancel_eq_done {c : Coroutine} : c.cancel = .done ↔ c = .done := by
  cases c <;> simp [Coroutine.cancel]

theorem Kept.trim (h : m.Kept concurrency) (d : Nat) : (m.trim d).Kept concurrency where
  nodup := h.nodup.filter _
  born w hw := h.born w (mem_trim.mp hw).1
  unborn w hw := by
    have hnew : w ∉ m.idleWorkersToTrim d := fun habs =>
      absurd (h.born w (of_mem_idleWorkersToTrim habs).1) (Nat.not_le.mpr hw)
    exact ⟨(trim_coroutine hnew).trans (h.unborn w hw).1, (h.unborn w hw).2⟩
  gone w hw := by
    by_cases htrim : w ∈ m.idleWorkersToTrim d
    · have hco : (m.trim d).coroutine w = (m.coroutine w).cancel := if_pos htrim
      rw [hco]
      exact (cancel_cases _).imp_right fun hc => ⟨hc, (of_mem_idleWorkersToTrim htrim).2⟩
    · rw [trim_coroutine htrim]
      exact h.gone w fun hmem => hw (mem_trim.mpr ⟨hmem, htrim⟩)
  size := (List.length_filter_le _ _).trans h.size

theorem spawn_length : m.spawn.workers.length = m.workers.length + 1 := by
  simp [spawn, setCoroutine]

theorem Kept.spawn (h : m.Kept concurrency) (hroom : m.workers.length < concurrency) :
    m.spawn.Kept concurrency where
  nodup := by
    have hnew : m.workerSeq + 1 ∉ m.workers := fun habs => absurd (h.born _ habs) (by omega)
    exact List.nodup_append.mpr ⟨h.nodup, List.nodup_singleton _, by
      intro w hw w' hw'
      rw [List.mem_singleton.mp hw']
      exact fun heq => hnew (heq ▸ hw)⟩
  born w hw := by
    rcases List.mem_append.mp hw with hold | hnew
    · exact Nat.le_succ_of_le (h.born w hold)
    · exact le_of_eq (List.mem_singleton.mp hnew)
  unborn w hw := by
    have hseq : m.workerSeq + 1 < w := hw
    have hco : m.spawn.coroutine w = m.coroutine w := if_neg (by omega)
    rw [hco]
    exact h.unborn w (by omega)
  gone w hw := by
    have hmem : w ∉ m.workers ∧ w ≠ m.workerSeq + 1 := by
      simpa [Manager.spawn, Manager.setCoroutine] using hw
    have hco : m.spawn.coroutine w = m.coroutine w := if_neg hmem.2
    rw [hco]
    exact h.gone w hmem.1
  size := spawn_length.trans_le hroom

/-- What growing does, over and above keeping the invariant. -/
structure Grown (d : Nat) (m m' : Manager) : Prop where
  length : m'.workers.length = max d m.workers.length
  mono : ∀ w ∈ m.workers, w ∈ m'.workers
  alive : (∀ w ∈ m.workers, m.coroutine w ≠ .done) → ∀ w ∈ m'.workers, m'.coroutine w ≠ .done
  seq : m.workerSeq ≤ m'.workerSeq
  old : ∀ w ≤ m.workerSeq, m'.coroutine w = m.coroutine w ∧ (w ∈ m'.workers → w ∈ m.workers)
  taskIds : m'.workerTaskIds = m.workerTaskIds
  watchdog : m'.watchdog = m.watchdog
  level : m'.level = m.level

theorem grown_iterate (n : Nat) :
    Grown (m.workers.length + n) m (spawn^[n] m) := by
  induction n generalizing m with
  | zero =>
    exact ⟨by simp, fun _ h => h, fun h => h, le_rfl, fun _ _ => ⟨rfl, fun h => h⟩, rfl, rfl, rfl⟩
  | succ n ih =>
    rw [Function.iterate_succ_apply]
    have hrest := ih (m := m.spawn)
    have hmem : ∀ w, w ∈ m.spawn.workers ↔ w ∈ m.workers ∨ w = m.workerSeq + 1 := fun w => by
      simp [spawn, setCoroutine]
    have hco : ∀ w, m.spawn.coroutine w =
        if w = m.workerSeq + 1 then .running else m.coroutine w := fun w => rfl
    have hseq : m.spawn.workerSeq = m.workerSeq + 1 := rfl
    refine ⟨?_, fun w hw => hrest.mono w ((hmem w).mpr (.inl hw)), fun halive => hrest.alive ?_,
      by have := hrest.seq; omega, fun w hw => ?_, hrest.taskIds, hrest.watchdog, hrest.level⟩
    · have hlen := hrest.length
      rw [spawn_length] at hlen
      omega
    · intro w hw
      rw [hco]
      rcases (hmem w).mp hw with hold | rfl
      · split
        · simp
        · exact halive w hold
      · simp
    · obtain ⟨hsame, hback⟩ := hrest.old w (by omega)
      have hne : w ≠ m.workerSeq + 1 := by omega
      refine ⟨by rw [hsame, hco, if_neg hne], fun hw => ?_⟩
      exact ((hmem w).mp (hback hw)).resolve_right hne

theorem grown (d : Nat) : Grown d m (m.grow d) := by
  have h := grown_iterate (m := m) (d - m.workers.length)
  exact { h with length := by rw [grow, h.length]; omega }

theorem Kept.iterate_spawn (n : Nat) (h : m.Kept concurrency)
    (hroom : m.workers.length + n ≤ concurrency) : (Manager.spawn^[n] m).Kept concurrency := by
  induction n generalizing m with
  | zero => exact h
  | succ n ih =>
    rw [Function.iterate_succ_apply]
    exact ih (h.spawn (by omega)) (by rw [spawn_length]; omega)

theorem Kept.grow {d : Nat} (h : m.Kept concurrency) (hd : d ≤ concurrency) :
    (m.grow d).Kept concurrency :=
  h.iterate_spawn _ (by have := h.size; omega)

theorem Kept.failed (h : m.Kept concurrency) : m.failed.Kept concurrency :=
  ⟨h.nodup, h.born, h.unborn, h.gone, h.size⟩

theorem Kept.withLevel (h : m.Kept concurrency) (level : Option Level) :
    { m with level }.Kept concurrency :=
  ⟨h.nodup, h.born, h.unborn, h.gone, h.size⟩

end Manager

/-! ### Every step keeps the invariant -/

theorem desired_le (policy : Policy) (hR : 999 ≤ R.exact) (hc : 1 ≤ concurrency)
    (reading : Reading) :
    desired R policy concurrency reading ≤ concurrency :=
  (Nat.min_le_left _ _).trans (adaptiveWorkerLimit_bounds hR hc reading.ratio).2

theorem one_le_desired (policy : Policy) (hR : 999 ≤ R.exact) (hc : 1 ≤ concurrency)
    (reading : Reading) :
    1 ≤ desired R policy concurrency reading :=
  le_min (adaptiveWorkerLimit_bounds hR hc reading.ratio).1 (le_max_left _ _)

theorem supervise_kept (hR : 999 ≤ R.exact) (hc : 1 ≤ concurrency) (h : m.Kept concurrency)
    (reading : Reading) (fault : Option Stage) :
    (supervise R policy concurrency reading fault m).Kept concurrency := by
  simp only [supervise]
  have hdrop := h.restartWatchdog.dropDone
  have hlevel := hdrop.withLevel
    (some (adaptiveWorkerLimit R policy concurrency concurrency reading.ratio).2)
  have hgrow := (hlevel.trim (desired R policy concurrency reading)).grow
    (desired_le policy hR hc reading)
  split
  · exact hdrop.failed
  · split
    · exact hlevel.failed
    · split
      · exact hgrow.failed
      · exact hgrow

theorem Manager.Kept.setCoroutine (h : m.Kept concurrency) {worker : Nat} {c : Coroutine}
    (hw : worker ∈ m.workers ∨ c = .done) : (m.setCoroutine worker c).Kept concurrency where
  nodup := h.nodup
  born := h.born
  unborn w hlt := by
    refine ⟨?_, (h.unborn w hlt).2⟩
    rw [Manager.coroutine_setCoroutine]
    split
    · rename_i heq
      subst heq
      exact hw.resolve_left fun hmem => absurd (h.born w hmem) (Nat.not_le.mpr hlt)
    · exact (h.unborn w hlt).1
  gone w hmem := by
    rw [Manager.coroutine_setCoroutine]
    split
    · rename_i heq
      exact .inl (hw.resolve_left (heq ▸ hmem))
    · exact h.gone w hmem
  size := h.size

theorem Manager.Kept.eraseTask (h : m.Kept concurrency) (worker : Nat) :
    { m with workerTaskIds := m.workerTaskIds.erase worker }.Kept concurrency := by
  have hbusy : ∀ w, m.busy w = false → (m.workerTaskIds.erase worker).contains w = false := by
    intro w hw
    rw [Dict.contains_erase, show m.workerTaskIds.contains w = false from hw, Bool.and_false]
  exact ⟨h.nodup, h.born, fun w hw => (h.unborn w hw).imp_right (hbusy w),
    fun w hw => (h.gone w hw).imp_right (And.imp_right (hbusy w)), h.size⟩

theorem Manager.Kept.setTask (h : m.Kept concurrency) {worker : Nat} (hw : worker ∈ m.workers)
    (task : String) :
    { m with workerTaskIds := m.workerTaskIds.set worker task }.Kept concurrency := by
  have hbusy : ∀ w ≠ worker, m.busy w = false →
      (m.workerTaskIds.set worker task).contains w = false := by
    intro w hne hfree
    rw [Dict.contains_set, show m.workerTaskIds.contains w = false from hfree]
    simpa using hne.symm
  refine ⟨h.nodup, h.born, fun w hlt => (h.unborn w hlt).imp_right (hbusy w ?_),
    fun w hmem => (h.gone w hmem).imp_right (And.imp_right (hbusy w ?_)), h.size⟩
  · rintro rfl
    exact absurd (h.born w hw) (Nat.not_le.mpr hlt)
  · rintro rfl
    exact hmem hw

/-- A running worker is in the table. -/
theorem Manager.Kept.mem_of_running (h : m.Kept concurrency) {w : Nat}
    (hw : m.coroutine w = .running) : w ∈ m.workers :=
  by_contra fun habs => h.free_of_gone habs hw

theorem step_kept (hR : 999 ≤ R.exact) (hc : 1 ≤ concurrency) (event : Event) (m : Manager)
    (h : m.Kept concurrency) : (step R policy concurrency event m).Kept concurrency := by
  cases event with
  | pass reading fault => exact supervise_kept hR hc h reading fault
  | claim worker task fails =>
    simp only [step]
    split
    · rename_i hfree
      exact (h.setTask (h.mem_of_running hfree.1) task).setCoroutine
        (.inl (h.mem_of_running hfree.1))
    · exact h
  | finish worker fails =>
    simp only [step]
    split
    · cases fails with
      | false => exact h.eraseTask worker
      | true => exact h.setCoroutine (.inr rfl)
    · exact h
  | swallow worker =>
    simp only [step]
    split
    · rename_i hat
      have hmem : worker ∈ m.atWork := Manager.mem_atWork.mpr ⟨hat.2, by simp [hat.1]⟩
      exact h.setCoroutine (.inl (h.mem_of_atWork hmem))
    · exact h
  | ends worker =>
    simp only [step]
    split
    · exact h.setCoroutine (.inr rfl)
    · exact h
  | cancel worker =>
    simp only [step]
    split
    · rename_i hmem
      exact h.setCoroutine (.inl hmem)
    · exact h
  | missing worker =>
    simp only [step]
    split
    · exact h.eraseTask worker
    · exact h
  | watchdogDies => exact ⟨h.nodup, h.born, h.unborn, h.gone, h.size⟩

end FetchTask.Supervisor
