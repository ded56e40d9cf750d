import FetchTask.Scheduling.Creating

/-!
What calls account for.

The invariant accounts for every task that is initializing and for every charge of a
task that is not runnable: some call has that task in the making, and will end with it
one way or the other.
-/

namespace FetchTask.Scheduling

open Runs Knowledge Store Batch

/-! ### The invariant -/

structure Accounted (w : World) (known : Nat → Progress) : Prop where
  stored : ∀ t task, w.tasks.get? t = some task → t ∈ w.created
  held : ∀ i t, (known i).phase.task = some t → t ∈ w.created ∧ t ∉ w.openedIds
  seen : ∀ i t, (known i).failed = some t →
    t ∈ w.created ∧ ∀ task, w.tasks.get? t = some task → task.status = .failed
  reserved : ∀ t, w.reservations t ≠ none → t ∈ w.created
  initializing : ∀ t task, w.tasks.get? t = some task → task.status = .initializing →
    t ∉ w.openedIds ∧ ∃ i, (known i).phase.task = some t
  owed : ∀ t, w.reservations t = some .reserved → t ∉ w.openedIds →
    ∃ i, (known i).phase = .unsure t ∨ (known i).phase = .charged t
  charged : ∀ i t task, (known i).phase = .charged t → w.tasks.get? t = some task →
    task.status = .initializing →
      w.reservations t = some .reserved ∨ ∃ j, j ≠ i ∧ (known j).phase.task = some t
  once : w.openedIds.Nodup
  opened : ∀ t ∈ w.openedIds, t ∈ w.created ∧ w.reservations t ≠ none
  runnable : ∀ t task, w.tasks.get? t = some task → task.status ≠ .initializing →
    task.status ≠ .failed → t ∈ w.openedIds
  kept : ∀ t ∈ w.openedIds, (∃ task, w.tasks.get? t = some task ∧ task.status ≠ .failed) ↔
    w.reservations t = some .reserved

section Invariant

variable {w : World} {known : Nat → Progress} {e : Env} {i : Nat} {t : TaskId} {task : Task}
  {status : Status} {k : Progress}

/-! #### The end of all calls -/

theorem Accounted.allOrNothing (h : Accounted w known) (hidle : ∀ i, (known i).phase = .idle)
    (t : TaskId) : w.AllOrNothing t := by
  have hfree : ∀ i, (known i).phase.task ≠ some t := by
    intro i hi
    rw [hidle i] at hi
    cases hi
  by_cases hopened : t ∈ w.openedIds
  · by_cases hreserved : w.reservations t = some .reserved
    · obtain ⟨task, hget, hstatus⟩ := (h.kept t hopened).mpr hreserved
      refine .inl ⟨⟨task, hget, fun hinit => ?_, hstatus⟩, ?_, hreserved⟩
      · exact (h.initializing t task hget hinit).1 hopened
      · exact List.count_eq_one_of_mem h.once hopened
    · refine .inr ⟨fun task hget => ?_, hreserved⟩
      by_contra hstatus
      exact hreserved ((h.kept t hopened).mp ⟨task, hget, hstatus⟩)
  · refine .inr ⟨fun task hget => ?_, fun hreserved => ?_⟩
    · by_contra hstatus
      refine hopened (h.runnable t task hget (fun hinit => ?_) hstatus)
      obtain ⟨-, i, hi⟩ := h.initializing t task hget hinit
      exact hfree i hi
    · obtain ⟨i, hi⟩ := h.owed t hreserved hopened
      refine hfree i ?_
      rcases hi with hi | hi <;> rw [hi] <;> rfl

theorem not_runnable_of_held (h : Accounted w known) (hi : (known i).phase.task = some t) :
    ¬ w.Runnable t :=
  fun hrunnable => (h.held i t hi).2 hrunnable.1

theorem not_runnable_of_seen (h : Accounted w known) (hi : (known i).failed = some t) :
    ¬ w.Runnable t := by
  rintro ⟨-, task, hget, hstatus⟩
  exact hstatus ((h.seen i t hi).2 task hget)

/-! #### What calls learn -/

/-- A call that learns of a failed task. -/
theorem Accounted.see (h : Accounted w known) (hphase : k.phase = (known i).phase)
    (hseen : ∀ t, k.failed = some t → (known i).failed = some t ∨
      t ∈ w.created ∧ ∀ task, w.tasks.get? t = some task → task.status = .failed) :
    Accounted w (Function.update known i k) := by
  have hsame : ∀ j, (Function.update known i k j).phase = (known j).phase := by
    intro j
    by_cases hji : j = i
    · rw [hji, Function.update_self, hphase]
    · rw [Function.update_of_ne hji]
  refine { h with held := fun j t hj => ?_, seen := fun j t hj => ?_, initializing := ?_, owed := ?_, charged := ?_ }
  · rw [hsame] at hj
    exact h.held j t hj
  · by_cases hji : j = i
    · rw [hji, Function.update_self] at hj
      exact (hseen t hj).elim (h.seen i t) id
    · rw [Function.update_of_ne hji] at hj
      exact h.seen j t hj
  · intro t task hget hstatus
    simp only [hsame]
    exact h.initializing t task hget hstatus
  · intro t hreserved hclosed
    simp only [hsame]
    exact h.owed t hreserved hclosed
  · intro j t task
    simp only [hsame]
    exact h.charged j t task

/-- A call that is given a task. -/
theorem Accounted.take (h : Accounted w known) (hidle : (known i).phase = .idle)
    (hcreated : t ∈ w.created) (hclosed : t ∉ w.openedIds) :
    Accounted w (Function.update known i { known i with phase := .made t }) := by
  have hother : ∀ j t', (known j).phase.task = some t' → j ≠ i := by
    rintro j t' hj rfl
    rw [hidle] at hj
    cases hj
  refine { h with held := fun j t' hj => ?_, seen := fun j t' hj => ?_, initializing := ?_, owed := ?_, charged := ?_ }
  · by_cases hji : j = i
    · rw [hji, Function.update_self] at hj
      cases hj
      exact ⟨hcreated, hclosed⟩
    · rw [Function.update_of_ne hji] at hj
      exact h.held j t' hj
  · by_cases hji : j = i
    · rw [hji, Function.update_self] at hj
      exact h.seen i t' hj
    · rw [Function.update_of_ne hji] at hj
      exact h.seen j t' hj
  · intro t' task hget hstatus
    obtain ⟨hclosed', j, hj⟩ := h.initializing t' task hget hstatus
    exact ⟨hclosed', j, by rw [Function.update_of_ne (hother j t' hj)]; exact hj⟩
  · intro t' hreserved hclosed'
    obtain ⟨j, hj⟩ := h.owed t' hreserved hclosed'
    have hji : j ≠ i := hother j t' (by rcases hj with hj | hj <;> rw [hj] <;> rfl)
    exact ⟨j, by rwa [Function.update_of_ne hji]⟩
  · intro j t' task hj hget hstatus
    have hji : j ≠ i := by
      rintro rfl
      rw [Function.update_self] at hj
      cases hj
    rw [Function.update_of_ne hji] at hj
    rcases h.charged j t' task hj hget hstatus with hreserved | ⟨j', hj', htask⟩
    · exact .inl hreserved
    · exact .inr ⟨j', hj', by rw [Function.update_of_ne (hother j' t' htask)]; exact htask⟩

/-- A call that lets a task go which is deleted. -/
theorem Accounted.release (h : Accounted w known) (hmade : (known i).phase = .made t)
    (hgone : w.tasks.get? t = none) :
    Accounted w (Function.update known i { known i with phase := .idle }) := by
  have hother : ∀ j t', t' ≠ t → (known j).phase.task = some t' → j ≠ i := by
    rintro j t' hne hj rfl
    rw [hmade] at hj
    exact hne (Option.some.inj hj).symm
  have hstored : ∀ t' task, w.tasks.get? t' = some task → t' ≠ t := by
    rintro t' task hget rfl
    rw [hgone] at hget
    cases hget
  refine { h with held := fun j t' hj => ?_, seen := fun j t' hj => ?_, initializing := ?_, owed := ?_, charged := ?_ }
  · by_cases hji : j = i
    · rw [hji, Function.update_self] at hj
      cases hj
    · rw [Function.update_of_ne hji] at hj
      exact h.held j t' hj
  · by_cases hji : j = i
    · rw [hji, Function.update_self] at hj
      exact h.seen i t' hj
    · rw [Function.update_of_ne hji] at hj
      exact h.seen j t' hj
  · intro t' task hget hstatus
    obtain ⟨hclosed, j, hj⟩ := h.initializing t' task hget hstatus
    have hji := hother j t' (hstored t' task hget) hj
    exact ⟨hclosed, j, by rw [Function.update_of_ne hji]; exact hj⟩
  · intro t' hreserved hclosed
    obtain ⟨j, hj⟩ := h.owed t' hreserved hclosed
    have hji : j ≠ i := by
      rintro rfl
      rw [hmade] at hj
      rcases hj with hj | hj <;> cases hj
    exact ⟨j, by rwa [Function.update_of_ne hji]⟩
  · intro j t' task hj hget hstatus
    have hji : j ≠ i := by
      rintro rfl
      rw [Function.update_self] at hj
      cases hj
    rw [Function.update_of_ne hji] at hj
    rcases h.charged j t' task hj hget hstatus with hreserved | ⟨j', hj', htask⟩
    · exact .inl hreserved
    · have hj'i := hother j' t' (hstored t' task hget) htask
      exact .inr ⟨j', hj', by rw [Function.update_of_ne hj'i]; exact htask⟩

/-- A call that goes on with its task, whose reservation may change. -/
theorem Accounted.rephase (h : Accounted w known) (hi : (known i).phase.task = some t)
    {phase : Phase} (hphase : phase.task = some t) {reservation : Option Reservation}
    (howed : reservation = some .reserved → phase = .unsure t ∨ phase = .charged t)
    (hcharged : phase = .charged t → reservation = some .reserved) :
    Accounted { w with reservations := Function.update w.reservations t reservation }
      (Function.update known i { known i with phase := phase }) := by
  obtain ⟨hcreated, hclosed⟩ := h.held i t hi
  -- Every call has the task that it had.
  have htask : ∀ j, (Function.update known i { known i with phase := phase } j).phase.task =
      (known j).phase.task := by
    intro j
    by_cases hji : j = i
    · rw [hji, Function.update_self, hi, hphase]
    · rw [Function.update_of_ne hji]
  have hother : ∀ t', t' ≠ t → Function.update w.reservations t reservation t' = w.reservations t' :=
    fun t' hne => Function.update_of_ne hne _ _
  have hne : ∀ t' ∈ w.openedIds, t' ≠ t := by
    rintro t' hmem rfl
    exact hclosed hmem
  refine ⟨h.stored, fun j t' hj => ?_, fun j t' hj => ?_, fun t' hreserved => ?_,
    fun t' task hget hstatus => ?_, fun t' hreserved hclosed' => ?_,
    fun j t' task hj hget hstatus => ?_, h.once, fun t' hmem => ?_, h.runnable, fun t' hmem => ?_⟩
  · rw [htask] at hj
    exact h.held j t' hj
  · by_cases hji : j = i
    · rw [hji, Function.update_self] at hj
      exact h.seen i t' hj
    · rw [Function.update_of_ne hji] at hj
      exact h.seen j t' hj
  · by_cases htt : t' = t
    · rw [htt]
      exact hcreated
    · exact h.reserved t' (hother t' htt ▸ hreserved)
  · simp only [htask]
    exact h.initializing t' task hget hstatus
  · change Function.update w.reservations t reservation t' = some .reserved at hreserved
    by_cases htt : t' = t
    · subst htt
      rw [Function.update_self] at hreserved
      exact ⟨i, by rw [Function.update_self]; exact howed hreserved⟩
    · rw [hother t' htt] at hreserved
      obtain ⟨j, hj⟩ := h.owed t' hreserved hclosed'
      have hji : j ≠ i := by
        rintro rfl
        refine htt ?_
        rcases hj with hj | hj <;> rw [hj] at hi <;> exact Option.some.inj hi
      exact ⟨j, by rwa [Function.update_of_ne hji]⟩
  · simp only [htask]
    by_cases htt : t' = t
    · subst htt
      by_cases hji : j = i
      · rw [hji, Function.update_self] at hj
        exact .inl ((Function.update_self ..).trans (hcharged hj))
      · exact .inr ⟨i, fun hij => hji hij.symm, hi⟩
    · have hji : j ≠ i := by
        rintro rfl
        rw [Function.update_self] at hj
        have hj' : phase = .charged t' := hj
        rw [hj'] at hphase
        exact htt (Option.some.inj hphase)
      rw [Function.update_of_ne hji] at hj
      have hcase := h.charged j t' task hj hget hstatus
      rwa [← hother t' htt] at hcase
  · show t' ∈ w.created ∧ Function.update w.reservations t reservation t' ≠ none
    rw [hother t' (hne t' hmem)]
    exact h.opened t' hmem
  · show _ ↔ Function.update w.reservations t reservation t' = _
    rw [hother t' (hne t' hmem)]
    exact h.kept t' hmem

/-! #### What happens to tasks -/

/-- A new task, given to a call. -/
theorem Accounted.create (h : Accounted w known) {key : Option TaskKey}
    (hidle : (known i).phase = .idle) (hnew : t ∉ w.created) :
    Accounted (w.addTask t key) (Function.update known i { known i with phase := .made t }) := by
  have hget : ∀ t' task, (w.addTask t key).tasks.get? t' = some task →
      t' = t ∨ w.tasks.get? t' = some task := by
    intro t' task hget
    change (w.tasks.set t ⟨key, .initializing⟩).get? t' = some task at hget
    rw [Dict.get?_set] at hget
    split at hget
    next heq => exact .inl heq.symm
    next => exact .inr hget
  have hne : ∀ t', t' ∈ w.created → t' ≠ t := by
    rintro t' hmem rfl
    exact hnew hmem
  have hold : ∀ t', t' ∈ w.created → (w.addTask t key).tasks.get? t' = w.tasks.get? t' := by
    intro t' hmem
    exact Dict.get?_set_of_ne _ _ (hne t' hmem).symm
  have hclosed : t ∉ w.openedIds := fun hmem => hnew (h.opened t hmem).1
  have hother : ∀ j t', (known j).phase.task = some t' → j ≠ i := by
    rintro j t' hj rfl
    rw [hidle] at hj
    cases hj
  refine ⟨fun t' task hget' => ?_, fun j t' hj => ?_, fun j t' hj => ?_, fun t' hreserved => ?_,
    fun t' task hget' hstatus => ?_, fun t' hreserved hclosed' => ?_,
    fun j t' task hj hget' hstatus => ?_, h.once, fun t' hmem => ?_,
    fun t' task hget' hinit hstatus => ?_, fun t' hmem => ?_⟩
  · rcases hget t' task hget' with rfl | hstored
    · exact List.mem_cons_self
    · exact List.mem_cons_of_mem _ (h.stored t' task hstored)
  · by_cases hji : j = i
    · rw [hji, Function.update_self] at hj
      cases hj
      exact ⟨List.mem_cons_self, hclosed⟩
    · rw [Function.update_of_ne hji] at hj
      obtain ⟨hmem, hclosed'⟩ := h.held j t' hj
      exact ⟨List.mem_cons_of_mem _ hmem, hclosed'⟩
  · have hseen : (known j).failed = some t' := by
      by_cases hji : j = i
      · rw [hji, Function.update_self] at hj
        exact hji ▸ hj
      · rwa [Function.update_of_ne hji] at hj
    obtain ⟨hmem, hfailed⟩ := h.seen j t' hseen
    refine ⟨List.mem_cons_of_mem _ hmem, ?_⟩
    rw [hold t' hmem]
    exact hfailed
  · exact List.mem_cons_of_mem _ (h.reserved t' hreserved)
  · rcases hget t' task hget' with rfl | hstored
    · exact ⟨hclosed, i, by rw [Function.update_self]; rfl⟩
    · obtain ⟨hclosed', j, hj⟩ := h.initializing t' task hstored hstatus
      exact ⟨hclosed', j, by rw [Function.update_of_ne (hother j t' hj)]; exact hj⟩
  · obtain ⟨j, hj⟩ := h.owed t' hreserved hclosed'
    have hji : j ≠ i := hother j t' (by rcases hj with hj | hj <;> rw [hj] <;> rfl)
    exact ⟨j, by rwa [Function.update_of_ne hji]⟩
  · have hji : j ≠ i := by
      rintro rfl
      rw [Function.update_self] at hj
      cases hj
    rw [Function.update_of_ne hji] at hj
    have hmem := (h.held j t' (by rw [hj]; rfl)).1
    rw [hold t' hmem] at hget'
    rcases h.charged j t' task hj hget' hstatus with hreserved | ⟨j', hj', htask⟩
    · exact .inl hreserved
    · exact .inr ⟨j', hj', by rw [Function.update_of_ne (hother j' t' htask)]; exact htask⟩
  · obtain ⟨hmem', hreserved⟩ := h.opened t' hmem
    exact ⟨List.mem_cons_of_mem _ hmem', hreserved⟩
  · rcases hget t' task hget' with rfl | hstored
    · change (w.tasks.set t' ⟨key, .initializing⟩).get? t' = some task at hget'
      rw [Dict.get?_set_self] at hget'
      cases hget'
      exact absurd rfl hinit
    · exact h.runnable t' task hstored hinit hstatus
  · rw [hold t' (h.opened t' hmem).1]
    exact h.kept t' hmem

/-- A task that is not runnable is deleted. -/
theorem Accounted.erase (h : Accounted w known) (ht : ¬ w.Runnable t) :
    Accounted { w with tasks := w.tasks.erase t } known := by
  have hold : ∀ t' task, (w.tasks.erase t).get? t' = some task → w.tasks.get? t' = some task := by
    intro t' task hget
    rw [Dict.get?_erase] at hget
    split at hget
    · cases hget
    · exact hget
  refine ⟨fun t' task hget => h.stored t' task (hold t' task hget), h.held, fun j t' hj => ?_,
    h.reserved, fun t' task hget => h.initializing t' task (hold t' task hget), h.owed,
    fun j t' task hj hget => h.charged j t' task hj (hold t' task hget), h.once, h.opened,
    fun t' task hget => h.runnable t' task (hold t' task hget), fun t' hmem => ?_⟩
  · obtain ⟨hmem, hfailed⟩ := h.seen j t' hj
    exact ⟨hmem, fun task hget => hfailed task (hold t' task hget)⟩
  · rw [← h.kept t' hmem]
    constructor
    · rintro ⟨task, hget, hstatus⟩
      exact ⟨task, hold t' task hget, hstatus⟩
    · rintro ⟨task, hget, hstatus⟩
      have hne : t' ≠ t := by
        rintro rfl
        exact ht ⟨hmem, task, hget, hstatus⟩
      refine ⟨task, ?_, hstatus⟩
      show (w.tasks.erase t).get? t' = some task
      rw [Dict.get?_erase, if_neg hne]
      exact hget

/-- The charge of a failed task is given back. -/
theorem Accounted.refundFailed (h : Accounted w known)
    (ht : ∀ task, w.tasks.get? t = some task → task.status = .failed) :
    Accounted (w.refund t) known := by
  unfold World.refund
  split
  next hreserved =>
    have hclosed : t ∉ w.openedIds := by
      intro hmem
      obtain ⟨task, hget, hstatus⟩ := (h.kept t hmem).mpr hreserved
      exact hstatus (ht task hget)
    have hother : ∀ t', t' ≠ t →
        Function.update w.reservations t (some .refunded) t' = w.reservations t' :=
      fun t' hne => Function.update_of_ne hne _ _
    have hne : ∀ t' ∈ w.openedIds, t' ≠ t := by
      rintro t' hmem rfl
      exact hclosed hmem
    refine ⟨h.stored, h.held, h.seen, fun t' hreserved' => ?_, h.initializing,
      fun t' hreserved' => ?_, fun j t' task hj hget hstatus => ?_, h.once, fun t' hmem => ?_,
      h.runnable, fun t' hmem => ?_⟩
    · by_cases htt : t' = t
      · rw [htt]
        exact h.reserved t (by rw [hreserved]; simp)
      · exact h.reserved t' (hother t' htt ▸ hreserved')
    · change Function.update w.reservations t (some .refunded) t' = some .reserved at hreserved'
      by_cases htt : t' = t
      · rw [htt, Function.update_self] at hreserved'
        cases hreserved'
      · rw [hother t' htt] at hreserved'
        exact h.owed t' hreserved'
    · have htt : t' ≠ t := by
        rintro rfl
        rw [ht task hget] at hstatus
        cases hstatus
      have hcase := h.charged j t' task hj hget hstatus
      rwa [← hother t' htt] at hcase
    · show t' ∈ w.created ∧ Function.update w.reservations t (some .refunded) t' ≠ none
      rw [hother t' (hne t' hmem)]
      exact h.opened t' hmem
    · show _ ↔ Function.update w.reservations t (some .refunded) t' = _
      rw [hother t' (hne t' hmem)]
      exact h.kept t' hmem
  next => exact h

theorem setTask_get?_self : (w.setTask t task).tasks.get? t = some task := Dict.get?_set_self ..

theorem setTask_get?_of_ne {t' : TaskId} (h : t' ≠ t) :
    (w.setTask t task).tasks.get? t' = w.tasks.get? t' :=
  Dict.get?_set_of_ne _ _ h.symm

theorem setStatus_cases {t' : TaskId} {task' : Task}
    (h : (w.setTask t { task with status }).tasks.get? t' = some task') :
    t' = t ∧ task'.status = status ∨ t' ≠ t ∧ w.tasks.get? t' = some task' := by
  by_cases htt : t' = t
  · subst htt
    rw [setTask_get?_self] at h
    cases h
    exact .inl ⟨rfl, rfl⟩
  · rw [setTask_get?_of_ne htt] at h
    exact .inr ⟨htt, h⟩

/-- A starting process fails a task that is initializing. -/
theorem Accounted.fail (h : Accounted w known) (htask : w.tasks.get? t = some task)
    (hstatus : task.status = .initializing) :
    Accounted (w.setTask t { task with status := .failed }) known := by
  have hclosed := (h.initializing t task htask hstatus).1
  refine ⟨fun t' task' hget => ?_, h.held, fun j t' hj => ?_, h.reserved,
    fun t' task' hget hinit => ?_, h.owed, fun j t' task' hj hget hinit => ?_, h.once, h.opened,
    fun t' task' hget hinit hfailed => ?_, fun t' hmem => ?_⟩
  · rcases setStatus_cases hget with ⟨rfl, -⟩ | ⟨-, hold⟩
    · exact h.stored t' task htask
    · exact h.stored t' task' hold
  · obtain ⟨hmem, hfailed⟩ := h.seen j t' hj
    refine ⟨hmem, fun task' hget => ?_⟩
    rcases setStatus_cases hget with ⟨-, hnow⟩ | ⟨-, hold⟩
    · exact hnow
    · exact hfailed task' hold
  · rcases setStatus_cases hget with ⟨-, hnow⟩ | ⟨-, hold⟩
    · rw [hnow] at hinit
      cases hinit
    · exact h.initializing t' task' hold hinit
  · rcases setStatus_cases hget with ⟨-, hnow⟩ | ⟨-, hold⟩
    · rw [hnow] at hinit
      cases hinit
    · exact h.charged j t' task' hj hold hinit
  · rcases setStatus_cases hget with ⟨-, hnow⟩ | ⟨-, hold⟩
    · exact absurd hnow hfailed
    · exact h.runnable t' task' hold hinit hfailed
  · have htt : t' ≠ t := by
      rintro rfl
      exact hclosed hmem
    rw [setTask_get?_of_ne htt]
    exact h.kept t' hmem

/-- A worker moves a task; a charge is left exactly if the task has not failed. -/
theorem Accounted.execute (h : Accounted w known) (htask : w.tasks.get? t = some task)
    (hinit : task.status ≠ .initializing) (hfailed : task.status ≠ .failed)
    (hstatus : status ≠ .initializing) :
    Accounted { w.setTask t { task with status } with
      reservations := Function.update w.reservations t
        (some (if status = .failed then .refunded else .reserved)) } known := by
  have hopen : t ∈ w.openedIds := h.runnable t task htask hinit hfailed
  have hother : ∀ t', t' ≠ t → Function.update w.reservations t
      (some (if status = .failed then .refunded else .reserved)) t' = w.reservations t' :=
    fun t' hne => Function.update_of_ne hne _ _
  refine ⟨fun t' task' hget => ?_, h.held, fun j t' hj => ?_, fun t' hreserved => ?_,
    fun t' task' hget hinit' => ?_, fun t' hreserved hclosed => ?_,
    fun j t' task' hj hget hinit' => ?_, h.once, fun t' hmem => ?_,
    fun t' task' hget hinit' hfailed' => ?_, fun t' hmem => ?_⟩
  · rcases setStatus_cases hget with ⟨rfl, -⟩ | ⟨-, hold⟩
    · exact h.stored t' task htask
    · exact h.stored t' task' hold
  · obtain ⟨hmem, hseen⟩ := h.seen j t' hj
    refine ⟨hmem, fun task' hget => ?_⟩
    rcases setStatus_cases hget with ⟨rfl, -⟩ | ⟨-, hold⟩
    · exact absurd (hseen task htask) hfailed
    · exact hseen task' hold
  · by_cases htt : t' = t
    · rw [htt]
      exact h.stored t task htask
    · exact h.reserved t' (hother t' htt ▸ hreserved)
  · rcases setStatus_cases hget with ⟨-, hnow⟩ | ⟨-, hold⟩
    · exact absurd (hnow.symm.trans hinit') hstatus
    · exact h.initializing t' task' hold hinit'
  · have htt : t' ≠ t := by
      rintro rfl
      exact hclosed hopen
    exact h.owed t' (hother t' htt ▸ hreserved) hclosed
  · rcases setStatus_cases hget with ⟨-, hnow⟩ | ⟨htt, hold⟩
    · exact absurd (hnow.symm.trans hinit') hstatus
    · have hcase := h.charged j t' task' hj hold hinit'
      rwa [← hother t' htt] at hcase
  · show t' ∈ w.created ∧ Function.update w.reservations t
      (some (if status = .failed then .refunded else .reserved)) t' ≠ none
    by_cases htt : t' = t
    · subst htt
      rw [Function.update_self]
      exact ⟨h.stored t' task htask, by simp⟩
    · rw [hother t' htt]
      exact h.opened t' hmem
  · rcases setStatus_cases hget with ⟨rfl, -⟩ | ⟨-, hold⟩
    · exact hopen
    · exact h.runnable t' task' hold hinit' hfailed'
  · show _ ↔ Function.update w.reservations t
      (some (if status = .failed then .refunded else .reserved)) t' = _
    by_cases htt : t' = t
    · subst htt
      rw [Function.update_self]
      have hget : (w.setTask t' { task with status }).tasks.get? t' = some { task with status } :=
        setTask_get?_self
      have hstored : (∃ task', (w.setTask t' { task with status }).tasks.get? t' = some task' ∧
          task'.status ≠ .failed) ↔ status ≠ .failed := by
        rw [hget]
        simp
      refine hstored.trans ?_
      split <;> simp_all
    · have hkept := h.kept t' hmem
      rw [hother t' htt, ← hkept]
      show (∃ task', (w.setTask t { task with status }).tasks.get? t' = some task' ∧ _) ↔ _
      rw [setTask_get?_of_ne htt]

/-- The only call that creates a task makes it runnable. -/
theorem Accounted.finalize (h : Accounted w known) (hi : (known i).phase = .charged t)
    (htask : w.tasks.get? t = some task) (hstatus : task.status = .initializing)
    (halone : Alone known i t) :
    Accounted { w.setTask t { task with status := .pending } with
      opened := w.opened ++ [(task.key, t)] }
      (Function.update known i { known i with phase := .idle }) := by
  have hclosed := (h.initializing t task htask hstatus).1
  have hreserved : w.reservations t = some .reserved := by
    rcases h.charged i t task hi htask hstatus with hreserved | ⟨j, hj, hother⟩
    · exact hreserved
    · exact absurd hother (halone j hj)
  have hids : World.openedIds { w.setTask t { task with status := .pending } with
      opened := w.opened ++ [(task.key, t)] } = w.openedIds ++ [t] := List.map_append ..
  have hfree : ∀ j t', (known j).phase.task = some t' → t' ≠ t → j ≠ i := by
    rintro j t' hj hne rfl
    rw [hi] at hj
    exact hne (Option.some.inj hj).symm
  refine ⟨fun t' task' hget => ?_, fun j t' hj => ?_, fun j t' hj => ?_, h.reserved,
    fun t' task' hget hinit => ?_, fun t' hreserved' hclosed' => ?_,
    fun j t' task' hj hget hinit => ?_, ?_, fun t' hmem => ?_,
    fun t' task' hget hinit hfailed => ?_, fun t' hmem => ?_⟩
  · rcases setStatus_cases hget with ⟨rfl, -⟩ | ⟨-, hold⟩
    · exact h.stored t' task htask
    · exact h.stored t' task' hold
  · have hji : j ≠ i := by
      rintro rfl
      rw [Function.update_self] at hj
      cases hj
    rw [Function.update_of_ne hji] at hj
    obtain ⟨hmem, hclosed'⟩ := h.held j t' hj
    refine ⟨hmem, ?_⟩
    rw [hids]
    have htt : t' ≠ t := by
      rintro rfl
      exact halone j hji hj
    simp [hclosed', htt]
  · have hseen : (known j).failed = some t' := by
      by_cases hji : j = i
      · rw [hji, Function.update_self] at hj
        exact hji ▸ hj
      · rwa [Function.update_of_ne hji] at hj
    obtain ⟨hmem, hfailed⟩ := h.seen j t' hseen
    refine ⟨hmem, fun task' hget => ?_⟩
    rcases setStatus_cases hget with ⟨rfl, -⟩ | ⟨-, hold⟩
    · rw [hfailed task htask] at hstatus
      cases hstatus
    · exact hfailed task' hold
  · rcases setStatus_cases hget with ⟨-, hnow⟩ | ⟨htt, hold⟩
    · rw [hnow] at hinit
      cases hinit
    · obtain ⟨hclosed', j, hj⟩ := h.initializing t' task' hold hinit
      rw [hids]
      refine ⟨by simp [hclosed', htt], j, ?_⟩
      rw [Function.update_of_ne (hfree j t' hj htt)]
      exact hj
  · rw [hids, List.mem_append, not_or, List.mem_singleton] at hclosed'
    obtain ⟨j, hj⟩ := h.owed t' hreserved' hclosed'.1
    have hji : j ≠ i := hfree j t' (by rcases hj with hj | hj <;> rw [hj] <;> rfl) hclosed'.2
    exact ⟨j, by rwa [Function.update_of_ne hji]⟩
  · have hji : j ≠ i := by
      rintro rfl
      rw [Function.update_self] at hj
      cases hj
    rw [Function.update_of_ne hji] at hj
    rcases setStatus_cases hget with ⟨-, hnow⟩ | ⟨htt, hold⟩
    · rw [hnow] at hinit
      cases hinit
    · rcases h.charged j t' task' hj hold hinit with hreserved' | ⟨j', hj', htask'⟩
      · exact .inl hreserved'
      · exact .inr ⟨j', hj', by rw [Function.update_of_ne (hfree j' t' htask' htt)]; exact htask'⟩
  · rw [hids, List.nodup_append]
    refine ⟨h.once, by simp, fun a ha b hb => ?_⟩
    rw [List.mem_singleton.mp hb]
    rintro rfl
    exact hclosed ha
  · rw [hids, List.mem_append, List.mem_singleton] at hmem
    rcases hmem with hmem | rfl
    · exact h.opened t' hmem
    · have hsome : w.reservations t' ≠ none := by rw [hreserved]; simp
      exact ⟨h.stored t' task htask, hsome⟩
  · rw [hids, List.mem_append, List.mem_singleton]
    rcases setStatus_cases hget with ⟨rfl, -⟩ | ⟨-, hold⟩
    · exact .inr rfl
    · exact .inl (h.runnable t' task' hold hinit hfailed)
  · rw [hids, List.mem_append, List.mem_singleton] at hmem
    rcases hmem with hmem | rfl
    · have htt : t' ≠ t := by
        rintro rfl
        exact hclosed hmem
      show (∃ task', (w.setTask t { task with status := .pending }).tasks.get? t' = some task' ∧ _) ↔ _
      rw [setTask_get?_of_ne htt]
      exact h.kept t' hmem
    · refine iff_of_true ⟨{ task with status := .pending }, setTask_get?_self, by simp⟩ hreserved

end Invariant

end FetchTask.Scheduling
