import FetchTask.Scheduling.Accounted

/-!
All or nothing, in every run.

One lemma for each operation of a creation says that it keeps everything accounted for,
where it is orderly; the run lemma follows, and with it what is left when all calls have
ended.
-/

namespace FetchTask.Scheduling

open Runs Knowledge Store Batch

section Invariant

variable {w : World} {known : Nat → Progress} {e : Env} {i : Nat} {t : TaskId}
  {status : Status}

/-! ### Operations -/

theorem handle_of_none {o : ScheduleOp} (hfault : e.fault = none) :
    handle e o w = perform e o w := by
  unfold handle
  rw [hfault]

theorem handle_of_some {o : ScheduleOp} {fault : Fault} (hfault : e.fault = some fault) :
    handle e o w = (.error fault.raised, if fault.done then (perform e o w).2 else w) := by
  unfold handle
  rw [hfault]

/-- Jobs and users play no part. -/
theorem Accounted.frame (h : Accounted w known) {jobs : Jobs} {enabled : String → Bool} :
    Accounted { w with jobs := jobs, enabled := enabled } known :=
  ⟨h.stored, h.held, h.seen, h.reserved, h.initializing, h.owed, h.charged, h.once, h.opened,
    h.runnable, h.kept⟩

theorem Accounted.performExecute (h : Accounted w known) :
    Accounted (perform e (.execute t status) w).2 known := by
  simp only [perform]
  split
  · exact h
  next task htask =>
    split
    next hmoves =>
      obtain ⟨hinit, hfailed, hstatus⟩ := hmoves
      have hmoved := h.execute htask hinit hfailed hstatus
      have hopen := h.runnable t task htask hinit hfailed
      have hreserved : w.reservations t = some .reserved :=
        (h.kept t hopen).mp ⟨task, htask, hfailed⟩
      dsimp only
      split
      next heq =>
        rw [if_pos heq] at hmoved
        have hrefund : (w.setTask t { task with status }).refund t =
            { w.setTask t { task with status } with
              reservations := Function.update w.reservations t (some .refunded) } := if_pos hreserved
        rw [hrefund]
        exact hmoved
      next hne =>
        rw [if_neg hne, ← hreserved, Function.update_eq_self] at hmoved
        exact hmoved
    next => exact h

/-- What stands aside keeps every account. -/
theorem Accounted.aside (h : Accounted w known) {o : ScheduleOp} (ho : o.isAside = true) :
    Accounted (perform e o w).2 known ∧
      ∀ r, (perform e o w).1 = .error r → r.kind ≠ .quotaExceeded := by
  cases o with
  | outside what => exact ⟨h, fun r hr => by cases hr⟩
  | context owner => exact ⟨h, fun r hr => by cases hr⟩
  | isActive jobId owner => exact ⟨h, fun r hr => by cases hr⟩
  | listJobs owner activeOnly limit => exact ⟨h, fun r hr => by cases hr⟩
  | setEnabled owner enabled => exact ⟨h.frame, fun r hr => by cases hr⟩
  | execute t status =>
    refine ⟨h.performExecute, fun r hr => ?_⟩
    simp only [perform] at hr
    split at hr
    · cases hr
    · split at hr <;> cases hr
  | updateTask t =>
    simp only [perform]
    split
    · exact ⟨h, fun r hr => by cases hr; simp [fileNotFound]⟩
    · exact ⟨h, fun r hr => by cases hr⟩
  | mutate jobId m =>
    simp only [perform]
    split
    · exact ⟨h, fun r hr => by cases hr; simp⟩
    · split
      next error _ =>
        refine ⟨h, fun r hr => ?_⟩
        cases hr
        cases error <;> simp [BatchError.raised]
      next => exact ⟨h.frame, fun r hr => by cases hr⟩
  | reserve path t => cases ho
  | _ => cases ho

theorem can_aside {o : ScheduleOp} (ho : o.isAside = true) (r : Except Raised o.Answer)
    (hr : ∀ raised, r = .error raised → raised.kind ≠ .quotaExceeded) : holdings.can o r := by
  cases r with
  | ok a =>
    cases o with
    | outside what => cases what <;> trivial
    | _ => trivial
  | error raised =>
    have hkind := hr raised rfl
    cases o with
    | outside what => cases what <;> first | exact hkind | cases ho
    | _ => first | exact hkind | cases ho

/-- The operation of a call has a result that it can have, and everything is accounted for. -/
def KeptBy (e : Env) (i : Nat) (o : ScheduleOp) (w : World) (known : Nat → Progress) : Prop :=
  holdings.can o (handle e o w).1 ∧ Accounted (handle e o w).2
    (Function.update known i (holdings.learn (known i) o (handle e o w).1))

theorem keptBy_aside {o : ScheduleOp} (h : Accounted w known) (ho : o.isAside = true) :
    KeptBy e i o w known := by
  obtain ⟨hafter, herror⟩ := h.aside (e := e) ho
  have hcan : holdings.can o (handle e o w).1 := by
    refine can_aside ho _ fun raised hraised => ?_
    cases hfault : e.fault with
    | none =>
      rw [handle_of_none hfault] at hraised
      exact herror raised hraised
    | some fault =>
      rw [handle_of_some hfault] at hraised
      cases hraised
      exact fault.raised.2
  refine ⟨hcan, ?_⟩
  rw [(neutral_of_isAside ho).2 _ hcan, Function.update_eq_self]
  cases hfault : e.fault with
  | none =>
    rw [handle_of_none hfault]
    exact hafter
  | some fault =>
    rw [handle_of_some hfault]
    dsimp only
    split
    · exact hafter
    · exact h

/-- An operation that teaches nothing and changes nothing. -/
theorem keptBy_of_same {o : ScheduleOp} (h : Accounted w known)
    (hcan : holdings.can o (handle e o w).1) (hstate : (handle e o w).2 = w)
    (hlearn : holdings.learn (known i) o (handle e o w).1 = known i) : KeptBy e i o w known := by
  refine ⟨hcan, ?_⟩
  rw [hstate, hlearn, Function.update_eq_self]
  exact h

theorem keptBy_submitAside {what : Outside} (h : Accounted w known)
    (hwhat : what = .submitCosts ∨ what = .submitActive ∨ what = .submitReservation)
    (horderly : ∀ fault ∈ e.fault, fault.raised.1.kind ≠ .valueError) :
    KeptBy e i (.outside what) w known := by
  cases hfault : e.fault with
  | none =>
    have hhandle : handle e (.outside what) w = (.ok (), w) := handle_of_none hfault
    refine keptBy_of_same h ?_ (by rw [hhandle]) (by rw [hhandle]; rfl)
    rw [hhandle]
    rcases hwhat with rfl | rfl | rfl <;> trivial
  | some fault =>
    have hhandle : handle e (.outside what) w = (.error fault.raised, w) := by
      rw [handle_of_some hfault]
      exact congrArg _ (ite_self w)
    refine keptBy_of_same h ?_ (by rw [hhandle]) (by rw [hhandle]; rfl)
    rw [hhandle]
    have hkinds : fault.raised.1.kind ≠ .valueError ∧ fault.raised.1.kind ≠ .quotaExceeded :=
      ⟨horderly fault hfault, fault.raised.2⟩
    rcases hwhat with rfl | rfl | rfl <;> exact hkinds

theorem keptBy_readStatus (h : Accounted w known) : KeptBy e i (.readStatus t) w known := by
  have hstate : (perform e (.readStatus t) w).2 = w := by
    simp only [perform]
    split <;> rfl
  cases hfault : e.fault with
  | some fault =>
    have hhandle : handle e (.readStatus t) w = (.error fault.raised, w) := by
      rw [handle_of_some hfault, hstate]
      exact congrArg _ (ite_self w)
    refine keptBy_of_same h ?_ (by rw [hhandle]) (by rw [hhandle]; rfl)
    rw [hhandle]
    exact fault.raised.2
  | none =>
    rw [KeptBy, handle_of_none hfault, hstate]
    simp only [perform]
    split
    next =>
      refine ⟨by simp [holdings, fileNotFound], ?_⟩
      show Accounted w (Function.update known i (known i))
      rw [Function.update_eq_self]
      exact h
    next task htask =>
      refine ⟨trivial, ?_⟩
      show Accounted w (Function.update known i
        (if task.status = .failed then { known i with failed := some t } else known i))
      split
      next hfailed =>
        refine h.see rfl fun t' ht' => .inr ?_
        obtain rfl : t = t' := Option.some.inj ht'
        refine ⟨h.stored t task htask, fun task' htask' => ?_⟩
        obtain rfl := Option.some.inj (htask.symm.trans htask')
        exact hfailed
      next =>
        rw [Function.update_eq_self]
        exact h

/-- The start of a process fails what is initializing, and nothing else. -/
theorem perform_failInitializing (h : Accounted w known) :
    Accounted (perform e (.failInitializing t) w).2 known ∧
      ((perform e (.failInitializing t) w).1 = .ok false ∨
        (perform e (.failInitializing t) w).1 = .ok true ∧ t ∈ w.created ∧
          ∀ task, (perform e (.failInitializing t) w).2.tasks.get? t = some task →
            task.status = .failed) := by
  simp only [perform]
  split
  next => exact ⟨h, .inl rfl⟩
  next task htask =>
    split
    next hinit =>
      refine ⟨h.fail htask hinit, .inr ⟨rfl, h.stored t task htask, fun task' hget => ?_⟩⟩
      have hself : (w.setTask t { task with status := .failed }).tasks.get? t =
          some { task with status := .failed } := setTask_get?_self
      obtain rfl := Option.some.inj (hself.symm.trans hget)
      rfl
    next => exact ⟨h, .inl rfl⟩

theorem keptBy_failInitializing (h : Accounted w known) :
    KeptBy e i (.failInitializing t) w known := by
  obtain ⟨hafter, hanswer⟩ := perform_failInitializing (e := e) (t := t) h
  have hcreated : (perform e (.failInitializing t) w).2.created = w.created := by
    simp only [perform]
    split
    · rfl
    · split <;> rfl
  cases hfault : e.fault with
  | some fault =>
    rw [KeptBy, handle_of_some hfault]
    refine ⟨fault.raised.2, ?_⟩
    show Accounted _ (Function.update known i (known i))
    rw [Function.update_eq_self]
    dsimp only
    split
    · exact hafter
    · exact h
  | none =>
    rw [KeptBy, handle_of_none hfault]
    rcases hanswer with hfalse | ⟨htrue, hmem, hfailed⟩
    · rw [hfalse]
      refine ⟨trivial, ?_⟩
      show Accounted _ (Function.update known i (known i))
      rw [Function.update_eq_self]
      exact hafter
    · rw [htrue]
      refine ⟨trivial, hafter.see rfl fun t' ht' => .inr ?_⟩
      obtain rfl : t = t' := Option.some.inj ht'
      exact ⟨hcreated ▸ hmem, hfailed⟩

theorem keptBy_refundFailed (h : Accounted w known) (hmay : (known i).failed = some t) :
    KeptBy e i (.refundFailed t) w known := by
  have hafter := h.refundFailed (h.seen i t hmay).2
  rw [KeptBy]
  cases hfault : e.fault with
  | none =>
    rw [handle_of_none hfault]
    refine ⟨trivial, ?_⟩
    show Accounted (w.refund t) (Function.update known i (known i))
    rw [Function.update_eq_self]
    exact hafter
  | some fault =>
    rw [handle_of_some hfault]
    refine ⟨fault.raised.2, ?_⟩
    show Accounted (if fault.done then w.refund t else w) (Function.update known i (known i))
    rw [Function.update_eq_self]
    split
    · exact hafter
    · exact h

theorem keptBy_deleteOriginal (h : Accounted w known) (hmay : (known i).failed = some t)
    (horderly : e.fault = none) : KeptBy e i (.deleteOriginal t) w known := by
  rw [KeptBy, handle_of_none horderly]
  refine ⟨trivial, ?_⟩
  show Accounted _ (Function.update known i (known i))
  rw [Function.update_eq_self]
  exact h.erase (not_runnable_of_seen h hmay)

/-! #### A creation -/

theorem keptBy_createTask (h : Accounted w known) (hmay : (known i).phase = .idle)
    (horderly : e.fresh.1 ∉ w.created ∧ ∀ fault ∈ e.fault, fault.done = false) :
    KeptBy e i .createTask w known := by
  cases hfault : e.fault with
  | some fault =>
    have hhandle : handle e .createTask w = (.error fault.raised, w) := by
      rw [handle_of_some hfault, horderly.2 fault hfault]
      rfl
    refine keptBy_of_same h ?_ (by rw [hhandle]) (by rw [hhandle]; rfl)
    rw [hhandle]
    exact fault.raised.2
  | none =>
    have hfresh : w.tasks.get? e.fresh.1 = none := by
      cases hget : w.tasks.get? e.fresh.1 with
      | none => rfl
      | some task => exact absurd (h.stored _ task hget) horderly.1
    have hhandle : handle e .createTask w = (.ok e.fresh.1, w.addTask e.fresh.1 none) := by
      rw [handle_of_none hfault]
      simp only [perform, hfresh]
    rw [KeptBy, hhandle]
    exact ⟨trivial, h.create hmay horderly.1⟩

theorem keptBy_findOrCreate {key : TaskKey} (h : Accounted w known)
    (hmay : (known i).phase = .idle) (horderly : w.taskOf key = none →
      e.fresh.1 ∉ w.created ∧ ∀ fault ∈ e.fault, fault.done = false) :
    KeptBy e i (.findOrCreate key) w known := by
  cases hfound : w.taskOf key with
  | some found =>
    obtain ⟨t, task⟩ := found
    have htask : w.tasks.get? t = some task :=
      (Dict.get?_eq_some_iff _).mpr (List.mem_of_find?_eq_some hfound)
    have hperform : perform e (.findOrCreate key) w = (.ok ⟨t, false, task.status⟩, w) := by
      simp only [perform, hfound]
    cases hfault : e.fault with
    | some fault =>
      have hhandle : handle e (.findOrCreate key) w = (.error fault.raised, w) := by
        rw [handle_of_some hfault, hperform]
        exact congrArg _ (ite_self w)
      refine keptBy_of_same h ?_ (by rw [hhandle]) (by rw [hhandle]; rfl)
      rw [hhandle]
      exact fault.raised.2
    | none =>
      rw [KeptBy, handle_of_none hfault, hperform]
      refine ⟨trivial, ?_⟩
      show Accounted w (Function.update known i
        (if false = false ∧ task.status ≠ .initializing then known i
          else { known i with phase := .made t }))
      split
      next =>
        rw [Function.update_eq_self]
        exact h
      next hresumed =>
        have hinit : task.status = .initializing := by simpa using hresumed
        exact h.take hmay (h.stored t task htask) (h.initializing t task htask hinit).1
  | none =>
    obtain ⟨hnew, hnotDone⟩ := horderly hfound
    cases hfault : e.fault with
    | some fault =>
      have hhandle : handle e (.findOrCreate key) w = (.error fault.raised, w) := by
        rw [handle_of_some hfault, hnotDone fault hfault]
        rfl
      refine keptBy_of_same h ?_ (by rw [hhandle]) (by rw [hhandle]; rfl)
      rw [hhandle]
      exact fault.raised.2
    | none =>
      have hfresh : w.tasks.get? e.fresh.1 = none := by
        cases hget : w.tasks.get? e.fresh.1 with
        | none => rfl
        | some task => exact absurd (h.stored _ task hget) hnew
      have hhandle : handle e (.findOrCreate key) w =
          (.ok ⟨e.fresh.1, true, .initializing⟩, w.addTask e.fresh.1 (some key)) := by
        rw [handle_of_none hfault]
        simp only [perform, hfound, hfresh]
      rw [KeptBy, hhandle]
      exact ⟨trivial, h.create hmay hnew⟩

theorem perform_reserve (e : Env) (path : Path) (t : TaskId) (w : World) :
    perform e (.reserve path t) w = (.ok (),
      { w with reservations := Function.update w.reservations t (some .reserved) }) ∨
    ∃ r : Raised, perform e (.reserve path t) w = (.error r, w) ∧ r.kind = .quotaExceeded ∧
      r.transient = false ∧ w.reservations t ≠ some .reserved := by
  simp only [perform]
  split
  next hreserved =>
    refine .inl ?_
    rw [← hreserved, Function.update_eq_self]
  next hrefunded =>
    refine .inr ⟨_, rfl, rfl, rfl, ?_⟩
    rw [hrefunded]
    simp
  next hnone =>
    split
    · refine .inr ⟨_, rfl, rfl, rfl, ?_⟩
      rw [hnone]
      simp
    · exact .inl rfl

/-- A call goes on with its task; nothing is reserved or refunded. -/
theorem Accounted.rephase_same (h : Accounted w known) (hi : (known i).phase.task = some t)
    {phase : Phase} (hphase : phase.task = some t)
    (howed : w.reservations t = some .reserved → phase = .unsure t ∨ phase = .charged t)
    (hcharged : phase = .charged t → w.reservations t = some .reserved) :
    Accounted w (Function.update known i { known i with phase := phase }) := by
  have hstep := h.rephase hi hphase howed hcharged
  rwa [Function.update_eq_self] at hstep

theorem keptBy_reserve {path : Path} (h : Accounted w known)
    (hmay : (known i).phase.task = some t ∧ (path = .retry → (known i).phase = .made t))
    (hvalue : path = .submit → ∀ fault ∈ e.fault, fault.raised.1.kind ≠ .valueError)
    (hdone : path = .retry → ∀ fault ∈ e.fault, fault.done = false) :
    KeptBy e i (.reserve path t) w known := by
  cases hfault : e.fault with
  | none =>
    rw [KeptBy, handle_of_none hfault]
    rcases perform_reserve e path t w with hok | ⟨r, herror, hquota, hlast, hfree⟩
    · rw [hok]
      exact ⟨trivial, h.rephase hmay.1 rfl (fun _ => .inr rfl) fun _ => rfl⟩
    · rw [herror]
      refine ⟨⟨fun _ => hlast, fun _ => by rw [hquota]; simp⟩, ?_⟩
      show Accounted w (Function.update known i
        (if r.kind = .quotaExceeded then { known i with phase := .made t }
          else if path = .retry then known i else { known i with phase := .unsure t }))
      rw [if_pos hquota]
      exact h.rephase_same hmay.1 rfl (fun hreserved => absurd hreserved hfree) fun hphase => by cases hphase
  | some fault =>
    rw [KeptBy, handle_of_some hfault]
    refine ⟨⟨fun hquota => absurd hquota fault.raised.2, fun hpath => hvalue hpath fault hfault⟩, ?_⟩
    show Accounted (if fault.done then (perform e (.reserve path t) w).2 else w)
      (Function.update known i
        (if fault.raised.1.kind = .quotaExceeded then { known i with phase := .made t }
          else if path = .retry then known i else { known i with phase := .unsure t }))
    rw [if_neg fault.raised.2]
    split
    next hdone' =>
      have hpath : path ≠ .retry := by
        intro hretry
        rw [hdone hretry fault hfault] at hdone'
        cases hdone'
      rw [if_neg hpath]
      rcases perform_reserve e path t w with hok | ⟨r, herror, -⟩
      · rw [hok]
        exact h.rephase hmay.1 rfl (fun _ => .inl rfl) fun hphase => by cases hphase
      · rw [herror]
        exact h.rephase_same hmay.1 rfl (fun _ => .inl rfl) fun hphase => by cases hphase
    next =>
      split
      · rw [Function.update_eq_self]
        exact h
      · exact h.rephase_same hmay.1 rfl (fun _ => .inl rfl) fun hphase => by cases hphase

theorem refund_eq (w : World) (t : TaskId) : ∃ reservation, reservation ≠ some .reserved ∧
    w.refund t = { w with reservations := Function.update w.reservations t reservation } := by
  unfold World.refund
  split
  next => exact ⟨some .refunded, by simp, rfl⟩
  next hfree =>
    refine ⟨w.reservations t, hfree, ?_⟩
    rw [Function.update_eq_self]

theorem keptBy_refund {left : Nat} (h : Accounted w known) (hmay : (known i).phase.task = some t)
    (horderly : ∀ fault ∈ e.fault, fault.raised.1.transient = true ∧ 0 < left) :
    KeptBy e i (.refund left t) w known := by
  obtain ⟨reservation, hfree, hrefund⟩ := refund_eq w t
  cases hfault : e.fault with
  | none =>
    have hhandle : handle e (.refund left t) w = (.ok (), w.refund t) := handle_of_none hfault
    rw [KeptBy, hhandle, hrefund]
    exact ⟨trivial, h.rephase hmay rfl (fun hreserved => absurd hreserved hfree)
      fun hphase => by cases hphase⟩
  | some fault =>
    have hhandle : handle e (.refund left t) w =
        (.error fault.raised, if fault.done then w.refund t else w) := handle_of_some hfault
    rw [KeptBy, hhandle]
    refine ⟨horderly fault hfault, ?_⟩
    show Accounted (if fault.done then w.refund t else w)
      (Function.update known i { known i with phase := .unsure t })
    split
    · rw [hrefund]
      exact h.rephase hmay rfl (fun _ => .inl rfl) fun hphase => by cases hphase
    · exact h.rephase_same hmay rfl (fun _ => .inl rfl) fun hphase => by cases hphase

theorem keptBy_delete {left : Nat} (h : Accounted w known) (hmay : (known i).phase = .made t)
    (horderly : ∀ fault ∈ e.fault, fault.done = true ∨ fault.raised.1.transient = true ∧ 0 < left) :
    KeptBy e i (.delete left t) w known := by
  have herased : Accounted { w with tasks := w.tasks.erase t } known :=
    h.erase (not_runnable_of_held h (by rw [hmay]; rfl))
  have hgone : (w.tasks.erase t).get? t = none := by
    rw [Dict.get?_erase, if_pos rfl]
  have hreleased := herased.release hmay hgone
  cases hfault : e.fault with
  | none =>
    have hhandle : handle e (.delete left t) w = (.ok (), { w with tasks := w.tasks.erase t }) :=
      handle_of_none hfault
    rw [KeptBy, hhandle]
    exact ⟨trivial, hreleased⟩
  | some fault =>
    have hhandle : handle e (.delete left t) w = (.error fault.raised,
        if fault.done then { w with tasks := w.tasks.erase t } else w) := handle_of_some hfault
    rw [KeptBy, hhandle]
    refine ⟨fault.raised.2, ?_⟩
    show Accounted (if fault.done then { w with tasks := w.tasks.erase t } else w)
      (Function.update known i (if fault.raised.1.transient = true ∧ 0 < left then known i
        else { known i with phase := .idle }))
    split
    next hdone =>
      split
      · rw [Function.update_eq_self]
        exact herased
      · exact hreleased
    next hnotDone =>
      -- A deletion that has not taken effect is tried again.
      have hagain := (horderly fault hfault).resolve_left hnotDone
      rw [if_pos hagain, Function.update_eq_self]
      exact h

theorem keptBy_writePending (h : Accounted w known) (hmay : (known i).phase = .charged t)
    (hnotDone : ∀ fault ∈ e.fault, fault.done = false)
    (halone : e.fault = none → ∀ task, w.tasks.get? t = some task →
      task.status = .initializing ∧ Alone known i t) :
    KeptBy e i (.writePending t) w known := by
  cases hfault : e.fault with
  | some fault =>
    have hhandle : handle e (.writePending t) w = (.error fault.raised, w) := by
      rw [handle_of_some hfault, hnotDone fault hfault]
      rfl
    refine keptBy_of_same h ?_ (by rw [hhandle]) (by rw [hhandle]; rfl)
    rw [hhandle]
    exact fault.raised.2
  | none =>
    rw [KeptBy, handle_of_none hfault]
    simp only [perform]
    split
    next =>
      refine ⟨by simp [holdings, fileNotFound], ?_⟩
      show Accounted w (Function.update known i (known i))
      rw [Function.update_eq_self]
      exact h
    next task htask =>
      obtain ⟨hinit, hothers⟩ := halone hfault task htask
      exact ⟨trivial, h.finalize hmay htask hinit hothers⟩

/-- Every operation of an orderly run keeps the accounts. -/
theorem keeps_accounted : holdings.KeepsWith handle Accounted
    fun known i e o w => Orderly (Alone known i) e o w := by
  intro i e o w known h hmay horderly
  show KeptBy e i o w known
  cases o with
  | outside what =>
    cases what with
    | submitCosts => exact keptBy_submitAside h (.inl rfl) horderly
    | submitActive => exact keptBy_submitAside h (.inr (.inl rfl)) horderly
    | submitReservation => exact keptBy_submitAside h (.inr (.inr rfl)) horderly
    | _ => exact keptBy_aside h rfl
  | createTask => exact keptBy_createTask h hmay horderly
  | findOrCreate key => exact keptBy_findOrCreate h hmay horderly
  | reserve path t =>
    cases path with
    | batch => exact keptBy_reserve h hmay (fun h => by cases h) fun h => by cases h
    | submit => exact keptBy_reserve h hmay (fun _ => horderly) fun h => by cases h
    | retry => exact keptBy_reserve h hmay (fun h => by cases h) fun _ => horderly
  | refund left t => exact keptBy_refund h hmay horderly
  | delete left t => exact keptBy_delete h hmay horderly
  | deleteOriginal t => exact keptBy_deleteOriginal h hmay horderly
  | writePending t => exact keptBy_writePending h hmay horderly.1 horderly.2
  | readStatus t => exact keptBy_readStatus h
  | failInitializing t => exact keptBy_failInitializing h
  | refundFailed t => exact keptBy_refundFailed h hmay
  | _ => exact keptBy_aside h rfl

theorem spares_of_orderly (h : Accounted w known) {o : ScheduleOp}
    (hmay : holdings.may (known i) o) (horderly : Orderly (Alone known i) e o w) :
    Spares e o w := by
  cases o with
  | refund left t => exact not_runnable_of_held h hmay
  | delete left t =>
    have hmade : (known i).phase = .made t := hmay
    exact not_runnable_of_held h (by rw [hmade]; rfl)
  | refundFailed t => exact not_runnable_of_seen h hmay
  | deleteOriginal t => exact not_runnable_of_seen h hmay
  | writePending t =>
    intro hfault task htask
    obtain ⟨hinit, halone⟩ := horderly.2 hfault task htask
    rcases h.charged i t task hmay htask hinit with hreserved | ⟨j, hj, hother⟩
    · exact hreserved
    · exact absurd hother (halone j hj)
  | _ => trivial

end Invariant

/-! ### Runs -/

/-- The configuration, in which calls have been told nothing. -/
def ScheduleConfig.untold (c : ScheduleConfig) : Tracked ScheduleSig World Progress where
  config := c
  known _ := {}

def ScheduleConfig.Idle (c : ScheduleConfig) : Prop := ∀ i, (c.threads i).isDone = true

theorem ScheduleConfig.Start.follows {c : ScheduleConfig} (h : c.Start) :
    holdings.Follows (fun k => k.phase = .idle) Accounted c.untold := by
  have hnone : ∀ t task, c.shared.tasks.get? t ≠ some task := by
    intro t task hget
    rw [h.tasks] at hget
    cases hget
  have hids : c.shared.openedIds = [] := by
    rw [World.openedIds, h.opened]
    rfl
  refine ⟨fun i => ?_, ?_⟩
  · show holdings.Ensures _ _ (c.threads i)
    cases hi : c.threads i with
    | ret u => rfl
    | act o k =>
      have hdone := h.idle i
      simp [hi, Prog.isDone] at hdone
  · refine ⟨fun t task hget => absurd hget (hnone t task), fun i t hi => (by cases hi),
      fun i t hi => (by cases hi), fun t hreserved => absurd (h.reservations t) hreserved,
      fun t task hget => absurd hget (hnone t task), fun t hreserved => ?_,
      fun i t task hi => (by cases hi), ?_, fun t hmem => ?_,
      fun t task hget => absurd hget (hnone t task), fun t hmem => ?_⟩
    · have hfree := h.reservations t
      change c.shared.reservations t = some .reserved at hreserved
      rw [hfree] at hreserved
      cases hreserved
    · show c.shared.openedIds.Nodup
      rw [hids]
      exact List.nodup_nil
    · change t ∈ c.shared.openedIds at hmem
      rw [hids] at hmem
      cases hmem
    · change t ∈ c.shared.openedIds at hmem
      rw [hids] at hmem
      cases hmem

/-- In any interleaving of requests, ticks, retries by hand, starts and workers that is orderly:
whenever all calls have ended, every task is complete or undone; and no call refunds or deletes a
runnable task, or makes one runnable whose charge has been given back. -/
theorem creation_all_or_nothing (labels : List (Label ScheduleCall Env)) (c : ScheduleConfig)
    (hstart : c.Start)
    (horderly : AllSteps (holdings.step handle ScheduleCall.prog)
      (OnThreads fun known i e o w => Orderly (Alone known i) e o w) labels c.untold) :
    Throughout step (fun c => c.Idle → ∀ t, c.shared.AllOrNothing t) labels c ∧
      AllSteps step (OnAct fun _ e o c => Spares e o c.shared) labels c := by
  have hspawn : ∀ w known i, Accounted w known → (known i).phase = .idle →
      Accounted w (Function.update known i {}) := by
    intro w known i h hi
    refine h.see hi.symm fun t ht => ?_
    cases ht
  constructor
  · have hall := follows_run_with call_ends hspawn keeps_accounted hstart.follows horderly
    refine throughout_config.mp (hall.mono fun t ht hidle => ?_)
    exact ht.inv.allOrNothing fun i => ht.ended (hidle i)
  · have hsteps := follows_allSteps_with call_ends hspawn keeps_accounted
      (fun known i e o w h hmay horderly => spares_of_orderly h hmay horderly) hstart.follows horderly
    refine allSteps_config.mp (hsteps.mono fun label t h => ?_)
    exact onKnown_iff.mp (onThreads_iff.mp h)

/-! ### Two requests with one key -/

section Sample

section Decidable

variable (alone : TaskId → Prop) [DecidablePred alone] (e : Env) (o : ScheduleOp) (w : World)

instance (t : TaskId) : Decidable (w.Runnable t) :=
  decidable_of_iff (t ∈ w.openedIds ∧ ∃ task ∈ w.tasks.get? t, task.status ≠ .failed) Iff.rfl

instance Spares.decidable : Decidable (Spares e o w) := by
  cases o with
  | writePending t =>
    exact inferInstanceAs (Decidable (e.fault = none →
      ∀ task ∈ w.tasks.get? t, w.reservations t = some .reserved))
  | refund left t => exact inferInstanceAs (Decidable (¬ w.Runnable t))
  | refundFailed t => exact inferInstanceAs (Decidable (¬ w.Runnable t))
  | delete left t => exact inferInstanceAs (Decidable (¬ w.Runnable t))
  | deleteOriginal t => exact inferInstanceAs (Decidable (¬ w.Runnable t))
  | _ => exact inferInstanceAs (Decidable True)

instance Orderly.decidable : Decidable (Orderly alone e o w) := by
  cases o with
  | createTask => exact inferInstanceAs (Decidable (_ ∧ ∀ fault ∈ e.fault, fault.done = false))
  | findOrCreate key =>
    exact inferInstanceAs (Decidable (w.taskOf key = none →
      e.fresh.1 ∉ w.created ∧ ∀ fault ∈ e.fault, fault.done = false))
  | reserve path t =>
    cases path with
    | batch => exact inferInstanceAs (Decidable True)
    | submit =>
      exact inferInstanceAs (Decidable (∀ fault ∈ e.fault, fault.raised.1.kind ≠ .valueError))
    | retry => exact inferInstanceAs (Decidable (∀ fault ∈ e.fault, fault.done = false))
  | outside what =>
    cases what with
    | submitCosts =>
      exact inferInstanceAs (Decidable (∀ fault ∈ e.fault, fault.raised.1.kind ≠ .valueError))
    | submitActive =>
      exact inferInstanceAs (Decidable (∀ fault ∈ e.fault, fault.raised.1.kind ≠ .valueError))
    | submitReservation =>
      exact inferInstanceAs (Decidable (∀ fault ∈ e.fault, fault.raised.1.kind ≠ .valueError))
    | _ => exact inferInstanceAs (Decidable True)
  | refund left t =>
    exact inferInstanceAs (Decidable (∀ fault ∈ e.fault, fault.raised.1.transient = true ∧ 0 < left))
  | delete left t =>
    exact inferInstanceAs (Decidable (∀ fault ∈ e.fault,
      fault.done = true ∨ fault.raised.1.transient = true ∧ 0 < left))
  | deleteOriginal t =>
    have hnone : e.fault.isNone = true ↔ e.fault = none := Option.isNone_iff_eq_none
    exact decidable_of_iff _ hnone
  | writePending t =>
    exact inferInstanceAs (Decidable ((∀ fault ∈ e.fault, fault.done = false) ∧
      (e.fault = none → ∀ task ∈ w.tasks.get? t, task.status = .initializing ∧ alone t)))
  | _ => exact inferInstanceAs (Decidable True)

end Decidable

/-- Threads that never run create nothing. -/
theorem alone_of_bounded {n : Nat} {labels : List (Label ScheduleCall Env)} {c : ScheduleConfig}
    (hthreads : ∀ label ∈ labels, label.thread < n)
    (h : AllSteps (holdings.step handle ScheduleCall.prog) (OnThreads fun known i e o w =>
      Orderly (fun t => ∀ j < n, j ≠ i → (known j).phase.task ≠ some t) e o w) labels c.untold) :
    AllSteps (holdings.step handle ScheduleCall.prog)
      (OnThreads fun known i e o w => Orderly (Alone known i) e o w) labels c.untold := by
  refine allSteps_of_bounded hthreads (fun _ _ => rfl) (fun known i e o w hrest horderly => ?_) h
  have halone : (fun t => ∀ j < n, j ≠ i → (known j).phase.task ≠ some t) = Alone known i := by
    funext t
    refine propext ⟨fun hsome j hji => ?_, fun hall j _ => hall j⟩
    by_cases hj : j < n
    · exact hsome j hj hji
    · rw [hrest j (not_lt.mp hj)]
      simp [Phase.task]
  rwa [halone] at horderly

def noTasks : ScheduleConfig where
  shared := { jobs := .empty }
  threads _ := .ret ()

theorem noTasks_start : noTasks.Start := ⟨fun _ => rfl, rfl, fun _ => rfl, rfl, rfl⟩

def moment (fresh : { t : TaskId // t ≠ "" }) (fault : Option Fault) : Env :=
  { chars := .ascii, now := 1, fresh, fault }

/-- Steps of one thread that nothing disturbs. -/
def steps (thread count : Nat) (fresh : { t : TaskId // t ≠ "" }) : List (Label ScheduleCall Env) :=
  List.replicate count (.act thread (moment fresh none))

/-- A step that raises before, or after, it has taken effect. -/
def raises (thread : Nat) (done : Bool) (fresh : { t : TaskId // t ≠ "" }) :
    Label ScheduleCall Env :=
  .act thread (moment fresh (some ⟨⟨⟨.other, "", false⟩, by decide⟩, done⟩))

def firstId : { t : TaskId // t ≠ "" } := ⟨"t", by decide⟩

def secondId : { t : TaskId // t ≠ "" } := ⟨"u", by decide⟩

/-- The transaction of the first request raises; a second request begins anew. -/
def requestAgain : List (Label ScheduleCall Env) :=
  .spawn 0 (.submitTask "o" (some "k")) :: steps 0 5 firstId ++ raises 0 false firstId ::
    steps 0 2 firstId ++ .spawn 1 (.submitTask "o" (some "k")) :: steps 1 12 secondId

/-- The second request resumes what the first one is about to complete. -/
def requestTwice : List (Label ScheduleCall Env) :=
  .spawn 0 (.submitTask "o" (some "k")) :: steps 0 2 firstId ++
    .spawn 1 (.submitTask "o" (some "k")) :: steps 1 2 secondId ++ steps 0 10 firstId ++
      steps 1 10 secondId

/-- The reservation of a retry raises after it has taken effect. -/
def retryUnpaid : List (Label ScheduleCall Env) :=
  .spawn 0 (.submitTask "o" none) :: steps 0 12 firstId ++
    .spawn 0 (.execute "t" .failed) :: steps 0 1 firstId ++
      .spawn 0 (.retryCompletedTask "t") :: steps 0 4 secondId ++
        raises 0 true secondId :: steps 0 1 secondId

theorem creation_all_or_nothing_again :
    Throughout step (fun c => c.Idle → ∀ t, c.shared.AllOrNothing t) requestAgain noTasks ∧
      AllSteps step (OnAct fun _ e o c => Spares e o c.shared) requestAgain noTasks :=
  creation_all_or_nothing requestAgain noTasks noTasks_start
    (alone_of_bounded (n := 2) (by decide +kernel) (by decide +kernel))

example : (run step requestAgain noTasks).shared.tasks.items =
    [("u", ⟨some (.request "o" "k"), .pending⟩)] := by
  decide +kernel

/-- The second request deletes and refunds the pending task; and the charge of a deleted task is
left. -/
theorem pending_task_deleted :
    noTasks.Start ∧
      ¬ AllSteps step (OnAct fun _ e o c => Spares e o c.shared) requestTwice noTasks ∧
      ¬ Throughout step (fun c => c.Idle → ∀ t, c.shared.AllOrNothing t) retryUnpaid noTasks := by
  refine ⟨noTasks_start, by decide +kernel, fun h => ?_⟩
  have hidle : (run step retryUnpaid noTasks).Idle := by
    intro i
    by_cases hi : i = 0
    · subst hi
      decide +kernel
    · have hthread : (run step retryUnpaid noTasks).threads i = noTasks.threads i := by
        refine run_threads (fun label hlabel heq => hi ?_) noTasks
        have hzero : ∀ label ∈ retryUnpaid, label.thread = 0 := by decide +kernel
        rw [heq]
        exact hzero label hlabel
      rw [hthread]
      rfl
  have hgone : (run step retryUnpaid noTasks).shared.tasks.get? "u" = none := by decide +kernel
  have hcharged : (run step retryUnpaid noTasks).shared.reservations "u" = some .reserved := by
    decide +kernel
  rcases h.final hidle "u" with ⟨⟨task, hget, -⟩, -⟩ | ⟨-, hfree⟩
  · rw [hgone] at hget
    cases hget
  · exact hfree hcharged

end Sample

end FetchTask.Scheduling
