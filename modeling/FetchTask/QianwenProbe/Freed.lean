import FetchTask.QianwenProbe
import Mathlib.Data.List.Nodup

/-!
A probe frees the accounts that it takes, if it is not stopped at the wrong moment.

From the result of its claim on, the run is bound to clear the account, however it
is cancelled. There is a gap before that and one after. A claim whose helper has
begun is not stopped with the run, and nobody clears what it takes, or has taken;
and a clean-up that is still queued is withdrawn by a cancellation. Apart from
these moments, and from a clean-up that raises, every account is free once the run
has ended and its helpers have finished. That only a free account is ever leased
needs no condition.
-/

namespace FetchTask.QianwenProbe

open Accounts Runs

/-! ### Changes of accounts -/

section Mutate

variable {α : Type} {f : Account → α × Account} {accountId : String}

/-- Where the ids are distinct, the account with the id is changed and the others are not. -/
theorem mutateAccount_eq_map {accounts : Table} (hdistinct : (accounts.map (·.id)).Nodup) :
    (mutateAccount accountId f accounts).2 =
      accounts.map fun a => if a.id = accountId then (f a).2 else a := by
  unfold mutateAccount
  induction accounts with
  | nil => rfl
  | cons a accounts ih =>
    rw [List.map_cons, List.nodup_cons] at hdistinct
    obtain ⟨hnot, htail⟩ := hdistinct
    by_cases ha : a.id = accountId
    · -- No account after the first one has the id.
      have hrest : accounts.map (fun b => if b.id = accountId then (f b).2 else b) = accounts := by
        rw [List.map_congr_left fun b hb => if_neg fun hid => hnot ?_, List.map_id']
        rw [ha, ← hid]
        exact List.mem_map_of_mem hb
      simp [ha, hrest]
    · simpa [ha] using ih htail

/-- A change that does not lease an account, made to one of them. -/
theorem leased_mutateAccount {accounts : Table} {a' : Account}
    (hid : ∀ a, (f a).2.id = a.id)
    (htask : ∀ a, (f a).2.currentTaskId = maintenanceId → a.currentTaskId = maintenanceId)
    (ha' : a' ∈ (mutateAccount accountId f accounts).2) (hleased : a'.currentTaskId = maintenanceId) :
    ∃ a ∈ accounts, a.id = a'.id ∧ a.currentTaskId = maintenanceId := by
  unfold mutateAccount at ha'
  induction accounts with
  | nil => cases ha'
  | cons a accounts ih =>
    by_cases ha : a.id = accountId
    · simp only [List.replaceF, ha, if_true, List.mem_cons] at ha'
      rcases ha' with rfl | hmem
      · exact ⟨a, List.mem_cons_self, (hid a).symm, htask a hleased⟩
      · exact ⟨a', List.mem_cons_of_mem _ hmem, rfl, hleased⟩
    · simp only [List.replaceF, ha, if_false, List.mem_cons] at ha'
      rcases ha' with rfl | hmem
      · exact ⟨a', List.mem_cons_self, rfl, hleased⟩
      · obtain ⟨b, hb, hsame⟩ := ih hmem
        exact ⟨b, List.mem_cons_of_mem _ hb, hsame⟩

end Mutate

/-! ### What others do -/

section Others

/-- The same accounts, none of them leased anew. -/
def Leaves (accounts accounts' : Table) : Prop :=
  accounts'.map (·.id) = accounts.map (·.id) ∧
    ∀ a' ∈ accounts', a'.currentTaskId = maintenanceId →
      ∃ a ∈ accounts, a.id = a'.id ∧ a.currentTaskId = maintenanceId

theorem leaves_refl (accounts : Table) : Leaves accounts accounts :=
  ⟨rfl, fun a ha hleased => ⟨a, ha, rfl, hleased⟩⟩

theorem leaves_mutateAccount {α : Type} {f : Account → α × Account} (hid : ∀ a, (f a).2.id = a.id)
    (htask : ∀ a, (f a).2.currentTaskId = maintenanceId → a.currentTaskId = maintenanceId)
    (accountId : String) (accounts : Table) :
    Leaves accounts (mutateAccount accountId f accounts).2 :=
  ⟨mutateAccount_ids hid accountId accounts, fun _ => leased_mutateAccount hid htask⟩

theorem leaves_map {f : Account → Account} (hid : ∀ a, (f a).id = a.id)
    (htask : ∀ a, (f a).currentTaskId = a.currentTaskId) (accounts : Table) :
    Leaves accounts (accounts.map f) := by
  constructor
  · rw [List.map_map]
    exact List.map_congr_left fun a _ => hid a
  · intro a' ha' hleased
    obtain ⟨a, ha, rfl⟩ := List.mem_map.mp ha'
    exact ⟨a, ha, (hid a).symm, (htask a).symm.trans hleased⟩

/-- An operation on the table that leases nothing for the probe. -/
def Operation.ofTable (f : Table → Table) (h : ∀ accounts, Leaves accounts (f accounts)) :
    Operation where
  apply s := ⟨f s.accounts, by
    rw [(h s.accounts).1]
    exact s.distinct⟩
  leaves s accountId := by
    rintro ⟨a', ha', rfl, hleased⟩
    exact (h s.accounts).2 a' ha' hleased

/-- The task that a call writes into an account. -/
def writtenTask : Accounts.Call → String
  | .claim request .. => request.taskId
  | .markUsed _ _ taskId _ => taskId
  | _ => ""

theorem refundQuota_task (refundId now : String) (a : Account) :
    (refundQuota refundId now a).2.currentTaskId = a.currentTaskId := by
  unfold refundQuota
  dsimp only
  repeat' split
  all_goals rfl

theorem settleQuota_task (chargeId now : String) (a : Account) :
    (settleQuota chargeId now a).2.currentTaskId = a.currentTaskId := by
  unfold settleQuota
  repeat' split
  all_goals rfl

theorem resetDaily_task (now today : String) (a : Account) :
    (resetDaily now today a).2.currentTaskId = a.currentTaskId := by
  unfold resetDaily reconcileBoth reconcileStudioQuota
  dsimp only
  repeat' split
  all_goals rfl

/-- The calls that the workers and the administration make, under tasks of their own. -/
theorem call_leaves (u : Chars) {call : Accounts.Call} (htask : writtenTask call ≠ maintenanceId)
    (accounts : Table) : Leaves accounts (call.apply u accounts) := by
  cases call with
  | claim request selected token now =>
    simp only [Accounts.Call.apply, claimAccountForWorker]
    split
    · exact leaves_refl accounts
    · split
      · exact leaves_refl accounts
      · refine leaves_mutateAccount (chargeAccount_id request _ token now) (fun a h => ?_) _ accounts
        exact absurd h htask
  | markUsed accountId workerId taskId now =>
    simp only [Accounts.Call.apply, markAccountUsed]
    split
    · exact leaves_refl accounts
    · exact leaves_mutateAccount (fun _ => rfl) (fun a h => absurd h htask) accountId accounts
  | refund accountId refundId now =>
    simp only [Accounts.Call.apply, refundAccountQuota]
    split
    · exact leaves_refl accounts
    · exact leaves_mutateAccount (refundQuota_id refundId now)
        (fun a h => (refundQuota_task refundId now a).symm.trans h) accountId accounts
  | settle accountId chargeId now =>
    simp only [Accounts.Call.apply, settleAccountQuota]
    split
    · exact leaves_refl accounts
    · exact leaves_mutateAccount (settleQuota_id chargeId now)
        (fun a h => (settleQuota_task chargeId now a).symm.trans h) accountId accounts
  | exhaust accountId chargeId now today =>
    simp only [Accounts.Call.apply, exhaustAccountQuota]
    split
    · exact leaves_refl accounts
    · split <;> exact leaves_mutateAccount (fun _ => rfl) (fun _ h => h) accountId accounts
  | exhaustTimedOut accountId chargeId now today =>
    simp only [Accounts.Call.apply, exhaustTimedOutAccount]
    split
    · exact leaves_refl accounts
    · split <;> exact leaves_mutateAccount (fun _ => rfl) (fun _ h => h) accountId accounts
  | reset accountId now => exact leaves_mutateAccount (fun _ => rfl) (fun _ h => h) _ accounts
  | resetDaily now today =>
    simp only [Accounts.Call.apply, resetDailyAccountQuotasIfNeeded, List.map_map]
    exact leaves_map (resetDaily_id now today) (resetDaily_task now today) accounts
  | syncCredit accountId totalAmount signInAmount pendingChargeId now today =>
    refine leaves_mutateAccount (fun a => ?_) (fun a => ?_) _ accounts
    · split <;> rfl
    · split <;> exact id

theorem clear_leaves (accountId taskId now : String) (accounts : Table) :
    Leaves accounts (clearAccountCurrentTask accountId taskId now accounts) := by
  unfold clearAccountCurrentTask
  split
  · exact leaves_refl accounts
  · refine leaves_mutateAccount (fun a => ?_) (fun a h => ?_) accountId accounts
    · dsimp only
      split <;> rfl
    · dsimp only at h
      split at h
      · exact h
      · have hempty : "" ≠ maintenanceId := by decide
        exact absurd h hempty

def Operation.ofCall (u : Chars) (call : Accounts.Call) (htask : writtenTask call ≠ maintenanceId) :
    Operation :=
  .ofTable (call.apply u) (call_leaves u htask)

def Operation.clear (accountId taskId now : String) : Operation :=
  .ofTable (clearAccountCurrentTask accountId taskId now) (clear_leaves accountId taskId now)

end Others

/-! ### The custody of an account -/

/-- A clean-up frees the account, and a claim that took the account it was asked for must be
followed by one. -/
def custody : Custody sig String where
  frees
    | .clear accountId taskId, t => accountId = t ∧ accountId ≠ "" ∧ taskId = maintenanceId
    | _, _ => False
  owes
    | .claim accountId _, (r : Except String (Option String)), t => r = .ok (some t) ∧ t = accountId
    | _, _, _ => False

section Calls

variable (u : Chars)

/-- The account that a call takes. -/
def accountTaken (c : Circumstances) : Call → Store → Option Account
  | .claim accountId excludeIds, s =>
    match c.failure, selectAccount u probeWorkerId "qianwen" accountId excludeIds c s.accounts with
    | none, .ok selected => selected
    | _, _ => none
  | _, _ => none

/-- A claim takes no other account than the one it was asked for, and a clean-up that has
something to clear does not raise. -/
def Regular (c : Circumstances) : Call → Store → Prop
  | .list, _ => True
  | .claim accountId excludeIds, s =>
    ∀ a ∈ accountTaken u c (.claim accountId excludeIds) s, a.id = accountId
  | .clear accountId _, s => s.Leased accountId → c.failure = none

/-- The moments at which a run can be cancelled: no clean-up is withdrawn, and no claim has
taken an account that the run does not know of. -/
def CanStop (s : Store) : Waiting sig (Except String ProbeResult) Status → Prop
  | .queued (.clear accountId _) _ _ => ¬ s.Leased accountId
  | .done (.claim ..) (.ok (some _)) _ _ => False
  | _ => True

/-- Nothing goes wrong in a step. -/
def Calm : Step → Manager → Prop
  | .work c, m =>
    match m.task with
    | .working call _ _ => Regular u c call m.shared
    | _ => True
  | .cancel, m => CanStop m.shared m.task
  -- A claim that was not stopped with its run must find no account.
  | .finish i c, m =>
    ∀ call ∈ m.left[i]?, Regular u c call m.shared ∧ accountTaken u c call m.shared = none
  | _, _ => True

end Calls

section Custody

variable {u : Chars} {c : Circumstances} {s : Store}

/-- What `_select_account` picks is one of the accounts, and no task holds it. -/
theorem mem_of_selectAccount {workerId platform preferredId : String} {excludeIds : List String}
    {accounts : Table} {a : Account}
    (h : selectAccount u workerId platform preferredId excludeIds c accounts = .ok (some a)) :
    a ∈ accounts ∧ a.currentTaskId = "" := by
  obtain ⟨targetPlatform, -, hpick⟩ := bind_ok h
  have hmem := List.mem_of_getElem? (Except.ok.inj hpick)
  obtain ⟨hmem, hpasses⟩ := List.mem_filter.mp hmem
  refine ⟨hmem, ?_⟩
  simp only [selectable, Bool.and_eq_true, beq_iff_eq] at hpasses
  exact hpasses.2.1.1.2

/-- A claim changes nothing, or leases an account that was free. -/
theorem handle_claim_cases (u : Chars) (c : Circumstances) (accountId : String)
    (excludeIds : List String) (s : Store) :
    (accountTaken u c (.claim accountId excludeIds) s = none ∧
      (∀ id, (handle u c (.claim accountId excludeIds) s).1 ≠ .ok (some id)) ∧
      (handle u c (.claim accountId excludeIds) s).2 = s) ∨
    ∃ a ∈ accountTaken u c (.claim accountId excludeIds) s,
      a ∈ s.accounts ∧ a.currentTaskId = "" ∧
      (handle u c (.claim accountId excludeIds) s).1 = .ok (some a.id) ∧
      (handle u c (.claim accountId excludeIds) s).2.accounts =
        s.accounts.map fun b => if b.id = a.id then leaseAccount probeWorkerId c.now b else b := by
  cases hfailure : c.failure with
  | some e => exact .inl (by simp [accountTaken, handle, Circumstances.attempt, hfailure])
  | none =>
    cases hselect : selectAccount u probeWorkerId "qianwen" accountId excludeIds c s.accounts with
    | error e =>
      exact .inl (by simp [accountTaken, handle, Circumstances.attempt, hfailure,
        claimAccountForMaintenance, hselect])
    | ok selected =>
      cases selected with
      | none =>
        exact .inl (by simp [accountTaken, handle, Circumstances.attempt, hfailure,
          claimAccountForMaintenance, hselect])
      | some a =>
        obtain ⟨hmem, hfree⟩ := mem_of_selectAccount hselect
        refine .inr ⟨a, ?_, hmem, hfree, ?_, ?_⟩
        · simp [accountTaken, hfailure, hselect]
        · simp [handle, Circumstances.attempt, hfailure, claimAccountForMaintenance, hselect]
        · simp only [handle, Circumstances.attempt, hfailure, claimAccountForMaintenance, hselect]
          exact mutateAccount_eq_map s.distinct

/-- A clean-up that does not raise frees its account, and leaves the others alone. -/
theorem leased_clearCurrentTask {accountId taskId now t : String} {s : Store}
    (h : (clearCurrentTask accountId taskId now s).Leased t) :
    s.Leased t ∧ ¬ (accountId = t ∧ accountId ≠ "" ∧ taskId = maintenanceId) := by
  obtain ⟨a', ha', rfl, hleased⟩ := h
  simp only [clearCurrentTask, clearAccountCurrentTask] at ha'
  split at ha'
  · rename_i hempty
    exact ⟨⟨a', ha', rfl, hleased⟩, fun hfrees => hfrees.2.1 hempty⟩
  · rw [mutateAccount_eq_map s.distinct] at ha'
    obtain ⟨a, ha, rfl⟩ := List.mem_map.mp ha'
    by_cases hid : a.id = accountId
    · rw [if_pos hid] at hleased ⊢
      dsimp only at hleased ⊢
      by_cases hother : taskId ≠ "" ∧ a.currentTaskId ≠ taskId
      · rw [if_pos hother] at hleased ⊢
        -- The account is leased under another task than the one that is cleared.
        exact ⟨⟨a, ha, rfl, hleased⟩, fun hfrees => hother.2 (hleased.trans hfrees.2.2.symm)⟩
      · rw [if_neg hother] at hleased
        have hempty : "" ≠ maintenanceId := by decide
        exact absurd hleased hempty
    · rw [if_neg hid] at hleased ⊢
      exact ⟨⟨a, ha, rfl, hleased⟩, fun hfrees => hid hfrees.1.symm⟩

/-- The calls are accounted for. -/
theorem accounted (u : Chars) : custody.Accounted (handle u) Store.Leased (Regular u) := by
  intro c call s t hregular hleased
  cases call with
  | list =>
    have hsame : (handle u c .list s).2 = s := by
      simp only [handle, Circumstances.attempt]
      split <;> rfl
    rw [hsame] at hleased
    exact .inl ⟨hleased, id⟩
  | claim accountId excludeIds =>
    rcases handle_claim_cases u c accountId excludeIds s with
      ⟨-, -, hsame⟩ | ⟨a, htaken, hmem, hfree, hresult, haccounts⟩
    · rw [hsame] at hleased
      exact .inl ⟨hleased, id⟩
    · obtain ⟨b', hb', rfl, hb'leased⟩ := hleased
      rw [haccounts] at hb'
      obtain ⟨b, hb, rfl⟩ := List.mem_map.mp hb'
      by_cases hid : b.id = a.id
      · refine .inr ⟨?_, ?_⟩
        · rw [hresult, if_pos hid]
          exact congrArg (fun id => Except.ok (some id)) hid.symm
        · rw [if_pos hid]
          exact hid.trans (hregular a htaken)
      · rw [if_neg hid] at hb'leased ⊢
        exact .inl ⟨⟨b, hb, rfl, hb'leased⟩, id⟩
  | clear accountId taskId =>
    cases hfailure : c.failure with
    | none =>
      simp only [handle, Circumstances.attempt, hfailure] at hleased
      exact .inl (leased_clearCurrentTask hleased)
    | some e =>
      simp only [handle, Circumstances.attempt, hfailure] at hleased
      refine .inl ⟨hleased, ?_⟩
      rintro ⟨rfl, -⟩
      rw [hregular hleased] at hfailure
      cases hfailure

/-! ### The run -/

theorem stopped_sound : custody.Sound stopped := trivial

theorem finish_sound : custody.Sound finish := trivial

theorem clearThen_sound {next : Routine} (hnext : custody.Sound next) (accountId : String) :
    custody.Sound (clearThen accountId next) := by
  refine ⟨fun cleared => ⟨fun t howes => howes.elim, ?_⟩, stopped_sound⟩
  match cleared with
  | .error _ => exact finish_sound
  | .ok () => exact hnext

theorem clearThen_carries {accountId : String} (hid : accountId ≠ "") (next : Routine) :
    custody.Carries accountId (clearThen accountId next) := .inl ⟨rfl, hid, rfl⟩

/-- From the result of a claim on, the loop is bound to clear the account. -/
theorem probeAccounts_sound (accounts : List Row) (processed : List String) :
    custody.Sound (probeAccounts accounts processed) := by
  induction accounts generalizing processed with
  | nil => exact finish_sound
  | cons item rest ih =>
    unfold probeAccounts
    split
    · exact ih processed
    · rename_i hid
      refine ⟨fun account => ?_, stopped_sound⟩
      match account with
      | .error _ => exact ⟨fun t howes => (nomatch howes.1), finish_sound⟩
      | .ok none => exact ⟨fun t howes => (nomatch howes.1), ih _⟩
      | .ok (some _) =>
        have hnext : custody.Sound (.tell .complete (probeAccounts rest (item.id :: processed))) := ih _
        constructor
        · rintro t ⟨-, rfl⟩
          exact ⟨fun result => clearThen_carries hid _, clearThen_carries hid _⟩
        · exact ⟨fun result => clearThen_sound hnext item.id, clearThen_sound stopped_sound item.id⟩

theorem runOnce_sound : custody.Sound runOnce := by
  refine ⟨fun accountRows => ⟨fun t howes => howes.elim, ?_⟩, trivial⟩
  match accountRows with
  | .error _ => trivial
  | .ok accountRows => exact probeAccounts_sound _ []

/-- In a calm step nothing is lost that the run is in custody of. -/
theorem undisturbed_of_calm {u : Chars} {step : Step} {m : Manager} (h : Calm u step m) :
    custody.Undisturbed (handle u) Store.Leased (Regular u) step m := by
  cases step with
  | work c =>
    simp only [Calm] at h
    simp only [Custody.Undisturbed]
    cases htask : m.task with
    | working call k stop =>
      rw [htask] at h
      exact h
    | ended => trivial
    | queued call k stop => trivial
    | done call r k stop => trivial
    | outside k stop => trivial
  | cancel =>
    simp only [Calm] at h
    simp only [Custody.Undisturbed]
    cases htask : m.task with
    | queued call k stop =>
      rw [htask] at h
      intro t hleased hfrees
      cases call with
      | clear accountId taskId =>
        obtain ⟨rfl, -, -⟩ := hfrees
        exact h hleased
      | list => exact hfrees
      | claim accountId excludeIds => exact hfrees
    | done call r k stop =>
      rw [htask] at h
      intro t _ howes
      cases call with
      | claim accountId excludeIds =>
        obtain ⟨rfl, -⟩ := howes
        exact h
      | list => exact howes
      | clear accountId taskId => exact howes
    | ended => trivial
    | working call k stop => trivial
    | outside k stop => trivial
  | finish i c =>
    intro call hcall
    obtain ⟨hregular, htaken⟩ := h call hcall
    refine ⟨hregular, fun t howes => ?_⟩
    cases call with
    | claim accountId excludeIds =>
      rcases handle_claim_cases u c accountId excludeIds m.shared with
        ⟨-, hresult, -⟩ | ⟨a, hsome, -⟩
      · exact hresult t howes.1
      · rw [htaken] at hsome
        cases hsome
    | list => exact howes
    | clear accountId taskId => exact howes
  | start call => trivial
  | begin => trivial
  | resume => trivial
  | happen result => trivial
  | other operation => trivial

end Custody

/-! ### Runs -/

/-- Once the run has ended and its helpers have finished, the probe holds no account that it
did not hold before. -/
def Freed (before : Store) (m : Manager) : Prop :=
  m.task = .ended → m.left = [] →
    ∀ a ∈ m.shared.accounts, a.currentTaskId = maintenanceId → before.Leased a.id

/-- A step leases accounts only that no task holds. -/
def LeasesFree (u : Chars) (step : Step) (m : Manager) : Prop :=
  ∀ a ∈ m.shared.accounts, ∀ a' ∈ (Manager.step u step m).shared.accounts, a'.id = a.id →
    a'.currentTaskId = maintenanceId → a.currentTaskId = maintenanceId ∨ a.currentTaskId = ""

/-- The accounts of two stores, where the one leases at most the free accounts of the other. -/
def LeasesFrom (s s' : Store) : Prop :=
  ∀ a' ∈ s'.accounts, a'.currentTaskId = maintenanceId →
    ∃ a ∈ s.accounts, a.id = a'.id ∧ (a.currentTaskId = maintenanceId ∨ a.currentTaskId = "")

theorem leasesFrom_refl (s : Store) : LeasesFrom s s := fun a ha hleased => ⟨a, ha, rfl, .inl hleased⟩

theorem leasesFrom_of_leaves {s s' : Store} (h : ∀ t, s'.Leased t → s.Leased t) : LeasesFrom s s' := by
  intro a' ha' hleased
  obtain ⟨a, ha, hid, htask⟩ := h a'.id ⟨a', ha', rfl, hleased⟩
  exact ⟨a, ha, hid, .inl htask⟩

theorem handle_leasesFrom (u : Chars) (c : Circumstances) (call : Call) (s : Store) :
    LeasesFrom s (handle u c call s).2 := by
  cases call with
  | list =>
    simp only [handle, Circumstances.attempt]
    split <;> exact leasesFrom_refl s
  | claim accountId excludeIds =>
    rcases handle_claim_cases u c accountId excludeIds s with
      ⟨-, -, hsame⟩ | ⟨a, -, hmem, hfree, -, haccounts⟩
    · rw [hsame]
      exact leasesFrom_refl s
    · intro b' hb' hleased
      rw [haccounts] at hb'
      obtain ⟨b, hb, rfl⟩ := List.mem_map.mp hb'
      by_cases hid : b.id = a.id
      · rw [if_pos hid]
        exact ⟨a, hmem, hid.symm, .inr hfree⟩
      · rw [if_neg hid] at hleased ⊢
        exact ⟨b, hb, rfl, .inl hleased⟩
  | clear accountId taskId =>
    simp only [handle, Circumstances.attempt]
    split
    · exact leasesFrom_refl s
    · exact leasesFrom_of_leaves fun t ht => (leased_clearCurrentTask ht).1

theorem leasesFree (u : Chars) (step : Step) (m : Manager) : LeasesFree u step m := by
  intro a ha a' ha' hid hleased
  have hfrom : LeasesFrom m.shared (Manager.step u step m).shared :=
    Host.step_inv leasesFrom_refl (fun c call s => handle_leasesFrom u c call s)
      (fun operation s => leasesFrom_of_leaves (operation.leaves s)) step m
  obtain ⟨b, hb, hbid, hfree⟩ := hfrom a' ha' hleased
  -- The ids are distinct, so it is the same account.
  obtain rfl : b = a := List.inj_on_of_nodup_map m.shared.distinct hb ha (hbid.trans hid)
  exact hfree

/-- In every run whose steps are calm, the probe has freed its accounts whenever it has ended and
its helpers have finished; and in every run it leases accounts only that no task holds. -/
theorem probe_frees_every_account (u : Chars) (s : Store) (steps : List Step)
    (hcalm : AllSteps (Manager.step u) (Calm u) steps (Manager.new s)) :
    Throughout (Manager.step u) (Freed s) steps (Manager.new s) ∧
      AllSteps (Manager.step u) (LeasesFree u) steps (Manager.new s) := by
  constructor
  · have hnew : custody.Kept Store.Leased s.Leased (Manager.new s) :=
      ⟨trivial, fun t ht => .inl ht⟩
    have hkept := custody.kept_run (accounted u) (fun _ => runOnce_sound)
      (fun operation s t ht => operation.leaves s t ht) hnew
      (hcalm.mono fun step m h => undisturbed_of_calm h)
    refine hkept.mono fun m hm htask hleft a ha hleased => ?_
    exact hm.free_of_ended htask hleft ⟨a, ha, rfl, hleased⟩
  · exact allSteps_iff.mpr fun before step after _ => leasesFree u step _

/-! ### A claim that outlives its run -/

section Sample

def sampleStore : Store where
  accounts := [{ Accounts.sampleAccount with id := "3f", platform := "qianwen" }]
  distinct := List.nodup_singleton "3f"

def sampleCircumstances : Circumstances where
  now := "now"
  today := "2025-01-01"
  normal _ := true
  usable _ := true
  pick := 0
  failure := none

/-- A whole run over one account, whose probe succeeds. -/
theorem probe_frees_every_account_sample :
    let steps : List Step :=
      [.start (), .begin, .work sampleCircumstances, .resume, .begin, .work sampleCircumstances,
        .resume, .happen (.ok ⟨true, none, "登录正常"⟩), .begin, .work sampleCircumstances, .resume]
    Throughout (Manager.step .ascii) (Freed sampleStore) steps (Manager.new sampleStore) ∧
      AllSteps (Manager.step .ascii) (LeasesFree .ascii) steps (Manager.new sampleStore) := by
  refine probe_frees_every_account .ascii sampleStore _ ?_
  refine ⟨trivial, trivial, trivial, trivial, trivial, ?_, trivial, trivial, trivial,
    fun _ => rfl, trivial, trivial⟩
  intro a ha
  obtain rfl := Option.some.inj ha
  rfl

/-- The run is stopped while a helper claims the account, which stays leased. -/
theorem claim_outlives_run :
    ¬ ∀ (u : Chars) (s : Store) (steps : List Step),
      (∀ a ∈ s.accounts, a.currentTaskId ≠ maintenanceId) →
      Throughout (Manager.step u) (Freed s) steps (Manager.new s) ∧
        AllSteps (Manager.step u) (LeasesFree u) steps (Manager.new s) := by
  intro h
  have hfree : ∀ a ∈ sampleStore.accounts, a.currentTaskId ≠ maintenanceId := by decide
  have hfreed := (h .ascii sampleStore [.start (), .begin, .work sampleCircumstances, .resume,
    .begin, .cancel, .finish 0 sampleCircumstances] hfree).1.final
  have hleased := hfreed rfl rfl _ List.mem_cons_self rfl
  exact absurd hleased (by decide)

end Sample

end FetchTask.QianwenProbe
