import FetchTask.Accounts
import FetchTask.Lib.Runs

/-!
The quota ledgers add up.

An initialized ledger adds up when its cached total is its base plus the units
of its charged and settled charges. Most operations compute the total again at
their end. Three branches write the total alone: `markAccountUsed`, and the two
ways of exhausting an account without a charge id. The law says what these
branches do to it, and follows it through every sequence of calls.
-/

namespace FetchTask.Accounts

/-! ### One ledger -/

/-- The cached total of an initialized ledger is what its base and charges say. -/
def Ledger.Adds (l : Ledger) : Prop := l.initialized = true → l.used = l.reconciledQuotaUsed

theorem Charge.weight_pos (c : Charge) : 1 ≤ c.weight := le_max_left _ _

theorem activeUnits_cons (c : Charge) (cs : List Charge) :
    activeUnits (c :: cs) = (if c.isActive then c.weight else 0) + activeUnits cs := by
  cases h : c.isActive <;> simp [activeUnits, h]

theorem activeUnits_nonneg (cs : List Charge) : 0 ≤ activeUnits cs := by
  induction cs with
  | nil => exact le_refl _
  | cons c cs ih =>
    have hw := c.weight_pos
    rw [activeUnits_cons]
    split <;> omega

theorem reconciledQuotaUsed_nonneg (l : Ledger) : 0 ≤ l.reconciledQuotaUsed := by
  have h := activeUnits_nonneg l.charges
  unfold Ledger.reconciledQuotaUsed
  omega

/-- An active charge is at least one unit of the total. -/
theorem activeUnits_pos_of_mem {c : Charge} {cs : List Charge} (hc : c ∈ cs)
    (hactive : c.isActive = true) : 1 ≤ activeUnits cs := by
  induction cs with
  | nil => cases hc
  | cons d cs ih =>
    have hd := d.weight_pos
    have hcs := activeUnits_nonneg cs
    rw [activeUnits_cons]
    rcases List.mem_cons.mp hc with rfl | htail
    · rw [if_pos hactive]
      omega
    · have := ih htail
      split <;> omega

@[simp] theorem initialize_initialized (l : Ledger) : l.initialize.initialized = true := by
  cases h : l.initialized <;> simp [ Ledger.initialize, h]

theorem recount_adds (l : Ledger) : l.recount.Adds := fun _ => rfl

theorem cleared_adds : Ledger.cleared.Adds := fun _ => rfl

theorem close_adds {l l' : Ledger} {chargeId : String} {f : Charge → Charge}
    (h : l.close chargeId f = some l') : l'.Adds := by
  unfold Ledger.close at h
  split at h
  · cases h
    exact recount_adds _
  · cases h

theorem fillUp_adds (l : Ledger) (limit : Int) : (l.fillUp limit).Adds := by
  intro _
  have h := activeUnits_nonneg l.charges
  simp only [Ledger.fillUp, Ledger.reconciledQuotaUsed]
  omega

theorem mem_timedOutCharges (cs : List Charge) (chargeId : ChargeId) (now : String) :
    ∃ c ∈ timedOutCharges cs chargeId now, c.isActive = true := by
  unfold timedOutCharges
  split
  · rename_i hany
    induction cs with
    | nil => simp at hany
    | cons c cs ih =>
      by_cases hc : c.chargeId = chargeId
      · exact ⟨c.settleTimedOut now, by simp [hc], rfl⟩
      · simp only [List.any_cons, beq_eq_false_iff_ne.mpr hc, Bool.false_or] at hany
        obtain ⟨d, hd, hactive⟩ := ih hany
        exact ⟨d, by simp [hc, hd], hactive⟩
  · exact ⟨_, List.mem_append_right _ List.mem_cons_self, rfl⟩

/-- A timed-out charge is active, so the floor of one does not matter. -/
theorem timedOut_adds (l : Ledger) (chargeId : ChargeId) (now : String) :
    let l' := { l with charges := timedOutCharges l.charges chargeId now }
    ({ l' with used := max 1 l'.reconciledQuotaUsed } : Ledger).Adds := by
  intro l' _
  obtain ⟨c, hc, hactive⟩ := mem_timedOutCharges l.charges chargeId now
  have hpos := activeUnits_pos_of_mem hc hactive
  simp only [l', Ledger.reconciledQuotaUsed]
  omega

/-- Reconciling a ledger that adds up changes nothing. -/
theorem reconcile_of_adds {l : Ledger} (h : l.Adds) : l.reconcile = (false, l) := by
  unfold Ledger.reconcile
  split
  · rename_i hinit
    have hused := h hinit
    have hnonneg := reconciledQuotaUsed_nonneg l
    rw [Ledger.recount, ← hused, max_eq_right (by omega)]
    simp
  · rfl

/-! ### One account -/

structure Account.Adds (a : Account) : Prop where
  quota : a.quota.Adds
  studio : a.studio.Adds

theorem reconcileAccount_of_adds {a : Account} (h : a.Adds) : reconcileAccount a = (false, a) := by
  rw [reconcileAccount, reconcile_of_adds h.quota]

theorem reconcileStudioQuota_of_adds {a : Account} (h : a.Adds) :
    reconcileStudioQuota a = (false, a) := by
  rw [reconcileStudioQuota, reconcile_of_adds h.studio]
  split <;> rfl

theorem reconcileBoth_of_adds {a : Account} (h : a.Adds) (now : String) :
    reconcileBoth now a = (false, a) := by
  simp [reconcileBoth, reconcileAccount_of_adds h, reconcileStudioQuota_of_adds h]

section Closures

variable {a : Account}

theorem chargeAccount_adds (h : a.Adds) (request : ClaimRequest) (studioQuota : Bool)
    (token now : String) : (chargeAccount request studioQuota token now a).2.Adds := by
  cases studioQuota with
  | true => exact ⟨h.quota, recount_adds _⟩
  | false => exact ⟨recount_adds _, h.studio⟩

theorem refundQuota_adds (h : a.Adds) (refundId now : String) :
    (refundQuota refundId now a).2.Adds := by
  unfold refundQuota
  split
  · split
    · split
      · exact ⟨h.quota, close_adds ‹_›⟩
      · exact h
    · exact h
  · split
    · split
      · exact ⟨close_adds ‹_›, h.studio⟩
      · exact h
    · rename_i hinit
      simp only
      split
      · exact h
      · exact ⟨fun hinit' => absurd hinit' hinit, h.studio⟩

theorem settleQuota_adds (h : a.Adds) (chargeId now : String) :
    (settleQuota chargeId now a).2.Adds := by
  unfold settleQuota
  split
  · split
    · exact ⟨h.quota, close_adds ‹_›⟩
    · exact h
  · split
    · exact ⟨close_adds ‹_›, h.studio⟩
    · exact h

theorem exhaustStudioTimedOut_adds (h : a.Adds) (chargeId : ChargeId) (now today : String) :
    (exhaustStudioTimedOut chargeId now today a).2.Adds :=
  ⟨h.quota, timedOut_adds a.studio.initialize chargeId now⟩

theorem exhaustStudioQuota_adds (h : a.Adds) (chargeId : ChargeId) (now today : String) :
    (exhaustStudioQuota chargeId now today a).2.Adds :=
  ⟨h.quota, fillUp_adds _ _⟩

theorem resetQuota_adds (h : a.Adds) (now : String) : (resetQuota now a).Adds := by
  refine ⟨cleared_adds, ?_⟩
  unfold resetQuota
  split
  · exact cleared_adds
  · exact h.studio

theorem resetDaily_adds (h : a.Adds) (now today : String) : (resetDaily now today a).2.Adds := by
  unfold resetDaily
  split
  · rw [reconcileBoth_of_adds h]
    exact h
  · have hreset := resetQuota_adds h now
    exact ⟨hreset.quota, hreset.studio⟩

theorem syncCredit_adds (h : a.Adds) (totalAmount signInAmount : Int)
    (pendingChargeId now today : String) :
    (syncCredit totalAmount signInAmount pendingChargeId now today a).Adds :=
  ⟨h.quota, recount_adds _⟩

/-! The three branches that write the total alone. -/

theorem markUsed_adds_iff (h : a.Adds) :
    ({ a.quota with used := max 0 a.quota.used + 1 } : Ledger).Adds ↔
      (a.quota.initialized = true → False) := by
  have hquota := h.quota
  have hnonneg := reconciledQuotaUsed_nonneg a.quota
  unfold Ledger.Adds at hquota ⊢
  cases hinit : a.quota.initialized with
  | false => simp
  | true =>
    have hused := hquota hinit
    simp only [Ledger.reconciledQuotaUsed] at hused hnonneg ⊢
    simp only [forall_const, iff_false]
    omega

/-- Raising the total to a floor keeps the ledger right only if the floor was reached. -/
theorem raise_adds_iff (h : a.Adds) (floor : Int) :
    ({ a.quota with used := max floor a.quota.used } : Ledger).Adds ↔
      (a.quota.initialized = true → floor ≤ a.quota.used) := by
  have hquota := h.quota
  unfold Ledger.Adds at hquota ⊢
  simp only [Ledger.reconciledQuotaUsed] at hquota ⊢
  constructor
  · intro hraised hinit
    have := hraised hinit
    have := hquota hinit
    omega
  · intro hfloor hinit
    have := hfloor hinit
    have := hquota hinit
    omega

theorem exhaustTimedOut_adds (h : a.Adds) {chargeId : String} (hid : chargeId ≠ "")
    (now today : String) : (exhaustTimedOut chargeId now today a).2.Adds := by
  simp only [exhaustTimedOut, hid, dif_neg, not_false_eq_true]
  exact ⟨recount_adds _, h.studio⟩

theorem exhaustTimedOut_adds_iff (h : a.Adds) (now today : String) :
    (exhaustTimedOut "" now today a).2.Adds ↔ (a.quota.initialized = true → 1 ≤ a.quota.used) := by
  rw [← raise_adds_iff h 1]
  exact ⟨fun hadds => hadds.quota, fun hquota => ⟨hquota, h.studio⟩⟩

theorem exhaustQuota_adds (h : a.Adds) {chargeId : String} (hid : chargeId ≠ "")
    (now today : String) : (exhaustQuota chargeId now today a).2.Adds := by
  refine ⟨?_, h.studio⟩
  simp only [exhaustQuota, ne_eq, hid, not_false_eq_true, true_and]
  split
  · exact fillUp_adds _ _
  · rename_i hinit
    exact fun hinit' => absurd hinit' hinit

theorem exhaustQuota_adds_iff (h : a.Adds) (now today : String) :
    (exhaustQuota "" now today a).2.Adds ↔
      (a.quota.initialized = true → a.limit ≤ a.quota.used) := by
  rw [← raise_adds_iff h a.limit]
  exact ⟨fun hadds => hadds.quota, fun hquota => ⟨hquota, h.studio⟩⟩

end Closures

/-! ### The table -/

/-- An operation on the first account with an id changes what is found under that id only. -/
theorem find?_mutateAccount {α : Type} {f : Account → α × Account} (hid : ∀ a, (f a).2.id = a.id)
    (id x : String) (accounts : Table) :
    (mutateAccount id f accounts).2.find? (·.id == x) =
      (accounts.find? (·.id == x)).map fun a => if x = id then (f a).2 else a := by
  induction accounts with
  | nil => rfl
  | cons a as ih =>
    simp only [mutateAccount] at ih ⊢
    by_cases ha : a.id = id
    · subst ha
      simp only [List.replaceF, if_true, List.find?_cons, hid]
      by_cases hx : a.id = x
      · simp [hx]
      · have hne : (a.id == x) = false := beq_eq_false_iff_ne.mpr hx
        simp [hne, Ne.symm hx]
    · simp only [List.replaceF, ha, if_false, List.find?_cons]
      by_cases hx : a.id = x
      · have hxid : x ≠ id := fun h => ha (hx.trans h)
        simp [hx, hxid]
      · have hne : (a.id == x) = false := beq_eq_false_iff_ne.mpr hx
        simp only [hne]
        exact ih

/-- Every initialized ledger of the table adds up. -/
def AddUp (accounts : Table) : Prop := ∀ a ∈ accounts, a.Adds

theorem mutateAccount_addUp_iff {α : Type} {accountId : String} {f : Account → α × Account}
    {accounts : Table} (h : AddUp accounts) :
    AddUp (mutateAccount accountId f accounts).2 ↔
      ∀ a, accounts.find? (·.id == accountId) = some a → (f a).2.Adds := by
  induction accounts with
  | nil => simp [mutateAccount, AddUp]
  | cons a as ih =>
    have has : AddUp as := fun b hb => h b (List.mem_cons_of_mem _ hb)
    have ha : a.Adds := h a List.mem_cons_self
    by_cases hid : a.id = accountId
    · simp only [mutateAccount, hid, List.replaceF, if_true, List.find?_cons, beq_self_eq_true,
        Option.some.injEq, forall_eq']
      constructor
      · intro hall
        exact hall _ List.mem_cons_self
      · intro hf b hb
        rcases List.mem_cons.mp hb with rfl | hb
        · exact hf
        · exact has b hb
    · have hrest := ih has
      simp only [mutateAccount] at hrest
      simp only [mutateAccount, hid, List.replaceF, if_false, List.find?_cons,
        beq_eq_false_iff_ne.mpr hid]
      rw [← hrest]
      constructor
      · intro hall b hb
        exact hall b (List.mem_cons_of_mem _ hb)
      · intro hall b hb
        rcases List.mem_cons.mp hb with rfl | hb
        · exact ha
        · exact hall b hb

/-- The frame rule: a closure that keeps the ledgers of one account keeps them all. -/
theorem mutateAccount_addUp {α : Type} {accountId : String} {f : Account → α × Account}
    {accounts : Table} (h : AddUp accounts) (hf : ∀ a, a.Adds → (f a).2.Adds) :
    AddUp (mutateAccount accountId f accounts).2 :=
  (mutateAccount_addUp_iff h).mpr fun a ha => hf a (h a (List.mem_of_find?_eq_some ha))

/-- The default ledger of the account with this id is initialized only if it meets `C`. -/
def OnInitialized (accountId : String) (accounts : Table) (C : Account → Prop) : Prop :=
  ∀ a, accounts.find? (·.id == accountId) = some a → a.quota.initialized = true → C a

theorem mutateAccount_addUp_iff_onInitialized {α : Type} {accountId : String}
    {f : Account → α × Account} {C : Account → Prop} {accounts : Table} (h : AddUp accounts)
    (hf : ∀ a, a.Adds → ((f a).2.Adds ↔ (a.quota.initialized = true → C a))) :
    AddUp (mutateAccount accountId f accounts).2 ↔ OnInitialized accountId accounts C := by
  rw [mutateAccount_addUp_iff h]
  exact forall₂_congr fun a hfind => hf a (h a (List.mem_of_find?_eq_some hfind))

/-- Reconciling a table that adds up repairs nothing. -/
theorem reconcileAccountQuotas_of_addUp {accounts : Table} (h : AddUp accounts) (now : String) :
    reconcileAccountQuotas now accounts =
      ({ checked := accounts.length, repaired := 0 }, accounts) := by
  have hmap : accounts.map (reconcileBoth now) = accounts.map fun a => (false, a) :=
    List.map_congr_left fun a ha => reconcileBoth_of_adds (h a ha) now
  simp [reconcileAccountQuotas, hmap, Function.comp_def]

/-! ### Sequences of calls -/

open Runs

inductive Call
  | claim (request : ClaimRequest) (selected : Option String) (token now : String)
  | refund (accountId refundId now : String)
  | settle (accountId chargeId now : String)
  | exhaust (accountId chargeId now today : String)
  | exhaustTimedOut (accountId chargeId now today : String)
  | reset (accountId now : String)
  | resetDaily (now today : String)
  | syncCredit (accountId : String) (totalAmount signInAmount : Int)
      (pendingChargeId now today : String)
  | markUsed (accountId workerId taskId now : String)

/-- The table after a call. -/
def Call.apply (u : Chars) : Call → Table → Table
  | .claim request selected token now, accounts =>
    (claimAccountForWorker u request selected token now accounts).2
  | .refund accountId refundId now, accounts => (refundAccountQuota accountId refundId now accounts).2
  | .settle accountId chargeId now, accounts => (settleAccountQuota accountId chargeId now accounts).2
  | .exhaust accountId chargeId now today, accounts =>
    (exhaustAccountQuota accountId chargeId now today accounts).2
  | .exhaustTimedOut accountId chargeId now today, accounts =>
    (exhaustTimedOutAccount accountId chargeId now today accounts).2
  | .reset accountId now, accounts => (resetAccountQuota u accountId now accounts).2
  | .resetDaily now today, accounts => (resetDailyAccountQuotasIfNeeded now today accounts).2
  | .syncCredit accountId totalAmount signInAmount pendingChargeId now today, accounts =>
    (syncQianwenAiStudioCredit u accountId totalAmount signInAmount pendingChargeId now today
      accounts).2
  | .markUsed accountId workerId taskId now, accounts =>
    markAccountUsed accountId workerId taskId now accounts

/-- When a call leaves the ledgers right: it is not one of the three branches that
write the total alone, or that total is already at least what the branch raises it to. -/
def Call.Keeps : Call → Table → Prop
  | .markUsed accountId .., accounts => accountId = "" ∨ OnInitialized accountId accounts fun _ => False
  | .exhaust accountId chargeId .., accounts => accountId = "" ∨ chargeId ≠ "" ∨
      OnInitialized accountId accounts fun a => a.limit ≤ a.quota.used
  | .exhaustTimedOut accountId chargeId .., accounts => accountId = "" ∨ chargeId ≠ "" ∨
      OnInitialized accountId accounts fun a => 1 ≤ a.quota.used
  | _, _ => True

section Calls

variable {u : Chars} {accounts : Table}

theorem claim_addUp (h : AddUp accounts) (request : ClaimRequest) (selected : Option String)
    (token now : String) : AddUp (claimAccountForWorker u request selected token now accounts).2 := by
  unfold claimAccountForWorker
  split
  · exact h
  · split
    · exact h
    · exact mutateAccount_addUp h fun a ha => chargeAccount_adds ha request _ token now

theorem refund_addUp (h : AddUp accounts) (accountId refundId now : String) :
    AddUp (refundAccountQuota accountId refundId now accounts).2 := by
  unfold refundAccountQuota
  split
  · exact h
  · exact mutateAccount_addUp h fun a ha => refundQuota_adds ha refundId now

theorem settle_addUp (h : AddUp accounts) (accountId chargeId now : String) :
    AddUp (settleAccountQuota accountId chargeId now accounts).2 := by
  unfold settleAccountQuota
  split
  · exact h
  · exact mutateAccount_addUp h fun a ha => settleQuota_adds ha chargeId now

theorem resetDaily_addUp (h : AddUp accounts) (now today : String) :
    AddUp (resetDailyAccountQuotasIfNeeded now today accounts).2 := by
  intro a ha
  obtain ⟨result, hresult, rfl⟩ := List.mem_map.mp ha
  obtain ⟨b, hb, rfl⟩ := List.mem_map.mp hresult
  exact resetDaily_adds (h b hb) now today

theorem syncCredit_addUp (h : AddUp accounts) (accountId : String) (totalAmount signInAmount : Int)
    (pendingChargeId now today : String) :
    AddUp (syncQianwenAiStudioCredit u accountId totalAmount signInAmount pendingChargeId now today
      accounts).2 := by
  refine mutateAccount_addUp h fun a ha => ?_
  split
  · exact syncCredit_adds ha totalAmount signInAmount pendingChargeId now today
  · exact ha

theorem markUsed_addUp_iff (h : AddUp accounts) (accountId workerId taskId now : String) :
    AddUp (markAccountUsed accountId workerId taskId now accounts) ↔
      accountId = "" ∨ OnInitialized accountId accounts fun _ => False := by
  unfold markAccountUsed
  by_cases hid : accountId = ""
  · simp [hid, h]
  · rw [if_neg hid, or_iff_right hid]
    exact mutateAccount_addUp_iff_onInitialized h fun a ha => by
      rw [← markUsed_adds_iff ha]
      exact ⟨fun hadds => hadds.quota, fun hquota => ⟨hquota, ha.studio⟩⟩

theorem exhaust_addUp_iff (h : AddUp accounts) (accountId chargeId now today : String) :
    AddUp (exhaustAccountQuota accountId chargeId now today accounts).2 ↔
      accountId = "" ∨ chargeId ≠ "" ∨
        OnInitialized accountId accounts fun a => a.limit ≤ a.quota.used := by
  unfold exhaustAccountQuota
  by_cases hid : accountId = ""
  · simp [hid, h]
  rw [if_neg hid, or_iff_right hid]
  by_cases hcharge : chargeId = ""
  · subst hcharge
    rw [dif_neg (fun hstudio => hstudio.1 rfl), or_iff_right (not_not.mpr rfl)]
    exact mutateAccount_addUp_iff_onInitialized h fun a ha => exhaustQuota_adds_iff ha now today
  · refine iff_of_true ?_ (.inl hcharge)
    split
    · exact mutateAccount_addUp h fun a ha => exhaustStudioQuota_adds ha ⟨chargeId, hcharge⟩ now today
    · exact mutateAccount_addUp h fun a ha => exhaustQuota_adds ha hcharge now today

theorem exhaustTimedOut_addUp_iff (h : AddUp accounts) (accountId chargeId now today : String) :
    AddUp (exhaustTimedOutAccount accountId chargeId now today accounts).2 ↔
      accountId = "" ∨ chargeId ≠ "" ∨
        OnInitialized accountId accounts fun a => 1 ≤ a.quota.used := by
  unfold exhaustTimedOutAccount
  by_cases hid : accountId = ""
  · simp [hid, h]
  rw [if_neg hid, or_iff_right hid]
  by_cases hcharge : chargeId = ""
  · subst hcharge
    rw [dif_neg (fun hstudio => hstudio.1 rfl), or_iff_right (not_not.mpr rfl)]
    exact mutateAccount_addUp_iff_onInitialized h fun a ha => exhaustTimedOut_adds_iff ha now today
  · refine iff_of_true ?_ (.inl hcharge)
    split
    · exact mutateAccount_addUp h fun a ha => exhaustStudioTimedOut_adds ha ⟨chargeId, hcharge⟩ now today
    · exact mutateAccount_addUp h fun a ha => exhaustTimedOut_adds ha hcharge now today

/-- A call keeps the ledgers right exactly when it meets its condition. -/
theorem apply_addUp_iff (call : Call) (h : AddUp accounts) :
    AddUp (call.apply u accounts) ↔ call.Keeps accounts := by
  cases call with
  | claim request selected token now => exact iff_of_true (claim_addUp h request selected token now) trivial
  | refund accountId refundId now => exact iff_of_true (refund_addUp h accountId refundId now) trivial
  | settle accountId chargeId now => exact iff_of_true (settle_addUp h accountId chargeId now) trivial
  | exhaust accountId chargeId now today => exact exhaust_addUp_iff h accountId chargeId now today
  | exhaustTimedOut accountId chargeId now today =>
    exact exhaustTimedOut_addUp_iff h accountId chargeId now today
  | reset accountId now =>
    exact iff_of_true (mutateAccount_addUp h fun a ha => resetQuota_adds ha now) trivial
  | resetDaily now today => exact iff_of_true (resetDaily_addUp h now today) trivial
  | syncCredit accountId totalAmount signInAmount pendingChargeId now today =>
    exact iff_of_true
      (syncCredit_addUp h accountId totalAmount signInAmount pendingChargeId now today) trivial
  | markUsed accountId workerId taskId now =>
    exact markUsed_addUp_iff h accountId workerId taskId now

end Calls

/-- The ledgers add up, and a reconciliation changes nothing. -/
def Consistent (accounts : Table) : Prop :=
  AddUp accounts ∧ ∀ now, reconcileAccountQuotas now accounts =
    ({ checked := accounts.length, repaired := 0 }, accounts)

theorem consistent_iff {accounts : Table} : Consistent accounts ↔ AddUp accounts :=
  and_iff_left_of_imp fun h now => reconcileAccountQuotas_of_addUp h now

/-- The ledgers add up after every call of a sequence exactly when every call of it
meets its condition on the table it finds. -/
theorem ledgers_add_up_iff (u : Chars) (calls : List Call) {accounts : Table}
    (h : AddUp accounts) :
    Throughout (Call.apply u) Consistent calls accounts ↔
      AllSteps (Call.apply u) Call.Keeps calls accounts :=
  throughout_iff_allSteps
    (fun call s hs => by
      rw [consistent_iff]
      exact apply_addUp_iff call (consistent_iff.mp hs))
    (consistent_iff.mpr h)

/-! ### An exhaustion that a reconciliation undoes -/

section Sample

def sampleAccount : Account where
  id := "a"
  platform := "dola"
  quotaLimit := 2
  quota := .cleared
  quotaExhaustedDate := ""
  quotaResetDate := "2025-01-01"
  quotaRefundIds := []
  studioQuotaLimit := none
  studio := { used := 0, base := 0, initialized := false, charges := [] }
  studioQuotaExhaustedDate := ""
  studioQuotaResetDate := ""
  creditSyncDate := ""
  creditSyncedAt := ""
  creditAvailableAtSync := 0
  creditUsedAtSync := 0
  creditSignIn := 0
  lastUsedWorkerId := ""
  lastUsedAt := ""
  currentTaskId := ""
  currentWorkerId := ""
  currentStartedAt := ""
  currentQuotaChargeId := ""
  updatedAt := ""

theorem sampleAccount_addUp : AddUp [sampleAccount] := by
  intro a ha
  obtain rfl := List.mem_singleton.mp ha
  exact ⟨fun _ => rfl, fun _ => rfl⟩

/-- Exhausting an unused account without a charge id leaves a total that its base and
charges do not explain, and the next reconciliation takes it back. -/
theorem exhaustion_without_charge_lost :
    AddUp [sampleAccount] ∧
      ¬ Throughout (Call.apply .ascii) Consistent [.exhaust "a" "" "now" "2025-01-01"]
        [sampleAccount] := by
  refine ⟨sampleAccount_addUp, fun h => ?_⟩
  exact absurd (h.final.2 "later") (by decide)

/-- A claim, a settlement and an exhaustion with the charge id meet their conditions. -/
theorem ledgers_add_up_sample :
    let calls : List Call :=
      [.claim ⟨"w", "t", "dola", 1, "default"⟩ (some "a") "5f" "now",
        .exhaust "a" "t:5f" "now" "2025-01-01", .refund "a" "t:5f" "now"]
    Throughout (Call.apply .ascii) Consistent calls [sampleAccount] ↔
      AllSteps (Call.apply .ascii) Call.Keeps calls [sampleAccount] :=
  ledgers_add_up_iff .ascii _ sampleAccount_addUp

end Sample

end FetchTask.Accounts
