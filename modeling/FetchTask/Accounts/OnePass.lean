import FetchTask.Accounts.Ledger

/-!
One pass of the reconciliation.

`reconcileAccountQuotas` goes over the accounts once and looks at the AI Studio
ledger of an account only when the default ledger needed no repair. The
accounts here are those that can be stored: the list of charges of a ledger may
be missing or hold items that are no charges, which a repair drops. The law
says which tables are in order after one pass, and so unchanged by a second.
-/

namespace FetchTask.Accounts

/-! ### Stored accounts -/

/-- An account, and whether the value stored for a list of charges is anything else than
the charges: no list, or a list with items that are no objects or have no id. -/
structure StoredAccount extends Account where
  strayQuotaCharges : Bool
  strayStudioCharges : Bool
  deriving DecidableEq

/-- `_reconcile_account` on one stored ledger: whether it changed, the ledger, and what is
left of the stray items. -/
def Ledger.reconcileStored (l : Ledger) (stray : Bool) : Bool × Ledger × Bool :=
  if l.initialized then
    (stray || decide (max 0 l.used ≠ l.reconciledQuotaUsed), l.recount, false)
  else (false, l, stray)

namespace StoredAccount

def reconcileAccount (a : StoredAccount) : Bool × StoredAccount :=
  let (changed, quota, strayQuotaCharges) := a.quota.reconcileStored a.strayQuotaCharges
  (changed, { a with quota, strayQuotaCharges })

def reconcileStudioQuota (a : StoredAccount) : Bool × StoredAccount :=
  if a.isQianwen then
    let (changed, studio, strayStudioCharges) := a.studio.reconcileStored a.strayStudioCharges
    (changed, { a with studio, strayStudioCharges })
  else (false, a)

/-- The loop body of `reconcile_account_quotas`. -/
def reconcileBoth (now : String) (a : StoredAccount) : Bool × StoredAccount :=
  let (changed, a) := a.reconcileAccount
  let (changed, a) := if changed then (true, a) else a.reconcileStudioQuota
  (changed, if changed then { a with updatedAt := now } else a)

/-- The loop body of `reset_daily_account_quotas_if_needed`. -/
def resetDaily (now today : String) (a : StoredAccount) : Bool × StoredAccount :=
  if a.quotaResetDate = today then a.reconcileBoth now
  else (true,
    { toAccount := (Accounts.resetDaily now today a.toAccount).2
      strayQuotaCharges := false
      strayStudioCharges := a.strayStudioCharges && !a.isQianwen })

end StoredAccount

/-- What is stored after a pass. A file is written only when something was repaired. -/
def saved (b : Backend) (changed : Bool) (accounts results : List StoredAccount) :
    List StoredAccount :=
  match b with
  | .postgres => results
  | .jsonFile => if changed then results else accounts

def reconcileStoredQuotas (b : Backend) (now : String) (accounts : List StoredAccount) :
    Reconciled × List StoredAccount :=
  let results := accounts.map (StoredAccount.reconcileBoth now)
  let repaired := results.countP (·.1)
  ({ checked := accounts.length, repaired },
    saved b (repaired != 0) accounts (results.map (·.2)))

def resetDailyStoredQuotas (b : Backend) (now today : String) (accounts : List StoredAccount) :
    Bool × List StoredAccount :=
  let results := accounts.map (StoredAccount.resetDaily now today)
  let changed := results.any (·.1)
  (changed, saved b changed accounts (results.map (·.2)))

/-! ### What a ledger needs -/

/-- A repair of the ledger is reported. -/
def Ledger.NeedsRepair (l : Ledger) (stray : Bool) : Prop :=
  l.initialized = true ∧ (stray = true ∨ max 0 l.used ≠ l.reconciledQuotaUsed)

/-- A repair of the ledger changes nothing. -/
def Ledger.Settled (l : Ledger) (stray : Bool) : Prop :=
  l.initialized = true → stray = false ∧ l.used = l.reconciledQuotaUsed

instance (l : Ledger) (stray : Bool) : Decidable (l.NeedsRepair stray) :=
  inferInstanceAs (Decidable (_ ∧ _))

instance (l : Ledger) (stray : Bool) : Decidable (l.Settled stray) :=
  inferInstanceAs (Decidable (_ → _))

section Ledger

variable {l : Ledger} {stray : Bool}

theorem reconcileStored_changed_iff : (l.reconcileStored stray).1 = true ↔ l.NeedsRepair stray := by
  unfold Ledger.reconcileStored Ledger.NeedsRepair
  cases hinit : l.initialized
  · simp
  · simp

theorem reconcileStored_settled :
    (l.reconcileStored stray).2.1.Settled (l.reconcileStored stray).2.2 := by
  intro hinit
  unfold Ledger.reconcileStored at hinit ⊢
  split at hinit
  · rename_i h
    rw [if_pos h]
    exact ⟨rfl, rfl⟩
  · rename_i h
    exact absurd hinit h

theorem Ledger.Settled.adds (h : l.Settled stray) : l.Adds := fun hinit => (h hinit).2

theorem Ledger.Settled.not_needsRepair (h : l.Settled stray) : ¬ l.NeedsRepair stray := by
  rintro ⟨hinit, hrepair⟩
  obtain ⟨hstray, hused⟩ := h hinit
  have hnonneg := reconciledQuotaUsed_nonneg l
  rcases hrepair with hs | hu
  · simp [hstray] at hs
  · omega

theorem Ledger.Adds.settled (h : l.Adds) (hn : ¬ l.NeedsRepair stray) : l.Settled stray := by
  intro hinit
  refine ⟨?_, h hinit⟩
  by_contra hstray
  exact hn ⟨hinit, .inl (by simpa using hstray)⟩

/-- Where nothing is reported, only a negative total is out of order. -/
theorem settled_iff_of_not_needsRepair (hn : ¬ l.NeedsRepair stray) :
    l.Settled stray ↔ (l.initialized = true → 0 ≤ l.used) := by
  constructor
  · intro h hinit
    have hnonneg := reconciledQuotaUsed_nonneg l
    have hused := (h hinit).2
    omega
  · intro h
    refine Ledger.Adds.settled (fun hinit => ?_) hn
    have hused := h hinit
    by_contra hne
    exact hn ⟨hinit, .inr (by omega)⟩

theorem reconcileStored_of_settled (h : l.Settled stray) :
    l.reconcileStored stray = (false, l, stray) := by
  have hchanged : (l.reconcileStored stray).1 = false := by
    rw [← Bool.not_eq_true, reconcileStored_changed_iff]
    exact h.not_needsRepair
  unfold Ledger.reconcileStored at hchanged ⊢
  split
  · rename_i hinit
    obtain ⟨rfl, hused⟩ := h hinit
    rw [if_pos hinit] at hchanged
    have hsame : l.recount = l := by
      rw [Ledger.recount, ← hused]
    rw [hsame, show (false || decide (max 0 l.used ≠ l.reconciledQuotaUsed)) = false from hchanged]
  · rfl

theorem reconcileStored_false : l.reconcileStored false = (l.reconcile.1, l.reconcile.2, false) := by
  unfold Ledger.reconcileStored Ledger.reconcile
  split
  · rw [Bool.false_or]
  · rfl

end Ledger

/-! ### One account -/

namespace StoredAccount

variable {a : StoredAccount}

/-- The two ledgers add up; accounts of other platforms have no AI Studio ledger. -/
structure Adds (a : StoredAccount) : Prop where
  quota : a.quota.Adds
  studio : a.isQianwen = true → a.studio.Adds

structure Settled (a : StoredAccount) : Prop where
  quota : a.quota.Settled a.strayQuotaCharges
  studio : a.isQianwen = true → a.studio.Settled a.strayStudioCharges

/-- One of the ledgers needs a repair that is reported. -/
def NeedsRepair (a : StoredAccount) : Prop :=
  a.quota.NeedsRepair a.strayQuotaCharges ∨
    a.isQianwen = true ∧ a.studio.NeedsRepair a.strayStudioCharges

/-- Where the default ledger needs a repair, the other one is in order. -/
def OneDefect (a : StoredAccount) : Prop :=
  a.quota.NeedsRepair a.strayQuotaCharges → a.isQianwen = true →
    a.studio.Settled a.strayStudioCharges

/-- No cached total is negative. -/
structure NonNegative (a : StoredAccount) : Prop where
  quota : a.quota.initialized = true → 0 ≤ a.quota.used
  studio : a.isQianwen = true → a.studio.initialized = true → 0 ≤ a.studio.used

theorem Settled.adds (h : a.Settled) : a.Adds :=
  ⟨h.quota.adds, fun hq => (h.studio hq).adds⟩

theorem Settled.not_needsRepair (h : a.Settled) : ¬ a.NeedsRepair := by
  rintro (hquota | ⟨hq, hstudio⟩)
  · exact h.quota.not_needsRepair hquota
  · exact (h.studio hq).not_needsRepair hstudio

theorem Adds.settled (h : a.Adds) (hn : ¬ a.NeedsRepair) : a.Settled :=
  ⟨h.quota.settled fun hquota => hn (.inl hquota),
    fun hq => (h.studio hq).settled fun hstudio => hn (.inr ⟨hq, hstudio⟩)⟩

theorem settled_iff_nonNegative (hn : ¬ a.NeedsRepair) : a.Settled ↔ a.NonNegative := by
  have hquota : ¬ a.quota.NeedsRepair a.strayQuotaCharges := fun h => hn (.inl h)
  have hstudio (hq : a.isQianwen = true) : ¬ a.studio.NeedsRepair a.strayStudioCharges :=
    fun h => hn (.inr ⟨hq, h⟩)
  constructor
  · intro h
    exact ⟨(settled_iff_of_not_needsRepair hquota).mp h.quota,
      fun hq => (settled_iff_of_not_needsRepair (hstudio hq)).mp (h.studio hq)⟩
  · intro h
    exact ⟨(settled_iff_of_not_needsRepair hquota).mpr h.quota,
      fun hq => (settled_iff_of_not_needsRepair (hstudio hq)).mpr (h.studio hq)⟩

/-- A pass reports an account exactly when one of its ledgers needs it. -/
theorem reconcileBoth_changed_iff (now : String) :
    (a.reconcileBoth now).1 = true ↔ a.NeedsRepair := by
  have hquota : a.reconcileAccount.1 = true ↔ a.quota.NeedsRepair a.strayQuotaCharges :=
    reconcileStored_changed_iff
  unfold reconcileBoth NeedsRepair
  rw [← hquota]
  cases hchanged : a.reconcileAccount.1
  · by_cases hq : a.isQianwen = true
    · have hq' : a.reconcileAccount.2.isQianwen = true := hq
      have hstudio : a.reconcileAccount.2.reconcileStudioQuota.1 = true ↔
          a.studio.NeedsRepair a.strayStudioCharges := by
        rw [reconcileStudioQuota, if_pos hq']
        exact reconcileStored_changed_iff
      simp [hchanged, hstudio, hq]
    · have hq' : ¬ a.reconcileAccount.2.isQianwen = true := hq
      simp [hchanged, reconcileStudioQuota, hq, hq']
  · simp [hchanged]

/-- The account that a pass leaves is in order exactly when it had one defect at most. -/
theorem reconcileBoth_settled_iff (now : String) :
    (a.reconcileBoth now).2.Settled ↔ a.OneDefect := by
  have hsettled : a.reconcileAccount.2.quota.Settled a.reconcileAccount.2.strayQuotaCharges :=
    reconcileStored_settled
  unfold reconcileBoth OneDefect
  rw [← reconcileStored_changed_iff]
  change _ ↔ (a.reconcileAccount.1 = true → _)
  cases hchanged : a.reconcileAccount.1
  · -- Both ledgers are looked at.
    simp only [hchanged, Bool.false_eq_true, if_false, false_implies, iff_true]
    have hboth : a.reconcileAccount.2.reconcileStudioQuota.2.Settled := by
      unfold reconcileStudioQuota
      split
      · exact ⟨hsettled, fun _ => reconcileStored_settled⟩
      · rename_i hq
        exact ⟨hsettled, fun h => absurd h hq⟩
    split
    · exact ⟨hboth.quota, hboth.studio⟩
    · exact hboth
  · simp only [hchanged, if_true, true_implies]
    constructor
    · intro h
      exact h.studio
    · intro h
      exact ⟨hsettled, h⟩

theorem reconcileBoth_of_settled (h : a.Settled) (now : String) :
    a.reconcileBoth now = (false, a) := by
  have hquota : a.reconcileAccount = (false, a) := by
    rw [reconcileAccount, reconcileStored_of_settled h.quota]
  have hstudio : a.reconcileStudioQuota = (false, a) := by
    unfold reconcileStudioQuota
    split
    · rename_i hq
      rw [reconcileStored_of_settled (h.studio hq)]
    · rfl
  simp [reconcileBoth, hquota, hstudio]

/-- An account that adds up and is not reported is in order. -/
theorem settled_iff (now : String) :
    a.Settled ↔ a.Adds ∧ (a.reconcileBoth now).1 = false := by
  rw [← Bool.not_eq_true, reconcileBoth_changed_iff]
  exact ⟨fun h => ⟨h.adds, h.not_needsRepair⟩, fun h => h.1.settled h.2⟩

theorem reconcileAccount_toAccount (h : a.strayQuotaCharges = false) :
    a.reconcileAccount.1 = (Accounts.reconcileAccount a.toAccount).1 ∧
      a.reconcileAccount.2.toAccount = (Accounts.reconcileAccount a.toAccount).2 := by
  rw [reconcileAccount, h, reconcileStored_false]
  exact ⟨rfl, rfl⟩

theorem reconcileStudioQuota_toAccount (h : a.strayStudioCharges = false) :
    a.reconcileStudioQuota.1 = (Accounts.reconcileStudioQuota a.toAccount).1 ∧
      a.reconcileStudioQuota.2.toAccount = (Accounts.reconcileStudioQuota a.toAccount).2 := by
  unfold reconcileStudioQuota Accounts.reconcileStudioQuota
  by_cases hq : a.isQianwen = true
  · rw [if_pos hq, if_pos hq, h, reconcileStored_false]
    exact ⟨rfl, rfl⟩
  · rw [if_neg hq, if_neg hq]
    exact ⟨rfl, rfl⟩

/-- Where no stray items are stored a pass is the one on plain accounts. -/
theorem reconcileBoth_toAccount (hquota : a.strayQuotaCharges = false)
    (hstudio : a.strayStudioCharges = false) (now : String) :
    (a.reconcileBoth now).1 = (Accounts.reconcileBoth now a.toAccount).1 ∧
      (a.reconcileBoth now).2.toAccount = (Accounts.reconcileBoth now a.toAccount).2 := by
  obtain ⟨hchanged, haccount⟩ := reconcileAccount_toAccount hquota
  have hkept : a.reconcileAccount.2.strayStudioCharges = false := hstudio
  obtain ⟨hchanged', haccount'⟩ := reconcileStudioQuota_toAccount hkept
  rw [haccount] at hchanged' haccount'
  unfold reconcileBoth Accounts.reconcileBoth
  simp only [← hchanged]
  cases a.reconcileAccount.1
  · simp only [Bool.false_eq_true, if_false, ← hchanged', ← haccount']
    cases a.reconcileAccount.2.reconcileStudioQuota.1 <;> simp
  · simp only [if_true, ← haccount, true_and]

end StoredAccount

/-! ### The table -/

section Table

variable {b : Backend} {accounts : List StoredAccount}

/-- After a pass every ledger adds up, and a second pass repairs and changes nothing. -/
def ReconciledInOnePass (b : Backend) (now later : String) (accounts : List StoredAccount) : Prop :=
  let after := (reconcileStoredQuotas b now accounts).2
  (∀ a ∈ after, a.Adds) ∧
    reconcileStoredQuotas b later after = ({ checked := after.length, repaired := 0 }, after)

/-- The same of the daily reset, where the accounts that it resets need not be looked at. -/
def ResetInOnePass (b : Backend) (now later today : String) (accounts : List StoredAccount) : Prop :=
  let after := (resetDailyStoredQuotas b now today accounts).2
  (∀ p ∈ accounts.zip after, p.1.quotaResetDate = today → p.2.Adds) ∧
    resetDailyStoredQuotas b later today after = (false, after)

/-- One pass is enough: no account has a repair to be made in both ledgers, and a file with
nothing to be reported has no negative total. -/
structure InReach (b : Backend) (accounts : List StoredAccount) : Prop where
  oneDefect : ∀ a ∈ accounts, a.OneDefect
  written : b = .jsonFile →
    (∃ a ∈ accounts, a.NeedsRepair) ∨ ∀ a ∈ accounts, a.NonNegative

theorem repaired_eq_zero_iff (now : String) :
    (reconcileStoredQuotas b now accounts).1.repaired = 0 ↔
      ∀ a ∈ accounts, (a.reconcileBoth now).1 = false := by
  simp [reconcileStoredQuotas, List.countP_eq_zero]

theorem map_reconcileBoth_of_settled (h : ∀ a ∈ accounts, a.Settled) (now : String) :
    accounts.map (StoredAccount.reconcileBoth now) = accounts.map fun a => (false, a) :=
  List.map_congr_left fun a ha => StoredAccount.reconcileBoth_of_settled (h a ha) now

theorem saved_self (b : Backend) (changed : Bool) : saved b changed accounts accounts = accounts := by
  cases b
  · cases changed <;> rfl
  · rfl

theorem reconcileStoredQuotas_of_settled (h : ∀ a ∈ accounts, a.Settled) (b : Backend)
    (now : String) : reconcileStoredQuotas b now accounts =
      ({ checked := accounts.length, repaired := 0 }, accounts) := by
  have hcount : (accounts.map fun a => (false, a)).countP (·.1) = 0 := by
    simp [List.countP_eq_zero]
  have hsame : (accounts.map fun a => (false, a)).map (·.2) = accounts := by
    simp [Function.comp_def]
  simp only [reconcileStoredQuotas, map_reconcileBoth_of_settled h, hcount, hsame, saved_self]

/-- A table is right and stays as it is exactly when every account is in order. -/
theorem settled_iff_reconciled (later : String) :
    (∀ a ∈ accounts, a.Settled) ↔
      (∀ a ∈ accounts, a.Adds) ∧ reconcileStoredQuotas b later accounts =
        ({ checked := accounts.length, repaired := 0 }, accounts) := by
  constructor
  · intro h
    exact ⟨fun a ha => (h a ha).adds, reconcileStoredQuotas_of_settled h b later⟩
  · rintro ⟨hadds, hsecond⟩ a ha
    have hzero : (reconcileStoredQuotas b later accounts).1.repaired = 0 := by rw [hsecond]
    exact (StoredAccount.settled_iff later).mpr
      ⟨hadds a ha, (repaired_eq_zero_iff later).mp hzero a ha⟩

/-- What one pass leaves in order. -/
theorem reconciled_settled_iff (now : String) :
    (∀ a ∈ (reconcileStoredQuotas b now accounts).2, a.Settled) ↔ InReach b accounts := by
  have hresults : (∀ a ∈ (accounts.map (StoredAccount.reconcileBoth now)).map (·.2), a.Settled) ↔
      ∀ a ∈ accounts, a.OneDefect := by
    simp only [List.mem_map, forall_exists_index, and_imp, forall_apply_eq_imp_iff₂,
      StoredAccount.reconcileBoth_settled_iff]
  have hreports : (accounts.map (StoredAccount.reconcileBoth now)).countP (·.1) = 0 ↔
      ∀ a ∈ accounts, ¬ a.NeedsRepair := by
    simp [List.countP_eq_zero, ← StoredAccount.reconcileBoth_changed_iff now]
  cases b with
  | postgres =>
    change (∀ a ∈ (accounts.map (StoredAccount.reconcileBoth now)).map (·.2), a.Settled) ↔ _
    rw [hresults]
    exact ⟨fun h => ⟨h, fun hb => by cases hb⟩, fun h => h.oneDefect⟩
  | jsonFile =>
    by_cases hnone : ∀ a ∈ accounts, ¬ a.NeedsRepair
    · -- Nothing is written.
      have hsaved : (reconcileStoredQuotas .jsonFile now accounts).2 = accounts := by
        simp [reconcileStoredQuotas, saved, hreports.mpr hnone]
      rw [hsaved]
      constructor
      · intro h
        refine ⟨fun a ha hquota => absurd (.inl hquota) (hnone a ha), fun _ => .inr fun a ha => ?_⟩
        exact (StoredAccount.settled_iff_nonNegative (hnone a ha)).mp (h a ha)
      · rintro ⟨-, hwritten⟩ a ha
        rcases hwritten rfl with ⟨d, hd, hrepair⟩ | hnonneg
        · exact absurd hrepair (hnone d hd)
        · exact (StoredAccount.settled_iff_nonNegative (hnone a ha)).mpr (hnonneg a ha)
    · have hcount : (accounts.map (StoredAccount.reconcileBoth now)).countP (·.1) ≠ 0 :=
        fun h => hnone (hreports.mp h)
      have hsaved : (reconcileStoredQuotas .jsonFile now accounts).2 =
          (accounts.map (StoredAccount.reconcileBoth now)).map (·.2) := by
        simp only [reconcileStoredQuotas, saved]
        rw [if_pos (by simpa using hcount)]
      push Not at hnone
      rw [hsaved, hresults]
      exact ⟨fun h => ⟨h, fun _ => .inl hnone⟩, fun h => h.oneDefect⟩

theorem reconciledInOnePass_iff (b : Backend) (now later : String) (accounts : List StoredAccount) :
    ReconciledInOnePass b now later accounts ↔ InReach b accounts := by
  rw [← reconciled_settled_iff now]
  exact (settled_iff_reconciled later).symm

/-! ### The daily reset -/

theorem reconcileBoth_quotaResetDate (a : StoredAccount) (now : String) :
    (a.reconcileBoth now).2.quotaResetDate = a.quotaResetDate := by
  have hstudio (c : StoredAccount) : c.reconcileStudioQuota.2.quotaResetDate = c.quotaResetDate := by
    unfold StoredAccount.reconcileStudioQuota
    split <;> rfl
  unfold StoredAccount.reconcileBoth
  cases hchanged : a.reconcileAccount.1
  · simp only [hchanged, Bool.false_eq_true, if_false]
    split
    · exact hstudio a.reconcileAccount.2
    · exact hstudio a.reconcileAccount.2
  · simp only [hchanged, if_true]
    rfl

/-- The reset leaves every account in order and with the date of the day. -/
theorem resetDaily_settled {a : StoredAccount} (h : a.OneDefect) (now today : String) :
    (a.resetDaily now today).2.Settled ∧ (a.resetDaily now today).2.quotaResetDate = today := by
  unfold StoredAccount.resetDaily
  by_cases hdate : a.quotaResetDate = today
  · rw [if_pos hdate]
    refine ⟨(StoredAccount.reconcileBoth_settled_iff now).mpr h, ?_⟩
    rw [reconcileBoth_quotaResetDate, hdate]
  · rw [if_neg hdate]
    have hreset : (Accounts.resetDaily now today a.toAccount).2 =
        { resetQuota now a.toAccount with
          quotaResetDate := today
          studioQuotaResetDate := if a.isQianwen then today else a.studioQuotaResetDate } := by
      rw [Accounts.resetDaily, if_neg hdate]
    rw [hreset]
    refine ⟨⟨fun _ => ⟨rfl, rfl⟩, fun hq => ?_⟩, rfl⟩
    have hq' : a.isQianwen = true := hq
    intro _
    simp only [hq', Bool.not_true, Bool.and_false, resetQuota, if_true]
    exact ⟨trivial, rfl⟩

theorem resetDaily_of_settled {a : StoredAccount} {today : String} (h : a.Settled)
    (hdate : a.quotaResetDate = today) (now : String) : a.resetDaily now today = (false, a) := by
  rw [StoredAccount.resetDaily, if_pos hdate, StoredAccount.reconcileBoth_of_settled h]

theorem resetDailyStoredQuotas_of_settled {today : String}
    (h : ∀ a ∈ accounts, a.Settled ∧ a.quotaResetDate = today) (b : Backend) (now : String) :
    resetDailyStoredQuotas b now today accounts = (false, accounts) := by
  have hmap : accounts.map (StoredAccount.resetDaily now today) =
      accounts.map fun a => (false, a) :=
    List.map_congr_left fun a ha => resetDaily_of_settled (h a ha).1 (h a ha).2 now
  have hany : (accounts.map fun a => (false, a)).any (·.1) = false := by simp
  have hsame : (accounts.map fun a => (false, a)).map (·.2) = accounts := by
    simp [Function.comp_def]
  simp only [resetDailyStoredQuotas, hmap, hany, hsame, saved_self]

theorem resetDailyStoredQuotas_settled (h : InReach b accounts) (now today : String) :
    ∀ a ∈ (resetDailyStoredQuotas b now today accounts).2,
      a.Settled ∧ a.quotaResetDate = today := by
  have hresults : ∀ a ∈ (accounts.map (StoredAccount.resetDaily now today)).map (·.2),
      a.Settled ∧ a.quotaResetDate = today := by
    intro a ha
    simp only [List.mem_map] at ha
    obtain ⟨_, ⟨d, hd, rfl⟩, rfl⟩ := ha
    exact resetDaily_settled (h.oneDefect d hd) now today
  cases b with
  | postgres => exact hresults
  | jsonFile =>
    cases hany : (accounts.map (StoredAccount.resetDaily now today)).any (·.1)
    · -- Nothing was reset or repaired, and nothing is written.
      have hsaved : (resetDailyStoredQuotas .jsonFile now today accounts).2 = accounts := by
        simp only [resetDailyStoredQuotas, saved, hany, Bool.false_eq_true, if_false]
      rw [hsaved]
      have hstill (a : StoredAccount) (ha : a ∈ accounts) :
          (a.resetDaily now today).1 = false := by
        simpa using List.any_eq_false.mp hany _ (List.mem_map_of_mem ha)
      have htoday (a : StoredAccount) (ha : a ∈ accounts) : a.quotaResetDate = today := by
        by_contra hdate
        have hfalse := hstill a ha
        rw [StoredAccount.resetDaily, if_neg hdate] at hfalse
        cases hfalse
      have hnone (a : StoredAccount) (ha : a ∈ accounts) : ¬ a.NeedsRepair := by
        have hfalse := hstill a ha
        rw [StoredAccount.resetDaily, if_pos (htoday a ha)] at hfalse
        rw [← StoredAccount.reconcileBoth_changed_iff now, hfalse]
        exact Bool.false_ne_true
      intro a ha
      refine ⟨?_, htoday a ha⟩
      rcases h.written rfl with ⟨d, hd, hrepair⟩ | hnonneg
      · exact absurd hrepair (hnone d hd)
      · exact (StoredAccount.settled_iff_nonNegative (hnone a ha)).mpr (hnonneg a ha)
    · have hsaved : (resetDailyStoredQuotas .jsonFile now today accounts).2 =
          (accounts.map (StoredAccount.resetDaily now today)).map (·.2) := by
        simp only [resetDailyStoredQuotas, saved, hany, if_true]
      rw [hsaved]
      exact hresults

theorem resetInOnePass_of_inReach (h : InReach b accounts) (now later today : String) :
    ResetInOnePass b now later today accounts := by
  have hsettled := resetDailyStoredQuotas_settled h now today
  refine ⟨fun p hp _ => ?_, resetDailyStoredQuotas_of_settled hsettled b later⟩
  exact (hsettled p.2 (List.of_mem_zip hp).2).1.adds

/-- One pass repairs every ledger, and so does the daily reset of the ledgers it does not
reset, exactly when no account has a repair to be made in both of its ledgers. -/
theorem reconciled_in_one_pass_iff (b : Backend) (now later today : String)
    (accounts : List StoredAccount) :
    ReconciledInOnePass b now later accounts ∧ ResetInOnePass b now later today accounts ↔
      InReach b accounts := by
  rw [reconciledInOnePass_iff]
  exact and_iff_left_of_imp fun h => resetInOnePass_of_inReach h now later today

end Table

/-! ### Two wrong totals -/

section Sample

/-- A Qianwen account with a wrong total in both ledgers. -/
def twoDefects : StoredAccount where
  toAccount :=
    { sampleAccount with
      platform := "qianwen"
      quota := { used := 1, base := 0, initialized := true, charges := [] }
      studio := { used := 1, base := 0, initialized := true, charges := [] } }
  strayQuotaCharges := false
  strayStudioCharges := false

/-- The first pass repairs the default ledger alone, and the second one has the other left. -/
theorem second_ledger_left :
    ¬ (ReconciledInOnePass .postgres "now" "later" [twoDefects] ∧
      ResetInOnePass .postgres "now" "later" "2025-01-01" [twoDefects]) := by
  intro h
  exact absurd h.1.2 (by decide)

end Sample

end FetchTask.Accounts
