import FetchTask.Accounts.Ledger
import FetchTask.Lib.Grouping
import Mathlib.Algebra.GroupWithZero.Nat

/-!
Charging for successes afterwards (`reconcile_success_quota_charges`).

The records of tasks that ended well are put into the accounts that they name,
unless they are there. Which records are there is read off the default ledger
alone, and a record that is not goes into that ledger, whatever the prefix of its
charge id. The law says for which accounts and records this charges each success
once.
-/

namespace FetchTask.Accounts

/-- A record as it is given; a missing text is empty. -/
structure SuccessRecord where
  taskId : String
  accountId : String
  chargeId : String
  finishedAt : String
  deriving DecidableEq

structure NormalizedRecord where
  taskId : String
  accountId : String
  chargeId : ChargeId
  finishedAt : String
  deriving DecidableEq

/-- An item of `changes`. -/
structure BackChange where
  accountId : String
  accountName : String
  beforeUsed : Int
  afterUsed : Int
  addedCharges : Nat
  deriving DecidableEq

structure BackChargeReport where
  dryRun : Bool
  inputRecords : Nat
  validRecords : Nat
  matchedRecords : Nat
  addedCharges : Nat
  alreadyPresent : Nat
  repairedAccounts : Nat
  missingAccountIds : List String
  quotaUsedBefore : Int
  /-- `none` when the key is missing. -/
  quotaUsedAfter : Option Int
  changes : List BackChange
  deriving DecidableEq

/-! ### The records -/

/-- The first loop, once the charge ids `seen` came up: complete records, the first one of
each charge id. -/
def normalizeRecords (seen : List String) : List SuccessRecord → List NormalizedRecord
  | [] => []
  | r :: records =>
    if h : r.taskId ≠ "" ∧ r.accountId ≠ "" ∧ r.chargeId ≠ "" ∧ r.chargeId ∉ seen then
      { taskId := r.taskId, accountId := r.accountId, chargeId := ⟨r.chargeId, h.2.2.1⟩
        finishedAt := r.finishedAt } :: normalizeRecords (r.chargeId :: seen) records
    else normalizeRecords seen records

/-- `accounts_by_id[account_id]`: the last of the accounts with an id. -/
def accountById (accountId : String) (accounts : Table) : Option Account :=
  accounts.reverse.find? (·.id == accountId)

def knownRecords (accounts : Table) (records : List NormalizedRecord) : List NormalizedRecord :=
  records.filter fun r => (accountById r.accountId accounts).isSome

/-- `missing_accounts`. -/
def missingAccounts (accounts : Table) (records : List NormalizedRecord) : List String :=
  (records.filter fun r => (accountById r.accountId accounts).isNone).map (·.accountId)

def recordsByAccount (accounts : Table) (records : List NormalizedRecord) :
    Dict String (List NormalizedRecord) :=
  Grouping.group (·.accountId) (knownRecords accounts records)

/-! ### One account -/

def missingRecords (l : Ledger) (records : List NormalizedRecord) : List NormalizedRecord :=
  records.filter fun r => r.chargeId ∉ l.charges.map (·.chargeId)

def backCharge (now : String) (r : NormalizedRecord) : Charge :=
  { chargeId := r.chargeId, taskId := r.taskId, status := .settled
    chargedAt := textOr r.finishedAt now, settledAt := textOr r.finishedAt now
    source := "success_reconciliation" }

/-- The ledger with these records; the base of a new ledger is what was used without them. -/
def Ledger.backCharge (now : String) (missing : List NormalizedRecord) (l : Ledger) : Ledger :=
  let l := if l.initialized then l
    else { l with base := max 0 (max 0 l.used - missing.length), initialized := true }
  { l with charges := l.charges ++ missing.map (Accounts.backCharge now) }.recount

/-- What the loop finds out about one account. -/
structure BackCharged where
  alreadyPresent : Nat
  /-- `none` when no record was missing. -/
  change : Option BackChange
  deriving DecidableEq

/-- The body of the second loop. -/
def backChargeAccount (now : String) (records : List NormalizedRecord) (a : Account) :
    BackCharged × Account :=
  let missing := missingRecords a.quota records
  let alreadyPresent := records.length - missing.length
  if missing = [] then ({ alreadyPresent, change := none }, a)
  else
    let quota := a.quota.backCharge now missing
    let change :=
      { accountId := a.id, accountName := a.name, beforeUsed := max 0 a.quota.used
        afterUsed := quota.used, addedCharges := missing.length }
    ({ alreadyPresent, change := some change }, { a with quota, updatedAt := now })

/-! ### The table -/

def mutateAccountById {α : Type} (accountId : String) (f : Account → α × Account)
    (accounts : Table) : Option α × Table :=
  let (result, accounts) := mutateAccount accountId f accounts.reverse
  (result, accounts.reverse)

/-- The second loop: what it found out, and the table. -/
def backChargeAccounts (now : String) :
    List (String × List NormalizedRecord) → Table → List BackCharged × Table
  | [], accounts => ([], accounts)
  | (accountId, records) :: groups, accounts =>
    let (result, accounts) := mutateAccountById accountId (backChargeAccount now records) accounts
    let (results, accounts) := backChargeAccounts now groups accounts
    (result.toList ++ results, accounts)

/-- The stored totals of these accounts. -/
def quotaUsed (find : String → Option Account) (accountIds : List String) : Int :=
  (accountIds.map fun id => (find id).elim 0 fun a => max 0 a.quota.used).sum

/-- The closure `mutate`; `quota_used_before` is read off the table that it has changed. -/
def backChargeTable (dryRun : Bool) (inputRecords : Nat) (normalized : List NormalizedRecord)
    (now : String) (accounts : Table) : BackChargeReport × Table :=
  let groups := (recordsByAccount accounts normalized).items
  let missing := missingAccounts accounts normalized
  let (results, after) := backChargeAccounts now groups accounts
  let changes := results.filterMap (·.change)
  ({ dryRun, inputRecords
     validRecords := normalized.length
     matchedRecords := normalized.length - missing.length
     addedCharges := (changes.map (·.addedCharges)).sum
     alreadyPresent := (results.map (·.alreadyPresent)).sum
     repairedAccounts := changes.length
     missingAccountIds := missing.eraseDups.mergeSort fun a b => decide (a ≤ b)
     quotaUsedBefore := quotaUsed (accountById · after) (groups.map (·.1))
     quotaUsedAfter := none
     changes }, after)

/-- With a file the totals are read off the tables before and after (the first account with
an id, there), and the file is written when charges were added. -/
def reconcileSuccessQuotaCharges (b : Backend) (dryRun : Bool) (records : List SuccessRecord)
    (now : String) (accounts : Table) : BackChargeReport × Table :=
  let normalized := normalizeRecords [] records
  let (report, after) := backChargeTable dryRun records.length normalized now accounts
  match b with
  | .postgres => (report, if dryRun then accounts else after)
  | .jsonFile =>
    let accountIds := (recordsByAccount accounts normalized).items.map (·.1)
    ({ report with
       quotaUsedBefore := quotaUsed (accountById · accounts) accountIds
       quotaUsedAfter := some (quotaUsed (fun id => after.find? (·.id == id)) accountIds) },
      if dryRun || report.addedCharges == 0 then accounts else after)

/-- The table after one run at each of these times. -/
def backChargeRuns (b : Backend) (records : List SuccessRecord) (times : List String)
    (accounts : Table) : Table :=
  times.foldl (fun accounts now =>
    (reconcileSuccessQuotaCharges b false records now accounts).2) accounts

/-! ### What one account gets -/

/-- How often a charge id occurs. -/
def Ledger.count (l : Ledger) (chargeId : ChargeId) : Nat :=
  l.charges.countP fun c => c.chargeId = chargeId

theorem count_eq_zero_iff {l : Ledger} {chargeId : ChargeId} :
    l.count chargeId = 0 ↔ chargeId ∉ l.charges.map (·.chargeId) := by
  simp [Ledger.count, List.countP_eq_zero]

theorem mem_missingRecords {l : Ledger} {records : List NormalizedRecord} {r : NormalizedRecord} :
    r ∈ missingRecords l records ↔ r ∈ records ∧ l.count r.chargeId = 0 := by
  rw [missingRecords, List.mem_filter, decide_eq_true_eq, count_eq_zero_iff]

theorem backCharge_charges (now : String) (missing : List NormalizedRecord) (l : Ledger) :
    (l.backCharge now missing).charges = l.charges ++ missing.map (backCharge now) := by
  unfold Ledger.backCharge Ledger.recount
  split <;> rfl

theorem count_backCharge (now : String) (missing : List NormalizedRecord) (l : Ledger)
    (chargeId : ChargeId) :
    (l.backCharge now missing).count chargeId =
      l.count chargeId + missing.countP fun r => r.chargeId = chargeId := by
  rw [Ledger.count, backCharge_charges, List.countP_append, List.countP_map]
  rfl

section Account

variable (now : String) (records : List NormalizedRecord) (a : Account)

theorem backChargeAccount_of_present (h : missingRecords a.quota records = []) :
    backChargeAccount now records a =
      ({ alreadyPresent := records.length, change := none }, a) := by
  simp [backChargeAccount, h]

theorem backChargeAccount_id : (backChargeAccount now records a).2.id = a.id := by
  unfold backChargeAccount
  dsimp only
  split <;> rfl

theorem backChargeAccount_studio : (backChargeAccount now records a).2.studio = a.studio := by
  unfold backChargeAccount
  dsimp only
  split <;> rfl

theorem count_backChargeAccount (chargeId : ChargeId) :
    (backChargeAccount now records a).2.quota.count chargeId = a.quota.count chargeId +
      (missingRecords a.quota records).countP fun r => r.chargeId = chargeId := by
  unfold backChargeAccount
  dsimp only
  split
  · rename_i hnone
    rw [hnone, List.countP_nil, Nat.add_zero]
  · exact count_backCharge now _ a.quota chargeId

/-- Afterwards every record is there. -/
theorem missingRecords_backChargeAccount :
    missingRecords (backChargeAccount now records a).2.quota records = [] := by
  refine List.eq_nil_iff_forall_not_mem.mpr fun r hr => ?_
  obtain ⟨hmem, hcount⟩ := mem_missingRecords.mp hr
  rw [count_backChargeAccount, Nat.add_eq_zero_iff, List.countP_eq_zero] at hcount
  have hmissing : r ∈ missingRecords a.quota records := mem_missingRecords.mpr ⟨hmem, hcount.1⟩
  exact hcount.2 r hmissing (decide_eq_true rfl)

/-- The number of charges that are added. -/
def BackCharged.added (result : BackCharged) : Nat := result.change.elim 0 (·.addedCharges)

theorem added_backChargeAccount : (backChargeAccount now records a).1.added =
    (missingRecords a.quota records).length := by
  unfold backChargeAccount
  dsimp only
  split
  · rename_i hnone
    rw [hnone]
    rfl
  · rfl

theorem change_backChargeAccount {change : BackChange}
    (h : (backChargeAccount now records a).1.change = some change) :
    change.accountId = a.id ∧ (backChargeAccount now records a).2.quota.used =
      (backChargeAccount now records a).2.quota.reconciledQuotaUsed := by
  unfold backChargeAccount at h ⊢
  dsimp only at h ⊢
  split at h
  · cases h
  · rename_i hmissing
    rw [if_neg hmissing]
    cases h
    exact ⟨rfl, rfl⟩

end Account

/-! ### What the table gets -/

section Table

variable {α : Type} {f : Account → α × Account} {accountId : String} {accounts : Table}

theorem mutateAccount_of_same
    (h : ∀ a, accounts.find? (·.id == accountId) = some a → (f a).2 = a) :
    (mutateAccount accountId f accounts).2 = accounts := by
  induction accounts with
  | nil => rfl
  | cons a as ih =>
    simp only [mutateAccount] at ih ⊢
    by_cases ha : a.id = accountId
    · simp only [List.replaceF, ha, if_true]
      rw [h a (by simp [ha])]
    · simp only [List.replaceF, ha, if_false]
      rw [ih fun b hb => h b (by simpa [ha] using hb)]

theorem mutateAccountById_of_same (h : ∀ a, accountById accountId accounts = some a → (f a).2 = a) :
    (mutateAccountById accountId f accounts).2 = accounts := by
  show (mutateAccount accountId f accounts.reverse).2.reverse = accounts
  rw [mutateAccount_of_same h, List.reverse_reverse]

theorem accountById_mutateAccountById (hid : ∀ a, (f a).2.id = a.id) (id : String) :
    accountById id (mutateAccountById accountId f accounts).2 =
      (accountById id accounts).map fun a => if id = accountId then (f a).2 else a := by
  rw [accountById, mutateAccountById, List.reverse_reverse, find?_mutateAccount hid, accountById]

end Table

section Groups

variable {now : String} {groups : List (String × List NormalizedRecord)} {accounts : Table}

/-- The records of one account among the groups. -/
def recordsOf (id : String) (groups : List (String × List NormalizedRecord)) :
    List NormalizedRecord := (Dict.lookup id groups).getD []

theorem recordsOf_cons_self (id : String) (records : List NormalizedRecord) :
    recordsOf id ((id, records) :: groups) = records := by
  simp [recordsOf, Dict.lookup]

theorem recordsOf_cons_of_ne {id accountId : String} (h : id ≠ accountId)
    (records : List NormalizedRecord) :
    recordsOf id ((accountId, records) :: groups) = recordsOf id groups := by
  simp [recordsOf, Dict.lookup, Ne.symm h]

theorem recordsOf_of_notMem {id : String} (hnodup : (groups.map Prod.fst).Nodup)
    (h : id ∉ groups.map Prod.fst) : recordsOf id groups = [] := by
  have hnone : Dict.lookup id groups = none := by
    by_contra hne
    obtain ⟨records, hsome⟩ := Option.ne_none_iff_exists'.mp hne
    exact h (List.mem_map_of_mem (f := Prod.fst) ((Dict.lookup_eq_some_iff hnodup).mp hsome))
  rw [recordsOf, hnone, Option.getD_none]

theorem backChargeAccount_nil (now : String) (a : Account) :
    (backChargeAccount now [] a).2 = a := by
  rw [backChargeAccount_of_present now [] a rfl]

/-- The accounts of the later groups are not touched by the first one. -/
theorem accountById_first {id accountId : String} (h : id ≠ accountId)
    (records : List NormalizedRecord) :
    accountById id (mutateAccountById accountId (backChargeAccount now records) accounts).2 =
      accountById id accounts := by
  rw [accountById_mutateAccountById (backChargeAccount_id now records)]
  simp [h]

/-- The loop treats each account once, with the records of its group. -/
theorem accountById_backChargeAccounts (h : (groups.map Prod.fst).Nodup) (id : String) :
    accountById id (backChargeAccounts now groups accounts).2 =
      (accountById id accounts).map fun a => (backChargeAccount now (recordsOf id groups) a).2 := by
  induction groups generalizing accounts with
  | nil =>
    simp only [backChargeAccounts, recordsOf, Dict.lookup, Option.getD_none, backChargeAccount_nil,
      Option.map_id']
  | cons group groups ih =>
    obtain ⟨accountId, records⟩ := group
    rw [List.map_cons, List.nodup_cons] at h
    simp only [backChargeAccounts]
    rw [ih h.2]
    by_cases hid : id = accountId
    · subst hid
      rw [accountById_mutateAccountById (backChargeAccount_id now records), Option.map_map,
        recordsOf_cons_self, recordsOf_of_notMem h.2 h.1]
      simp only [Function.comp_def, if_true, backChargeAccount_nil]
    · rw [accountById_first hid, recordsOf_cons_of_ne hid]

variable (now accounts) in
theorem backChargeAccounts_fst (h : (groups.map Prod.fst).Nodup) :
    (backChargeAccounts now groups accounts).1 = groups.filterMap fun g =>
      (accountById g.1 accounts).map fun a => (backChargeAccount now g.2 a).1 := by
  induction groups generalizing accounts with
  | nil => rfl
  | cons group groups ih =>
    obtain ⟨accountId, records⟩ := group
    rw [List.map_cons, List.nodup_cons] at h
    have hrest : ∀ g ∈ groups, g.1 ≠ accountId := fun g hg heq =>
      h.1 (List.mem_map.mpr ⟨g, hg, heq⟩)
    have hfirst : (mutateAccountById accountId (backChargeAccount now records) accounts).1 =
        (accountById accountId accounts).map fun a => (backChargeAccount now records a).1 := rfl
    simp only [backChargeAccounts]
    rw [ih _ h.2, hfirst, List.filterMap_cons,
      List.filterMap_congr fun g hg => by rw [accountById_first (hrest g hg)]]
    cases accountById accountId accounts <;> rfl

theorem backChargeAccounts_of_present
    (h : ∀ g ∈ groups, ∀ a, accountById g.1 accounts = some a →
      missingRecords a.quota g.2 = []) :
    (backChargeAccounts now groups accounts).2 = accounts := by
  induction groups with
  | nil => rfl
  | cons group groups ih =>
    obtain ⟨accountId, records⟩ := group
    have hfirst : (mutateAccountById accountId (backChargeAccount now records) accounts).2 =
        accounts := by
      refine mutateAccountById_of_same fun a ha => ?_
      rw [backChargeAccount_of_present now records a (h _ List.mem_cons_self a ha)]
    simp only [backChargeAccounts]
    rw [hfirst, ih fun g hg => h g (List.mem_cons_of_mem _ hg)]

end Groups

/-! ### The records of an account -/

section Records

variable {seen : List String} {records : List SuccessRecord}

theorem notMem_of_mem_normalizeRecords {r : NormalizedRecord}
    (h : r ∈ normalizeRecords seen records) : r.chargeId.val ∉ seen := by
  induction records generalizing seen with
  | nil => cases h
  | cons record records ih =>
    rw [normalizeRecords] at h
    split at h
    · rename_i hnew
      rcases List.mem_cons.mp h with rfl | hlater
      · exact hnew.2.2.2
      · exact fun hseen => ih hlater (List.mem_cons_of_mem _ hseen)
    · exact ih h

/-- No charge id is kept twice. -/
theorem nodup_normalizeRecords :
    ((normalizeRecords seen records).map (·.chargeId)).Nodup := by
  induction records generalizing seen with
  | nil => exact List.nodup_nil
  | cons record records ih =>
    rw [normalizeRecords]
    split
    · rw [List.map_cons, List.nodup_cons]
      refine ⟨fun hmem => ?_, ih⟩
      obtain ⟨r, hr, heq⟩ := List.mem_map.mp hmem
      exact notMem_of_mem_normalizeRecords hr (heq ▸ List.mem_cons_self)
    · exact ih

end Records

section Closure

variable {dryRun : Bool} {inputRecords : Nat} {normalized : List NormalizedRecord} {now : String}
  {accounts : Table}

/-- The records that name this account. -/
def recordsFor (id : String) (normalized : List NormalizedRecord) : List NormalizedRecord :=
  Grouping.part (·.accountId) id normalized

theorem mem_recordsFor {id : String} {r : NormalizedRecord} :
    r ∈ recordsFor id normalized ↔ r ∈ normalized ∧ r.accountId = id :=
  Grouping.mem_part _

/-- Records of unknown accounts are in no group of a known one. -/
theorem recordsFor_knownRecords {id : String} {a : Account}
    (h : accountById id accounts = some a) :
    recordsFor id (knownRecords accounts normalized) = recordsFor id normalized := by
  rw [recordsFor, Grouping.part, knownRecords, List.filter_filter, recordsFor, Grouping.part]
  refine List.filter_congr fun r _ => ?_
  by_cases hid : r.accountId = id
  · simp [hid, h]
  · simp [hid]

theorem recordsOf_recordsByAccount {id : String} {a : Account}
    (h : accountById id accounts = some a) :
    recordsOf id (recordsByAccount accounts normalized).items = recordsFor id normalized := by
  rw [← recordsFor_knownRecords h]
  exact Grouping.getD_group _ _ id

theorem eq_recordsFor_of_mem {g : String × List NormalizedRecord} {a : Account}
    (hg : g ∈ (recordsByAccount accounts normalized).items) (h : accountById g.1 accounts = some a) :
    g.2 = recordsFor g.1 normalized := by
  rw [← recordsFor_knownRecords h]
  exact Grouping.eq_part_of_mem _ hg

theorem accountById_backChargeTable (id : String) :
    accountById id (backChargeTable dryRun inputRecords normalized now accounts).2 =
      (accountById id accounts).map fun a =>
        (backChargeAccount now (recordsFor id normalized) a).2 := by
  rw [backChargeTable, accountById_backChargeAccounts (recordsByAccount accounts normalized).nodup]
  cases h : accountById id accounts with
  | none => rfl
  | some a => rw [Option.map_some, Option.map_some, recordsOf_recordsByAccount h]

/-- The number of missing records of the group's account. -/
def missingOf (accounts : Table) (g : String × List NormalizedRecord) : Option Nat :=
  (accountById g.1 accounts).map fun a => (missingRecords a.quota g.2).length

theorem sum_map_filterMap {α β : Type} (f : α → Option β) (g : β → Nat) (l : List α) :
    ((l.filterMap f).map g).sum = (l.map fun x => (f x).elim 0 g).sum := by
  induction l with
  | nil => rfl
  | cons x l ih =>
    cases h : f x with
    | none => simp [h, ih]
    | some y => simp [h, ih]

variable (dryRun inputRecords now) in
/-- The count of added charges depends on the stored charges and the records only. -/
theorem addedCharges_backChargeTable :
    (backChargeTable dryRun inputRecords normalized now accounts).1.addedCharges =
      ((recordsByAccount accounts normalized).items.filterMap (missingOf accounts)).sum := by
  have hresults := backChargeAccounts_fst now accounts (recordsByAccount accounts normalized).nodup
  have hadded : ∀ g : String × List NormalizedRecord,
      ((accountById g.1 accounts).map fun a => (backChargeAccount now g.2 a).1).map
        BackCharged.added = missingOf accounts g := by
    intro g
    rw [Option.map_map, missingOf]
    exact congrArg (Option.map · _) (funext fun a => added_backChargeAccount now g.2 a)
  simp only [backChargeTable]
  rw [sum_map_filterMap, hresults]
  show (List.map BackCharged.added _).sum = _
  rw [List.map_filterMap]
  simp only [hadded]

/-- Every record of a known account is in its default ledger. -/
def AllPresent (normalized : List NormalizedRecord) (accounts : Table) : Prop :=
  ∀ r ∈ normalized, ∀ a, accountById r.accountId accounts = some a → a.quota.count r.chargeId ≠ 0

theorem AllPresent.missingRecords (h : AllPresent normalized accounts)
    {g : String × List NormalizedRecord} (hg : g ∈ (recordsByAccount accounts normalized).items)
    {a : Account} (ha : accountById g.1 accounts = some a) :
    Accounts.missingRecords a.quota g.2 = [] := by
  rw [eq_recordsFor_of_mem hg ha]
  refine List.eq_nil_iff_forall_not_mem.mpr fun r hr => ?_
  obtain ⟨hmem, hcount⟩ := mem_missingRecords.mp hr
  obtain ⟨hnormalized, hid⟩ := mem_recordsFor.mp hmem
  exact h r hnormalized a (hid ▸ ha) hcount

theorem allPresent_backChargeTable :
    AllPresent normalized (backChargeTable dryRun inputRecords normalized now accounts).2 := by
  intro r hr b hb hcount
  rw [accountById_backChargeTable] at hb
  obtain ⟨a, -, rfl⟩ := Option.map_eq_some_iff.mp hb
  have hnone := missingRecords_backChargeAccount now (recordsFor r.accountId normalized) a
  exact List.eq_nil_iff_forall_not_mem.mp hnone r
    (mem_missingRecords.mpr ⟨mem_recordsFor.mpr ⟨hr, rfl⟩, hcount⟩)

theorem backChargeTable_of_allPresent (h : AllPresent normalized accounts) :
    (backChargeTable dryRun inputRecords normalized now accounts).2 = accounts :=
  backChargeAccounts_of_present fun _ hg _ ha => h.missingRecords hg ha

variable (dryRun inputRecords now) in
theorem addedCharges_of_allPresent (h : AllPresent normalized accounts) :
    (backChargeTable dryRun inputRecords normalized now accounts).1.addedCharges = 0 := by
  rw [addedCharges_backChargeTable, List.sum_eq_zero_iff_forall_eq_nat]
  intro n hn
  obtain ⟨g, hg, hmissing⟩ := List.mem_filterMap.mp hn
  obtain ⟨a, ha, rfl⟩ := Option.map_eq_some_iff.mp hmissing
  rw [h.missingRecords hg ha, List.length_nil]

/-- Where nothing was added, everything was there. -/
theorem allPresent_of_addedCharges
    (h : (backChargeTable dryRun inputRecords normalized now accounts).1.addedCharges = 0) :
    AllPresent normalized accounts := by
  intro r hr a ha hcount
  rw [addedCharges_backChargeTable, List.sum_eq_zero_iff_forall_eq_nat] at h
  have hknown : r ∈ knownRecords accounts normalized :=
    List.mem_filter.mpr ⟨hr, by rw [ha, Option.isSome_some]⟩
  obtain ⟨records, hg⟩ := (Dict.contains_iff _ _).mp
    ((Grouping.contains_group (·.accountId) _ _).mpr ⟨r, hknown, rfl⟩)
  have hlength := h _ (List.mem_filterMap.mpr ⟨(r.accountId, records), hg, by
    rw [missingOf, ha, Option.map_some]⟩)
  rw [eq_recordsFor_of_mem hg ha, List.length_eq_zero_iff] at hlength
  exact List.eq_nil_iff_forall_not_mem.mp hlength r
    (mem_missingRecords.mpr ⟨mem_recordsFor.mpr ⟨hr, rfl⟩, hcount⟩)

theorem used_of_mem_changes {change : BackChange} (h : change ∈
      (backChargeTable dryRun inputRecords normalized now accounts).1.changes) :
    ∃ b, accountById change.accountId
        (backChargeTable dryRun inputRecords normalized now accounts).2 = some b ∧
      b.quota.used = b.quota.reconciledQuotaUsed := by
  obtain ⟨result, hresult, hchange⟩ := List.mem_filterMap.mp h
  rw [backChargeAccounts_fst _ _ (recordsByAccount accounts normalized).nodup] at hresult
  obtain ⟨g, hg, hmap⟩ := List.mem_filterMap.mp hresult
  obtain ⟨a, ha, rfl⟩ := Option.map_eq_some_iff.mp hmap
  obtain ⟨hid, hused⟩ := change_backChargeAccount now g.2 a hchange
  have hgid : a.id = g.1 := by simpa using List.find?_some ha
  rw [eq_recordsFor_of_mem hg ha] at hused
  refine ⟨_, ?_, hused⟩
  rw [hid, hgid, accountById_backChargeTable, ha, Option.map_some]

end Closure

/-! ### Exactly once -/

/-- What the report and the table should be, whatever times the runs are made at. -/
structure ChargedOnce (b : Backend) (records : List SuccessRecord) (accounts : Table) : Prop where
  /-- A charge id that is in a ledger of its account is not added to either. -/
  kept : ∀ now times accountId a a' chargeId,
    accountById accountId accounts = some a →
    accountById accountId (backChargeRuns b records (now :: times) accounts) = some a' →
    0 < a.quota.count chargeId ∨ 0 < a.studio.count chargeId →
    a'.quota.count chargeId = a.quota.count chargeId ∧
      a'.studio.count chargeId = a.studio.count chargeId
  /-- One that is in none is added once, to the ledger that its prefix names. -/
  added : ∀ now times, ∀ r ∈ normalizeRecords [] records, ∀ a a',
    accountById r.accountId accounts = some a →
    accountById r.accountId (backChargeRuns b records (now :: times) accounts) = some a' →
    a.quota.count r.chargeId = 0 → a.studio.count r.chargeId = 0 →
    a'.quota.count r.chargeId = (if isStudioCharge r.chargeId then 0 else 1) ∧
      a'.studio.count r.chargeId = (if isStudioCharge r.chargeId then 1 else 0)
  used : ∀ times now,
    let accounts := backChargeRuns b records times accounts
    let result := reconcileSuccessQuotaCharges b false records now accounts
    ∀ change ∈ result.1.changes, ∃ a, accountById change.accountId result.2 = some a ∧
      a.quota.used = a.quota.reconciledQuotaUsed
  again : ∀ now times later,
    let accounts := backChargeRuns b records (now :: times) accounts
    let result := reconcileSuccessQuotaCharges b false records later accounts
    result.1.addedCharges = 0 ∧ result.2 = accounts
  dryRun : ∀ times now later,
    let accounts := backChargeRuns b records times accounts
    let result := reconcileSuccessQuotaCharges b true records now accounts
    result.2 = accounts ∧ result.1.addedCharges =
      (reconcileSuccessQuotaCharges b false records later accounts).1.addedCharges

section Runs

variable (b : Backend) (records : List SuccessRecord) (accounts : Table)

theorem addedCharges_reconcile (dryRun : Bool) (now : String) :
    (reconcileSuccessQuotaCharges b dryRun records now accounts).1.addedCharges =
      ((recordsByAccount accounts (normalizeRecords [] records)).items.filterMap
        (missingOf accounts)).sum := by
  rw [← addedCharges_backChargeTable dryRun records.length now]
  cases b <;> rfl

theorem changes_reconcile (dryRun : Bool) (now : String) :
    (reconcileSuccessQuotaCharges b dryRun records now accounts).1.changes =
      (backChargeTable dryRun records.length (normalizeRecords [] records) now accounts).1.changes := by
  cases b <;> rfl

theorem reconcile_dryRun (now : String) :
    (reconcileSuccessQuotaCharges b true records now accounts).2 = accounts := by
  cases b <;> rfl

/-- On both backends a run leaves the table that the closure has changed. -/
theorem reconcile_table (now : String) :
    (reconcileSuccessQuotaCharges b false records now accounts).2 =
      (backChargeTable false records.length (normalizeRecords [] records) now accounts).2 := by
  cases b with
  | postgres => rfl
  | jsonFile =>
    simp only [reconcileSuccessQuotaCharges, Bool.false_or]
    split
    · rename_i hnone
      -- Nothing was added, so the closure changed nothing that would have to be written.
      have hpresent := allPresent_of_addedCharges (beq_iff_eq.mp hnone)
      exact (backChargeTable_of_allPresent hpresent).symm
    · rfl

/-- The runs after the first find everything there. -/
theorem backChargeRuns_cons (now : String) (times : List String) :
    backChargeRuns b records (now :: times) accounts =
      (backChargeTable false records.length (normalizeRecords [] records) now accounts).2 := by
  rw [backChargeRuns, List.foldl_cons, reconcile_table]
  induction times with
  | nil => rfl
  | cons later times ih =>
    rw [List.foldl_cons, reconcile_table,
      backChargeTable_of_allPresent allPresent_backChargeTable]
    exact ih

variable {b records accounts}

/-- What a first run leaves of the account with this id. -/
theorem count_of_runs {now : String} {times : List String} {accountId : String} {a a' : Account}
    (ha : accountById accountId accounts = some a)
    (ha' : accountById accountId (backChargeRuns b records (now :: times) accounts) = some a')
    (chargeId : ChargeId) :
    a'.quota.count chargeId = a.quota.count chargeId +
        (missingRecords a.quota (recordsFor accountId (normalizeRecords [] records))).countP
          (fun r => r.chargeId = chargeId) ∧
      a'.studio.count chargeId = a.studio.count chargeId := by
  rw [backChargeRuns_cons, accountById_backChargeTable, ha, Option.map_some,
    Option.some.injEq] at ha'
  subst ha'
  exact ⟨count_backChargeAccount now _ a chargeId, by rw [backChargeAccount_studio]⟩

variable (b records) in
theorem accountById_runs {accountId : String} {a : Account}
    (ha : accountById accountId accounts = some a) (now : String) (times : List String) :
    ∃ a', accountById accountId (backChargeRuns b records (now :: times) accounts) = some a' := by
  rw [backChargeRuns_cons, accountById_backChargeTable, ha]
  exact ⟨_, rfl⟩

/-- A record that is missing is missing once. -/
theorem countP_missing_of_mem {l : Ledger} {r : NormalizedRecord}
    (hr : r ∈ normalizeRecords [] records) (hcount : l.count r.chargeId = 0) :
    (missingRecords l (recordsFor r.accountId (normalizeRecords [] records))).countP
      (fun other => other.chargeId = r.chargeId) = 1 := by
  have hsub : (missingRecords l (recordsFor r.accountId (normalizeRecords [] records))).Sublist
      (normalizeRecords [] records) := List.filter_sublist.trans List.filter_sublist
  have hnodup := (hsub.map (·.chargeId)).nodup nodup_normalizeRecords
  have hmem := List.mem_map_of_mem (f := (·.chargeId))
    (mem_missingRecords.mpr ⟨mem_recordsFor.mpr ⟨hr, rfl⟩, hcount⟩)
  have hone := List.count_eq_one_of_mem hnodup hmem
  rw [List.count, List.countP_map] at hone
  rw [← hone]
  exact List.countP_congr fun other _ => by simp [Subtype.ext_iff]

/-- Successes are charged exactly once if and only if every record that its account's default
ledger lacks is one for that ledger, and is not in the other one. -/
theorem charged_once_iff (b : Backend) (records : List SuccessRecord) (accounts : Table) :
    ChargedOnce b records accounts ↔
      ∀ r ∈ normalizeRecords [] records, ∀ a, accountById r.accountId accounts = some a →
        a.quota.count r.chargeId = 0 →
        isStudioCharge r.chargeId = false ∧ a.studio.count r.chargeId = 0 := by
  constructor
  · intro h r hr a ha hquota
    obtain ⟨a', ha'⟩ := accountById_runs b records ha "" []
    obtain ⟨hadded, -⟩ := count_of_runs ha ha' r.chargeId
    rw [hquota, countP_missing_of_mem hr hquota] at hadded
    have hstudio : a.studio.count r.chargeId = 0 := by
      by_contra hne
      have hkept := (h.kept "" [] _ a a' r.chargeId ha ha' (.inr (Nat.pos_of_ne_zero hne))).1
      omega
    refine ⟨?_, hstudio⟩
    have hnamed := (h.added "" [] r hr a a' ha ha' hquota hstudio).1
    rw [hadded] at hnamed
    by_contra hne
    rw [if_pos (Bool.not_eq_false _ ▸ hne)] at hnamed
    omega
  · intro h
    refine ⟨?_, ?_, ?_, ?_, ?_⟩
    · intro now times accountId a a' chargeId ha ha' hthere
      obtain ⟨hquota, hstudio⟩ := count_of_runs ha ha' chargeId
      have hnone : (missingRecords a.quota
          (recordsFor accountId (normalizeRecords [] records))).countP
          (fun r => r.chargeId = chargeId) = 0 := by
        rw [List.countP_eq_zero]
        intro r hr heq
        obtain ⟨hmem, hcount⟩ := mem_missingRecords.mp hr
        obtain ⟨hnormalized, rfl⟩ := mem_recordsFor.mp hmem
        obtain rfl := of_decide_eq_true heq
        have hstudio := (h r hnormalized a ha hcount).2
        omega
      exact ⟨by omega, hstudio⟩
    · intro now times r hr a a' ha ha' hquota hstudio
      obtain ⟨hadded, hkept⟩ := count_of_runs ha ha' r.chargeId
      rw [hquota, countP_missing_of_mem hr hquota] at hadded
      rw [(h r hr a ha hquota).1]
      exact ⟨hadded, hkept.trans hstudio⟩
    · intro times now accounts result change hchange
      have hused := used_of_mem_changes (changes_reconcile b records accounts false now ▸ hchange)
      rwa [← reconcile_table b] at hused
    · intro now times later accounts' result
      have hpresent : AllPresent (normalizeRecords [] records) accounts' := by
        simp only [accounts', backChargeRuns_cons]
        exact allPresent_backChargeTable
      have hadded := addedCharges_of_allPresent false records.length later hpresent
      rw [addedCharges_backChargeTable, ← addedCharges_reconcile b] at hadded
      exact ⟨hadded, (reconcile_table b records accounts' later).trans
        (backChargeTable_of_allPresent hpresent)⟩
    · intro times now later accounts result
      exact ⟨reconcile_dryRun b records accounts now,
        (addedCharges_reconcile b records accounts true now).trans
          (addedCharges_reconcile b records accounts false later).symm⟩

end Runs

/-! ### A generation that is charged twice -/

section Sample

/-- A Qianwen account whose AI Studio ledger has the charge of a generation that ended well. -/
def studioSettled : Account :=
  { sampleAccount with
    platform := "qianwen"
    studio :=
      { used := 10, base := 0, initialized := true
        charges := [{ chargeId := ⟨"studio:t:5f", by decide⟩, taskId := "t", units := 10
                      status := .settled }] } }

/-- The generation is found missing from the default ledger, and is charged there as well. -/
theorem studio_success_charged_again :
    ¬ ChargedOnce .jsonFile [⟨"t", "a", "studio:t:5f", "2025-01-01T08:00:00Z"⟩] [studioSettled] := by
  intro h
  have hkept := h.kept "now" [] "a" studioSettled _ ⟨"studio:t:5f", by decide⟩
    (by decide) rfl (.inr (by decide))
  exact absurd hkept.1 (by decide)

end Sample

end FetchTask.Accounts
