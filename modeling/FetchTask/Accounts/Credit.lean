import FetchTask.Accounts.Ledger

/-!
The synced AI Studio credit.

A synchronization writes down the credit that is available and what had been
used before it. From then on `_studio_synced_quota_remaining` takes off what the
ledger has grown by since, and a claim needs that much. The difference says what
the new charges use as long as the older part of the ledger does not shrink
below what had been used: the law follows the two parts, the charges claimed
since and the rest, through every sequence of calls of one day.
-/

namespace FetchTask.Accounts

open Runs

/-! ### The credit that is left -/

/-- `_studio_synced_quota_remaining`. -/
def studioSyncedQuotaRemaining (today : String) (a : Account) : Option Int :=
  if a.creditSyncDate = today then
    let consumedSinceSync := max 0 (a.studio.reconciledQuotaUsed - max 0 a.creditUsedAtSync)
    some (max 0 (max 0 a.creditAvailableAtSync - consumedSinceSync))
  else none

def isStudioQuota (platform : String) (request : ClaimRequest) : Bool :=
  platform == "qianwen" && request.quotaBucket == studioQuotaBucket

/-- `quota_available` of `_select_account`. -/
def quotaAvailable (studioQuota : Bool) (quotaCost : Int) (today : String) (a : Account) : Bool :=
  match if studioQuota then studioSyncedQuotaRemaining today a else none with
  | some remaining => quotaCost ≤ remaining
  | none =>
    let quotaLimit := if studioQuota then a.studioQuotaLimit.getD defaultStudioQuotaLimit
      else a.quotaLimit
    let quotaUsed := if studioQuota then a.studio.used else a.quota.used
    quotaLimit = 0 || quotaUsed + quotaCost ≤ quotaLimit

/-- The conditions of `_select_account` on what an account of the model has. -/
def selectable (platform : String) (request : ClaimRequest) (today : String) (a : Account) : Bool :=
  let studioQuota := isStudioQuota platform request
  let exhaustedDate := if studioQuota then a.studioQuotaExhaustedDate else a.quotaExhaustedDate
  textOr a.platform defaultPlatform == platform && a.currentTaskId == "" &&
    exhaustedDate != today &&
    quotaAvailable studioQuota (max 1 (orDefault request.quotaCost 1)) today a

/-- `picked` stands for the order of the accounts and for the conditions on other data. -/
def selectAccount (u : Chars) (request : ClaimRequest) (today : String) (picked : Option String)
    (accounts : Table) : Option String :=
  match normalizePlatform u request.platform with
  | .error _ => none
  | .ok platform => picked.filter fun accountId =>
    (accounts.find? (·.id == accountId)).any (selectable platform request today)

/-! ### A day of an account -/

/-- What is done to accounts between two synchronizations on one day. -/
inductive Action
  | claim (request : ClaimRequest) (picked : Option String) (token now : String)
  | refund (accountId refundId now : String)
  | settle (accountId chargeId now : String)
  | exhaust (accountId chargeId now : String)
  | exhaustTimedOut (accountId chargeId now : String)
  | reset (accountId now : String)
  | resetDaily (now : String)
  | clearCurrentTask (accountId taskId now : String)

section Day

variable (u : Chars) (today : String)

/-- The result of a claim, and the table after it. -/
def selectAndClaim (request : ClaimRequest) (picked : Option String) (token now : String)
    (accounts : Table) : Except String (Option Claimed) × Table :=
  claimAccountForWorker u request (selectAccount u request today picked accounts) token now accounts

def Action.apply : Action → Table → Table
  | .claim request picked token now, accounts =>
    (selectAndClaim u today request picked token now accounts).2
  | .refund accountId refundId now, accounts => (refundAccountQuota accountId refundId now accounts).2
  | .settle accountId chargeId now, accounts => (settleAccountQuota accountId chargeId now accounts).2
  | .exhaust accountId chargeId now, accounts =>
    (exhaustAccountQuota accountId chargeId now today accounts).2
  | .exhaustTimedOut accountId chargeId now, accounts =>
    (exhaustTimedOutAccount accountId chargeId now today accounts).2
  | .reset accountId now, accounts => (resetAccountQuota u accountId now accounts).2
  | .resetDaily now, accounts => (resetDailyAccountQuotasIfNeeded now today accounts).2
  | .clearCurrentTask accountId taskId now, accounts =>
    clearAccountCurrentTask accountId taskId now accounts

/-- The id of the charge that an action claims on the account. -/
def Action.claims (accountId : String) : Action → Table → List String
  | .claim request picked token now, accounts =>
    match (selectAndClaim u today request picked token now accounts).1 with
    | .ok (some claimed) => if claimed.accountId = accountId then [claimed.quotaChargeId] else []
    | _ => []
  | _, _ => []

/-- Whether an action empties the ledgers of the account. -/
def Action.resets (accountId : String) : Action → Account → Bool
  | .reset id _, _ => u.lower (u.strip id) == accountId
  | .resetDaily _, a => a.quotaResetDate != today
  | _, _ => false

/-- The units of the charges that count against the synced credit. -/
def countedUnits (claimed : List String) (charges : List Charge) : Int :=
  activeUnits (charges.filter (·.chargeId.val ∈ claimed))

/-- The base, and the units of the other charges. -/
def Ledger.olderUnits (claimed : List String) (l : Ledger) : Int :=
  max 0 l.base + activeUnits (l.charges.filter (·.chargeId.val ∉ claimed))

/-- The table, with what has happened to one account since its synchronization. -/
structure Watch where
  accounts : Table
  /-- The pending charge of the synchronization and the charges claimed after it. -/
  claimed : List String
  /-- The units of such charges that were charged or settled when a reset removed them. -/
  removed : Int

def Watch.account (accountId : String) (s : Watch) : Option Account :=
  s.accounts.find? (·.id == accountId)

/-- The units of these charges that are charged or settled. -/
def Watch.spent (accountId : String) (s : Watch) : Int :=
  s.removed + (s.account accountId).elim 0 fun a => countedUnits s.claimed a.studio.charges

def Watch.step (accountId : String) (action : Action) (s : Watch) : Watch where
  accounts := action.apply u today s.accounts
  claimed := s.claimed ++ action.claims u today accountId s.accounts
  removed := s.removed + (s.account accountId).elim 0 fun a =>
    if action.resets u today accountId a then countedUnits s.claimed a.studio.charges else 0

/-- The state after a synchronization. -/
def Watch.sync (accountId : String) (totalAmount signInAmount : Int) (pendingChargeId now : String)
    (accounts : Table) : Watch where
  accounts := (syncQianwenAiStudioCredit u accountId totalAmount signInAmount pendingChargeId now
    today accounts).2
  claimed := [pendingChargeId]
  removed := 0

end Day

/-! ### When the credit covers what is claimed -/

/-- What a refund of this charge gives back. -/
def openUnits (charges : List Charge) (chargeId : String) : Int :=
  (charges.find? (Charge.isOpen chargeId)).elim 0 Charge.weight

/-- What a timed-out exhaustion with this charge adds. -/
def revivedUnits (charges : List Charge) (chargeId : String) : Int :=
  match charges.find? (·.chargeId.val == chargeId) with
  | some c => if c.isActive then 0 else c.weight
  | none => 1

/-- The synchronization finds enough credit for the pending charge, and the charge is open:
it sets nothing aside for one that is settled already. -/
def PendingCovered (totalAmount : Int) (pendingChargeId : String) (a : Account) : Prop :=
  countedUnits [pendingChargeId] a.studio.charges = pendingUnits a.studio.charges pendingChargeId ∧
    pendingUnits a.studio.charges pendingChargeId ≤ max 0 totalAmount

section Covered

variable (u : Chars) (today : String)

/-- An action keeps the older part of the ledger at what the synchronization found, and
brings back no charge that the credit left does not cover. -/
def Action.Covers (accountId : String) (claimed : List String) (a : Account) (action : Action) : Prop :=
  match action with
  -- The drawn token is new.
  | .claim request _ token _ => ∀ studioQuota, ∀ c ∈ a.studio.charges,
      c.chargeId = newChargeId studioQuota request.taskId token → c.chargeId.val ∈ claimed
  | .refund id refundId _ => id = accountId → refundId ∉ claimed →
      a.creditUsedAtSync ≤ a.studio.olderUnits claimed - openUnits a.studio.charges refundId
  | .exhaustTimedOut id chargeId _ => id = accountId → chargeId ∈ claimed →
      ∀ remaining ∈ studioSyncedQuotaRemaining today a,
        revivedUnits a.studio.charges chargeId ≤ remaining
  | .reset .. | .resetDaily _ => action.resets u today accountId a = true →
      a.creditUsedAtSync = 0 ∧ countedUnits claimed a.studio.charges = 0
  | _ => True

instance Action.Covers.decidable (accountId : String) (claimed : List String) (a : Account)
    (action : Action) : Decidable (action.Covers u today accountId claimed a) := by
  unfold Action.Covers
  cases action <;> infer_instance

/-- An action meets its condition on the account that is watched. -/
def Action.Covered (accountId : String) (action : Action) (s : Watch) : Prop :=
  ∀ a ∈ s.account accountId, action.Covers u today accountId s.claimed a

instance Action.Covered.decidable (accountId : String) (action : Action) (s : Watch) :
    Decidable (action.Covered u today accountId s) :=
  inferInstanceAs (Decidable (∀ a ∈ s.account accountId, _))

end Covered

/-! ### The two parts of a ledger -/

section Parts

/-- What a charge adds to the total. -/
def Charge.activeWeight (c : Charge) : Int := if c.isActive then c.weight else 0

variable {claimed : List String} {charges : List Charge} {l : Ledger} {chargeId : String}

@[simp] theorem activeUnits_nil : activeUnits [] = 0 := rfl

@[simp] theorem activeUnits_append (cs ds : List Charge) :
    activeUnits (cs ++ ds) = activeUnits cs + activeUnits ds := by
  simp [activeUnits]

theorem activeUnits_filter_add (p : Charge → Bool) (cs : List Charge) :
    activeUnits (cs.filter p) + activeUnits (cs.filter fun c => !p c) = activeUnits cs := by
  induction cs with
  | nil => rfl
  | cons c cs ih =>
    rw [activeUnits_cons, ← ih]
    cases h : p c with
    | true =>
      rw [List.filter_cons_of_pos h, List.filter_cons_of_neg (by simp [h]), activeUnits_cons]
      omega
    | false =>
      rw [List.filter_cons_of_neg (by simp [h]), List.filter_cons_of_pos (by simp [h]),
        activeUnits_cons]
      omega

/-- The total is the older part and what counts against the credit. -/
theorem reconciledQuotaUsed_eq (claimed : List String) (l : Ledger) :
    l.reconciledQuotaUsed = l.olderUnits claimed + countedUnits claimed l.charges := by
  have h := activeUnits_filter_add (fun c => decide (c.chargeId.val ∈ claimed)) l.charges
  have hnot : (fun c : Charge => !decide (c.chargeId.val ∈ claimed)) =
      fun c => decide (c.chargeId.val ∉ claimed) := by
    funext c
    exact (decide_not (p := c.chargeId.val ∈ claimed)).symm
  rw [hnot] at h
  unfold Ledger.reconciledQuotaUsed Ledger.olderUnits countedUnits
  omega

/-- Changing the first charge that `g` changes moves the part it belongs to by the
difference of the two weights. -/
theorem activeUnits_filter_replaceF {g : Charge → Option Charge} {p : Charge → Bool}
    (hp : ∀ c c', g c = some c' → p c' = p c) (cs : List Charge) :
    activeUnits ((cs.replaceF g).filter p) = activeUnits (cs.filter p) +
      (cs.findSome? fun c => (g c).map fun c' =>
        if p c then c'.activeWeight - c.activeWeight else 0).getD 0 := by
  induction cs with
  | nil => rfl
  | cons c cs ih =>
    cases hg : g c with
    | none =>
      simp only [List.replaceF, hg, List.findSome?_cons, Option.map_none]
      cases hc : p c with
      | false =>
        have hneg : ¬ p c = true := by simp [hc]
        rw [List.filter_cons_of_neg hneg, List.filter_cons_of_neg hneg]
        exact ih
      | true =>
        rw [List.filter_cons_of_pos hc, List.filter_cons_of_pos hc, activeUnits_cons,
          activeUnits_cons, ih]
        omega
    | some c' =>
      have hsame := hp c c' hg
      simp only [List.replaceF, hg, List.findSome?_cons, Option.map_some, Option.getD_some]
      cases hc : p c with
      | false =>
        have hneg : ¬ p c = true := by simp [hc]
        have hneg' : ¬ p c' = true := by simp [hsame, hc]
        rw [List.filter_cons_of_neg hneg, List.filter_cons_of_neg hneg']
        simp
      | true =>
        rw [hc] at hsame
        rw [List.filter_cons_of_pos hc, List.filter_cons_of_pos hsame, activeUnits_cons,
          activeUnits_cons, if_pos rfl]
        unfold Charge.activeWeight
        omega

/-- What a change does to either part, for one that keeps the ids and changes only charges
with this id. -/
theorem parts_replaceF (claimed : List String) {g : Charge → Option Charge}
    (hg : ∀ c c', g c = some c' → c.chargeId.val = chargeId ∧ c'.chargeId = c.chargeId)
    (charges : List Charge) :
    let moved := (charges.findSome? fun c => (g c).map fun c' =>
      c'.activeWeight - c.activeWeight).getD 0
    countedUnits claimed (charges.replaceF g) =
        countedUnits claimed charges + (if chargeId ∈ claimed then moved else 0) ∧
      activeUnits ((charges.replaceF g).filter (·.chargeId.val ∉ claimed)) =
        activeUnits (charges.filter (·.chargeId.val ∉ claimed)) +
          (if chargeId ∈ claimed then 0 else moved) := by
  have hmoved : ∀ p : Charge → Bool, ∀ b : Bool, (∀ c c', g c = some c' → p c = b) →
      (charges.findSome? fun c => (g c).map fun c' =>
        if p c then c'.activeWeight - c.activeWeight else 0).getD 0 =
      if b then (charges.findSome? fun c => (g c).map fun c' =>
        c'.activeWeight - c.activeWeight).getD 0 else 0 := by
    intro p b hp
    induction charges with
    | nil => simp
    | cons c cs ih =>
      simp only [List.findSome?_cons]
      cases hc : g c with
      | none => simpa using ih
      | some c' =>
        have hb := hp c c' hc
        simp [hb]
  intro moved
  constructor
  · rw [countedUnits, activeUnits_filter_replaceF fun c c' h => by rw [(hg c c' h).2],
      hmoved _ (decide (chargeId ∈ claimed)) fun c c' h => by rw [(hg c c' h).1]]
    simp [countedUnits, moved]
  · rw [activeUnits_filter_replaceF fun c c' h => by rw [(hg c c' h).2],
      hmoved _ (decide (chargeId ∉ claimed)) fun c c' h => by rw [(hg c c' h).1]]
    simp [moved]

theorem parts_append (claimed : List String) (cs : List Charge) (c : Charge) :
    countedUnits claimed (cs ++ [c]) =
        countedUnits claimed cs + (if c.chargeId.val ∈ claimed then c.activeWeight else 0) ∧
      activeUnits ((cs ++ [c]).filter (·.chargeId.val ∉ claimed)) =
        activeUnits (cs.filter (·.chargeId.val ∉ claimed)) +
          (if c.chargeId.val ∈ claimed then 0 else c.activeWeight) := by
  have hone : activeUnits [c] = c.activeWeight := by
    rw [activeUnits_cons, activeUnits_nil, add_zero, Charge.activeWeight]
  unfold countedUnits
  rw [List.filter_append, List.filter_append, activeUnits_append, activeUnits_append]
  by_cases hmem : c.chargeId.val ∈ claimed
  · simp [hmem, hone]
  · simp [hmem, hone]

theorem isOpen_iff {c : Charge} :
    c.isOpen chargeId = true ↔ c.chargeId.val = chargeId ∧ c.status = .charged := by
  simp [Charge.isOpen]

theorem activeWeight_of_isOpen {c : Charge} (h : c.isOpen chargeId = true) :
    c.activeWeight = c.weight := by
  have hstatus := (isOpen_iff.mp h).2
  simp [Charge.activeWeight, Charge.isActive, hstatus]

/-- Both parts after the first open charge with this id has become `f` of it: the one it
belongs to loses `lost`. -/
theorem parts_changeOpen (claimed : List String) {f : Charge → Charge} (hid : ∀ c, (f c).chargeId = c.chargeId) {lost : Int}
    (hlost : ∀ c ∈ l.charges.find? (Charge.isOpen chargeId), c.weight - (f c).activeWeight = lost)
    (hnone : l.charges.find? (Charge.isOpen chargeId) = none → lost = 0) :
    countedUnits claimed (changeOpen chargeId f l.charges) =
        countedUnits claimed l.charges - (if chargeId ∈ claimed then lost else 0) ∧
      activeUnits ((changeOpen chargeId f l.charges).filter (·.chargeId.val ∉ claimed)) =
        activeUnits (l.charges.filter (·.chargeId.val ∉ claimed)) -
          (if chargeId ∈ claimed then 0 else lost) := by
  have hmoved : (l.charges.findSome? fun c => (if c.isOpen chargeId then some (f c) else none).map
      fun c' => c'.activeWeight - c.activeWeight).getD 0 = -lost := by
    cases hfind : l.charges.find? (Charge.isOpen chargeId) with
    | none =>
      rw [hnone hfind, List.findSome?_eq_none_iff.mpr]
      · rfl
      · intro c hc
        have hopen := List.find?_eq_none.mp hfind c hc
        rw [if_neg hopen, Option.map_none]
    | some c =>
      have hsome : (l.charges.findSome? fun c =>
          (if c.isOpen chargeId then some (f c) else none).map fun c' =>
            c'.activeWeight - c.activeWeight) = some ((f c).activeWeight - c.activeWeight) := by
        obtain ⟨hopen, before, after, hsplit, hbefore⟩ := List.find?_eq_some_iff_append.mp hfind
        rw [List.findSome?_eq_some_iff]
        refine ⟨before, c, after, hsplit, by rw [if_pos hopen, Option.map_some], ?_⟩
        intro d hd
        have hclosed : ¬ d.isOpen chargeId = true := by simpa using hbefore d hd
        rw [if_neg hclosed, Option.map_none]
      have hweight := activeWeight_of_isOpen (List.find?_some hfind)
      have hdiff := hlost c hfind
      rw [hsome, Option.getD_some]
      omega
  have hg : ∀ c c', (if c.isOpen chargeId then some (f c) else none) = some c' →
      c.chargeId.val = chargeId ∧ c'.chargeId = c.chargeId := by
    intro c c' h
    split at h
    · rename_i hopen
      cases h
      exact ⟨(isOpen_iff.mp hopen).1, hid c⟩
    · cases h
  obtain ⟨hcounted, holder⟩ := parts_replaceF claimed hg l.charges
  rw [hmoved] at hcounted holder
  unfold changeOpen
  constructor
  · rw [hcounted]
    split <;> omega
  · rw [holder]
    split <;> omega

end Parts

/-! ### What each change does to the parts -/

/-- The older part is at least what the synchronization found, and what counts against
the credit fits it. -/
structure Ledger.Within (claimed : List String) (usedAtSync available : Int) (l : Ledger) : Prop where
  older : usedAtSync ≤ l.olderUnits claimed
  counted : countedUnits claimed l.charges ≤ available

section Within

variable {claimed : List String} {usedAtSync available : Int} {l l' : Ledger} {chargeId : String}

theorem initialize_of_initialized (h : l.initialized = true) : l.initialize = l := by
  rw [ Ledger.initialize, if_pos h]

@[simp] theorem initialize_charges (l : Ledger) : l.initialize.charges = l.charges := by
  unfold Ledger.initialize
  split <;> rfl

theorem Ledger.Within.recount (h : l.Within claimed usedAtSync available) :
    l.recount.Within claimed usedAtSync available := ⟨h.older, h.counted⟩

theorem Ledger.Within.reconcile (h : l.Within claimed usedAtSync available) :
    l.reconcile.2.Within claimed usedAtSync available := by
  unfold Ledger.reconcile
  split
  · exact h.recount
  · exact h

theorem openUnits_nonneg (charges : List Charge) (chargeId : String) :
    0 ≤ openUnits charges chargeId := by
  unfold openUnits
  cases charges.find? (Charge.isOpen chargeId) with
  | none => exact le_refl _
  | some c => exact (zero_le_one.trans c.weight_pos)

/-- Giving back an open charge: the part it belongs to loses its units. -/
theorem parts_refund {f : Charge → Charge} (hid : ∀ c, (f c).chargeId = c.chargeId)
    (hstatus : ∀ c, (f c).status = .refunded) (claimed : List String) (l : Ledger)
    (chargeId : String) :
    countedUnits claimed (changeOpen chargeId f l.charges) =
        countedUnits claimed l.charges -
          (if chargeId ∈ claimed then openUnits l.charges chargeId else 0) ∧
      activeUnits ((changeOpen chargeId f l.charges).filter (·.chargeId.val ∉ claimed)) =
        activeUnits (l.charges.filter (·.chargeId.val ∉ claimed)) -
          (if chargeId ∈ claimed then 0 else openUnits l.charges chargeId) := by
  refine parts_changeOpen claimed hid (fun c hc => ?_) fun hnone => by rw [openUnits, hnone]; rfl
  have hfind : l.charges.find? (Charge.isOpen chargeId) = some c := hc
  rw [openUnits, hfind]
  simp [Charge.activeWeight, Charge.isActive, hstatus c]

theorem close_eq_some {f : Charge → Charge} (h : l.close chargeId f = some l') :
    l'.charges = changeOpen chargeId f l.charges ∧ l'.base = l.base ∧
      l'.initialized = l.initialized := by
  unfold Ledger.close at h
  split at h
  · cases h
    exact ⟨rfl, rfl, rfl⟩
  · cases h

theorem Ledger.Within.refund (h : l.Within claimed usedAtSync available) {now : String}
    (hcovered : chargeId ∉ claimed → usedAtSync ≤ l.olderUnits claimed - openUnits l.charges chargeId)
    (hclose : l.close chargeId (Charge.refund now) = some l') :
    l'.Within claimed usedAtSync available := by
  obtain ⟨hcharges, hbase, -⟩ := close_eq_some hclose
  obtain ⟨hcounted, holder⟩ :=
    parts_refund (f := Charge.refund now) (fun c => rfl) (fun c => rfl) claimed l chargeId
  have hopen := openUnits_nonneg l.charges chargeId
  have hlower := h.older
  have hupper := h.counted
  constructor
  · unfold Ledger.olderUnits at hlower hcovered ⊢
    rw [hcharges, hbase, holder]
    split
    · omega
    · rename_i hnot
      have hleft := hcovered hnot
      omega
  · rw [hcharges, hcounted]
    split <;> omega

theorem Ledger.Within.settle (h : l.Within claimed usedAtSync available) {now : String}
    (hclose : l.close chargeId (Charge.settle now) = some l') :
    l'.Within claimed usedAtSync available := by
  obtain ⟨hcharges, hbase, -⟩ := close_eq_some hclose
  have hsame : ∀ c ∈ l.charges.find? (Charge.isOpen chargeId),
      c.weight - (c.settle now).activeWeight = 0 := by
    intro c _
    exact sub_self c.weight
  obtain ⟨hcounted, holder⟩ :=
    parts_changeOpen claimed (f := Charge.settle now) (fun c => rfl) hsame fun _ => rfl
  constructor
  · have hlower := h.older
    unfold Ledger.olderUnits at hlower ⊢
    rwa [hcharges, hbase, holder, ite_self, sub_zero]
  · rw [hcharges, hcounted, ite_self, sub_zero]
    exact h.counted

/-- Watching an id that no other charge has moves nothing between the parts. -/
theorem Ledger.Within.watch (h : l.Within claimed usedAtSync available) {id : String}
    (hfresh : ∀ c ∈ l.charges, c.chargeId.val = id → c.chargeId.val ∈ claimed) :
    l.Within (claimed ++ [id]) usedAtSync available ∧
      countedUnits (claimed ++ [id]) l.charges = countedUnits claimed l.charges := by
  have hin : ∀ c ∈ l.charges, decide (c.chargeId.val ∈ claimed ++ [id]) =
      decide (c.chargeId.val ∈ claimed) := by
    intro c hc
    refine decide_eq_decide.mpr ⟨fun hmem => ?_, fun hmem => List.mem_append_left _ hmem⟩
    rcases List.mem_append.mp hmem with hold | hnew
    · exact hold
    · exact hfresh c hc (List.mem_singleton.mp hnew)
  have hnot : (l.charges.filter fun c => decide (c.chargeId.val ∉ claimed ++ [id])) =
      l.charges.filter fun c => decide (c.chargeId.val ∉ claimed) := by
    refine List.filter_congr fun c hc => ?_
    rw [decide_not, decide_not, hin c hc]
  have hcounted : countedUnits (claimed ++ [id]) l.charges = countedUnits claimed l.charges := by
    unfold countedUnits
    rw [List.filter_congr hin]
  refine ⟨⟨?_, ?_⟩, hcounted⟩
  · unfold Ledger.olderUnits
    rw [hnot]
    exact h.older
  · rw [hcounted]
    exact h.counted

/-- A new charge that the credit left covers counts against it. -/
theorem Ledger.Within.addCharge (h : l.Within claimed usedAtSync available)
    (hinit : l.initialized = true) {c : Charge} (hmem : c.chargeId.val ∈ claimed)
    (hcovered : countedUnits claimed l.charges + c.activeWeight ≤ available) :
    (l.addCharge c).Within claimed usedAtSync available := by
  obtain ⟨hcounted, holder⟩ := parts_append claimed l.charges c
  rw [if_pos hmem] at hcounted holder
  unfold Ledger.addCharge
  rw [initialize_of_initialized hinit]
  constructor
  · show usedAtSync ≤ max 0 l.base + activeUnits ((l.charges ++ [c]).filter _)
    rw [holder, add_zero]
    exact h.older
  · show countedUnits claimed (l.charges ++ [c]) ≤ available
    rw [hcounted]
    exact hcovered

/-- The difference that a change of the first charge with this id makes. -/
theorem findSome?_byId (charges : List Charge) (chargeId : ChargeId) (f : Charge → Charge) :
    (charges.findSome? fun c => (if c.chargeId = chargeId then some (f c) else none).map
      fun c' => c'.activeWeight - c.activeWeight) =
      (charges.find? (·.chargeId.val == chargeId.val)).map fun c =>
        (f c).activeWeight - c.activeWeight := by
  induction charges with
  | nil => rfl
  | cons c cs ih =>
    by_cases hc : c.chargeId = chargeId
    · simp [hc]
    · have hval : (c.chargeId.val == chargeId.val) = false :=
        beq_eq_false_iff_ne.mpr fun h => hc (Subtype.ext h)
      simp only [List.findSome?_cons, List.find?_cons, hc, if_false, Option.map_none, hval]
      exact ih

theorem find?_byId_eq_none {charges : List Charge} {chargeId : ChargeId}
    (h : charges.any (·.chargeId == chargeId) = false) :
    charges.find? (·.chargeId.val == chargeId.val) = none := by
  rw [List.find?_eq_none]
  intro c hc heq
  have hne := List.any_eq_false.mp h c hc
  exact hne (beq_iff_eq.mpr (Subtype.ext (beq_iff_eq.mp heq)))

theorem find?_byId_isSome {charges : List Charge} {chargeId : ChargeId}
    (h : charges.any (·.chargeId == chargeId) = true) :
    ∃ c, charges.find? (·.chargeId.val == chargeId.val) = some c := by
  obtain ⟨c, hc, heq⟩ := List.any_eq_true.mp h
  refine Option.isSome_iff_exists.mp (List.find?_isSome.mpr ⟨c, hc, ?_⟩)
  rw [beq_iff_eq.mp heq]
  exact beq_self_eq_true _

theorem parts_timedOut (claimed : List String) (l : Ledger) (chargeId : ChargeId) (now : String) :
    countedUnits claimed (timedOutCharges l.charges chargeId now) =
        countedUnits claimed l.charges +
          (if chargeId.val ∈ claimed then revivedUnits l.charges chargeId else 0) ∧
      activeUnits ((timedOutCharges l.charges chargeId now).filter (·.chargeId.val ∉ claimed)) =
        activeUnits (l.charges.filter (·.chargeId.val ∉ claimed)) +
          (if chargeId.val ∈ claimed then 0 else revivedUnits l.charges chargeId) := by
  unfold timedOutCharges
  split
  · rename_i hany
    have hg : ∀ c c' : Charge, (if c.chargeId = chargeId then some (c.settleTimedOut now) else none) =
        some c' → c.chargeId.val = chargeId.val ∧ c'.chargeId = c.chargeId := by
      intro c c' h
      split at h
      · rename_i heq
        cases h
        exact ⟨congrArg Subtype.val heq, rfl⟩
      · cases h
    have hparts := parts_replaceF claimed hg l.charges
    obtain ⟨c, hfind⟩ := find?_byId_isSome hany
    have hmoved : (l.charges.findSome? fun c => (if c.chargeId = chargeId then
        some (c.settleTimedOut now) else none).map fun c' => c'.activeWeight - c.activeWeight).getD 0 =
        revivedUnits l.charges chargeId := by
      have hsettled : (c.settleTimedOut now).activeWeight = c.weight := rfl
      rw [findSome?_byId l.charges chargeId (Charge.settleTimedOut now), hfind, Option.map_some,
        Option.getD_some, hsettled]
      simp only [revivedUnits, hfind, Charge.activeWeight]
      split <;> omega
    rw [hmoved] at hparts
    exact hparts
  · rename_i hany
    have hrevived : revivedUnits l.charges chargeId = 1 := by
      rw [revivedUnits, find?_byId_eq_none (by simpa using hany)]
    rw [hrevived]
    exact parts_append claimed l.charges _

/-- An exhaustion for lack of credit gives back at most. -/
theorem countedUnits_insufficient (claimed : List String) (charges : List Charge)
    (chargeId : ChargeId) (now : String) :
    countedUnits claimed (insufficientCharges charges chargeId now) ≤
      countedUnits claimed charges := by
  have hlower : ∀ c : Charge,
      (if c.status = .charged then c.refundInsufficient now else c).activeWeight ≤ c.activeWeight := by
    intro c
    have hpos := c.weight_pos
    split
    · rename_i hstatus
      simp only [Charge.activeWeight, Charge.isActive, Charge.refundInsufficient, hstatus]
      simp
      omega
    · exact le_refl _
  unfold insufficientCharges
  split
  · have hg : ∀ c c' : Charge, (if c.chargeId = chargeId then
        some (if c.status = .charged then c.refundInsufficient now else c) else none) = some c' →
        c.chargeId.val = chargeId.val ∧ c'.chargeId = c.chargeId := by
      intro c c' h
      split at h
      · rename_i heq
        cases h
        refine ⟨congrArg Subtype.val heq, ?_⟩
        split <;> rfl
      · cases h
    obtain ⟨hcounted, -⟩ := parts_replaceF claimed hg charges
    have hmoved : ((charges.find? (·.chargeId.val == chargeId.val)).map fun c =>
        (if c.status = .charged then c.refundInsufficient now else c).activeWeight -
          c.activeWeight).getD 0 ≤ 0 := by
      cases charges.find? (·.chargeId.val == chargeId.val) with
      | none => exact le_refl _
      | some c =>
        have hc := hlower c
        rw [Option.map_some, Option.getD_some]
        omega
    rw [findSome?_byId] at hcounted
    rw [hcounted]
    split <;> omega
  · have happend := (parts_append claimed charges { chargeId, status := .refunded }).1
    have hzero : ({ chargeId, status := .refunded } : Charge).activeWeight = 0 := rfl
    rw [happend, hzero, ite_self, add_zero]

theorem Ledger.Within.timedOut (h : l.Within claimed usedAtSync available) {chargeId : ChargeId}
    (hinit : l.initialized = true) {now : String} {used : Int}
    (hcovered : chargeId.val ∈ claimed →
      countedUnits claimed l.charges + revivedUnits l.charges chargeId ≤ available) :
    ({ l.initialize with charges := timedOutCharges l.initialize.charges chargeId now, used } :
      Ledger).Within claimed usedAtSync available := by
  obtain ⟨hcounted, holder⟩ := parts_timedOut claimed l chargeId now
  have hrevived : 0 ≤ revivedUnits l.charges chargeId := by
    unfold revivedUnits
    split
    · rename_i c _
      have hpos := c.weight_pos
      split <;> omega
    · exact zero_le_one
  have hlower := h.older
  have hupper := h.counted
  rw [initialize_of_initialized hinit]
  constructor
  · show usedAtSync ≤ max 0 l.base + activeUnits _
    unfold Ledger.olderUnits at hlower
    rw [holder]
    split <;> omega
  · rw [hcounted]
    split
    · rename_i hmem
      exact hcovered hmem
    · omega

/-- Filling the ledger up to a limit that holds the snapshot and the credit keeps the older
part: what does not count against the credit takes the rest of the limit. -/
theorem Ledger.Within.fillUp {quotaLimit : Int} (hlimit : usedAtSync + available ≤ quotaLimit)
    (hcounted : countedUnits claimed l.charges ≤ available) :
    (l.fillUp quotaLimit).Within claimed usedAtSync available := by
  have hsplit := activeUnits_filter_add (fun c => decide (c.chargeId.val ∈ claimed)) l.charges
  refine ⟨?_, hcounted⟩
  have hnot : (l.charges.filter fun c => !decide (c.chargeId.val ∈ claimed)) =
      l.charges.filter fun c => decide (c.chargeId.val ∉ claimed) := by
    simp only [decide_not]
  rw [hnot] at hsplit
  show usedAtSync ≤ max 0 (max 0 (quotaLimit - activeUnits l.charges)) +
    activeUnits (l.charges.filter fun c => decide (c.chargeId.val ∉ claimed))
  unfold countedUnits at hcounted
  omega

end Within

/-! ### One account -/

/-- The account on the day of its synchronization: the snapshot is as it was written, and
the ledger keeps within it. -/
structure Account.Synced (today : String) (available : Int) (claimed : List String) (a : Account) :
    Prop where
  qianwen : a.isQianwen = true
  date : a.creditSyncDate = today
  atSync : a.creditAvailableAtSync = available
  available_nonneg : 0 ≤ available
  used_nonneg : 0 ≤ a.creditUsedAtSync
  limit : a.creditUsedAtSync + available ≤ a.studioLimit
  initialized : a.studio.initialized = true
  within : a.studio.Within claimed a.creditUsedAtSync available

section Account

variable {today : String} {available : Int} {claimed : List String} {a : Account}

/-- What the code takes for the credit left is covered. -/
theorem Account.Synced.remaining (h : a.Synced today available claimed) {remaining : Int}
    (hremaining : remaining ∈ studioSyncedQuotaRemaining today a) :
    0 ≤ remaining ∧ countedUnits claimed a.studio.charges + remaining ≤ available := by
  have htotal := reconciledQuotaUsed_eq claimed a.studio
  have hlower := h.within.older
  have hupper := h.within.counted
  have hused := h.used_nonneg
  have havailable := h.available_nonneg
  have hsome : studioSyncedQuotaRemaining today a = some remaining := hremaining
  rw [studioSyncedQuotaRemaining, if_pos h.date, h.atSync] at hsome
  obtain rfl := Option.some.inj hsome
  omega

theorem Account.Synced.remaining_eq_some (h : a.Synced today available claimed) :
    ∃ remaining, studioSyncedQuotaRemaining today a = some remaining :=
  ⟨_, by rw [studioSyncedQuotaRemaining, if_pos h.date]⟩

theorem orDefault_le_max (x : Int) (h : 0 ≤ x) : x ≤ max 1 (orDefault x 1) := by
  unfold orDefault
  split <;> omega

theorem syncCredit_synced (a : Account) (hq : a.isQianwen = true) {totalAmount : Int}
    {pendingChargeId : String} (hcovered : PendingCovered totalAmount pendingChargeId a)
    (signInAmount : Int) (now : String) :
    (syncCredit totalAmount signInAmount pendingChargeId now today a).Synced today
      (max 0 totalAmount) [pendingChargeId] := by
  obtain ⟨hcounted, hpending⟩ := hcovered
  have htotal := reconciledQuotaUsed_eq [pendingChargeId] a.studio.initialize
  have hcharges := initialize_charges a.studio
  have hold := activeUnits_nonneg
    ( a.studio.initialize.charges.filter (·.chargeId.val ∉ [pendingChargeId]))
  have hbefore : max 0 ( a.studio.initialize.reconciledQuotaUsed -
      pendingUnits a.studio.initialize.charges pendingChargeId) =
      a.studio.initialize.olderUnits [pendingChargeId] := by
    rw [htotal, hcharges, hcounted]
    unfold Ledger.olderUnits
    omega
  have hnonneg : 0 ≤ a.studio.initialize.olderUnits [pendingChargeId] := by
    unfold Ledger.olderUnits
    omega
  refine
    { qianwen := hq, date := rfl, atSync := rfl, available_nonneg := le_max_left _ _
      used_nonneg := le_max_left _ _, limit := ?_, initialized := initialize_initialized a.studio
      within := ⟨?_, ?_⟩ }
  · refine orDefault_le_max _ ?_
    show 0 ≤ max 0 (_ - _) + max 0 totalAmount
    omega
  · show max 0 _ ≤ _
    rw [hbefore]
    exact le_refl _
  · show countedUnits _ a.studio.initialize.charges ≤ _
    rw [hcharges, hcounted]
    exact hpending

theorem Account.Synced.chargeAccount (h : a.Synced today available claimed)
    (request : ClaimRequest) (studioQuota : Bool) (token now : String)
    (hfresh : ∀ c ∈ a.studio.charges,
      c.chargeId = newChargeId studioQuota request.taskId token → c.chargeId.val ∈ claimed)
    (hquota : quotaAvailable studioQuota (max 1 (orDefault request.quotaCost 1)) today a = true) :
    (chargeAccount request studioQuota token now a).2.Synced today available
      (claimed ++ [(newChargeId studioQuota request.taskId token).val]) := by
  obtain ⟨hwithin, hcounted⟩ := h.within.watch fun c hc heq => hfresh c hc (Subtype.ext heq)
  cases studioQuota with
  | false => exact { h with within := hwithin }
  | true =>
    refine { h with initialized := ?_, within := hwithin.addCharge h.initialized ?_ ?_ }
    · show ( a.studio.initialize).initialized = true
      exact initialize_initialized a.studio
    · exact List.mem_append_right _ List.mem_cons_self
    · -- The claim was let through because the credit left covers it.
      obtain ⟨remaining, hsome⟩ := h.remaining_eq_some
      have hremaining := (h.remaining hsome).2
      rw [quotaAvailable, if_pos rfl, hsome] at hquota
      have hcost := of_decide_eq_true hquota
      have hweight : ∀ cost : Int, 1 ≤ cost → max 1 (orDefault cost 1) = cost := by
        intro cost hcost
        unfold orDefault
        split <;> omega
      rw [hcounted]
      refine (Int.add_le_add_left (le_of_eq_of_le ?_ hcost) _).trans hremaining
      exact hweight _ (le_max_left _ _)

theorem Account.Synced.refundQuota (h : a.Synced today available claimed) (refundId now : String)
    (hcovered : refundId ∉ claimed →
      a.creditUsedAtSync ≤ a.studio.olderUnits claimed - openUnits a.studio.charges refundId) :
    (refundQuota refundId now a).2.Synced today available claimed := by
  unfold Accounts.refundQuota
  by_cases hstudio : isStudioCharge refundId = true
  · rw [if_pos hstudio, if_pos h.initialized]
    cases hclose : a.studio.close refundId (Charge.refund now) with
    | none => exact h
    | some l =>
      have hinit := (close_eq_some hclose).2.2
      exact { h with initialized := hinit.trans h.initialized, within := h.within.refund hcovered hclose }
  · rw [if_neg hstudio]
    split
    · cases a.quota.close refundId (Charge.refund now) with
      | none => exact h
      | some l => exact { h with }
    · dsimp only
      split
      · exact h
      · exact { h with }

theorem Account.Synced.settleQuota (h : a.Synced today available claimed) (chargeId now : String) :
    (settleQuota chargeId now a).2.Synced today available claimed := by
  unfold Accounts.settleQuota
  split
  · cases hclose : a.studio.close chargeId (Charge.settle now) with
    | none => exact h
    | some l =>
      have hinit := (close_eq_some hclose).2.2
      exact { h with initialized := hinit.trans h.initialized, within := h.within.settle hclose }
  · cases a.quota.close chargeId (Charge.settle now) with
    | none => exact h
    | some l => exact { h with }

theorem Account.Synced.exhaustStudioQuota (h : a.Synced today available claimed)
    (chargeId : ChargeId) (now day : String) :
    (exhaustStudioQuota chargeId now day a).2.Synced today available claimed := by
  have hcounted := countedUnits_insufficient claimed a.studio.initialize.charges chargeId now
  rw [initialize_charges] at hcounted
  refine { h with limit := ?_, initialized := ?_, within := ?_ }
  · refine h.limit.trans (orDefault_le_max _ ?_)
    exact zero_le_one.trans (le_max_left _ _)
  · exact initialize_initialized a.studio
  · refine Ledger.Within.fillUp h.limit ?_
    show countedUnits claimed (insufficientCharges a.studio.initialize.charges chargeId now) ≤ _
    rw [initialize_charges]
    exact hcounted.trans h.within.counted

theorem Account.Synced.exhaustStudioTimedOut (h : a.Synced today available claimed)
    (chargeId : ChargeId) (now day : String)
    (hcovered : chargeId.val ∈ claimed → ∀ remaining ∈ studioSyncedQuotaRemaining today a,
      revivedUnits a.studio.charges chargeId ≤ remaining) :
    (exhaustStudioTimedOut chargeId now day a).2.Synced today available claimed := by
  refine { h with limit := ?_, initialized := ?_, within := h.within.timedOut h.initialized ?_ }
  · refine h.limit.trans (orDefault_le_max _ ?_)
    exact zero_le_one.trans (le_max_left _ _)
  · exact initialize_initialized a.studio
  · intro hmem
    obtain ⟨remaining, hsome⟩ := h.remaining_eq_some
    have hremaining := (h.remaining hsome).2
    have hrevived := hcovered hmem _ hsome
    exact (Int.add_le_add_left hrevived _).trans hremaining

/-- A reset of an account that had used nothing before, when nothing claimed since is
charged or settled, loses nothing. -/
theorem Account.Synced.resetQuota (h : a.Synced today available claimed) (now : String)
    (hused : a.creditUsedAtSync = 0) :
    (resetQuota now a).Synced today available claimed := by
  have hstudio : (Accounts.resetQuota now a).studio = .cleared := by
    show (if a.isQianwen = true then Ledger.cleared else a.studio) = _
    exact if_pos h.qianwen
  refine { h with initialized := ?_, within := ⟨?_, ?_⟩ }
  · rw [hstudio]
    rfl
  · rw [hstudio]
    exact hused.le
  · rw [hstudio]
    exact h.available_nonneg

end Account

/-! ### The table -/

section Table

variable {u : Chars} {today : String} {available : Int} {accountId : String} {s : Watch}

/-- The synchronized account is in the table, within its credit, and nothing that counted
was removed. -/
structure Watch.Sound (today : String) (available : Int) (accountId : String) (s : Watch) : Prop where
  removed : s.removed = 0
  synced : ∃ a, s.account accountId = some a ∧ a.Synced today available s.claimed

theorem Watch.Sound.spent_le (h : s.Sound today available accountId) :
    s.spent accountId ≤ available := by
  obtain ⟨a, ha, hsynced⟩ := h.synced
  rw [Watch.spent, h.removed, ha]
  simpa using hsynced.within.counted

/-- One operation on an account with some id, for the account that is watched. -/
theorem account_mutate {α : Type} {f : Account → α × Account} {a : Account}
    {claimed : List String} (hid : ∀ a, (f a).2.id = a.id) (ha : s.account accountId = some a)
    (hsynced : a.Synced today available claimed) {id : String}
    (hf : id = accountId → (f a).2.Synced today available claimed) :
    ∃ a', (mutateAccount id f s.accounts).2.find? (·.id == accountId) = some a' ∧
      a'.Synced today available claimed := by
  have hfind : s.accounts.find? (·.id == accountId) = some a := ha
  rw [find?_mutateAccount hid, hfind]
  refine ⟨_, rfl, ?_⟩
  split
  · rename_i heq
    exact hf heq.symm
  · exact hsynced

/-- A claim finds no account, or charges one that passes the conditions. -/
theorem selectAndClaim_cases (u : Chars) (today : String) (request : ClaimRequest) (picked : Option String) (token now : String)
    (accounts : Table) :
    (∃ result, selectAndClaim u today request picked token now accounts = (result, accounts) ∧
      ∀ claimed, result ≠ .ok (some claimed)) ∨
    ∃ platform b, accounts.find? (·.id == b.id) = some b ∧
      selectable platform request today b = true ∧
      selectAndClaim u today request picked token now accounts =
        (.ok (some (chargeAccount request (isStudioQuota platform request) token now b).1),
          (mutateAccount b.id (chargeAccount request (isStudioQuota platform request) token now)
            accounts).2) := by
  unfold selectAndClaim claimAccountForWorker selectAccount
  cases normalizePlatform u request.platform with
  | error e => exact .inl ⟨_, rfl, nofun⟩
  | ok platform =>
    dsimp only
    cases hpicked : picked.filter fun id =>
      (accounts.find? (·.id == id)).any (selectable platform request today) with
    | none => exact .inl ⟨_, rfl, nofun⟩
    | some id =>
      have hpasses := (Option.filter_eq_some_iff.mp hpicked).2
      cases hfind : accounts.find? (·.id == id) with
      | none => simp [hfind] at hpasses
      | some b =>
        rw [hfind] at hpasses
        obtain rfl : b.id = id := by simpa using List.find?_some hfind
        refine .inr ⟨platform, b, hfind, hpasses, ?_⟩
        simp only [mutateAccount, hfind]
        rfl

@[simp] theorem chargeAccount_id (request : ClaimRequest) (studioQuota : Bool) (token now : String)
    (a : Account) : (chargeAccount request studioQuota token now a).2.id = a.id := by
  cases studioQuota <;> rfl

@[simp] theorem chargeAccount_accountId (request : ClaimRequest) (studioQuota : Bool)
    (token now : String) (a : Account) :
    (chargeAccount request studioQuota token now a).1.accountId = a.id := by
  cases studioQuota <;> rfl

theorem claim_synced {a : Account} (ha : s.account accountId = some a)
    (hsynced : a.Synced today available s.claimed) {request : ClaimRequest} {picked : Option String}
    {token now : String} (hcovered : (Action.claim request picked token now).Covered u today accountId s) :
    ∃ a', ((Action.claim request picked token now).apply u today s.accounts).find?
        (·.id == accountId) = some a' ∧
      a'.Synced today available
        (s.claimed ++ (Action.claim request picked token now).claims u today accountId s.accounts) := by
  have hfresh := hcovered a ha
  have hfind : s.accounts.find? (·.id == accountId) = some a := ha
  have hid : a.id = accountId := by simpa using List.find?_some hfind
  simp only [Action.apply, Action.claims]
  rcases selectAndClaim_cases u today request picked token now s.accounts with
    ⟨result, heq, hnone⟩ | ⟨platform, b, hb, hselectable, heq⟩
  · rw [heq]
    refine ⟨a, ha, ?_⟩
    split
    · rename_i claimed hclaimed
      exact absurd hclaimed (hnone claimed)
    · rw [List.append_nil]
      exact hsynced
  · rw [heq]
    dsimp only
    rw [find?_mutateAccount (chargeAccount_id request _ token now), hfind, chargeAccount_accountId]
    refine ⟨_, rfl, ?_⟩
    dsimp only
    by_cases hsame : b.id = accountId
    · rw [if_pos hsame.symm, if_pos hsame]
      obtain rfl : b = a := by
        rw [hsame, hfind] at hb
        exact (Option.some.inj hb).symm
      have hquota : quotaAvailable (isStudioQuota platform request)
          (max 1 (orDefault request.quotaCost 1)) today b = true := by
        unfold selectable at hselectable
        exact (Bool.and_eq_true_iff.mp hselectable).2
      exact hsynced.chargeAccount request _ token now (hfresh _) hquota
    · rw [if_neg (Ne.symm hsame), if_neg hsame, List.append_nil]
      exact hsynced

@[simp] theorem refundQuota_id (refundId now : String) (a : Account) :
    (refundQuota refundId now a).2.id = a.id := by
  unfold refundQuota
  dsimp only
  repeat' split
  all_goals rfl

@[simp] theorem settleQuota_id (chargeId now : String) (a : Account) :
    (settleQuota chargeId now a).2.id = a.id := by
  unfold settleQuota
  repeat' split
  all_goals rfl

@[simp] theorem resetDaily_id (now today : String) (a : Account) :
    (resetDaily now today a).2.id = a.id := by
  unfold resetDaily reconcileBoth reconcileStudioQuota
  dsimp only
  repeat' split
  all_goals rfl

theorem reconcile_initialized (l : Ledger) : l.reconcile.2.initialized = l.initialized := by
  unfold Ledger.reconcile
  split <;> rfl

theorem Account.Synced.reconcileBoth {claimed : List String} {a : Account}
    (h : a.Synced today available claimed) (now : String) :
    (reconcileBoth now a).2.Synced today available claimed := by
  have hquota : (reconcileAccount a).2.Synced today available claimed := { h with }
  have hstudio : ∀ b : Account, b.Synced today available claimed →
      (reconcileStudioQuota b).2.Synced today available claimed := by
    intro b hb
    unfold reconcileStudioQuota
    rw [if_pos hb.qianwen]
    exact { hb with
      initialized := (reconcile_initialized b.studio).trans hb.initialized
      within := hb.within.reconcile }
  unfold Accounts.reconcileBoth
  dsimp only
  split
  · exact { hquota with }
  · split
    · exact { hstudio _ hquota with }
    · exact hstudio _ hquota

theorem Account.Synced.resetDaily {claimed : List String} {a : Account}
    (h : a.Synced today available claimed) (now : String)
    (hused : a.quotaResetDate ≠ today → a.creditUsedAtSync = 0) :
    (resetDaily now today a).2.Synced today available claimed := by
  unfold Accounts.resetDaily
  split
  · exact h.reconcileBoth now
  · rename_i hdate
    exact { h.resetQuota now (hused hdate) with }

/-- An action that meets its condition keeps the account within its credit. -/
theorem apply_synced {a : Account} (ha : s.account accountId = some a)
    (hsynced : a.Synced today available s.claimed) (action : Action)
    (hcovered : action.Covered u today accountId s) :
    ∃ a', (action.apply u today s.accounts).find? (·.id == accountId) = some a' ∧
      a'.Synced today available (s.claimed ++ action.claims u today accountId s.accounts) := by
  have hthis := hcovered a ha
  cases action with
  | claim request picked token now => exact claim_synced ha hsynced hcovered
  | refund id refundId now =>
    simp only [Action.claims, List.append_nil, Action.apply, refundAccountQuota]
    split
    · exact ⟨a, ha, hsynced⟩
    · refine account_mutate (refundQuota_id refundId now) ha hsynced fun hid => ?_
      exact hsynced.refundQuota refundId now (hthis hid)
  | settle id chargeId now =>
    simp only [Action.claims, List.append_nil, Action.apply, settleAccountQuota]
    split
    · exact ⟨a, ha, hsynced⟩
    · exact account_mutate (settleQuota_id chargeId now) ha hsynced fun _ =>
        hsynced.settleQuota chargeId now
  | exhaust id chargeId now =>
    simp only [Action.claims, List.append_nil, Action.apply, exhaustAccountQuota]
    split
    · exact ⟨a, ha, hsynced⟩
    · split
      · exact account_mutate (fun _ => rfl) ha hsynced fun _ => hsynced.exhaustStudioQuota _ now today
      · exact account_mutate (fun _ => rfl) ha hsynced fun _ => { hsynced with }
  | exhaustTimedOut id chargeId now =>
    simp only [Action.claims, List.append_nil, Action.apply, exhaustTimedOutAccount]
    split
    · exact ⟨a, ha, hsynced⟩
    · split
      · refine account_mutate (fun _ => rfl) ha hsynced fun hid => ?_
        exact hsynced.exhaustStudioTimedOut _ now today (hthis hid)
      · exact account_mutate (fun _ => rfl) ha hsynced fun _ => { hsynced with }
  | reset id now =>
    simp only [Action.claims, List.append_nil, Action.apply, resetAccountQuota]
    refine account_mutate (fun _ => rfl) ha hsynced fun hid => ?_
    exact hsynced.resetQuota now (hthis (beq_iff_eq.mpr hid)).1
  | resetDaily now =>
    have hfind : s.accounts.find? (·.id == accountId) = some a := ha
    simp only [Action.claims, List.append_nil, Action.apply, resetDailyAccountQuotasIfNeeded]
    refine ⟨(resetDaily now today a).2, ?_, hsynced.resetDaily now fun hdate => ?_⟩
    · rw [List.find?_map, List.find?_map]
      have hsame : ((fun b : Account => b.id == accountId) ∘ fun r : Bool × Account => r.2) ∘
          resetDaily now today = fun b => b.id == accountId := by
        funext b
        simp
      rw [hsame, hfind]
      rfl
    · exact (hthis (by simpa [Action.resets] using hdate)).1
  | clearCurrentTask id taskId now =>
    simp only [Action.claims, List.append_nil, Action.apply, clearAccountCurrentTask]
    split
    · exact ⟨a, ha, hsynced⟩
    · refine account_mutate (fun b => ?_) ha hsynced fun _ => ?_
      · dsimp only
        split <;> rfl
      · dsimp only
        split
        · exact hsynced
        · exact { hsynced with }

theorem step_sound (action : Action) (h : s.Sound today available accountId)
    (hcovered : action.Covered u today accountId s) :
    (s.step u today accountId action).Sound today available accountId := by
  obtain ⟨a, ha, hsynced⟩ := h.synced
  refine ⟨?_, apply_synced ha hsynced action hcovered⟩
  have hthis := hcovered a ha
  show s.removed + (s.account accountId).elim 0 _ = 0
  rw [h.removed, ha, zero_add]
  show (if action.resets u today accountId a = true then _ else _) = _
  split
  · rename_i hresets
    cases action with
    | reset id now => exact (hthis hresets).2
    | resetDaily now => exact (hthis hresets).2
    | _ => cases hresets
  · rfl

theorem sync_sound {accounts : Table} {a : Account} {id : String} (totalAmount signInAmount : Int)
    (pendingChargeId now : String) (hid : u.lower (u.strip id) = accountId)
    (hfind : accounts.find? (·.id == accountId) = some a) (hq : a.isQianwen = true)
    (hcovered : PendingCovered totalAmount pendingChargeId a) :
    (Watch.sync u today id totalAmount signInAmount pendingChargeId now accounts).Sound today
      (max 0 totalAmount) accountId := by
  refine ⟨rfl, ?_⟩
  show ∃ a', (mutateAccount (u.lower (u.strip id)) _ accounts).2.find? _ = some a' ∧ _
  rw [hid, find?_mutateAccount, hfind]
  · refine ⟨_, rfl, ?_⟩
    dsimp only
    rw [if_pos rfl, if_pos hq]
    exact syncCredit_synced a hq hcovered signInAmount now
  · intro b
    split <;> rfl

end Table

/-- From a synchronization that finds credit for its pending charge, the charges that count
against it never use more than was found in any run whose actions meet their condition. -/
theorem synced_credit_respected (u : Chars) (today accountId : String)
    (totalAmount signInAmount : Int) (pendingChargeId now : String) (accounts : Table)
    (a : Account) (actions : List Action)
    (hfind : accounts.find? (·.id == u.lower (u.strip accountId)) = some a)
    (hqianwen : a.isQianwen = true) (hpending : PendingCovered totalAmount pendingChargeId a)
    (hactions : AllSteps (Watch.step u today (u.lower (u.strip accountId)))
      (Action.Covered u today (u.lower (u.strip accountId))) actions
      (Watch.sync u today accountId totalAmount signInAmount pendingChargeId now accounts)) :
    Throughout (Watch.step u today (u.lower (u.strip accountId)))
      (fun s => s.spent (u.lower (u.strip accountId)) ≤ max 0 totalAmount) actions
      (Watch.sync u today accountId totalAmount signInAmount pendingChargeId now accounts) :=
  (throughout_of_allSteps (fun action _ h hcovered => step_sound action h hcovered)
    (sync_sound totalAmount signInAmount pendingChargeId now rfl hfind hqianwen hpending)
    hactions).mono fun _ h => h.spent_le

/-! ### A refund that hides what was used -/

section Sample

/-- An account with one generation of ten units that has not ended. -/
def studioAccount : Account :=
  { sampleAccount with
    platform := "qianwen", studioQuotaLimit := some 60
    studio :=
      { used := 10, base := 0, initialized := true
        charges := [⟨⟨"studio:old:00", by decide⟩, "old", 10, .charged, "", "", "", "", "", ""⟩] } }

def studioClaim (taskId : String) : Action :=
  .claim ⟨"w", taskId, "qianwen", 10, studioQuotaBucket⟩ (some "a") "5f" "now"

/-- Twenty units are available. A new task uses ten; the refund of the older task takes the
total back to the snapshot, and two more tasks are let through. -/
theorem older_refund_hides_use :
    [studioAccount].find? (·.id == "a") = some studioAccount ∧
      studioAccount.isQianwen = true ∧
      ¬ Throughout (Watch.step .ascii "2025-01-01" "a") (fun s => s.spent "a" ≤ 20)
        [studioClaim "t1", .clearCurrentTask "a" "t1" "now", .refund "a" "studio:old:00" "now",
          studioClaim "t2", .clearCurrentTask "a" "t2" "now", studioClaim "t3"]
        (Watch.sync .ascii "2025-01-01" "a" 20 0 "" "now" [studioAccount]) := by
  refine ⟨by decide, by decide, fun h => ?_⟩
  exact absurd h.final (by decide +kernel)

/-- Claims, a refund of what a claim charged, a settlement and an exhaustion meet their
conditions. -/
theorem synced_credit_respected_sample :
    Throughout (Watch.step .ascii "2025-01-01" "a") (fun s => s.spent "a" ≤ max 0 20)
      [studioClaim "t1", .clearCurrentTask "a" "t1" "now", .refund "a" "studio:t1:5f" "now",
        studioClaim "t2", .settle "a" "studio:t2:5f" "now", .exhaust "a" "studio:t2:5f" "now",
        .exhaustTimedOut "a" "studio:t2:5f" "now", .resetDaily "now"]
      (Watch.sync .ascii "2025-01-01" "a" 20 0 "" "now" [studioAccount]) := by
  refine synced_credit_respected .ascii "2025-01-01" "a" 20 0 "" "now" [studioAccount]
    studioAccount _ (by decide) (by decide) (by unfold PendingCovered; decide) ?_
  decide +kernel

end Sample

end FetchTask.Accounts
