import FetchTask.Lib.Runs
import FetchTask.TempAccess.Writers

/-!
The two views of a token agree.

`getTempContext` reads the cached fields of an entry and `getTempContextByHash`
its balances. The cache is right after every change of a balance, with one
exception that the reader makes: a stored limit of zero reads as a hundred. So
the views differ as soon as a token has nothing left, and where an administrator
writes the cached limit. The law says which calls do neither, over every run
from the empty table.
-/

namespace FetchTask.TempAccess

open Runs

/-! ### The law -/

/-- The amounts of a context that the two views have to agree on. -/
def AccessContext.amounts (c : AccessContext) : Int × Int × Int × Int × Int × Int :=
  (c.limit, c.used, c.remaining, c.concurrency, c.freeRemaining, c.creditUnits)

/-- Points and video quota together, in tenths. -/
def totalUnits (entry : Entry) : Int := entryVideoQuotaUnits entry + max 0 entry.creditUnits

section Law

variable (u : Chars) (b : Backend) (H : TokenHash u)

/-- Both views of every stored token give the same amounts, and the stored limit is the
number of points rounded up. -/
def ViewsAgree (tokens : Tokens) : Prop :=
  ∀ token entry, token ≠ "" → tokens (H.hashToken token) = some entry →
    (∃ c c', getTempContext u H token tokens = .ok (some c) ∧
      getTempContextByHash u (H.hashToken token) tokens = .ok (some c') ∧
      c.amounts = c'.amounts) ∧
    entry.limit = combinedLimit entry

inductive TokenCall
  | create (count limit concurrency : Int) (remark : String) (taskRetentionDays : Int)
      (draws : List String) (now : String)
  | reserve (access : AccessContext) (taskId : String) (costUnits : Int) (userId : String)
      (videoCostUnits : Int) (now : String)
  | refund (tokenHash refundId now : String)
  | addCredit (tokenHash : String) (units : Int) (now : String)
  | deduct (tokenHash : String) (freeLimit : Int) (amount : Amount) (now : String)
  | adjust (tokenHash : String) (freeLimit : Int) (amount : Amount) (now : String)
  | purchase (tokenHash : String) (freeLimit : Int) (pointsCost : Amount)
      (bonusFreeUses concurrency : Int) (now : String)
  | rotate (tokenHash : String) (draws : List String) (now : String)
  | update (tokenHash : String) (changes : TokenUpdate) (now : String)
  | setBillingPriority (tokenHash priority now : String)
  | migrate (tokenHash : String) (freeLimit : Int) (now : String)
  | delete (tokenHash : String)

/-- The table after a call. One that is still drawing tokens has written nothing. -/
def TokenCall.apply (call : TokenCall) (tokens : Tokens) : Tokens :=
  match call with
  | .create count limit concurrency remark taskRetentionDays draws now =>
    ((createTempTokens u H count limit concurrency remark taskRetentionDays draws now tokens).map
      (·.2)).getD tokens
  | .reserve access taskId costUnits userId videoCostUnits now =>
    (reserveTempQuota u b access taskId costUnits userId videoCostUnits now tokens).2
  | .refund tokenHash refundId now => (refundTempQuotaHash u tokenHash refundId now tokens).2.2
  | .addCredit tokenHash units now => (addTempCreditUnits u b tokenHash units now tokens).2
  | .deduct tokenHash freeLimit amount now =>
    (deductTempPoints u b tokenHash freeLimit amount now tokens).2
  | .adjust tokenHash freeLimit amount now =>
    (adjustTempVideoQuota u tokenHash freeLimit amount now tokens).2
  | .purchase tokenHash freeLimit pointsCost bonusFreeUses concurrency now =>
    (purchaseTempMembership u tokenHash freeLimit pointsCost bonusFreeUses concurrency now
      tokens).2
  | .rotate tokenHash draws now =>
    ((rotateTempToken u H tokenHash draws now tokens).map (·.2)).getD tokens
  | .update tokenHash changes now => (updateTempToken u b tokenHash changes now tokens).2
  | .setBillingPriority tokenHash priority now =>
    (setTempBillingPriority u b tokenHash priority now tokens).2
  | .migrate tokenHash freeLimit now => (migrateTempToken u tokenHash freeLimit now tokens).2
  | .delete tokenHash => (deleteTempToken u tokenHash tokens).2

/-- The hash of the token that a call works on; the creation works on none. -/
def TokenCall.target : TokenCall → String
  | .create .. => ""
  | .reserve access .. => access.tokenHash
  | .refund tokenHash .. | .addCredit tokenHash .. | .deduct tokenHash .. | .adjust tokenHash ..
  | .purchase tokenHash .. | .rotate tokenHash .. | .update tokenHash ..
  | .setBillingPriority tokenHash .. | .migrate tokenHash .. | .delete tokenHash =>
    normalizeHash u tokenHash

/-- The call leaves the token something, and writes no other limit than the one it has. -/
def TokenCall.LeavesEntry (entry : Entry) : TokenCall → Prop
  | .reserve access taskId costUnits _ videoCostUnits _ =>
    -- A repeated reservation costs nothing.
    access.isTemp = true → taskId = "" ∨ entry.reservations.get? taskId = none →
    (freeUsed u entry (max 1 costUnits) (max 1 videoCostUnits) = .ok true →
      max 1 videoCostUnits < totalUnits entry) ∧
    (freeUsed u entry (max 1 costUnits) (max 1 videoCostUnits) = .ok false →
      max 1 costUnits ≤ entry.creditUnits → max 1 costUnits < totalUnits entry)
  | .deduct _ _ amount _ =>
    ∀ units, pointsToUnits amount = .ok units → units ≤ entry.creditUnits →
      units < totalUnits entry
  | .adjust _ _ amount _ =>
    ∀ change, quotaChange amount = .ok change → 0 ≤ entryVideoQuotaUnits entry + change →
      0 < totalUnits entry + change
  | .purchase _ _ pointsCost bonusFreeUses _ _ =>
    ∀ units, pointsToUnits pointsCost = .ok units → units ≤ entry.creditUnits →
      units < totalUnits entry + max 0 bonusFreeUses * pointScale
  | .update _ changes _ =>
    (∀ priority ∈ changes.billingPriority,
      ∃ normalized, normalizeBillingPriority u priority = .ok normalized) →
    ∀ limit ∈ changes.limit, max 1 (min 100000 limit) = combinedLimit entry
  | _ => True

def TokenCall.Leaves (call : TokenCall) (tokens : Tokens) : Prop :=
  ∀ entry ∈ tokens (call.target u), call.LeavesEntry u entry

end Law

def noTokens : Tokens := fun _ => none

/-- The two priorities are words without capitals and blanks. -/
structure PlainWords (u : Chars) : Prop where
  video : u.lower (u.strip videoFirst) = videoFirst
  points : u.lower (u.strip pointsFirst) = pointsFirst

/-! ### Entries -/

/-- The cached limit is that of the balances, and something is left. -/
structure Synced (entry : Entry) : Prop where
  limit : entry.limit = combinedLimit entry
  positive : 0 < entry.limit

/-- What holds of every entry after any call. -/
structure Current (u : Chars) (entry : Entry) : Prop where
  version : entry.billingVersion = 3
  used : entry.used = 0
  priority : ∃ priority, normalizeBillingPriority u entry.billingPriority = .ok priority

section Entries

variable {u : Chars} {entry : Entry}

theorem combinedLimit_eq (entry : Entry) : combinedLimit entry = (totalUnits entry + 9) / 10 := by
  unfold combinedLimit totalUnits pointScale
  congr 1
  omega

theorem combinedLimit_pos_iff (entry : Entry) : 0 < combinedLimit entry ↔ 0 < totalUnits entry := by
  rw [combinedLimit_eq]
  omega

theorem Synced.total_pos (h : Synced entry) : 0 < totalUnits entry := by
  rw [← combinedLimit_pos_iff, ← h.limit]
  exact h.positive

@[simp] theorem totalUnits_sync (entry : Entry) :
    totalUnits (syncLegacyFields entry) = totalUnits entry := by
  have hquota : entryVideoQuotaUnits (syncLegacyFields entry) = entryVideoQuotaUnits entry := by
    have hnonneg := entryVideoQuotaUnits_nonneg entry
    change max 0 (max 0 (entryVideoQuotaUnits entry)) = _
    omega
  rw [totalUnits, hquota]
  rfl

/-- An entry whose fields have just been computed again is right when something is left. -/
theorem synced_sync_iff (entry : Entry) (now : String) :
    Synced { syncLegacyFields entry with updatedAt := now } ↔ 0 < totalUnits entry := by
  have hlimit : combinedLimit { syncLegacyFields entry with updatedAt := now } =
      combinedLimit entry := by
    rw [combinedLimit_eq, combinedLimit_eq]
    exact congrArg (fun total => (total + 9) / 10) (totalUnits_sync entry)
  rw [← combinedLimit_pos_iff]
  constructor
  · intro h
    exact h.positive
  · intro h
    exact ⟨hlimit.symm, h⟩

theorem Current.migrate (h : Current u entry) (freeLimit : Int) :
    migrateEntry entry freeLimit = .ok entry := by
  rw [migrateEntry, if_pos (by rw [h.version])]

theorem Current.publicToken (h : Current u entry) (tokenHash : String) :
    ∃ token, publicToken u tokenHash entry = .ok token := by
  obtain ⟨priority, hpriority⟩ := h.priority
  simp only [TempAccess.publicToken, hpriority]
  exact ⟨_, rfl⟩

theorem Current.context (h : Current u entry) (tokenHash : String) :
    ∃ c, getTempContextFromEntry u tokenHash entry = .ok c ∧
      c.amounts = (combinedLimit entry, 0, combinedLimit entry,
        normalizeConcurrency entry.concurrency, entryVideoQuotaUnits entry,
        max 0 entry.creditUnits) := by
  obtain ⟨priority, hpriority⟩ := h.priority
  simp only [getTempContextFromEntry, hpriority]
  exact ⟨_, rfl, rfl⟩

/-- The limit that the first view shows. -/
def shownLimit (entry : Entry) : Int := max 0 (orDefault entry.limit tempTokenLimit)

theorem shownLimit_eq_iff (entry : Entry) :
    shownLimit entry = combinedLimit entry ∧ entry.limit = combinedLimit entry ↔ Synced entry := by
  have hdefault : tempTokenLimit = 100 := rfl
  unfold shownLimit orDefault
  constructor
  · rintro ⟨hshown, hlimit⟩
    refine ⟨hlimit, ?_⟩
    rw [← hlimit] at hshown
    split at hshown <;> omega
  · intro h
    have hpos := h.positive
    have hlimit := h.limit
    rw [if_neg (by omega)]
    omega

end Entries

/-! ### The table -/

/-- What holds of the table after any calls. -/
structure TableInv (u : Chars) (H : TokenHash u) (tokens : Tokens) : Prop where
  current : ∀ hash entry, tokens hash = some entry → Current u entry
  keyed : ∀ hash entry, tokens hash = some entry → ∃ token, token ≠ "" ∧ hash = H.hashToken token

def AllSynced (tokens : Tokens) : Prop := ∀ hash entry, tokens hash = some entry → Synced entry

section Table

variable {u : Chars} {b : Backend} {H : TokenHash u} {tokens : Tokens}

theorem readTokenEntry_hash (token : String) :
    readTokenEntry u (H.hashToken token) tokens = tokens (H.hashToken token) := by
  simp only [readTokenEntry, H.normal token]
  rw [if_neg (H.nonempty token)]

theorem getTempContext_stored {token : String} {entry : Entry} (htoken : token ≠ "")
    (he : tokens (H.hashToken token) = some entry) (h : Current u entry) :
    ∃ c, getTempContext u H token tokens = .ok (some c) ∧
      c.amounts = (shownLimit entry, 0, shownLimit entry, normalizeConcurrency entry.concurrency,
        entryVideoQuotaUnits entry, max 0 entry.creditUnits) := by
  obtain ⟨priority, hpriority⟩ := h.priority
  have hremaining : max 0 (shownLimit entry - max 0 entry.used) = shownLimit entry := by
    rw [h.used]
    unfold shownLimit
    omega
  simp only [getTempContext, if_neg htoken, readTokenEntry_hash, he, hpriority]
  refine ⟨_, rfl, ?_⟩
  change (shownLimit entry, max 0 entry.used, max 0 (shownLimit entry - max 0 entry.used), _) = _
  rw [hremaining, h.used]
  rfl

theorem getTempContextByHash_stored {token : String} {entry : Entry}
    (he : tokens (H.hashToken token) = some entry) (h : Current u entry) :
    ∃ c, getTempContextByHash u (H.hashToken token) tokens = .ok (some c) ∧
      c.amounts = (combinedLimit entry, 0, combinedLimit entry,
        normalizeConcurrency entry.concurrency, entryVideoQuotaUnits entry,
        max 0 entry.creditUnits) := by
  obtain ⟨c, hc, hamounts⟩ := h.context (normalizeHash u (H.hashToken token))
  simp only [getTempContextByHash, readTokenEntry_hash, he, hc]
  exact ⟨c, rfl, hamounts⟩

/-- The views agree exactly when all entries are right and none is used up. -/
theorem viewsAgree_iff (hinv : TableInv u H tokens) : ViewsAgree u H tokens ↔ AllSynced tokens := by
  constructor
  · intro h hash entry he
    obtain ⟨token, htoken, rfl⟩ := hinv.keyed hash entry he
    have hcurrent := hinv.current _ entry he
    obtain ⟨⟨c, c', hc, hc', hsame⟩, hlimit⟩ := h token entry htoken he
    obtain ⟨d, hd, hshown⟩ := getTempContext_stored htoken he hcurrent
    obtain ⟨d', hd', hcombined⟩ := getTempContextByHash_stored he hcurrent
    obtain rfl : c = d := Option.some.inj (Except.ok.inj (hc.symm.trans hd))
    obtain rfl : c' = d' := Option.some.inj (Except.ok.inj (hc'.symm.trans hd'))
    rw [hshown, hcombined] at hsame
    exact (shownLimit_eq_iff entry).mp ⟨congrArg Prod.fst hsame, hlimit⟩
  · intro h token entry htoken he
    have hcurrent := hinv.current _ entry he
    obtain ⟨hshown, hlimit⟩ := (shownLimit_eq_iff entry).mpr (h _ entry he)
    obtain ⟨c, hc, hcamounts⟩ := getTempContext_stored htoken he hcurrent
    obtain ⟨c', hc', hcamounts'⟩ := getTempContextByHash_stored he hcurrent
    refine ⟨⟨c, c', hc, hc', ?_⟩, hlimit⟩
    rw [hcamounts, hcamounts', hshown]

/-- Write the entry under `hash` again. -/
def rewrite (hash : String) (f : Entry → Option Entry) (tokens : Tokens) : Tokens :=
  match (tokens hash).bind f with
  | none => tokens
  | some entry => Function.update tokens hash (some entry)

theorem rewrite_none (hash : String) : rewrite hash (fun _ => none) tokens = tokens := by
  have hnone : ((tokens hash).bind fun _ => (none : Option Entry)) = none := by
    cases tokens hash <;> rfl
  rw [rewrite, hnone]

theorem rewrite_absent {hash : String} (h : tokens hash = none) (f : Entry → Option Entry) :
    rewrite hash f tokens = tokens := by
  rw [rewrite, h]
  rfl

theorem rewrite_kept {hash : String} {entry : Entry} {f : Entry → Option Entry}
    (h : tokens hash = some entry) (hf : f entry = none) : rewrite hash f tokens = tokens := by
  simp only [rewrite, h, Option.bind_some, hf]

theorem rewrite_changed {hash : String} {entry entry' : Entry} {f : Entry → Option Entry}
    (h : tokens hash = some entry) (hf : f entry = some entry') :
    rewrite hash f tokens = Function.update tokens hash (some entry') := by
  simp only [rewrite, h, Option.bind_some, hf]

theorem rewrite_inv (hinv : TableInv u H tokens) {hash : String} {f : Entry → Option Entry}
    (hf : ∀ entry entry', Current u entry → f entry = some entry' → Current u entry') :
    TableInv u H (rewrite hash f tokens) := by
  cases he : tokens hash with
  | none =>
    rw [rewrite_absent he]
    exact hinv
  | some entry =>
    cases hnew : f entry with
    | none =>
      rw [rewrite_kept he hnew]
      exact hinv
    | some entry' =>
      have hcurrent := hf entry entry' (hinv.current hash entry he) hnew
      rw [rewrite_changed he hnew]
      constructor
      · intro hash' stored hstored
        by_cases hhash : hash' = hash
        · rw [hhash, Function.update_self] at hstored
          exact Option.some.inj hstored ▸ hcurrent
        · rw [Function.update_of_ne hhash] at hstored
          exact hinv.current hash' stored hstored
      · intro hash' stored hstored
        by_cases hhash : hash' = hash
        · rw [hhash]
          exact hinv.keyed hash entry he
        · rw [Function.update_of_ne hhash] at hstored
          exact hinv.keyed hash' stored hstored

theorem rewrite_synced_iff (h : AllSynced tokens) (hash : String) (f : Entry → Option Entry) :
    AllSynced (rewrite hash f tokens) ↔
      ∀ entry ∈ tokens hash, ∀ entry' ∈ f entry, Synced entry' := by
  cases he : tokens hash with
  | none =>
    rw [rewrite_absent he]
    exact iff_of_true h (by simp)
  | some entry =>
    cases hnew : f entry with
    | none =>
      rw [rewrite_kept he hnew]
      exact iff_of_true h (by simp [hnew])
    | some entry' =>
      rw [rewrite_changed he hnew]
      constructor
      · intro hall stored hstored stored' hstored'
        obtain rfl : entry = stored := Option.some.inj hstored
        rw [hnew] at hstored'
        exact hall hash stored' (by rw [Function.update_self, ← hstored'])
      · intro hnext hash' stored hstored
        by_cases hhash : hash' = hash
        · rw [hhash, Function.update_self] at hstored
          exact Option.some.inj hstored ▸ hnext entry rfl entry' (by rw [hnew]; rfl)
        · rw [Function.update_of_ne hhash] at hstored
          exact h hash' stored hstored

end Table

/-! ### Single entries -/

section Closures

variable {u : Chars} {b : Backend} {H : TokenHash u} {entry entry' : Entry}

/-- The closure of a call as far as it writes: what is stored in place of an entry. -/
def TokenCall.closure (u : Chars) (entry : Entry) : TokenCall → Option Entry
  | .reserve access taskId costUnits userId videoCostUnits now =>
    if access.isTemp then
      (chargeTempQuota u access taskId costUnits userId videoCostUnits now entry).toOption.map (·.2)
    else none
  | .refund _ refundId now =>
    let (refunded, _, entry') := refundEntry refundId now entry
    if refunded then some entry' else none
  | .addCredit _ units now => if units ≤ 0 then none else (addedCredit units now entry).toOption
  | .deduct _ freeLimit amount now =>
    (pointsToUnits amount).toOption.bind fun units => (deducted freeLimit units now entry).toOption
  | .adjust _ freeLimit amount now =>
    (quotaChange amount).toOption.bind fun change => (adjusted freeLimit change now entry).toOption
  | .purchase _ freeLimit pointsCost bonusFreeUses concurrency now =>
    (pointsToUnits pointsCost).toOption.bind fun units =>
      (purchased freeLimit units bonusFreeUses concurrency now entry).toOption
  | .update _ changes now => (updateEntry u changes now entry).toOption
  | .setBillingPriority _ priority now =>
    (normalizeBillingPriority u priority).toOption.bind fun billingPriority =>
      (updateEntry u { billingPriority := some billingPriority } now entry).toOption
  | _ => none

theorem charge_current (h : Current u entry) (taskId userId now : String) (free : Bool)
    (requiredUnits requiredVideoUnits : Int) :
    Current u (charge entry taskId userId now free requiredUnits requiredVideoUnits) := by
  have hfields : (charge entry taskId userId now free requiredUnits
        requiredVideoUnits).billingVersion = entry.billingVersion ∧
      (charge entry taskId userId now free requiredUnits
        requiredVideoUnits).billingPriority = entry.billingPriority := by
    by_cases hid : taskId = ""
    · simp only [charge, if_pos hid]
      cases free <;> exact ⟨rfl, rfl⟩
    · simp only [charge, if_neg hid]
      cases free <;> exact ⟨rfl, rfl⟩
  obtain ⟨hversion, hpriority⟩ := hfields
  exact ⟨hversion.trans h.version, rfl, hpriority ▸ h.priority⟩

theorem totalUnits_setQuota (entry : Entry) (units : Int) :
    totalUnits (setEntryVideoQuotaUnits entry units) = max 0 units + max 0 entry.creditUnits := by
  rw [totalUnits, entryVideoQuotaUnits_set]
  rfl

/-- A charge leaves the entry right when it leaves anything. -/
theorem charge_synced_iff (taskId userId now : String) (free : Bool)
    {requiredUnits requiredVideoUnits : Int} (hunits : 1 ≤ requiredUnits)
    (hvideo : free = true → requiredVideoUnits ≤ entryVideoQuotaUnits entry)
    (hcredit : free = false → requiredUnits ≤ entry.creditUnits) :
    Synced (charge entry taskId userId now free requiredUnits requiredVideoUnits) ↔
      (if free then requiredVideoUnits else requiredUnits) < totalUnits entry := by
  have hquota := entryVideoQuotaUnits_nonneg entry
  cases free with
  | true =>
    have hle := hvideo rfl
    have hpaid : totalUnits (setEntryVideoQuotaUnits entry
        (entryVideoQuotaUnits entry - requiredVideoUnits)) =
          totalUnits entry - requiredVideoUnits := by
      rw [totalUnits_setQuota, totalUnits]
      omega
    simp only [charge, if_true]
    rw [synced_sync_iff]
    split
    · change 0 < totalUnits (setEntryVideoQuotaUnits entry _) ↔ _
      omega
    · change 0 < totalUnits (setEntryVideoQuotaUnits entry _) ↔ _
      omega
  | false =>
    have hle := hcredit rfl
    have hpaid : totalUnits { entry with creditUnits := entry.creditUnits - requiredUnits } =
        totalUnits entry - requiredUnits := by
      change entryVideoQuotaUnits entry + max 0 (entry.creditUnits - requiredUnits) = _
      rw [totalUnits]
      omega
    simp only [charge, Bool.false_eq_true, if_false]
    rw [synced_sync_iff]
    split
    · change 0 < totalUnits { entry with creditUnits := entry.creditUnits - requiredUnits } ↔ _
      omega
    · change 0 < totalUnits { entry with creditUnits := entry.creditUnits - requiredUnits } ↔ _
      omega

theorem chargeTempQuota_present (h : Current u entry) {access : AccessContext} {taskId : String}
    {r : Reservation} (hid : taskId ≠ "") (hget : entry.reservations.get? taskId = some r)
    (costUnits : Int) (userId : String) (videoCostUnits : Int) (now : String) :
    chargeTempQuota u access taskId costUnits userId videoCostUnits now entry =
      if r.isLive then .ok (.repeated, entry)
      else .error (.quotaExceeded "task quota reservation is closed") := by
  simp only [chargeTempQuota, h.migrate, if_neg hid, hget]

theorem chargeTempQuota_absent (h : Current u entry) {access : AccessContext} {taskId : String}
    (habsent : taskId = "" ∨ entry.reservations.get? taskId = none)
    (costUnits : Int) (userId : String) (videoCostUnits : Int) (now : String) :
    chargeTempQuota u access taskId costUnits userId videoCostUnits now entry =
      match freeUsed u entry (max 1 costUnits) (max 1 videoCostUnits) with
      | .error e => .error e
      | .ok free =>
        if !free && decide (entry.creditUnits < max 1 costUnits) then
          .error (.quotaExceeded "temporary token quota exhausted")
        else .ok (.charged,
          charge entry taskId userId now free (max 1 costUnits) (max 1 videoCostUnits)) := by
  have hnone : (if taskId = "" then none else entry.reservations.get? taskId) = none := by
    rcases habsent with hid | hget
    · rw [if_pos hid]
    · rw [hget, ite_self]
  cases hfree : freeUsed u entry (max 1 costUnits) (max 1 videoCostUnits) with
  | error e => simp only [chargeTempQuota, h.migrate, hnone, hfree]
  | ok free => simp only [chargeTempQuota, h.migrate, hnone, hfree]

theorem chargeTempQuota_repeated (h : Current u entry) {access : AccessContext} {taskId : String}
    {costUnits : Int} {userId : String} {videoCostUnits : Int} {now : String}
    (hc : chargeTempQuota u access taskId costUnits userId videoCostUnits now entry =
      .ok (.repeated, entry')) : entry = entry' := by
  by_cases habsent : taskId = "" ∨ entry.reservations.get? taskId = none
  · rw [chargeTempQuota_absent h habsent] at hc
    split at hc
    · cases hc
    · split at hc <;> cases hc
  · obtain ⟨hid, hfound⟩ := not_or.mp habsent
    obtain ⟨r, hget⟩ := Option.ne_none_iff_exists'.mp hfound
    rw [chargeTempQuota_present h hid hget] at hc
    split at hc
    · cases hc
      rfl
    · cases hc

/-- What a reservation stores is right when the charge leaves something. -/
theorem reserve_closure (h : Current u entry) (hs : Synced entry) (access : AccessContext)
    (taskId : String) (costUnits : Int) (userId : String) (videoCostUnits : Int) (now : String) :
    (∀ entry' ∈ (TokenCall.reserve access taskId costUnits userId videoCostUnits now).closure u
        entry, Synced entry') ↔
      (TokenCall.reserve access taskId costUnits userId videoCostUnits now).LeavesEntry u
        entry := by
  simp only [TokenCall.closure, TokenCall.LeavesEntry]
  cases htemp : access.isTemp with
  | false => simp
  | true =>
    simp only [if_true, true_implies]
    by_cases habsent : taskId = "" ∨ entry.reservations.get? taskId = none
    · rw [chargeTempQuota_absent h habsent]
      have hunits : 1 ≤ max 1 costUnits := le_max_left ..
      cases hfree : freeUsed u entry (max 1 costUnits) (max 1 videoCostUnits) with
      | error e => simp [Except.toOption]
      | ok free =>
        cases free with
        | true =>
          have hiff := charge_synced_iff taskId userId now true hunits
            (fun _ => freeUsed_quota hfree) (fun hf => by cases hf)
          simp [Except.toOption, habsent, hiff]
        | false =>
          by_cases hcredit : entry.creditUnits < max 1 costUnits
          · have hnot : ¬ max 1 costUnits ≤ entry.creditUnits := by omega
            simp only [hcredit, decide_true, Bool.not_false, Bool.and_self, if_true,
              Except.toOption, Option.map_none, Option.not_mem_none, false_implies, implies_true,
              true_iff]
            exact fun _ => ⟨fun hf => (by cases hf), fun _ hle => absurd hle hnot⟩
          · have hle : max 1 costUnits ≤ entry.creditUnits := by omega
            have hvideo : false = true → max 1 videoCostUnits ≤ entryVideoQuotaUnits entry :=
              fun hf => by cases hf
            have hiff := charge_synced_iff taskId userId now false hunits hvideo fun _ => hle
            simp only [hcredit, decide_false, Bool.and_false, Bool.false_eq_true, if_false,
              Except.toOption, Option.map_some, Option.mem_some, forall_eq', hiff]
            constructor
            · intro hlt _
              exact ⟨fun hf => (by cases hf), fun _ _ => hlt⟩
            · intro hleaves
              exact (hleaves habsent).2 trivial hle
    · have hfound := not_or.mp habsent
      obtain ⟨r, hget⟩ := Option.ne_none_iff_exists'.mp hfound.2
      rw [chargeTempQuota_present h hfound.1 hget]
      refine iff_of_true ?_ fun hab => absurd hab habsent
      split <;> simp [Except.toOption, hs]

theorem reserve_closure_current (h : Current u entry) {access : AccessContext} {taskId : String}
    {costUnits : Int} {userId : String} {videoCostUnits : Int} {now : String}
    (hc : (TokenCall.reserve access taskId costUnits userId videoCostUnits now).closure u entry =
      some entry') : Current u entry' := by
  simp only [TokenCall.closure] at hc
  split at hc
  · by_cases habsent : taskId = "" ∨ entry.reservations.get? taskId = none
    · rw [chargeTempQuota_absent h habsent] at hc
      split at hc
      · cases hc
      · split at hc
        · cases hc
        · cases hc
          exact charge_current h taskId userId now _ _ _
    · have hfound := not_or.mp habsent
      obtain ⟨r, hget⟩ := Option.ne_none_iff_exists'.mp hfound.2
      rw [chargeTempQuota_present h hfound.1 hget] at hc
      split at hc
      · cases hc
        exact h
      · cases hc
  · cases hc

/-- A refund keeps an entry right: it gives something back, or counts uses that are zero. -/
theorem refundEntry_keeps (h : Current u entry) {refundId now : String}
    {transaction : Option RefundTransaction}
    (hr : refundEntry refundId now entry = (true, transaction, entry')) :
    Current u entry' ∧ (Synced entry → Synced entry') := by
  unfold refundEntry at hr
  split at hr
  · split at hr
    · cases hr
    · rename_i r hget
      split at hr
      · cases hr
        have hback : Current u (creditBack entry r) ∧
            (0 < totalUnits entry → 0 < totalUnits (creditBack entry r)) := by
          have hunits : 1 ≤ r.refundVideoUnits := le_max_left ..
          have hquota := entryVideoQuotaUnits_nonneg entry
          unfold creditBack
          split
          · refine ⟨⟨h.version, h.used, h.priority⟩, fun hpos => ?_⟩
            rw [totalUnits_setQuota]
            rw [totalUnits] at hpos
            omega
          · refine ⟨⟨h.version, h.used, h.priority⟩, fun hpos => ?_⟩
            rw [totalUnits] at hpos
            change 0 < entryVideoQuotaUnits entry + max 0 (entry.creditUnits + r.units)
            omega
        refine ⟨⟨hback.1.version, rfl, hback.1.priority⟩, fun hs => ?_⟩
        rw [synced_sync_iff]
        exact hback.2 hs.total_pos
      · cases hr
  · by_cases hdone : refundId ≠ "" ∧ refundId ∈ entry.quotaRefundIds.filter (· ≠ "")
    · rw [if_pos hdone] at hr
      cases hr
    · rw [if_neg hdone] at hr
      cases hr
      refine ⟨⟨h.version, ?_, h.priority⟩, fun hs => ⟨hs.limit, hs.positive⟩⟩
      simp [h.used]

theorem addedCredit_eq (h : Current u entry) (units : Int) (now : String) :
    addedCredit units now entry = .ok
      { syncLegacyFields { entry with creditUnits := entry.creditUnits + units } with
        updatedAt := now } := by
  simp only [addedCredit, h.migrate]

theorem deducted_eq (h : Current u entry) (freeLimit units : Int) (now : String) :
    deducted freeLimit units now entry =
      if entry.creditUnits < units then .error (.valueError "用户积分不足")
      else .ok { syncLegacyFields { entry with creditUnits := entry.creditUnits - units } with
        updatedAt := now } := by
  simp only [deducted, h.migrate]

theorem adjusted_eq (h : Current u entry) (freeLimit change : Int) (now : String) :
    adjusted freeLimit change now entry =
      if entryVideoQuotaUnits entry + change < 0 then .error (.valueError "用户视频额度不足")
      else .ok { syncLegacyFields (setEntryVideoQuotaUnits entry
        (entryVideoQuotaUnits entry + change)) with updatedAt := now } := by
  simp only [adjusted, h.migrate]

/-- The balances and the concurrency after a purchase. -/
def afterPurchase (entry : Entry) (units bonusFreeUses concurrency : Int) : Entry :=
  { setEntryVideoQuotaUnits { entry with creditUnits := entry.creditUnits - units }
      (entryVideoQuotaUnits entry + max 0 bonusFreeUses * pointScale) with
    concurrency := max 1 (min maxTempTokenConcurrency concurrency) }

theorem purchased_eq (h : Current u entry) (freeLimit units bonusFreeUses concurrency : Int)
    (now : String) : purchased freeLimit units bonusFreeUses concurrency now entry =
      if entry.creditUnits < units then .error (.valueError "用户积分不足")
      else .ok { syncLegacyFields (afterPurchase entry units bonusFreeUses concurrency) with
        updatedAt := now } := by
  simp only [purchased, h.migrate]
  rfl

theorem totalUnits_afterPurchase {units : Int} (hunits : units ≤ entry.creditUnits) (hpos : 0 < units)
    (bonusFreeUses concurrency : Int) :
    totalUnits (afterPurchase entry units bonusFreeUses concurrency) =
      totalUnits entry - units + max 0 bonusFreeUses * pointScale := by
  have hquota := entryVideoQuotaUnits_nonneg entry
  have hscale : pointScale = 10 := rfl
  have hnew : entryVideoQuotaUnits (afterPurchase entry units bonusFreeUses concurrency) =
      max 0 (entryVideoQuotaUnits entry + max 0 bonusFreeUses * pointScale) :=
    entryVideoQuotaUnits_set { entry with creditUnits := entry.creditUnits - units } _
  rw [totalUnits, hnew, totalUnits, hscale]
  change _ + max 0 (entry.creditUnits - units) = _
  omega

theorem pointsToUnits_pos {amount : Amount} {units : Int} (h : pointsToUnits amount = .ok units) :
    0 < units := by
  unfold pointsToUnits at h
  split at h
  · cases h
  · cases h
  · split at h
    · cases h
    · cases h
      omega

theorem normalize_video (hu : PlainWords u) :
    normalizeBillingPriority u videoFirst = .ok videoFirst := by
  have hword : textOr videoFirst videoFirst = videoFirst := if_neg (by decide)
  simp [normalizeBillingPriority, hword, hu.video]

theorem normalize_points (hu : PlainWords u) :
    normalizeBillingPriority u pointsFirst = .ok pointsFirst := by
  have hword : textOr pointsFirst videoFirst = pointsFirst := if_neg (by decide)
  simp [normalizeBillingPriority, hword, hu.points]

theorem normalize_normalized (hu : PlainWords u) {value priority : String}
    (h : normalizeBillingPriority u value = .ok priority) :
    normalizeBillingPriority u priority = .ok priority := by
  simp only [normalizeBillingPriority] at h
  split_ifs at h with hword
  · cases h
    rcases hword with hvideo | hpoints
    · rw [hvideo]
      exact normalize_video hu
    · rw [hpoints]
      exact normalize_points hu

/-- The entry of `update_temp_token` before the priority is looked at. -/
def updatedFields (changes : TokenUpdate) (now : String) (entry : Entry) : Entry :=
  { entry with
    limit := (changes.limit.map fun v => max 1 (min 100000 v)).getD entry.limit
    concurrency := (changes.concurrency.map fun v =>
      max 1 (min maxTempTokenConcurrency v)).getD entry.concurrency
    remoteGenerationLimit := (changes.remoteGenerationLimit.map fun v =>
      max 1 (min maxRemoteGenerationLimit v)).getD entry.remoteGenerationLimit
    taskRetentionDays :=
      (changes.taskRetentionDays.map normalizeRetentionDays).getD entry.taskRetentionDays
    remark := (changes.remark.map (takeText 100)).getD entry.remark
    updatedAt := now }

theorem updateEntry_eq (changes : TokenUpdate) (now : String) (entry : Entry) :
    updateEntry u changes now entry =
      match changes.billingPriority with
      | none => .ok (updatedFields changes now entry)
      | some value => (normalizeBillingPriority u value).map fun priority =>
          { updatedFields changes now entry with billingPriority := priority } := by
  unfold updateEntry
  cases changes.billingPriority with
  | none => rfl
  | some value => cases hvalue : normalizeBillingPriority u value <;> simp [hvalue] <;> rfl

theorem updateEntry_current (hu : PlainWords u) (h : Current u entry) {changes : TokenUpdate}
    {now : String} (hc : updateEntry u changes now entry = .ok entry') : Current u entry' := by
  rw [updateEntry_eq] at hc
  cases hpriority : changes.billingPriority with
  | none =>
    rw [hpriority] at hc
    cases hc
    exact ⟨h.version, h.used, h.priority⟩
  | some value =>
    rw [hpriority] at hc
    cases hvalue : normalizeBillingPriority u value with
    | error e =>
      simp only [hvalue] at hc
      cases hc
    | ok priority =>
      simp only [hvalue] at hc
      cases hc
      exact ⟨h.version, h.used, priority, normalize_normalized hu hvalue⟩

/-- An update keeps an entry right exactly when it writes no other limit. -/
theorem updatedFields_synced_iff (hs : Synced entry) (changes : TokenUpdate) (now : String)
    (priority : String) :
    Synced { updatedFields changes now entry with billingPriority := priority } ↔
      ∀ limit ∈ changes.limit, max 1 (min 100000 limit) = combinedLimit entry := by
  have hpos := hs.positive
  cases hlimit : changes.limit with
  | none =>
    have hsame : (updatedFields changes now entry).limit = entry.limit := by
      simp [updatedFields, hlimit]
    refine iff_of_true ⟨?_, ?_⟩ (by simp)
    · exact hsame.trans hs.limit
    · exact hsame ▸ hpos
  | some v =>
    have hnew : (updatedFields changes now entry).limit = max 1 (min 100000 v) := by
      simp [updatedFields, hlimit]
    simp only [Option.mem_some, forall_eq']
    constructor
    · intro h
      exact hnew ▸ h.limit
    · intro heq
      refine ⟨?_, ?_⟩
      · exact hnew.trans heq
      · change 0 < (updatedFields changes now entry).limit
        omega

theorem closure_current (hu : PlainWords u) (h : Current u entry) (call : TokenCall)
    (hc : call.closure u entry = some entry') : Current u entry' := by
  cases call with
  | reserve => exact reserve_closure_current h hc
  | refund tokenHash refundId now =>
    simp only [TokenCall.closure] at hc
    split at hc
    · cases hc
      rename_i hrefunded
      exact (refundEntry_keeps h (Prod.ext hrefunded rfl)).1
    · cases hc
  | addCredit tokenHash units now =>
    simp only [TokenCall.closure, addedCredit_eq h] at hc
    split at hc
    · cases hc
    · cases hc
      exact ⟨h.version, rfl, h.priority⟩
  | deduct tokenHash freeLimit amount now =>
    simp only [TokenCall.closure, deducted_eq h] at hc
    obtain ⟨units, -, hunits⟩ := Option.bind_eq_some_iff.mp hc
    split at hunits
    · cases hunits
    · cases hunits
      exact ⟨h.version, rfl, h.priority⟩
  | adjust tokenHash freeLimit amount now =>
    simp only [TokenCall.closure, adjusted_eq h] at hc
    obtain ⟨change, -, hchange⟩ := Option.bind_eq_some_iff.mp hc
    split at hchange
    · cases hchange
    · cases hchange
      exact ⟨h.version, rfl, h.priority⟩
  | purchase tokenHash freeLimit pointsCost bonusFreeUses concurrency now =>
    simp only [TokenCall.closure, purchased_eq h] at hc
    obtain ⟨units, -, hunits⟩ := Option.bind_eq_some_iff.mp hc
    split at hunits
    · cases hunits
    · cases hunits
      exact ⟨h.version, rfl, h.priority⟩
  | update tokenHash changes now =>
    cases hupdate : updateEntry u changes now entry with
    | error e =>
      simp only [TokenCall.closure, hupdate] at hc
      cases hc
    | ok changed =>
      simp only [TokenCall.closure, hupdate] at hc
      cases hc
      exact updateEntry_current hu h hupdate
  | setBillingPriority tokenHash priority now =>
    simp only [TokenCall.closure] at hc
    obtain ⟨billingPriority, -, hupdated⟩ := Option.bind_eq_some_iff.mp hc
    cases hupdate : updateEntry u { billingPriority := some billingPriority } now entry with
    | error e =>
      rw [hupdate] at hupdated
      cases hupdated
    | ok changed =>
      rw [hupdate] at hupdated
      cases hupdated
      exact updateEntry_current hu h hupdate
  | create => cases hc
  | rotate => cases hc
  | migrate => cases hc
  | delete => cases hc

/-- A closure leaves an entry right exactly when the call leaves it something. -/
theorem closure_synced_iff (h : Current u entry) (hs : Synced entry) (call : TokenCall) :
    (∀ entry' ∈ call.closure u entry, Synced entry') ↔ call.LeavesEntry u entry := by
  have hpos := hs.total_pos
  cases call with
  | reserve access taskId costUnits userId videoCostUnits now =>
    exact reserve_closure h hs access taskId costUnits userId videoCostUnits now
  | refund tokenHash refundId now =>
    refine iff_of_true (fun entry' hmem => ?_) trivial
    simp only [TokenCall.closure] at hmem
    split at hmem
    · cases hmem
      rename_i hrefunded
      exact (refundEntry_keeps h (Prod.ext hrefunded rfl)).2 hs
    · cases hmem
  | addCredit tokenHash units now =>
    refine iff_of_true (fun entry' hmem => ?_) trivial
    simp only [TokenCall.closure, addedCredit_eq h] at hmem
    split at hmem
    · cases hmem
    · cases hmem
      rw [synced_sync_iff]
      change 0 < entryVideoQuotaUnits entry + max 0 (entry.creditUnits + units)
      rw [totalUnits] at hpos
      omega
  | deduct tokenHash freeLimit amount now =>
    simp only [TokenCall.closure, TokenCall.LeavesEntry, deducted_eq h]
    cases hamount : pointsToUnits amount with
    | error e => simp [Except.toOption]
    | ok units =>
      have hunits := pointsToUnits_pos hamount
      by_cases hcredit : entry.creditUnits < units
      · have hnot : ¬ units ≤ entry.creditUnits := by omega
        simp [Except.toOption, hcredit]
      · have hle : units ≤ entry.creditUnits := by omega
        have htotal : totalUnits { entry with creditUnits := entry.creditUnits - units } =
            totalUnits entry - units := by
          change entryVideoQuotaUnits entry + max 0 (entry.creditUnits - units) = _
          rw [totalUnits]
          omega
        simp only [Except.toOption, Option.bind_some, if_neg hcredit, Option.mem_some, forall_eq',
          synced_sync_iff, htotal, Except.ok.injEq, hle, true_implies]
        omega
  | adjust tokenHash freeLimit amount now =>
    simp only [TokenCall.closure, TokenCall.LeavesEntry, adjusted_eq h]
    cases hamount : quotaChange amount with
    | error e => simp [Except.toOption]
    | ok change =>
      by_cases hquota : entryVideoQuotaUnits entry + change < 0
      · simp [Except.toOption, hquota]
      · have hle : 0 ≤ entryVideoQuotaUnits entry + change := by omega
        have htotal : totalUnits (setEntryVideoQuotaUnits entry
            (entryVideoQuotaUnits entry + change)) = totalUnits entry + change := by
          rw [totalUnits_setQuota, totalUnits]
          omega
        simp only [Except.toOption, Option.bind_some, if_neg hquota, Option.mem_some, forall_eq',
          synced_sync_iff, htotal, Except.ok.injEq, hle, true_implies]
  | purchase tokenHash freeLimit pointsCost bonusFreeUses concurrency now =>
    simp only [TokenCall.closure, TokenCall.LeavesEntry, purchased_eq h]
    cases hamount : pointsToUnits pointsCost with
    | error e => simp [Except.toOption]
    | ok units =>
      have hunits := pointsToUnits_pos hamount
      by_cases hcredit : entry.creditUnits < units
      · simp [Except.toOption, hcredit]
      · have hle : units ≤ entry.creditUnits := by omega
        simp only [Except.toOption, Option.bind_some, if_neg hcredit, Option.mem_some, forall_eq',
          synced_sync_iff, totalUnits_afterPurchase hle hunits, Except.ok.injEq, hle, true_implies]
        omega
  | update tokenHash changes now =>
    simp only [TokenCall.closure, TokenCall.LeavesEntry, updateEntry_eq]
    cases hpriority : changes.billingPriority with
    | none =>
      have hiff : Synced (updatedFields changes now entry) ↔ _ :=
        updatedFields_synced_iff hs changes now entry.billingPriority
      simpa [Except.toOption] using hiff
    | some value =>
      cases hvalue : normalizeBillingPriority u value with
      | error e => simp [Except.toOption, Except.map, hvalue]
      | ok priority =>
        have hiff := updatedFields_synced_iff hs changes now priority
        simpa [Except.toOption, Except.map, hvalue] using hiff
  | setBillingPriority tokenHash priority now =>
    refine iff_of_true (fun entry' hmem => ?_) trivial
    simp only [TokenCall.closure, updateEntry_eq] at hmem
    obtain ⟨billingPriority, -, hupdated⟩ := Option.bind_eq_some_iff.mp hmem
    cases hvalue : normalizeBillingPriority u billingPriority with
    | error e =>
      simp only [hvalue] at hupdated
      cases hupdated
    | ok normalized =>
      simp only [hvalue] at hupdated
      cases hupdated
      exact (updatedFields_synced_iff hs _ now normalized).mpr (by simp)
  | create => exact iff_of_true (fun _ hmem => by cases hmem) trivial
  | rotate => exact iff_of_true (fun _ hmem => by cases hmem) trivial
  | migrate => exact iff_of_true (fun _ hmem => by cases hmem) trivial
  | delete => exact iff_of_true (fun _ hmem => by cases hmem) trivial

end Closures

/-! ### Calls -/

section Calls

variable {u : Chars} {b : Backend} {H : TokenHash u} {tokens : Tokens}

theorem answer_ok {α : Type} (hash : String) (entry : Entry) (view : α) :
    (answer b tokens hash entry (.ok view)).2 = Function.update tokens hash (some entry) := by
  cases b <;> rfl

/-- A change whose answer can be built is written on either backend. -/
theorem changeToken_eq (hinv : TableInv u H tokens) (tokenHash : String)
    (change : Entry → Except BillingError Entry)
    (hchange : ∀ entry entry', Current u entry → change entry = .ok entry' → Current u entry') :
    (changeToken u b tokenHash change tokens).2 =
      rewrite (normalizeHash u tokenHash) (fun entry => (change entry).toOption) tokens := by
  cases he : tokens (normalizeHash u tokenHash) with
  | none => simp only [changeToken, he, rewrite_absent he]
  | some entry =>
    cases hnew : change entry with
    | error e =>
      simp only [changeToken, he, hnew]
      rw [rewrite_kept he (by rw [hnew]; rfl)]
    | ok entry' =>
      have hcurrent := hchange entry entry' (hinv.current _ entry he) hnew
      obtain ⟨view, hview⟩ := hcurrent.publicToken (normalizeHash u tokenHash)
      simp only [changeToken, he, hnew, hview, answer_ok]
      rw [rewrite_changed he (by rw [hnew]; rfl)]

theorem reserve_eq (hinv : TableInv u H tokens) (access : AccessContext) (taskId : String)
    (costUnits : Int) (userId : String) (videoCostUnits : Int) (now : String) :
    let call := TokenCall.reserve access taskId costUnits userId videoCostUnits now
    call.apply u b H tokens = rewrite (call.target u) (fun entry => call.closure u entry) tokens := by
  intro call
  simp only [call, TokenCall.apply, TokenCall.target, reserveTempQuota]
  cases htemp : access.isTemp with
  | false =>
    simp only [Bool.not_false, if_true, TokenCall.closure, htemp, Bool.false_eq_true, if_false]
    rw [rewrite_none]
  | true =>
    simp only [Bool.not_true, Bool.false_eq_true, if_false]
    cases he : tokens access.tokenHash with
    | none => simp only [rewrite_absent he]
    | some entry =>
      have hcurrent := hinv.current _ entry he
      cases hcharge : chargeTempQuota u access taskId costUnits userId videoCostUnits now entry with
      | error e =>
        simp only [hcharge]
        rw [rewrite_kept he (by simp [TokenCall.closure, htemp, hcharge, Except.toOption])]
      | ok outcome =>
        obtain ⟨kind, entry'⟩ := outcome
        have hclosure : call.closure u entry = some entry' := by
          simp [call, TokenCall.closure, htemp, hcharge, Except.toOption]
        obtain ⟨c, hview, -⟩ :=
          (reserve_closure_current hcurrent hclosure).context access.tokenHash
        rw [rewrite_changed he hclosure]
        simp only [hcharge, hview]
        cases kind with
        | charged => exact answer_ok ..
        | repeated =>
          cases b with
          | postgres => exact answer_ok ..
          | jsonFile =>
            -- The file is left alone, and holds this entry already.
            obtain rfl : entry = entry' := chargeTempQuota_repeated hcurrent hcharge
            rw [← he, Function.update_eq_self]

theorem refund_eq (hinv : TableInv u H tokens) (tokenHash refundId now : String) :
    let call := TokenCall.refund tokenHash refundId now
    call.apply u b H tokens = rewrite (call.target u) (fun entry => call.closure u entry) tokens := by
  intro call
  simp only [call, TokenCall.apply, TokenCall.target, refundTempQuotaHash]
  cases he : tokens (normalizeHash u tokenHash) with
  | none =>
    rw [rewrite_absent he]
    split <;> rfl
  | some entry =>
    obtain ⟨token, -, hkey⟩ := hinv.keyed _ entry he
    rw [if_neg (hkey ▸ H.nonempty token)]
    simp only
    split
    · rename_i hrefund
      rw [rewrite_kept he (by simp [TokenCall.closure, hrefund])]
    · rename_i transaction entry' hrefund
      have hclosure : call.closure u entry = some entry' := by simp [call, TokenCall.closure, hrefund]
      rw [rewrite_changed he hclosure]

/-- The call writes one entry again, or nothing. -/
def TokenCall.rewrites : TokenCall → Bool
  | .create .. | .rotate .. | .delete .. => false
  | _ => true

theorem apply_eq (hu : PlainWords u) (hinv : TableInv u H tokens) {call : TokenCall}
    (hkind : call.rewrites = true) :
    call.apply u b H tokens = rewrite (call.target u) (fun entry => call.closure u entry) tokens := by
  cases call with
  | create | rotate | delete => cases hkind
  | reserve access taskId costUnits userId videoCostUnits now =>
    exact reserve_eq hinv access taskId costUnits userId videoCostUnits now
  | refund tokenHash refundId now => exact refund_eq hinv tokenHash refundId now
  | addCredit tokenHash units now =>
    by_cases hunits : units ≤ 0
    · simp [TokenCall.apply, addTempCreditUnits, TokenCall.closure, hunits, rewrite_none]
    · have hchange := changeToken_eq (b := b) hinv tokenHash (addedCredit units now)
        fun entry entry' h hc => closure_current hu h (.addCredit tokenHash units now)
          (by simp [TokenCall.closure, hunits, hc, Except.toOption])
      simp only [TokenCall.apply, addTempCreditUnits, TokenCall.closure, if_neg hunits]
      exact hchange
  | deduct tokenHash freeLimit amount now =>
    simp only [TokenCall.apply, deductTempPoints, TokenCall.closure]
    cases hamount : pointsToUnits amount with
    | error e => exact (rewrite_none _).symm
    | ok units =>
      exact changeToken_eq hinv tokenHash _ fun entry entry' h hc =>
        closure_current hu h (.deduct tokenHash freeLimit amount now)
          (by simp [TokenCall.closure, hamount, hc, Except.toOption])
  | adjust tokenHash freeLimit amount now =>
    simp only [TokenCall.apply, adjustTempVideoQuota, TokenCall.closure]
    cases hamount : quotaChange amount with
    | error e => exact (rewrite_none _).symm
    | ok change =>
      exact changeToken_eq hinv tokenHash _ fun entry entry' h hc =>
        closure_current hu h (.adjust tokenHash freeLimit amount now)
          (by simp [TokenCall.closure, hamount, hc, Except.toOption])
  | purchase tokenHash freeLimit pointsCost bonusFreeUses concurrency now =>
    simp only [TokenCall.apply, purchaseTempMembership, TokenCall.closure]
    cases hamount : pointsToUnits pointsCost with
    | error e => exact (rewrite_none _).symm
    | ok units =>
      exact changeToken_eq hinv tokenHash _ fun entry entry' h hc =>
        closure_current hu h
          (.purchase tokenHash freeLimit pointsCost bonusFreeUses concurrency now) (by simp [TokenCall.closure, hamount, hc, Except.toOption])
  | update tokenHash changes now =>
    exact changeToken_eq hinv tokenHash _ fun entry entry' h hc =>
      closure_current hu h (.update tokenHash changes now)
        (by simp [TokenCall.closure, hc, Except.toOption])
  | setBillingPriority tokenHash priority now =>
    simp only [TokenCall.apply, setTempBillingPriority, TokenCall.closure]
    cases hpriority : normalizeBillingPriority u priority with
    | error e => exact (rewrite_none _).symm
    | ok billingPriority =>
      exact changeToken_eq hinv tokenHash _ fun entry entry' h hc =>
        closure_current hu h (.setBillingPriority tokenHash priority now)
          (by simp [TokenCall.closure, hpriority, hc, Except.toOption])
  | migrate tokenHash freeLimit now =>
    simp only [TokenCall.apply, migrateTempToken, TokenCall.closure, rewrite_none]
    cases he : tokens (normalizeHash u tokenHash) with
    | none => rfl
    | some entry =>
      have hcurrent := hinv.current _ entry he
      simp [hcurrent.migrate, hcurrent.version]

/-- The created entries are keyed by their tokens, and the others are left. -/
theorem addTokens_entry {make : String → Entry} {n : Nat} {draws : List String}
    {created : List (String × Entry) × Tokens} (h : addTokens u H make n draws tokens = some created)
    {hash : String} (he : created.2 hash = some entry) :
    tokens hash = some entry ∨
      ∃ drawn, hash = H.hashToken (newToken drawn) ∧ entry = make (newToken drawn) := by
  induction draws generalizing n tokens created with
  | nil =>
    cases n with
    | zero =>
      cases h
      exact .inl he
    | succ n => cases h
  | cons drawn draws ih =>
    cases n with
    | zero =>
      cases h
      exact .inl he
    | succ n =>
      rw [addTokens] at h
      split at h
      · exact ih h he
      · obtain ⟨rest, hrest, rfl⟩ := Option.map_eq_some_iff.mp h
        rcases ih hrest he with hold | hnew
        · by_cases hhash : hash = H.hashToken (newToken drawn)
          · rw [hhash, Function.update_self] at hold
            exact .inr ⟨drawn, hhash, (Option.some.inj hold).symm⟩
          · rw [Function.update_of_ne hhash] at hold
            exact .inl hold
        · exact .inr hnew

theorem newToken_ne (drawn : String) : newToken drawn ≠ "" := by
  intro h
  have hlength := congrArg String.length h
  rw [newToken, String.length_append] at hlength
  have hfour : "tmp_".length = 4 := rfl
  have hzero : "".length = 0 := rfl
  omega

theorem createdEntry_current (hu : PlainWords u) (token : String) (limit concurrency : Int)
    (remark : String) (taskRetentionDays : Int) (now : String) :
    Current u (createdEntry token limit concurrency remark taskRetentionDays now) :=
  ⟨rfl, rfl, videoFirst, normalize_video hu⟩

theorem createdEntry_synced (token : String) {limit : Int} (hlimit : 0 < limit) (concurrency : Int)
    (remark : String) (taskRetentionDays : Int) (now : String) :
    Synced (createdEntry token limit concurrency remark taskRetentionDays now) := by
  have hscale : pointScale = 10 := rfl
  have htotal : totalUnits (createdEntry token limit concurrency remark taskRetentionDays now) =
      max 0 (limit * pointScale) + max 0 0 := rfl
  refine ⟨?_, hlimit⟩
  rw [combinedLimit_eq, htotal, hscale]
  change limit = _
  omega

/-- Another call leaves old entries, and right new ones. -/
theorem kept_or_new (hu : PlainWords u) (hinv : TableInv u H tokens) {call : TokenCall}
    (hkind : call.rewrites = false)
    {hash : String} (he : call.apply u b H tokens hash = some entry) :
    tokens hash = some entry ∨
      (∃ token, token ≠ "" ∧ hash = H.hashToken token) ∧ Current u entry ∧
        (AllSynced tokens → Synced entry) := by
  cases call with
  | create count limit concurrency remark taskRetentionDays draws now =>
    simp only [TokenCall.apply, createTempTokens, Option.map_map] at he
    cases hadd : addTokens u H (fun token => createdEntry token (max 1 (min 100000 limit))
        (max 1 (min maxTempTokenConcurrency concurrency)) (takeText 100 remark)
        (normalizeRetentionDays taskRetentionDays) now) (max 1 (min 200 count)).toNat draws
        tokens with
    | none =>
      rw [hadd] at he
      exact .inl he
    | some created =>
      rw [hadd] at he
      simp only [Option.map_some, Option.getD_some, Function.comp_apply] at he
      split at he
      · exact .inl he
      · rcases addTokens_entry hadd he with hold | ⟨drawn, hhash, rfl⟩
        · exact .inl hold
        · exact .inr ⟨⟨newToken drawn, newToken_ne drawn, hhash⟩, createdEntry_current hu ..,
            fun _ => createdEntry_synced _ (by omega) ..⟩
  | rotate tokenHash draws now =>
    simp only [TokenCall.apply, rotateTempToken] at he
    cases hold : tokens (normalizeHash u tokenHash) with
    | none =>
      simp only [hold] at he
      exact .inl he
    | some old =>
      simp only [hold, Option.map_map] at he
      cases hfind : draws.find? fun drawn => (tokens (H.hashToken (newToken drawn))).isNone with
      | none =>
        rw [hfind] at he
        exact .inl he
      | some drawn =>
        rw [hfind] at he
        simp only [Option.map_some, Option.getD_some, Function.comp_apply] at he
        by_cases hgone : hash = normalizeHash u tokenHash
        · rw [hgone, Function.update_self] at he
          cases he
        · rw [Function.update_of_ne hgone] at he
          by_cases hnew : hash = H.hashToken (newToken drawn)
          · rw [hnew, Function.update_self] at he
            cases he
            have hcurrent := hinv.current _ old hold
            refine .inr ⟨⟨newToken drawn, newToken_ne drawn, hnew⟩,
              ⟨hcurrent.version, hcurrent.used, hcurrent.priority⟩, fun hall => ?_⟩
            exact ⟨(hall _ old hold).limit, (hall _ old hold).positive⟩
          · rw [Function.update_of_ne hnew] at he
            exact .inl he
  | delete tokenHash =>
    by_cases hgone : hash = normalizeHash u tokenHash
    · simp only [TokenCall.apply, deleteTempToken, hgone, Function.update_self] at he
      cases he
    · simp only [TokenCall.apply, deleteTempToken, Function.update_of_ne hgone] at he
      exact .inl he
  | reserve | refund | addCredit | deduct | adjust | purchase | update | setBillingPriority
  | migrate => cases hkind

/-- Every call keeps what holds of all tables. -/
theorem apply_inv (hu : PlainWords u) (hinv : TableInv u H tokens) (call : TokenCall) :
    TableInv u H (call.apply u b H tokens) := by
  cases hkind : call.rewrites with
  | true =>
    rw [apply_eq hu hinv hkind]
    exact rewrite_inv hinv fun entry entry' h hc => closure_current hu h call hc
  | false =>
    constructor
    · intro hash entry he
      rcases kept_or_new hu hinv hkind he with hold | ⟨-, hcurrent, -⟩
      · exact hinv.current hash entry hold
      · exact hcurrent
    · intro hash entry he
      rcases kept_or_new hu hinv hkind he with hold | ⟨hkey, -, -⟩
      · exact hinv.keyed hash entry hold
      · exact hkey

/-- One call keeps all entries right exactly when it leaves its token something. -/
theorem apply_synced_iff (hu : PlainWords u) (hinv : TableInv u H tokens) (hall : AllSynced tokens)
    (call : TokenCall) : AllSynced (call.apply u b H tokens) ↔ call.Leaves u tokens := by
  cases hkind : call.rewrites with
  | true =>
    rw [apply_eq hu hinv hkind, rewrite_synced_iff hall]
    constructor
    · intro h entry he
      exact (closure_synced_iff (hinv.current _ entry he) (hall _ entry he) call).mp (h entry he)
    · intro h entry he
      exact (closure_synced_iff (hinv.current _ entry he) (hall _ entry he) call).mpr (h entry he)
  | false =>
    refine iff_of_true ?_ ?_
    · intro hash entry he
      rcases kept_or_new hu hinv hkind he with hold | ⟨-, -, hsynced⟩
      · exact hall hash entry hold
      · exact hsynced hall
    · intro entry _
      cases call with
      | create | rotate | delete => trivial
      | reserve | refund | addCredit | deduct | adjust | purchase | update | setBillingPriority
      | migrate => cases hkind

end Calls

/-! ### Runs -/

section Runs

variable (u : Chars) (b : Backend) (H : TokenHash u)

theorem noTokens_inv : TableInv u H noTokens :=
  ⟨fun _ _ he => (by cases he), fun _ _ he => (by cases he)⟩

theorem noTokens_synced : AllSynced noTokens := fun _ _ he => (by cases he)

/-- The views agree in every table of a run exactly when every call leaves its token
something and writes no other limit. -/
theorem views_agree_iff (hu : PlainWords u) (calls : List TokenCall) :
    Throughout (fun call tokens => call.apply u b H tokens) (ViewsAgree u H) calls noTokens ↔
      AllSteps (fun call tokens => call.apply u b H tokens) (fun call tokens => call.Leaves u tokens)
        calls noTokens := by
  have hinv := noTokens_inv u H
  have hstep : ∀ (call : TokenCall) (tokens : Tokens), TableInv u H tokens →
      ViewsAgree u H tokens →
        (ViewsAgree u H (call.apply u b H tokens) ↔ call.Leaves u tokens) := by
    intro call tokens h hagree
    rw [viewsAgree_iff (apply_inv hu h call)]
    exact apply_synced_iff hu h ((viewsAgree_iff h).mp hagree) call
  have hkeep : ∀ (call : TokenCall) (tokens : Tokens), TableInv u H tokens →
      TableInv u H (call.apply u b H tokens) := fun call tokens h => apply_inv hu h call
  exact throughout_iff_allSteps_of_invariant hkeep hstep hinv
    ((viewsAgree_iff hinv).mpr noTokens_synced)

theorem plainWords_ascii : PlainWords .ascii := ⟨by decide, by decide⟩

/-- The digest of one token; all others get that of another one. -/
def twoDigests : TokenHash .ascii where
  hashToken token :=
    if token = newToken "AAAAAAAAAAAAAAAAAAAAAAAAAAAAAAAA" then
      "a1246bf6bd82720cdfe97388a37510b52bec10ffb584e2ccc920ce27192dc4ef"
    else "065b49d6b51d74830aa7abe0c3155e19a02313fd86f9ccecb5c14a2004924eac"
  normal token := by split <;> decide
  nonempty token := by split <;> decide

/-- A token of three points, of which one is taken; then the cached limit is set to five. -/
def limitWritten : List TokenCall :=
  [.create 1 3 1 "" 7 ["AAAAAAAAAAAAAAAAAAAAAAAAAAAAAAAA"] "t1",
    .adjust "a1246bf6bd82720cdfe97388a37510b52bec10ffb584e2ccc920ce27192dc4ef" 3 (.tenths (-10)) "t2",
    .update "a1246bf6bd82720cdfe97388a37510b52bec10ffb584e2ccc920ce27192dc4ef"
      { limit := some 5 } "t3"]

theorem views_agree_iff_limitWritten :
    PlainWords .ascii ∧
      (Throughout (fun call tokens => TokenCall.apply .ascii .postgres twoDigests call tokens)
          (ViewsAgree .ascii twoDigests) limitWritten noTokens ↔
        AllSteps (fun call tokens => TokenCall.apply .ascii .postgres twoDigests call tokens)
          (fun call tokens => call.Leaves .ascii tokens) limitWritten noTokens) :=
  ⟨plainWords_ascii, views_agree_iff .ascii .postgres twoDigests plainWords_ascii limitWritten⟩

/-- The limit that an administrator sets is shown by one view only. -/
theorem limit_shown_once :
    ¬ Throughout (fun call tokens => TokenCall.apply .ascii .postgres twoDigests call tokens)
      (ViewsAgree .ascii twoDigests) limitWritten noTokens := by
  intro h
  have hstored : ∃ entry, Runs.run
      (fun call tokens => TokenCall.apply .ascii .postgres twoDigests call tokens)
      limitWritten noTokens (twoDigests.hashToken (newToken "AAAAAAAAAAAAAAAAAAAAAAAAAAAAAAAA")) = some entry ∧
      entry.limit ≠ combinedLimit entry := ⟨_, rfl, by decide⟩
  obtain ⟨entry, hentry, hlimit⟩ := hstored
  exact hlimit (h.final _ entry (newToken_ne _) hentry).2

end Runs

end FetchTask.TempAccess
