import FetchTask.Accounts.Ledger
import Mathlib.Algebra.Order.BigOperators.Group.List
import Mathlib.Data.List.MinMax
import Mathlib.Data.List.Nodup
import Mathlib.Data.Prod.Lex
import Mathlib.Data.String.Basic

/-!
Merging of duplicate accounts (`merge_duplicate_accounts`).

Accounts with one fingerprint form a group; the digest that a fingerprint is made
with is a parameter. Of a group of two or more one
account is kept, chosen by a score; it takes over the charges that it lacks, and
the others are removed. The law says which lists of accounts lose nothing by
that.
-/

namespace FetchTask.Accounts

structure Cookie where
  name : String
  value : String
  domain : String
  path : String
  /-- The number as it is written; empty when the key is missing. -/
  expires : String := ""
  sameSite : String := ""
  httpOnly : Option Bool := none
  secure : Option Bool := none
  deriving DecidableEq

/-- An account with the cookies that it was made from. -/
structure CookieAccount extends Account where
  cookieFingerprint : String
  cookies : List Cookie
  createdAt : String
  accountSource : String := "admin"
  enabled : Bool := true
  cookieHeader : String := ""
  deriving DecidableEq

/-- The stored list of accounts; their ids are distinct. -/
structure AccountList where
  items : List CookieAccount
  nodup : (items.map fun a => a.id).Nodup

structure MergeResult where
  before : Nat
  after : Nat
  removed : Nat
  removedIds : List String
  keptIds : List String
  deriving DecidableEq

/-! ### Fingerprints -/

/-- The tuple that a cookie is sorted by. -/
def Cookie.key (c : Cookie) : List String := [c.name, c.value, c.domain, textOr c.path "/"]

section Fingerprints

variable (u : Chars) (digest : String → List (List String) → String)

def accountFingerprint (platform : String) (cookies : List Cookie) : Except String String :=
  (normalizePlatform u platform).map fun platform =>
    digest platform ((cookies.map Cookie.key).mergeSort fun p q => decide (p ≤ q))

/-- The stored fingerprint, or else that of the cookies. -/
def fingerprint (a : CookieAccount) : Except String String :=
  if a.cookieFingerprint = "" then accountFingerprint u digest a.platform a.cookies
  else .ok a.cookieFingerprint

end Fingerprints

/-! ### Merging -/

/-- The order of the numbers, as it is computed. -/
local instance (priority := 2000) preorderInt : Preorder Int :=
  Int.instLinearOrder.toPartialOrder.toPreorder

/-- The tuple that the accounts of a group are compared by. -/
def score (taskCounts : String → Int) (a : CookieAccount) :
    Int ×ₗ Nat ×ₗ Nat ×ₗ Int ×ₗ String ×ₗ String :=
  toLex (max 0 (taskCounts a.id), toLex (if a.currentTaskId = "" then 0 else 1,
    toLex (a.quota.charges.length, toLex (max 0 a.quota.used,
      toLex (textOr a.updatedAt a.lastUsedAt, a.createdAt)))))

/-- Append the charges whose ids are not there yet. -/
def addMissing : List Charge → List Charge → List Charge
  | merged, [] => merged
  | merged, charge :: charges =>
    if merged.any (·.chargeId == charge.chargeId) then addMissing merged charges
    else addMissing (merged ++ [charge]) charges

/-- The charges of the other accounts of a group, in order. -/
def otherCharges (keeper : CookieAccount) (group : List CookieAccount) : List Charge :=
  (group.filter (·.id ≠ keeper.id)).flatMap (·.quota.charges)

def mergedCharges (keeper : CookieAccount) (group : List CookieAccount) : List Charge :=
  addMissing keeper.quota.charges (otherCharges keeper group)

/-- The largest base of a group. -/
def largestBase (group : List CookieAccount) : Int :=
  (group.map fun a => max 0 a.quota.base).foldl max 0

/-- The account that is kept, with what it takes over from its group. -/
def takeOver (fp : String) (group : List CookieAccount) (keeper : CookieAccount) : CookieAccount :=
  let merged := mergedCharges keeper group
  { keeper with
    cookieFingerprint := fp
    quota :=
      if merged = [] then keeper.quota
      else { keeper.quota with
        charges := merged, initialized := true, base := largestBase group }.recount
    updatedAt := (group.map (·.updatedAt)).foldl max "" }

section Merge

variable (u : Chars) (digest : String → List (List String) → String) (taskCounts : String → Int)

def groupOf (accounts : List CookieAccount) (fp : String) : List CookieAccount :=
  accounts.filter fun a => fingerprint u digest a = .ok fp

/-- The account that is kept of a group; a single account needs none. -/
def keeperOf (group : List CookieAccount) : Option CookieAccount :=
  if group.length < 2 then none else group.argmax (score taskCounts)

/-- An account as the loop leaves it. -/
def merged (accounts : List CookieAccount) (a : CookieAccount) : CookieAccount :=
  match fingerprint u digest a with
  | .error _ => a
  | .ok fp =>
    let group := groupOf u digest accounts fp
    match keeperOf taskCounts group with
    | none => { a with cookieFingerprint := fp }
    | some keeper => if a.id = keeper.id then takeOver fp group keeper else a

/-- The ids that the loop collects for one group. -/
def removedOf (group : List CookieAccount) : List String :=
  match keeperOf taskCounts group with
  | none => []
  | some keeper => (group.filter (·.id ≠ keeper.id)).map fun a => a.id

/-- The fingerprints in the order of the groups. -/
def fingerprints (accounts : List CookieAccount) : List String :=
  (accounts.filterMap fun a => (fingerprint u digest a).toOption).eraseDups

/-- The first exception of the first loop. -/
def fingerprintError (accounts : List CookieAccount) : Option String :=
  accounts.findSome? fun a =>
    match fingerprint u digest a with
    | .error e => some e
    | .ok _ => none

def removedIds (accounts : List CookieAccount) : List String :=
  (fingerprints u digest accounts).flatMap fun fp =>
    removedOf taskCounts (groupOf u digest accounts fp)

def keptIds (accounts : List CookieAccount) : List String :=
  (fingerprints u digest accounts).filterMap fun fp =>
    (keeperOf taskCounts (groupOf u digest accounts fp)).map fun a => a.id

theorem merged_id (accounts : List CookieAccount) (a : CookieAccount) :
    (merged u digest taskCounts accounts a).id = a.id := by
  simp only [merged]
  split
  · rfl
  · split
    · rfl
    · split_ifs with h
      · exact h.symm
      · rfl

/-- The accounts that are left. -/
def mergedList (accounts : AccountList) : AccountList where
  items := (accounts.items.map (merged u digest taskCounts accounts.items)).filter fun a =>
    a.id ∉ removedIds u digest taskCounts accounts.items
  nodup := by
    have hids : (accounts.items.map (merged u digest taskCounts accounts.items)).map (fun a => a.id) =
        accounts.items.map fun a => a.id := by
      rw [List.map_map]
      exact List.map_congr_left fun a _ => merged_id u digest taskCounts accounts.items a
    exact (List.filter_sublist.map fun a : CookieAccount => a.id).nodup (hids ▸ accounts.nodup)

/-- The result and the list that is stored after it; a file is written only when an account
is removed. -/
def mergeDuplicateAccounts (b : Backend) (accounts : AccountList) :
    Except String (MergeResult × AccountList) :=
  match fingerprintError u digest accounts.items with
  | some e => .error e
  | none =>
    let left := mergedList u digest taskCounts accounts
    let removed := removedIds u digest taskCounts accounts.items
    .ok ({ before := accounts.items.length
           after := left.items.length
           removed := removed.length
           removedIds := removed
           keptIds := keptIds u digest taskCounts accounts.items },
      match b with
      | .postgres => left
      | .jsonFile => if removed.length = 0 then accounts else left)

end Merge

/-! ### The law -/

def Ledger.ids (l : Ledger) : List ChargeId := l.charges.map (·.chargeId)

/-- What is asked of the account that is kept of a group. -/
structure GroupMerged (group : List CookieAccount) (kept : CookieAccount) : Prop where
  member : ∃ a ∈ group, a.id = kept.id
  quota : ∀ a ∈ group, ∀ id ∈ a.quota.ids, kept.quota.ids.count id = 1
  studio : ∀ a ∈ group, ∀ id ∈ a.studio.ids, kept.studio.ids.count id = 1
  quotaUsed : ∀ a ∈ group, a.quota.used ≤ kept.quota.used
  studioUsed : ∀ a ∈ group, a.studio.used ≤ kept.studio.used
  lease : ∀ a ∈ group, a.id ≠ kept.id → a.currentTaskId ≠ "" →
    kept.currentTaskId = a.currentTaskId

/-- The charges of a group, each id once: the keeper's charge where it has one, and else
the first of the others. -/
def distinctCharges (keeper : CookieAccount) (group : List CookieAccount) : List Charge :=
  addMissing [] (keeper.quota.charges ++ otherCharges keeper group)

/-- The ledger adds up, and every charge of it counts as much among `charges`. -/
structure Ledger.CountedIn (l : Ledger) (charges : List Charge) : Prop where
  initialized : l.initialized = true
  once : l.ids.Nodup
  counted : ∀ c ∈ l.charges, c.isActive = true →
    ∃ d ∈ charges, d.chargeId = c.chargeId ∧ d.isActive = true ∧ c.weight ≤ d.weight

/-- The condition on an account of a group with the highest score. -/
structure KeeperCovers (group : List CookieAccount) (keeper : CookieAccount) : Prop where
  once : keeper.quota.ids.Nodup
  uncharged : (∀ a ∈ group, a.quota.charges = []) → ∀ a ∈ group, a.quota.used ≤ keeper.quota.used
  uncounted : (∃ a ∈ group, a.quota.charges ≠ []) → ∀ a ∈ group,
    ¬ a.quota.CountedIn (distinctCharges keeper group) →
      a.quota.used ≤ largestBase group + activeUnits (distinctCharges keeper group)
  studio : ∀ a ∈ group, ∀ id ∈ a.studio.ids, keeper.studio.ids.count id = 1
  studioUsed : ∀ a ∈ group, a.studio.used ≤ keeper.studio.used
  lease : ∀ a ∈ group, a.id ≠ keeper.id → a.currentTaskId ≠ "" →
    keeper.currentTaskId = a.currentTaskId

section Law

variable (u : Chars) (digest : String → List (List String) → String) (taskCounts : String → Int)

/-- What is asked of a merge that turned `accounts` into `after`. -/
structure LosesNothing (b : Backend) (accounts after : AccountList) : Prop where
  single : ∀ fp, groupOf u digest accounts.items fp ≠ [] →
    (groupOf u digest after.items fp).length = 1
  alone : ∀ fp a, groupOf u digest accounts.items fp = [a] →
    ∃ stored, { a with cookieFingerprint := stored } ∈ after.items
  grouped : ∀ fp kept, 2 ≤ (groupOf u digest accounts.items fp).length →
    kept ∈ groupOf u digest after.items fp → GroupMerged (groupOf u digest accounts.items fp) kept
  again : ∀ taskCounts', ∃ result after',
    mergeDuplicateAccounts u digest taskCounts' b after = .ok (result, after') ∧ result.removed = 0

/-- The condition on a group. -/
def Mergeable (group : List CookieAccount) : Prop :=
  2 ≤ group.length → ∀ keeper ∈ group.argmax (score taskCounts), KeeperCovers group keeper

end Law

/-! ### Charges -/

section Charges

theorem addMissing_ids (merged charges : List Charge) :
    ∃ new : List Charge, addMissing merged charges = merged ++ new ∧
      (new.map (·.chargeId)).Nodup ∧ (∀ c ∈ new, c.chargeId ∉ merged.map (·.chargeId)) ∧
      ∀ c ∈ charges, c.chargeId ∈ (merged ++ new).map (·.chargeId) := by
  induction charges generalizing merged with
  | nil => exact ⟨[], by simp [addMissing], by simp, by simp, by simp⟩
  | cons charge charges ih =>
    rw [addMissing]
    split_ifs with hin
    · obtain ⟨new, heq, hnodup, hnew, hall⟩ := ih merged
      refine ⟨new, heq, hnodup, hnew, fun c hc => ?_⟩
      rcases List.mem_cons.mp hc with rfl | hc
      · obtain ⟨d, hd, hid⟩ := List.any_eq_true.mp hin
        rw [List.map_append]
        exact List.mem_append_left _ (List.mem_map.mpr ⟨d, hd, beq_iff_eq.mp hid⟩)
      · exact hall c hc
    · obtain ⟨new, heq, hnodup, hnew, hall⟩ := ih (merged ++ [charge])
      refine ⟨charge :: new, ?_, ?_, ?_, ?_⟩
      · rw [heq, List.append_assoc]
        rfl
      · rw [List.map_cons, List.nodup_cons]
        refine ⟨fun hmem => ?_, hnodup⟩
        obtain ⟨c, hc, hid⟩ := List.mem_map.mp hmem
        exact hnew c hc (by simp [hid])
      · intro c hc hmem
        rcases List.mem_cons.mp hc with rfl | hc
        · obtain ⟨d, hd, hid⟩ := List.mem_map.mp hmem
          exact hin (List.any_eq_true.mpr ⟨d, hd, beq_iff_eq.mpr hid⟩)
        · exact hnew c hc (by rw [List.map_append]; exact List.mem_append_left _ hmem)
      · intro c hc
        rcases List.mem_cons.mp hc with rfl | hc
        · simp
        · have hmem := hall c hc
          rwa [List.append_assoc] at hmem

theorem addMissing_append (merged charges charges' : List Charge) :
    addMissing merged (charges ++ charges') = addMissing (addMissing merged charges) charges' := by
  induction charges generalizing merged with
  | nil => rfl
  | cons charge charges ih =>
    rw [List.cons_append, addMissing, addMissing]
    split_ifs
    · exact ih merged
    · exact ih (merged ++ [charge])

theorem addMissing_of_nodup {merged charges : List Charge}
    (h : ((merged ++ charges).map (·.chargeId)).Nodup) :
    addMissing merged charges = merged ++ charges := by
  induction charges generalizing merged with
  | nil => simp [addMissing]
  | cons charge charges ih =>
    have hfresh : ¬ merged.any (·.chargeId == charge.chargeId) = true := by
      intro hany
      obtain ⟨d, hd, hid⟩ := List.any_eq_true.mp hany
      rw [List.map_append] at h
      refine (List.disjoint_of_nodup_append h) (List.mem_map_of_mem hd) ?_
      exact List.mem_map.mpr ⟨charge, List.mem_cons_self, (beq_iff_eq.mp hid).symm⟩
    rw [addMissing, if_neg hfresh, ih (by simpa using h), List.append_assoc]
    rfl

/-- A keeper without repeated charges takes over each of the others once. -/
theorem mergedCharges_eq {keeper : CookieAccount} (h : keeper.quota.ids.Nodup)
    (group : List CookieAccount) : mergedCharges keeper group = distinctCharges keeper group := by
  have hown : addMissing [] keeper.quota.charges = keeper.quota.charges := addMissing_of_nodup h
  rw [distinctCharges, addMissing_append, hown, mergedCharges]

theorem weight_nonneg (c : Charge) : 0 ≤ c.weight :=
  le_trans (by decide) (le_max_left 1 (orDefault c.units 1))

theorem activeUnits_erase {charges : List Charge} {c : Charge} (h : c ∈ charges)
    (hactive : c.isActive = true) :
    activeUnits charges = c.weight + activeUnits (charges.erase c) := by
  have hperm := List.perm_cons_erase h
  have hfilter := (hperm.filter Charge.isActive).map Charge.weight
  rw [activeUnits, hfilter.sum_eq, List.filter_cons_of_pos hactive]
  rfl

/-- Charges that all count among others count no more than these. -/
theorem activeUnits_le {charges others : List Charge} (hnodup : (charges.map (·.chargeId)).Nodup)
    (h : ∀ c ∈ charges, c.isActive = true →
      ∃ d ∈ others, d.chargeId = c.chargeId ∧ d.isActive = true ∧ c.weight ≤ d.weight) :
    activeUnits charges ≤ activeUnits others := by
  induction charges generalizing others with
  | nil =>
    refine List.sum_nonneg fun w hw => ?_
    obtain ⟨c, -, rfl⟩ := List.mem_map.mp hw
    exact weight_nonneg c
  | cons c charges ih =>
    obtain ⟨hnew, hrest⟩ := List.nodup_cons.mp hnodup
    have htail := fun e he => h e (List.mem_cons_of_mem c he)
    cases hactive : c.isActive with
    | false =>
      have hskip : activeUnits (c :: charges) = activeUnits charges := by
        simp [activeUnits, hactive]
      rw [hskip]
      exact ih hrest htail
    | true =>
      obtain ⟨d, hd, hid, hdactive, hweight⟩ := h c List.mem_cons_self hactive
      have hcons : activeUnits (c :: charges) = c.weight + activeUnits charges := by
        simp [activeUnits, hactive]
      have hle : activeUnits charges ≤ activeUnits (others.erase d) := by
        refine ih hrest fun e he heactive => ?_
        obtain ⟨f, hf, hfid, hfactive, hfweight⟩ := htail e he heactive
        have hne : f ≠ d := by
          rintro rfl
          exact hnew (List.mem_map.mpr ⟨e, he, hfid.symm.trans hid⟩)
        exact ⟨f, (List.mem_erase_of_ne hne).mpr hf, hfid, hfactive, hfweight⟩
      rw [hcons, activeUnits_erase hd hdactive]
      omega

theorem le_foldl_max (l : List Int) (m : Int) : m ≤ l.foldl max m ∧ ∀ x ∈ l, x ≤ l.foldl max m := by
  induction l generalizing m with
  | nil => exact ⟨le_refl m, fun x hx => by cases hx⟩
  | cons y ys ih =>
    obtain ⟨hstart, hall⟩ := ih (max m y)
    rw [List.foldl_cons]
    refine ⟨(le_max_left m y).trans hstart, fun x hx => ?_⟩
    rcases List.mem_cons.mp hx with rfl | hx
    · exact (le_max_right m x).trans hstart
    · exact hall x hx

theorem base_le_largestBase {group : List CookieAccount} {a : CookieAccount} (h : a ∈ group) :
    max 0 a.quota.base ≤ largestBase group :=
  (le_foldl_max _ 0).2 _ (List.mem_map_of_mem (f := fun a : CookieAccount => max 0 a.quota.base) h)

end Charges

/-! ### Groups -/

section Groups

variable {u : Chars} {digest : String → List (List String) → String}
  {taskCounts : String → Int} {accounts : AccountList} {fp : String}

theorem mem_groupOf {items : List CookieAccount} {a : CookieAccount} :
    a ∈ groupOf u digest items fp ↔ a ∈ items ∧ fingerprint u digest a = .ok fp := by
  simp [groupOf]

theorem fingerprintError_eq_none {items : List CookieAccount} :
    fingerprintError u digest items = none ↔
      ∀ a ∈ items, ∃ fp, fingerprint u digest a = .ok fp := by
  rw [fingerprintError, List.findSome?_eq_none_iff]
  refine forall₂_congr fun a _ => ?_
  cases hfp : fingerprint u digest a with
  | error e => simp
  | ok fp => simp

theorem keeperOf_eq_some {group : List CookieAccount} {keeper : CookieAccount} :
    keeperOf taskCounts group = some keeper ↔
      2 ≤ group.length ∧ keeper ∈ group.argmax (score taskCounts) := by
  rw [keeperOf]
  split_ifs with h
  · simp only [false_iff, not_and]
    omega
  · exact ⟨fun hk => ⟨by omega, hk⟩, fun hk => hk.2⟩

theorem keeperOf_mem {group : List CookieAccount} {keeper : CookieAccount}
    (h : keeperOf taskCounts group = some keeper) : keeper ∈ group :=
  List.argmax_mem (keeperOf_eq_some.mp h).2

theorem keeperOf_eq_none {group : List CookieAccount} :
    keeperOf taskCounts group = none ↔ group.length < 2 := by
  rw [keeperOf]
  split_ifs with h
  · exact iff_of_true rfl h
  · refine iff_of_false (fun hnone => ?_) h
    rw [List.argmax_eq_none] at hnone
    exact h (by rw [hnone]; decide)

theorem fingerprint_stored {a c : CookieAccount} (ha : fingerprint u digest a = .ok fp)
    (hstored : c.cookieFingerprint = fp) (hplatform : c.platform = a.platform)
    (hcookies : c.cookies = a.cookies) : fingerprint u digest c = .ok fp := by
  rw [fingerprint, hstored, hplatform, hcookies]
  split_ifs with hfp
  · rw [fingerprint] at ha
    split_ifs at ha
    · exact ha
    · rename_i hne
      exact absurd ((Except.ok.inj ha).trans hfp) hne
  · rfl

theorem eq_of_id_eq {a c : CookieAccount} (ha : a ∈ accounts.items) (hc : c ∈ accounts.items)
    (hid : a.id = c.id) : a = c :=
  List.inj_on_of_nodup_map accounts.nodup ha hc hid

/-- The loop leaves every account in its group. -/
theorem merged_fingerprint {a : CookieAccount} (ha : a ∈ accounts.items)
    (hfp : fingerprint u digest a = .ok fp) :
    fingerprint u digest (merged u digest taskCounts accounts.items a) = .ok fp := by
  simp only [merged, hfp]
  split
  · exact fingerprint_stored hfp rfl rfl rfl
  · rename_i keeper hkeeper
    have hmem := (mem_groupOf.mp (keeperOf_mem hkeeper)).1
    split_ifs with hid
    · obtain rfl := eq_of_id_eq ha hmem hid
      exact fingerprint_stored hfp rfl rfl rfl
    · exact hfp

theorem merged_keeper {keeper : CookieAccount}
    (hkeeper : keeperOf taskCounts (groupOf u digest accounts.items fp) = some keeper) :
    merged u digest taskCounts accounts.items keeper =
      takeOver fp (groupOf u digest accounts.items fp) keeper := by
  have hfp := (mem_groupOf.mp (keeperOf_mem hkeeper)).2
  simp only [merged, hfp, hkeeper, if_true]

theorem merged_single {a : CookieAccount} (hfp : fingerprint u digest a = .ok fp)
    (hkeeper : keeperOf taskCounts (groupOf u digest accounts.items fp) = none) :
    merged u digest taskCounts accounts.items a = { a with cookieFingerprint := fp } := by
  simp only [merged, hfp, hkeeper]

/-- The removed accounts are those that are not the keeper of their group. -/
theorem mem_removedIds {a : CookieAccount} (ha : a ∈ accounts.items)
    (hfp : fingerprint u digest a = .ok fp) :
    a.id ∈ removedIds u digest taskCounts accounts.items ↔
      ∃ keeper, keeperOf taskCounts (groupOf u digest accounts.items fp) = some keeper ∧
        a.id ≠ keeper.id := by
  rw [removedIds, List.mem_flatMap]
  constructor
  · rintro ⟨fp', -, hremoved⟩
    simp only [removedOf] at hremoved
    split at hremoved
    · cases hremoved
    · rename_i keeper hkeeper
      obtain ⟨c, hc, hid⟩ := List.mem_map.mp hremoved
      obtain ⟨hc, hne⟩ := List.mem_filter.mp hc
      obtain ⟨hcmem, hcfp⟩ := mem_groupOf.mp hc
      obtain rfl := eq_of_id_eq hcmem ha hid
      obtain rfl := Except.ok.inj (hcfp.symm.trans hfp)
      exact ⟨keeper, hkeeper, by simpa using hne⟩
  · rintro ⟨keeper, hkeeper, hne⟩
    refine ⟨fp, ?_, ?_⟩
    · rw [fingerprints, List.mem_eraseDups, List.mem_filterMap]
      exact ⟨a, ha, by rw [hfp]; rfl⟩
    · simp only [removedOf, hkeeper]
      refine List.mem_map.mpr ⟨a, List.mem_filter.mpr ⟨mem_groupOf.mpr ⟨ha, hfp⟩, ?_⟩, rfl⟩
      simpa using hne

theorem mem_mergedList {c : CookieAccount} :
    c ∈ (mergedList u digest taskCounts accounts).items ↔
      ∃ a ∈ accounts.items, c = merged u digest taskCounts accounts.items a ∧
        a.id ∉ removedIds u digest taskCounts accounts.items := by
  simp only [mergedList, List.mem_filter, List.mem_map]
  constructor
  · rintro ⟨⟨a, ha, rfl⟩, hkept⟩
    rw [merged_id] at hkept
    exact ⟨a, ha, rfl, by simpa using hkept⟩
  · rintro ⟨a, ha, rfl, hkept⟩
    rw [merged_id]
    exact ⟨⟨a, ha, rfl⟩, by simpa using hkept⟩

/-- What is left of a group with a keeper is the keeper. -/
theorem mem_group_after {c keeper : CookieAccount}
    (hok : fingerprintError u digest accounts.items = none)
    (hkeeper : keeperOf taskCounts (groupOf u digest accounts.items fp) = some keeper) :
    c ∈ groupOf u digest (mergedList u digest taskCounts accounts).items fp ↔
      c = takeOver fp (groupOf u digest accounts.items fp) keeper := by
  obtain ⟨hkmem, hkfp⟩ := mem_groupOf.mp (keeperOf_mem hkeeper)
  rw [mem_groupOf, mem_mergedList]
  constructor
  · rintro ⟨⟨a, ha, rfl, hkept⟩, hfp⟩
    obtain ⟨fp', hfp'⟩ := fingerprintError_eq_none.mp hok a ha
    obtain rfl := Except.ok.inj ((merged_fingerprint ha hfp').symm.trans hfp)
    have hid : a.id = keeper.id := by
      by_contra hne
      exact hkept ((mem_removedIds ha hfp').mpr ⟨keeper, hkeeper, hne⟩)
    obtain rfl := eq_of_id_eq ha hkmem hid
    exact merged_keeper hkeeper
  · rintro rfl
    rw [← merged_keeper hkeeper]
    refine ⟨⟨keeper, hkmem, rfl, fun hremoved => ?_⟩, merged_fingerprint hkmem hkfp⟩
    obtain ⟨keeper', hkeeper', hne⟩ := (mem_removedIds hkmem hkfp).mp hremoved
    obtain rfl := Option.some.inj (hkeeper.symm.trans hkeeper')
    exact hne rfl

theorem mem_single_after {c : CookieAccount}
    (hok : fingerprintError u digest accounts.items = none)
    (hkeeper : keeperOf taskCounts (groupOf u digest accounts.items fp) = none) :
    c ∈ groupOf u digest (mergedList u digest taskCounts accounts).items fp ↔
      ∃ a ∈ groupOf u digest accounts.items fp, c = { a with cookieFingerprint := fp } := by
  rw [mem_groupOf, mem_mergedList]
  constructor
  · rintro ⟨⟨a, ha, rfl, -⟩, hfp⟩
    obtain ⟨fp', hfp'⟩ := fingerprintError_eq_none.mp hok a ha
    obtain rfl := Except.ok.inj ((merged_fingerprint ha hfp').symm.trans hfp)
    exact ⟨a, mem_groupOf.mpr ⟨ha, hfp'⟩, merged_single hfp' hkeeper⟩
  · rintro ⟨a, ha, rfl⟩
    obtain ⟨hmem, hfp⟩ := mem_groupOf.mp ha
    have hmerged := merged_single hfp hkeeper
    rw [← hmerged]
    refine ⟨⟨a, hmem, rfl, fun hremoved => ?_⟩, merged_fingerprint hmem hfp⟩
    obtain ⟨keeper', hkeeper', -⟩ := (mem_removedIds hmem hfp).mp hremoved
    rw [hkeeper] at hkeeper'
    cases hkeeper'

theorem groupOf_nodup (list : AccountList) : (groupOf u digest list.items fp).Nodup :=
  (List.Nodup.of_map _ list.nodup).filter _

theorem eq_singleton_of_mem {l : List CookieAccount} {c : CookieAccount} (hl : l.Nodup)
    (h : ∀ x, x ∈ l ↔ x = c) : l = [c] := by
  have hperm : l.Perm [c] :=
    (List.perm_ext_iff_of_nodup hl (List.nodup_singleton c)).mpr fun x => by simp [h x]
  exact List.perm_singleton.mp hperm

theorem group_with_keeper {keeper : CookieAccount}
    (hok : fingerprintError u digest accounts.items = none)
    (hkeeper : keeperOf taskCounts (groupOf u digest accounts.items fp) = some keeper) :
    groupOf u digest (mergedList u digest taskCounts accounts).items fp =
      [takeOver fp (groupOf u digest accounts.items fp) keeper] :=
  eq_singleton_of_mem (groupOf_nodup _) fun _ => mem_group_after hok hkeeper

theorem group_of_single (taskCounts : String → Int) {a : CookieAccount}
    (hok : fingerprintError u digest accounts.items = none)
    (ha : groupOf u digest accounts.items fp = [a]) :
    groupOf u digest (mergedList u digest taskCounts accounts).items fp =
      [{ a with cookieFingerprint := fp }] := by
  have hkeeper : keeperOf taskCounts (groupOf u digest accounts.items fp) = none :=
    keeperOf_eq_none.mpr (by rw [ha]; exact Nat.lt_succ_self 1)
  refine eq_singleton_of_mem (groupOf_nodup _) fun c => ?_
  rw [mem_single_after hok hkeeper, ha]
  simp

/-- One account of every group is left. -/
theorem group_after_length (hok : fingerprintError u digest accounts.items = none)
    (h : groupOf u digest accounts.items fp ≠ []) :
    (groupOf u digest (mergedList u digest taskCounts accounts).items fp).length = 1 := by
  cases hkeeper : keeperOf taskCounts (groupOf u digest accounts.items fp) with
  | some keeper =>
    rw [group_with_keeper hok hkeeper]
    rfl
  | none =>
    have hshort := keeperOf_eq_none.mp hkeeper
    have hpos := List.length_pos_of_ne_nil h
    have hone : (groupOf u digest accounts.items fp).length = 1 := by omega
    obtain ⟨a, ha⟩ := List.length_eq_one_iff.mp hone
    rw [group_of_single taskCounts hok ha]
    rfl

theorem group_after_lt (hok : fingerprintError u digest accounts.items = none) :
    (groupOf u digest (mergedList u digest taskCounts accounts).items fp).length < 2 := by
  by_cases h : groupOf u digest accounts.items fp = []
  · have hkeeper : keeperOf taskCounts (groupOf u digest accounts.items fp) = none :=
      keeperOf_eq_none.mpr (by rw [h]; decide)
    have hempty : groupOf u digest (mergedList u digest taskCounts accounts).items fp = [] := by
      rw [List.eq_nil_iff_forall_not_mem]
      intro c hc
      obtain ⟨a, ha, -⟩ := (mem_single_after hok hkeeper).mp hc
      rw [h] at ha
      cases ha
    rw [hempty]
    decide
  · rw [group_after_length hok h]
    decide

theorem fingerprintError_after (hok : fingerprintError u digest accounts.items = none) :
    fingerprintError u digest (mergedList u digest taskCounts accounts).items = none := by
  rw [fingerprintError_eq_none]
  intro c hc
  obtain ⟨a, ha, rfl, -⟩ := mem_mergedList.mp hc
  obtain ⟨fp, hfp⟩ := fingerprintError_eq_none.mp hok a ha
  exact ⟨fp, merged_fingerprint ha hfp⟩

/-- Nothing is removed exactly when no two accounts share a fingerprint. -/
theorem removedIds_eq_nil :
    removedIds u digest taskCounts accounts.items = [] ↔
      ∀ fp, (groupOf u digest accounts.items fp).length < 2 := by
  constructor
  · intro hnil fp
    by_contra hlong
    cases hkeeper : keeperOf taskCounts (groupOf u digest accounts.items fp) with
    | none => exact hlong (keeperOf_eq_none.mp hkeeper)
    | some keeper =>
      have honly : groupOf u digest accounts.items fp = [keeper] := by
        refine eq_singleton_of_mem (groupOf_nodup _) fun a => ⟨fun ha => ?_, ?_⟩
        · obtain ⟨hmem, hfp⟩ := mem_groupOf.mp ha
          by_contra hne
          have hremoved := (mem_removedIds hmem hfp).mpr ⟨keeper, hkeeper, fun hid =>
            hne (eq_of_id_eq hmem (mem_groupOf.mp (keeperOf_mem hkeeper)).1 hid)⟩
          rw [hnil] at hremoved
          cases hremoved
        · rintro rfl
          exact keeperOf_mem hkeeper
      rw [honly] at hlong
      exact hlong (Nat.lt_succ_self 1)
  · intro hshort
    rw [removedIds, List.flatMap_eq_nil_iff]
    intro fp _
    simp only [removedOf, keeperOf_eq_none.mpr (hshort fp)]

end Groups

/-! ### Exactness -/

section Exactness

variable {u : Chars} {digest : String → List (List String) → String}
  {taskCounts : String → Int} {accounts : AccountList} {fp : String}

section Keeper

variable {group : List CookieAccount} {keeper : CookieAccount}

theorem takeOver_ids (fp : String) (group : List CookieAccount) (keeper : CookieAccount) :
    (takeOver fp group keeper).quota.ids = (mergedCharges keeper group).map (·.chargeId) := by
  simp only [takeOver]
  split_ifs with h
  · obtain ⟨new, heq, -⟩ := addMissing_ids keeper.quota.charges (otherCharges keeper group)
    have hown : keeper.quota.charges = [] := by
      rw [mergedCharges, heq] at h
      exact (List.append_eq_nil_iff.mp h).1
    rw [h, Ledger.ids, hown]
  · rfl

/-- Each charge of a group is the keeper's or one of the others'. -/
theorem charge_mem_iff (hkeeper : keeper ∈ group)
    (hunique : ∀ a ∈ group, a.id = keeper.id → a = keeper) {c : Charge} :
    c ∈ keeper.quota.charges ++ otherCharges keeper group ↔ ∃ a ∈ group, c ∈ a.quota.charges := by
  simp only [List.mem_append, otherCharges, List.mem_flatMap, List.mem_filter, decide_eq_true_eq]
  constructor
  · rintro (hc | ⟨a, ⟨ha, -⟩, hc⟩)
    · exact ⟨keeper, hkeeper, hc⟩
    · exact ⟨a, ha, hc⟩
  · rintro ⟨a, ha, hc⟩
    by_cases hid : a.id = keeper.id
    · exact .inl (hunique a ha hid ▸ hc)
    · exact .inr ⟨a, ⟨ha, hid⟩, hc⟩

theorem mergedCharges_eq_nil (hkeeper : keeper ∈ group)
    (hunique : ∀ a ∈ group, a.id = keeper.id → a = keeper) :
    mergedCharges keeper group = [] ↔ ∀ a ∈ group, a.quota.charges = [] := by
  obtain ⟨new, heq, -, -, hall⟩ :=
    addMissing_ids keeper.quota.charges (otherCharges keeper group)
  rw [mergedCharges, heq]
  constructor
  · intro hnil a ha
    rw [List.eq_nil_iff_forall_not_mem]
    intro c hc
    rcases List.mem_append.mp ((charge_mem_iff hkeeper hunique).mpr ⟨a, ha, hc⟩) with hown | hother
    · rw [(List.append_eq_nil_iff.mp hnil).1] at hown
      cases hown
    · have hid := hall c hother
      rw [hnil] at hid
      cases hid
  · intro hnone
    have hothers : otherCharges keeper group = [] := by
      rw [List.eq_nil_iff_forall_not_mem]
      intro c hc
      obtain ⟨a, ha, hc⟩ := (charge_mem_iff hkeeper hunique).mp (List.mem_append_right _ hc)
      rw [hnone a ha] at hc
      cases hc
    rw [← heq, hothers, hnone keeper hkeeper, addMissing]

/-- The keeper holds every charge once exactly when its own charges are distinct. -/
theorem takeOver_once_iff (fp : String) (hkeeper : keeper ∈ group)
    (hunique : ∀ a ∈ group, a.id = keeper.id → a = keeper) :
    (∀ a ∈ group, ∀ id ∈ a.quota.ids, (takeOver fp group keeper).quota.ids.count id = 1) ↔
      keeper.quota.ids.Nodup := by
  obtain ⟨new, heq, hnodup, hnew, hall⟩ :=
    addMissing_ids keeper.quota.charges (otherCharges keeper group)
  have hids : (takeOver fp group keeper).quota.ids =
      keeper.quota.ids ++ new.map (·.chargeId) := by
    rw [takeOver_ids, mergedCharges, heq, List.map_append]
    rfl
  rw [hids]
  constructor
  · intro h
    rw [List.nodup_iff_count_le_one]
    intro id
    by_cases hid : id ∈ keeper.quota.ids
    · have hone := h keeper hkeeper id hid
      rw [List.count_append] at hone
      omega
    · rw [List.count_eq_zero_of_not_mem hid]
      omega
  · intro h a ha id hid
    have hmerged : (keeper.quota.ids ++ new.map (·.chargeId)).Nodup := by
      refine List.nodup_append.mpr ⟨h, hnodup, ?_⟩
      rintro x hx y hy rfl
      obtain ⟨c, hc, rfl⟩ := List.mem_map.mp hy
      exact hnew c hc hx
    refine List.count_eq_one_of_mem hmerged ?_
    obtain ⟨c, hc, rfl⟩ := List.mem_map.mp hid
    rcases List.mem_append.mp ((charge_mem_iff hkeeper hunique).mpr ⟨a, ha, hc⟩) with hown | hother
    · exact List.mem_append_left _ (List.mem_map_of_mem hown)
    · have hin := hall c hother
      rwa [List.map_append] at hin

theorem takeOver_used_of_none (fp : String) (h : mergedCharges keeper group = []) :
    (takeOver fp group keeper).quota.used = keeper.quota.used := by
  simp only [takeOver, h, if_true]

theorem takeOver_used (fp : String) (hkeeper : keeper ∈ group)
    (h : mergedCharges keeper group ≠ []) : (takeOver fp group keeper).quota.used =
      largestBase group + activeUnits (mergedCharges keeper group) := by
  have hbase : 0 ≤ largestBase group :=
    le_trans (le_max_left 0 keeper.quota.base) (base_le_largestBase hkeeper)
  simp only [takeOver, if_neg h, Ledger.recount, Ledger.reconciledQuotaUsed]
  rw [max_eq_right hbase]

/-- An account whose charges all count is covered. -/
theorem used_le_of_countedIn {a : CookieAccount} (ha : a ∈ group) (hadds : a.quota.Adds)
    {charges : List Charge} (h : a.quota.CountedIn charges) :
    a.quota.used ≤ largestBase group + activeUnits charges := by
  have hused := hadds h.initialized
  have hbase := base_le_largestBase ha
  have hunits : activeUnits a.quota.charges ≤ activeUnits charges := activeUnits_le h.once h.counted
  rw [hused, Ledger.reconciledQuotaUsed]
  omega

theorem groupMerged_iff (fp : String) (hkeeper : keeper ∈ group)
    (hunique : ∀ a ∈ group, a.id = keeper.id → a = keeper) (hadds : ∀ a ∈ group, a.quota.Adds) :
    GroupMerged group (takeOver fp group keeper) ↔ KeeperCovers group keeper := by
  have honce := takeOver_once_iff fp hkeeper hunique
  have hnil := mergedCharges_eq_nil hkeeper hunique
  constructor
  · intro h
    have hown := honce.mp h.quota
    have hdistinct := mergedCharges_eq hown group
    refine ⟨hown, fun hnone a ha => ?_, fun hsome a ha _ => ?_, h.studio, h.studioUsed, h.lease⟩
    · rw [← takeOver_used_of_none fp (hnil.mpr hnone)]
      exact h.quotaUsed a ha
    · have hne : mergedCharges keeper group ≠ [] := by
        rw [Ne, hnil]
        push Not
        exact hsome
      rw [← hdistinct, ← takeOver_used fp hkeeper hne]
      exact h.quotaUsed a ha
  · intro h
    have hdistinct := mergedCharges_eq h.once group
    refine ⟨⟨keeper, hkeeper, rfl⟩, honce.mpr h.once, h.studio, fun a ha => ?_, h.studioUsed,
      h.lease⟩
    by_cases hnone : mergedCharges keeper group = []
    · rw [takeOver_used_of_none fp hnone]
      exact h.uncharged (hnil.mp hnone) a ha
    · rw [takeOver_used fp hkeeper hnone, hdistinct]
      by_cases hcounted : a.quota.CountedIn (distinctCharges keeper group)
      · exact used_le_of_countedIn ha (hadds a ha) hcounted
      · refine h.uncounted ?_ a ha hcounted
        rw [hnil] at hnone
        push Not at hnone
        exact hnone

end Keeper

/-- What is stored after a merge that raises nothing. -/
theorem merge_ok (b : Backend) (hok : fingerprintError u digest accounts.items = none) :
    ∃ result after, mergeDuplicateAccounts u digest taskCounts b accounts = .ok (result, after) ∧
      (after = mergedList u digest taskCounts accounts ∨
        after = accounts ∧ ∀ fp, (groupOf u digest accounts.items fp).length < 2) ∧
      (result.removed = 0 ↔ ∀ fp, (groupOf u digest accounts.items fp).length < 2) := by
  have hremoved : (removedIds u digest taskCounts accounts.items).length = 0 ↔
      ∀ fp, (groupOf u digest accounts.items fp).length < 2 := by
    rw [List.length_eq_zero_iff]
    exact removedIds_eq_nil
  simp only [mergeDuplicateAccounts, hok]
  refine ⟨_, _, rfl, ?_, hremoved⟩
  cases b with
  | postgres => exact .inl rfl
  | jsonFile =>
    simp only
    split_ifs with hzero
    · exact .inr ⟨rfl, hremoved.mp hzero⟩
    · exact .inl rfl

/-- A list without duplicates is left as it is. -/
theorem losesNothing_same (b : Backend) (hok : fingerprintError u digest accounts.items = none)
    (hshort : ∀ fp, (groupOf u digest accounts.items fp).length < 2) :
    LosesNothing u digest b accounts accounts := by
  refine ⟨fun fp hne => ?_, fun fp a ha => ⟨a.cookieFingerprint, ?_⟩, fun fp kept hlong => ?_,
    fun taskCounts' => ?_⟩
  · have hpos := List.length_pos_of_ne_nil hne
    have hlt := hshort fp
    omega
  · exact (mem_groupOf.mp (ha ▸ List.mem_singleton.mpr rfl : a ∈ groupOf u digest _ fp)).1
  · exact absurd (hshort fp) (by omega)
  · obtain ⟨result, after, hmerge, -, hremoved⟩ := merge_ok b hok
    exact ⟨result, after, hmerge, hremoved.mpr hshort⟩

theorem losesNothing_iff (taskCounts : String → Int) (b : Backend) (hadds : ∀ a ∈ accounts.items, a.quota.Adds)
    (hok : fingerprintError u digest accounts.items = none) :
    LosesNothing u digest b accounts (mergedList u digest taskCounts accounts) ↔
      ∀ fp, Mergeable taskCounts (groupOf u digest accounts.items fp) := by
  have hgroup : ∀ fp keeper, keeperOf taskCounts (groupOf u digest accounts.items fp) = some keeper →
      (GroupMerged (groupOf u digest accounts.items fp)
          (takeOver fp (groupOf u digest accounts.items fp) keeper) ↔
        KeeperCovers (groupOf u digest accounts.items fp) keeper) := by
    intro fp keeper hkeeper
    have hmem := keeperOf_mem hkeeper
    refine groupMerged_iff fp hmem (fun a ha hid => ?_) fun a ha => hadds a (mem_groupOf.mp ha).1
    exact eq_of_id_eq (mem_groupOf.mp ha).1 (mem_groupOf.mp hmem).1 hid
  constructor
  · intro h fp hlong keeper hmax
    have hkeeper := keeperOf_eq_some.mpr ⟨hlong, hmax⟩
    refine (hgroup fp keeper hkeeper).mp (h.grouped fp _ hlong ?_)
    exact (mem_group_after hok hkeeper).mpr rfl
  · intro h
    refine ⟨fun fp hne => group_after_length hok hne, fun fp a ha => ⟨fp, ?_⟩,
      fun fp kept hlong hkept => ?_, fun taskCounts' => ?_⟩
    · have hafter := group_of_single taskCounts hok ha
      exact (mem_groupOf.mp (hafter ▸ List.mem_singleton.mpr rfl :
        { a with cookieFingerprint := fp } ∈ groupOf u digest _ fp)).1
    · cases hkeeper : keeperOf taskCounts (groupOf u digest accounts.items fp) with
      | none => exact absurd (keeperOf_eq_none.mp hkeeper) (by omega)
      | some keeper =>
        obtain rfl := (mem_group_after hok hkeeper).mp hkept
        obtain ⟨-, hmax⟩ := keeperOf_eq_some.mp hkeeper
        exact (hgroup fp keeper hkeeper).mpr (h fp hlong keeper hmax)
    · obtain ⟨result, after, hmerge, -, hremoved⟩ := merge_ok b (fingerprintError_after hok)
      exact ⟨result, after, hmerge, hremoved.mpr fun fp => group_after_lt hok⟩

end Exactness

/-- A merge that raises nothing loses nothing exactly when every group is mergeable. -/
theorem merge_loses_nothing_iff (u : Chars) (digest : String → List (List String) → String)
    (taskCounts : String → Int) (b : Backend) (accounts : AccountList)
    (hadds : ∀ a ∈ accounts.items, a.toAccount.Adds) :
    (∀ result after, mergeDuplicateAccounts u digest taskCounts b accounts = .ok (result, after) →
        LosesNothing u digest b accounts after) ↔
      (fingerprintError u digest accounts.items = none →
        ∀ fp, Mergeable taskCounts (groupOf u digest accounts.items fp)) := by
  have hquota : ∀ a ∈ accounts.items, a.quota.Adds := fun a ha => (hadds a ha).quota
  cases hok : fingerprintError u digest accounts.items with
  | some e =>
    refine iff_of_true (fun result after hmerge => ?_) fun hnone => by cases hnone
    simp only [mergeDuplicateAccounts, hok] at hmerge
    cases hmerge
  | none =>
    obtain ⟨result, after, hmerge, hafter, -⟩ := merge_ok b hok
    have hexact := losesNothing_iff taskCounts b hquota hok
    constructor
    · intro h _
      rcases hafter with rfl | ⟨rfl, hshort⟩
      · exact hexact.mp (h result _ hmerge)
      · exact fun fp hlong => absurd (hshort fp) (by omega)
    · intro h result' after' hmerge'
      obtain ⟨rfl, rfl⟩ := Prod.mk.inj (Except.ok.inj (hmerge.symm.trans hmerge'))
      rcases hafter with rfl | ⟨rfl, hshort⟩
      · exact hexact.mpr (h rfl)
      · exact losesNothing_same b hok hshort

/-! ### A group whose use is lost -/

section Sample

def sampleCookieAccount (id : String) (used : Int) : CookieAccount :=
  { sampleAccount with
    id, quota := { used, base := used, initialized := true, charges := [] }
    cookieFingerprint := "f", cookies := [], createdAt := "t0" }

/-- Two accounts with one fingerprint; the second has used two units. -/
def unequalUse : AccountList where
  items := [sampleCookieAccount "00000000000000a1" 0, sampleCookieAccount "00000000000000a2" 2]
  nodup := by decide

/-- The first account has run a task. -/
def oneTask (id : String) : Int := if id = "00000000000000a1" then 1 else 0

def platformDigest (platform : String) (_ : List (List String)) : String := platform

theorem unequalUse_adds : ∀ a ∈ unequalUse.items, a.toAccount.Adds := by
  intro a ha
  simp only [unequalUse, List.mem_cons, List.not_mem_nil, or_false] at ha
  rcases ha with rfl | rfl
  · exact ⟨fun _ => rfl, fun hinit => by cases hinit⟩
  · exact ⟨fun _ => rfl, fun hinit => by cases hinit⟩

theorem merge_loses_nothing_iff_unequalUse :
    (∀ a ∈ unequalUse.items, a.toAccount.Adds) ∧
      ((∀ result after, mergeDuplicateAccounts .ascii platformDigest oneTask .postgres unequalUse =
            .ok (result, after) →
          LosesNothing .ascii platformDigest .postgres unequalUse after) ↔
        (fingerprintError .ascii platformDigest unequalUse.items = none →
          ∀ fp, Mergeable oneTask (groupOf .ascii platformDigest unequalUse.items fp))) :=
  ⟨unequalUse_adds,
    merge_loses_nothing_iff .ascii platformDigest oneTask .postgres unequalUse unequalUse_adds⟩

/-- The account with the task is kept, and the use of the other one is lost. -/
theorem use_of_duplicate_lost :
    ¬ ∀ result after, mergeDuplicateAccounts .ascii platformDigest oneTask .postgres unequalUse =
        .ok (result, after) → LosesNothing .ascii platformDigest .postgres unequalUse after := by
  intro h
  have hlost := h _ (mergedList .ascii platformDigest oneTask unequalUse) rfl
  have hkept : (groupOf .ascii platformDigest
      (mergedList .ascii platformDigest oneTask unequalUse).items "f").map (fun a => a.quota.used) =
        [0] := by decide
  obtain ⟨kept, rest, hgroup, hused, -⟩ := List.map_eq_cons_iff.mp hkept
  have hgrouped := hlost.grouped "f" kept (by decide) (hgroup ▸ List.mem_cons_self)
  have hle : (2 : Int) ≤ kept.quota.used :=
    hgrouped.quotaUsed (sampleCookieAccount "00000000000000a2" 2) (by decide)
  omega

end Sample

end FetchTask.Accounts
