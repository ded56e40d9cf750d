import FetchTask.Accounts.Cookies
import FetchTask.Lib.Runs
import Mathlib.Algebra.GroupWithZero.Nat

/-!
Importing accounts (`add_account` and `add_accounts_bulk_result`).

A single import compares the fingerprint of the cookies with those of the stored
cookies; a bulk import takes the stored fingerprint of an account where there is
one. The operations that give an account other cookies leave its stored fingerprint
as it is. The law says along which runs a bulk import is the import of its rows one
by one.
-/

namespace FetchTask.Accounts

open FetchTask.Runs

def duplicateAccount : String := "账号已存在，请勿重复导入"

/-- What is drawn for a new account: the token is no id that is taken. -/
structure Draw where
  token : (ids : List String) → { id : String // id ∉ ids }
  now : String
  today : String

/-- What all rows of an import share. -/
structure ImportSettings where
  enabled : Bool
  platform : String
  accountSource : String

structure BulkResult where
  /-- As they are stored; the public views of them are left out. -/
  accounts : List CookieAccount
  created : Nat
  skipped : Nat
  received : Nat

structure Prepared where
  row : BulkRow
  cookies : List Cookie
  fingerprint : String
  deriving DecidableEq

/-! ### The list -/

namespace AccountList

def ids (accounts : AccountList) : List String := accounts.items.map fun a => a.id

def push (accounts : AccountList) (a : CookieAccount) (h : a.id ∉ accounts.ids) : AccountList where
  items := accounts.items ++ [a]
  nodup := by
    rw [List.map_append, List.nodup_append]
    refine ⟨accounts.nodup, List.nodup_singleton _, ?_⟩
    rintro id hid _ hnew rfl
    obtain rfl : id = a.id := List.mem_singleton.mp hnew
    exact h hid

/-- Every account changed by a function that keeps ids. -/
def change (accounts : AccountList) (f : CookieAccount → CookieAccount)
    (h : ∀ a, (f a).id = a.id) : AccountList where
  items := accounts.items.map f
  nodup := by
    have hids : (accounts.items.map f).map (fun a => a.id) = accounts.ids := by
      rw [List.map_map]
      exact List.map_congr_left fun a _ => h a
    exact hids ▸ accounts.nodup

def retain (accounts : AccountList) (p : CookieAccount → Bool) : AccountList where
  items := accounts.items.filter p
  nodup := (List.filter_sublist.map fun a : CookieAccount => a.id).nodup accounts.nodup

end AccountList

section Operations

variable (P : Parsers) (digest : String → List (List String) → String)

/-! ### One account -/

/-- The record that `_new_account` makes. -/
def importedAccount (accounts : AccountList) (name : String) (cookies : List Cookie)
    (settings : ImportSettings) (quotaLimit : Int) (platform fp : String) (draw : Draw) :
    CookieAccount where
  id := draw.token accounts.ids
  name := textOr (P.strip name) ("账号 " ++ toString (accounts.items.length + 1))
  platform := platform
  quotaLimit := max 0 quotaLimit
  quota := { used := 0, base := 0, initialized := false, charges := [] }
  quotaExhaustedDate := ""
  quotaResetDate := draw.today
  quotaRefundIds := []
  studioQuotaLimit := if platform = "qianwen" then some defaultStudioQuotaLimit else none
  studio := { used := 0, base := 0, initialized := platform == "qianwen", charges := [] }
  studioQuotaExhaustedDate := ""
  studioQuotaResetDate := if platform = "qianwen" then draw.today else ""
  creditSyncDate := ""
  creditSyncedAt := ""
  creditAvailableAtSync := 0
  creditUsedAtSync := 0
  creditSignIn := 0
  lastUsedWorkerId := ""
  lastUsedAt := ""
  currentTaskId := ""
  currentWorkerId := ""
  currentStartedAt := ""
  currentQuotaChargeId := ""
  updatedAt := draw.now
  cookieFingerprint := fp
  cookies := cookies
  createdAt := draw.now
  accountSource := if P.lower settings.accountSource = "api" then "api" else "admin"
  enabled := settings.enabled
  cookieHeader := cookieHeaderFromItems P cookies

/-- `_new_account`, appended to the list. -/
def appendNewAccount (accounts : AccountList) (name : String) (cookies : List Cookie)
    (settings : ImportSettings) (quotaLimit : Int) (platform : String) (draw : Draw) :
    Except String (CookieAccount × AccountList) :=
  (accountFingerprint P.toChars digest platform cookies).map fun fp =>
    let a := importedAccount P accounts name cookies settings quotaLimit platform fp draw
    (a, accounts.push a (draw.token accounts.ids).2)

/-- Whether the stored cookies of some account have this fingerprint. -/
def accountExists (fp : String) : List CookieAccount → Except String Bool
  | [] => .ok false
  | a :: accounts =>
    match accountFingerprint P.toChars digest a.platform a.cookies with
    | .error e => .error e
    | .ok stored => if stored = fp then .ok true else accountExists fp accounts

/-- The cookies of a text, and their fingerprint. -/
def readCookies (platform cookieData : String) : Except String (List Cookie × String) :=
  match parseCookiePayload P cookieData platform with
  | .error e => .error e
  | .ok cookies =>
    if cookies = [] then .error "cookie data is invalid"
    else (accountFingerprint P.toChars digest platform cookies).map fun fp => (cookies, fp)

def addAccount (settings : ImportSettings) (name cookieData : String) (quotaLimit : Int)
    (draw : Draw) (accounts : AccountList) : Except String (CookieAccount × AccountList) :=
  match normalizePlatform P.toChars settings.platform with
  | .error e => .error e
  | .ok platform =>
    match readCookies P digest platform cookieData with
    | .error e => .error e
    | .ok (cookies, fp) =>
      match accountExists P digest fp accounts.items with
      | .error e => .error e
      | .ok true => .error duplicateAccount
      | .ok false =>
        appendNewAccount P digest accounts name cookies settings quotaLimit platform draw

/-! ### Many accounts -/

def prepareRow (platform : String) (row : BulkRow) : Except String Prepared :=
  (readCookies P digest platform row.cookieData).map fun p =>
    { row, cookies := p.1, fingerprint := p.2 }

/-- The loop: the accounts that it created, the number of rows that it skipped, and the
list. The `i`-th row has the `i`-th draw. -/
def addPrepared (settings : ImportSettings) (platform : String) :
    List Prepared → (draws : Nat → Draw) → (existing : List String) → AccountList →
      Except String (List CookieAccount × Nat × AccountList)
  | [], _, _, accounts => .ok ([], 0, accounts)
  | p :: prepared, draws, existing, accounts =>
    if p.fingerprint ∈ existing then
      (addPrepared settings platform prepared (draws ∘ Nat.succ) existing accounts).map
        fun (created, skipped, accounts) => (created, skipped + 1, accounts)
    else
      match appendNewAccount P digest accounts p.row.name p.cookies settings p.row.quotaLimit
        platform (draws 0) with
      | .error e => .error e
      | .ok (a, accounts) =>
        (addPrepared settings platform prepared (draws ∘ Nat.succ) (p.fingerprint :: existing)
          accounts).map fun (created, skipped, accounts) => (a :: created, skipped, accounts)

/-- The rows of a text with their cookies, and the platform. -/
def prepareRows (settings : ImportSettings) (raw : String) (defaultQuotaLimit : Int) :
    Except String (String × List Prepared) := do
  let rows ← parseBulkAccounts P raw defaultQuotaLimit
  let platform ← normalizePlatform P.toChars settings.platform
  let prepared ← rows.mapM (prepareRow P digest platform)
  .ok (platform, prepared)

/-- A file is not written when nothing was created, and then the list is as it was. -/
def addAccountsBulkResult (settings : ImportSettings) (raw : String) (defaultQuotaLimit : Int)
    (draws : Nat → Draw) (accounts : AccountList) : Except String (BulkResult × AccountList) := do
  let (platform, prepared) ← prepareRows P digest settings raw defaultQuotaLimit
  let existing ← accounts.items.mapM (fingerprint P.toChars digest)
  let (created, skipped, accounts) ←
    addPrepared P digest settings platform prepared draws existing accounts
  .ok ({ accounts := created, created := created.length, skipped, received := prepared.length },
    accounts)

/-! ### Other cookies -/

/-- The object of a cookie. -/
def Cookie.item (c : Cookie) : Json :=
  .object ([("name", .text c.name), ("value", .text c.value), ("domain", .text c.domain),
    ("path", .text c.path)] ++
    (if c.expires = "" then [] else [("expires", .number c.expires false)]) ++
    (if c.sameSite = "" then [] else [("sameSite", .text c.sameSite)]) ++
    c.httpOnly.toList.map (fun b => ("httpOnly", .bool b)) ++
    c.secure.toList.map fun b => ("secure", .bool b))

def CookieAccount.platformOr (a : CookieAccount) : String := textOr a.platform defaultPlatform

def qianwenDomain (platform : String) (c : Cookie) : Cookie :=
  let bare := String.ofList ((P.lower c.domain).toList.dropWhile (· == '.'))
  if platform = "qianwen" ∧ bare ∈ ["tongyi.com", "qianwen.com"] then
    { c with domain := ".qianwen.com" }
  else c

/-- The key that cookies are told apart by. -/
def combinedKey (c : Cookie) : String × String × String :=
  (c.name, P.lower c.domain, textOr c.path "/")

/-- The stored cookies and the given ones, the last of each key. -/
def combinedCookies (a : CookieAccount) (cookies : List Json) : List Cookie :=
  let items := (normalizeCookies P a.platformOr (a.cookies.map Cookie.item ++ cookies)).map
    (qianwenDomain P a.platformOr)
  (Dict.ofList (combinedKey P) items).items.map Prod.snd

/-- Give an account other cookies. -/
def setCookies (accountId : String) (cookies : CookieAccount → List Cookie) (enable : Bool)
    (now : String) (accounts : AccountList) : Except String AccountList :=
  let accountId := P.lower (P.strip accountId)
  match accounts.items.find? (·.id == accountId) with
  | none => .error "account not found"
  | some a =>
    if cookies a = [] then .error "cookie data is invalid"
    else .ok (accounts.change (fun a =>
      if a.id = accountId then
        { a with
          cookies := cookies a, cookieHeader := cookieHeaderFromItems P (cookies a)
          enabled := enable || a.enabled, updatedAt := now }
      else a) fun a => by split_ifs <;> rfl)

def updateAccountCookies (accountId : String) (cookies : List Json) (now : String) :
    AccountList → Except String AccountList :=
  setCookies P accountId (fun a => normalizeCookies P a.platformOr cookies) true now

def mergeAccountCookies (accountId : String) (cookies : List Json) (now : String) :
    AccountList → Except String AccountList :=
  setCookies P accountId (fun a => combinedCookies P a cookies) false now

def repairedCookies (a : CookieAccount) : List Cookie :=
  if a.platformOr = defaultPlatform then a.cookies
  else a.cookies.map fun c =>
    if c.domain = ".dola.com" then { c with domain := defaultCookieDomain a.platformOr } else c

/-- The loop of `repair_account_cookie_domains`, which with a file also stamps the accounts
after the first one that it changed. -/
def repairItems (b : Backend) (now : String) : (changed : Bool) → List CookieAccount →
    List CookieAccount
  | _, [] => []
  | changed, a :: accounts =>
    if a.platformOr = defaultPlatform then a :: repairItems b now changed accounts
    else
      let accountChanged := a.cookies.any fun c => c.domain == ".dola.com"
      let repaired := { a with cookies := repairedCookies a }
      (if accountChanged || (b == .jsonFile && changed) then
        { repaired with
          cookieHeader := cookieHeaderFromItems P (repairedCookies a), updatedAt := now }
      else repaired) :: repairItems b now (changed || accountChanged) accounts

theorem repairItems_ids (b : Backend) (now : String) (changed : Bool)
    (accounts : List CookieAccount) :
    (repairItems P b now changed accounts).map (fun a => a.id) = accounts.map fun a => a.id := by
  induction accounts generalizing changed with
  | nil => rfl
  | cons a accounts ih =>
    rw [repairItems]
    split
    · rw [List.map_cons, ih, List.map_cons]
    · dsimp only
      rw [List.map_cons, ih, List.map_cons]
      split <;> rfl

def repairAccountCookieDomains (b : Backend) (now : String) (accounts : AccountList) :
    AccountList where
  items := repairItems P b now false accounts.items
  nodup := repairItems_ids P b now false accounts.items ▸ accounts.nodup

end Operations

/-! ### Runs -/

/-- What the other operations do to an account: they keep its id, platform and cookies. -/
structure OtherChange where
  change : CookieAccount → CookieAccount
  id : ∀ a, (change a).id = a.id
  platform : ∀ a, (change a).platform = a.platform
  cookies : ∀ a, (change a).cookies = a.cookies
  fingerprint : ∀ a, (change a).cookieFingerprint = a.cookieFingerprint

inductive Operation
  | addAccount (settings : ImportSettings) (name cookieData : String) (quotaLimit : Int)
      (draw : Draw)
  | addAccountsBulk (settings : ImportSettings) (raw : String) (defaultQuotaLimit : Int)
      (draws : Nat → Draw)
  | updateAccountCookies (accountId : String) (cookies : List Json) (now : String)
  | mergeAccountCookies (accountId : String) (cookies : List Json) (now : String)
  | repairAccountCookieDomains (now : String)
  | mergeDuplicateAccounts (taskCounts : String → Int)
  /-- `delete_account` and `cleanup_flagged_accounts`. -/
  | remove (keep : CookieAccount → Bool)
  | other (change : OtherChange)

section Runs

variable (P : Parsers) (digest : String → List (List String) → String) (b : Backend)

/-- The list after an operation; one that raises leaves it as it is. -/
def Operation.apply (operation : Operation) (accounts : AccountList) : AccountList :=
  match operation with
  | .addAccount settings name cookieData quotaLimit draw =>
    ((Accounts.addAccount P digest settings name cookieData quotaLimit draw accounts).toOption.map
      Prod.snd).getD accounts
  | .addAccountsBulk settings raw defaultQuotaLimit draws =>
    ((addAccountsBulkResult P digest settings raw defaultQuotaLimit draws accounts).toOption.map
      Prod.snd).getD accounts
  | .updateAccountCookies accountId cookies now =>
    (Accounts.updateAccountCookies P accountId cookies now accounts).toOption.getD accounts
  | .mergeAccountCookies accountId cookies now =>
    (Accounts.mergeAccountCookies P accountId cookies now accounts).toOption.getD accounts
  | .repairAccountCookieDomains now => Accounts.repairAccountCookieDomains P b now accounts
  | .mergeDuplicateAccounts taskCounts =>
    ((Accounts.mergeDuplicateAccounts P.toChars digest taskCounts b accounts).toOption.map
      Prod.snd).getD accounts
  | .remove keep => accounts.retain keep
  | .other c => accounts.change c.change c.id

/-- `add_account` for one row after the other, passing over those that it rejects as existing:
the accounts it creates and the list. -/
def addLineByLine (settings : ImportSettings) :
    List BulkRow → (draws : Nat → Draw) → AccountList →
      Except String (List CookieAccount × AccountList)
  | [], _, accounts => .ok ([], accounts)
  | row :: rows, draws, accounts =>
    match addAccount P digest settings row.name row.cookieData row.quotaLimit (draws 0)
      accounts with
    | .ok (a, accounts) =>
      (addLineByLine settings rows (draws ∘ Nat.succ) accounts).map
        fun (created, accounts) => (a :: created, accounts)
    | .error e =>
      if e = duplicateAccount then addLineByLine settings rows (draws ∘ Nat.succ) accounts
      else .error e

/-- An account without what was drawn for it. -/
def CookieAccount.imported (a : CookieAccount) : CookieAccount :=
  { a with id := "", quotaResetDate := "", studioQuotaResetDate := "", updatedAt := "", createdAt := "" }

/-- What is asked of two imports of the same rows. -/
structure SameImport (received : Nat) (bulk : BulkResult × AccountList)
    (single : List CookieAccount × AccountList) : Prop where
  created : bulk.1.accounts.map CookieAccount.imported = single.1.map CookieAccount.imported
  list : bulk.2.items.map CookieAccount.imported = single.2.items.map CookieAccount.imported
  received : bulk.1.received = received
  counted : bulk.1.created = single.1.length
  counts : bulk.1.created + bulk.1.skipped = bulk.1.received

/-- A bulk import of any text whose rows all have cookies is the import of its rows one by one. -/
def BulkAgrees (accounts : AccountList) : Prop :=
  ∀ settings raw defaultQuotaLimit draws draws' platform prepared,
    prepareRows P digest settings raw defaultQuotaLimit = .ok (platform, prepared) →
    ∃ bulk single,
      addAccountsBulkResult P digest settings raw defaultQuotaLimit draws accounts = .ok bulk ∧
      addLineByLine P digest settings (prepared.map Prepared.row) draws' accounts = .ok single ∧
      SameImport prepared.length bulk single

/-- The cookies that an operation leaves an account with. -/
def Operation.cookiesOf (operation : Operation) (a : CookieAccount) : List Cookie :=
  match operation with
  | .updateAccountCookies accountId cookies _ =>
    if a.id = P.lower (P.strip accountId) then normalizeCookies P a.platformOr cookies
    else a.cookies
  | .mergeAccountCookies accountId cookies _ =>
    if a.id = P.lower (P.strip accountId) then combinedCookies P a cookies else a.cookies
  | .repairAccountCookieDomains _ => repairedCookies a
  | _ => a.cookies

/-- An account with a stored fingerprint gets cookies with the fingerprint of those it has. -/
def Operation.KeepsFingerprints (operation : Operation) (accounts : AccountList) : Prop :=
  ∀ a ∈ accounts.items, a.cookieFingerprint ≠ "" → operation.cookiesOf P a ≠ [] →
    accountFingerprint P.toChars digest a.platform (operation.cookiesOf P a) =
      accountFingerprint P.toChars digest a.platform a.cookies

end Runs

/-! ### Fingerprints that are up to date -/

section Current

variable {P : Parsers} {digest : String → List (List String) → String} {b : Backend}

/-- The stored fingerprint of an account, if any, is that of its cookies. -/
def Current (P : Parsers) (digest : String → List (List String) → String) (a : CookieAccount) :
    Prop :=
  ∃ fp, accountFingerprint P.toChars digest a.platform a.cookies = .ok fp ∧
    (a.cookieFingerprint = "" ∨ a.cookieFingerprint = fp)

theorem Current.fingerprint {a : CookieAccount} (h : Current P digest a) :
    Accounts.fingerprint P.toChars digest a =
      accountFingerprint P.toChars digest a.platform a.cookies := by
  obtain ⟨fp, hfp, hstored⟩ := h
  rw [Accounts.fingerprint]
  split
  · rfl
  · rename_i hne
    rw [hstored.resolve_left hne, hfp]

/-- An account of a platform with a fingerprint has one for any cookies. -/
theorem Current.fingerprint_ok {a : CookieAccount} (h : Current P digest a)
    (cookies : List Cookie) :
    ∃ fp, accountFingerprint P.toChars digest a.platform cookies = .ok fp := by
  obtain ⟨fp, hfp, -⟩ := h
  cases hp : normalizePlatform P.toChars a.platform with
  | error e =>
    rw [accountFingerprint, hp] at hfp
    cases hfp
  | ok platform => exact ⟨_, by rw [accountFingerprint, hp]; rfl⟩

/-- Other cookies with the same fingerprint. -/
theorem Current.of_cookies {a a' : CookieAccount} (h : Current P digest a)
    (hplatform : a'.platform = a.platform) (hstored : a'.cookieFingerprint = a.cookieFingerprint)
    (hcookies : a.cookieFingerprint ≠ "" →
      accountFingerprint P.toChars digest a.platform a'.cookies =
        accountFingerprint P.toChars digest a.platform a.cookies) : Current P digest a' := by
  obtain ⟨fp', hfp'⟩ := h.fingerprint_ok a'.cookies
  refine ⟨fp', by rw [hplatform, hfp'], ?_⟩
  rw [hstored]
  by_cases hnone : a.cookieFingerprint = ""
  · exact .inl hnone
  · obtain ⟨fp, hfp, hcached⟩ := h
    rw [hcookies hnone, hfp] at hfp'
    exact .inr ((hcached.resolve_left hnone).trans (Except.ok.inj hfp'))

theorem appendNewAccount_eq {accounts after : AccountList} {name : String} {cookies : List Cookie}
    {settings : ImportSettings} {quotaLimit : Int} {platform : String} {draw : Draw}
    {a : CookieAccount}
    (h : appendNewAccount P digest accounts name cookies settings quotaLimit platform draw =
      .ok (a, after)) :
    ∃ fp, accountFingerprint P.toChars digest platform cookies = .ok fp ∧
      a = importedAccount P accounts name cookies settings quotaLimit platform fp draw ∧
      after.items = accounts.items ++ [a] := by
  rw [appendNewAccount] at h
  cases hfp : accountFingerprint P.toChars digest platform cookies with
  | error e =>
    rw [hfp] at h
    cases h
  | ok fp =>
    rw [hfp] at h
    cases h
    exact ⟨fp, rfl, rfl, rfl⟩

def AllCurrent (P : Parsers) (digest : String → List (List String) → String)
    (accounts : AccountList) : Prop := ∀ a ∈ accounts.items, Current P digest a

theorem AllCurrent.append {accounts after : AccountList} {name : String} {cookies : List Cookie}
    {settings : ImportSettings} {quotaLimit : Int} {platform : String} {draw : Draw}
    {a : CookieAccount} (h : AllCurrent P digest accounts)
    (happend : appendNewAccount P digest accounts name cookies settings quotaLimit platform draw =
      .ok (a, after)) : AllCurrent P digest after := by
  obtain ⟨fp, hfp, rfl, hafter⟩ := appendNewAccount_eq happend
  intro c hc
  rw [hafter] at hc
  rcases List.mem_append.mp hc with hc | hc
  · exact h c hc
  · obtain rfl := List.mem_singleton.mp hc
    exact ⟨fp, hfp, .inr rfl⟩

theorem AllCurrent.addAccount {accounts after : AccountList} {settings : ImportSettings}
    {name cookieData : String} {quotaLimit : Int} {draw : Draw} {a : CookieAccount}
    (h : AllCurrent P digest accounts)
    (hadd : Accounts.addAccount P digest settings name cookieData quotaLimit draw accounts =
      .ok (a, after)) : AllCurrent P digest after := by
  unfold Accounts.addAccount at hadd
  split at hadd
  · cases hadd
  · split at hadd
    · cases hadd
    · split at hadd
      · cases hadd
      · cases hadd
      · exact h.append hadd

theorem AllCurrent.addPrepared {accounts after : AccountList} {settings : ImportSettings}
    {platform : String} {prepared : List Prepared} {draws : Nat → Draw} {existing : List String}
    {created : List CookieAccount} {skipped : Nat} (h : AllCurrent P digest accounts)
    (hadd : Accounts.addPrepared P digest settings platform prepared draws existing accounts =
      .ok (created, skipped, after)) : AllCurrent P digest after := by
  induction prepared generalizing draws existing accounts created skipped with
  | nil =>
    cases hadd
    exact h
  | cons p prepared ih =>
    rw [Accounts.addPrepared] at hadd
    split at hadd
    · obtain ⟨⟨created', skipped', after'⟩, hrest, heq⟩ := map_ok hadd
      cases heq
      exact ih h hrest
    · split at hadd
      · cases hadd
      · rename_i happend
        obtain ⟨⟨created', skipped', after'⟩, hrest, heq⟩ := map_ok hadd
        cases heq
        exact ih (h.append happend) hrest

/-- The cookies of one account, where the new ones keep its fingerprint. -/
theorem AllCurrent.setCookies {accounts after : AccountList} {accountId : String}
    {cookies : CookieAccount → List Cookie} {enable : Bool} {now : String}
    (h : AllCurrent P digest accounts)
    (hkeeps : ∀ a ∈ accounts.items, a.id = P.lower (P.strip accountId) →
      a.cookieFingerprint ≠ "" → cookies a ≠ [] →
      accountFingerprint P.toChars digest a.platform (cookies a) =
        accountFingerprint P.toChars digest a.platform a.cookies)
    (hset : Accounts.setCookies P accountId cookies enable now accounts = .ok after) :
    AllCurrent P digest after := by
  unfold Accounts.setCookies at hset
  dsimp only at hset
  split at hset
  · cases hset
  · rename_i found hfind
    split at hset
    · cases hset
    · rename_i hcookies
      cases hset
      intro c hc
      obtain ⟨a, ha, rfl⟩ := List.mem_map.mp hc
      have hfound : found.id = P.lower (P.strip accountId) := by simpa using List.find?_some hfind
      by_cases hid : a.id = P.lower (P.strip accountId)
      · -- The ids are distinct, so it is the account that was found.
        obtain rfl : a = found := List.inj_on_of_nodup_map accounts.nodup ha
          (List.mem_of_find?_eq_some hfind) (hid.trans hfound.symm)
        rw [if_pos hid]
        exact (h a ha).of_cookies rfl rfl fun hstored => hkeeps a ha hid hstored hcookies
      · rw [if_neg hid]
        exact h a ha

theorem mem_repairItems {accounts : List CookieAccount} {now : String} {changed : Bool}
    {c : CookieAccount} (h : c ∈ repairItems P b now changed accounts) :
    ∃ a ∈ accounts, c.platform = a.platform ∧ c.cookieFingerprint = a.cookieFingerprint ∧
      c.cookies = repairedCookies a := by
  induction accounts generalizing changed with
  | nil => cases h
  | cons a accounts ih =>
    rw [repairItems] at h
    split at h
    · rename_i hplatform
      rcases List.mem_cons.mp h with rfl | h
      · exact ⟨c, List.mem_cons_self, rfl, rfl, by rw [repairedCookies, if_pos hplatform]⟩
      · obtain ⟨a', ha', hsame⟩ := ih h
        exact ⟨a', List.mem_cons_of_mem _ ha', hsame⟩
    · dsimp only at h
      rcases List.mem_cons.mp h with rfl | h
      · refine ⟨a, List.mem_cons_self, ?_⟩
        split <;> exact ⟨rfl, rfl, rfl⟩
      · obtain ⟨a', ha', hsame⟩ := ih h
        exact ⟨a', List.mem_cons_of_mem _ ha', hsame⟩

theorem AllCurrent.repair {accounts : AccountList} {now : String} (h : AllCurrent P digest accounts)
    (hkeeps : ∀ a ∈ accounts.items, a.cookieFingerprint ≠ "" →
      accountFingerprint P.toChars digest a.platform (repairedCookies a) =
        accountFingerprint P.toChars digest a.platform a.cookies) :
    AllCurrent P digest (repairAccountCookieDomains P b now accounts) := by
  intro c hc
  obtain ⟨a, ha, hplatform, hstored, hcookies⟩ := mem_repairItems hc
  exact (h a ha).of_cookies hplatform hstored fun hne => hcookies ▸ hkeeps a ha hne

theorem Current.of_stored {a a' : CookieAccount} {fp : String} (h : Current P digest a)
    (hfp : Accounts.fingerprint P.toChars digest a = .ok fp) (hplatform : a'.platform = a.platform)
    (hcookies : a'.cookies = a.cookies) (hstored : a'.cookieFingerprint = fp) :
    Current P digest a' :=
  ⟨fp, by rw [hplatform, hcookies, ← h.fingerprint, hfp], .inr hstored⟩

theorem AllCurrent.merged {accounts : AccountList} {taskCounts : String → Int} {a : CookieAccount}
    (h : AllCurrent P digest accounts) (ha : a ∈ accounts.items) :
    Current P digest (Accounts.merged P.toChars digest taskCounts accounts.items a) := by
  unfold Accounts.merged
  split
  · exact h a ha
  · rename_i fp hfp
    dsimp only
    split
    · exact (h a ha).of_stored hfp rfl rfl rfl
    · rename_i keeper hkeeper
      split
      · obtain ⟨hmem, hkeeperFp⟩ := mem_groupOf.mp (keeperOf_mem hkeeper)
        exact (h keeper hmem).of_stored hkeeperFp rfl rfl rfl
      · exact h a ha

theorem AllCurrent.merge {accounts after : AccountList} {taskCounts : String → Int}
    {result : MergeResult} (h : AllCurrent P digest accounts)
    (hmerge : mergeDuplicateAccounts P.toChars digest taskCounts b accounts = .ok (result, after)) :
    AllCurrent P digest after := by
  have hleft : AllCurrent P digest (mergedList P.toChars digest taskCounts accounts) := by
    intro c hc
    obtain ⟨a, ha, rfl⟩ := List.mem_map.mp (List.mem_filter.mp hc).1
    exact h.merged ha
  unfold mergeDuplicateAccounts at hmerge
  split at hmerge
  · cases hmerge
  · dsimp only at hmerge
    cases hmerge
    split
    · exact hleft
    · split
      · exact h
      · exact hleft

/-- The step lemma: stored fingerprints stay up to date as long as new cookies have them. -/
theorem AllCurrent.apply {accounts : AccountList} {operation : Operation}
    (h : AllCurrent P digest accounts)
    (hkeeps : operation.KeepsFingerprints P digest accounts) :
    AllCurrent P digest (operation.apply P digest b accounts) := by
  cases operation with
  | addAccount settings name cookieData quotaLimit draw =>
    simp only [Operation.apply]
    cases hadd : Accounts.addAccount P digest settings name cookieData quotaLimit draw accounts with
    | error e => exact h
    | ok result => exact h.addAccount hadd
  | addAccountsBulk settings raw defaultQuotaLimit draws =>
    simp only [Operation.apply]
    cases hadd : addAccountsBulkResult P digest settings raw defaultQuotaLimit draws accounts with
    | error e => exact h
    | ok result =>
      obtain ⟨⟨platform, prepared⟩, -, hbulk⟩ := bind_ok hadd
      obtain ⟨existing, -, hbulk⟩ := bind_ok hbulk
      obtain ⟨⟨created, skipped, after⟩, hprepared, hresult⟩ := bind_ok hbulk
      cases hresult
      exact h.addPrepared hprepared
  | updateAccountCookies accountId cookies now =>
    simp only [Operation.apply]
    cases hset : Accounts.updateAccountCookies P accountId cookies now accounts with
    | error e => exact h
    | ok after =>
      refine h.setCookies (fun a ha hid hstored hcookies => ?_) hset
      have hkeep := hkeeps a ha hstored
      simp only [Operation.cookiesOf, if_pos hid] at hkeep
      exact hkeep hcookies
  | mergeAccountCookies accountId cookies now =>
    simp only [Operation.apply]
    cases hset : Accounts.mergeAccountCookies P accountId cookies now accounts with
    | error e => exact h
    | ok after =>
      refine h.setCookies (fun a ha hid hstored hcookies => ?_) hset
      have hkeep := hkeeps a ha hstored
      simp only [Operation.cookiesOf, if_pos hid] at hkeep
      exact hkeep hcookies
  | repairAccountCookieDomains now =>
    refine h.repair fun a ha hstored => ?_
    by_cases hcookies : repairedCookies a = []
    · have hnone : a.cookies = [] := by
        rw [repairedCookies] at hcookies
        split at hcookies
        · exact hcookies
        · exact List.map_eq_nil_iff.mp hcookies
      rw [hcookies, hnone]
    · exact hkeeps a ha hstored hcookies
  | mergeDuplicateAccounts taskCounts =>
    simp only [Operation.apply]
    cases hmerge : Accounts.mergeDuplicateAccounts P.toChars digest taskCounts b accounts with
    | error e => exact h
    | ok result => exact h.merge hmerge
  | remove keep => exact fun a ha => h a (List.mem_filter.mp ha).1
  | other c =>
    intro a' ha'
    obtain ⟨a, ha, rfl⟩ := List.mem_map.mp ha'
    exact (h a ha).of_cookies (c.platform a) (c.fingerprint a) fun _ => by rw [c.cookies a]

end Current

/-! ### Two imports side by side -/

section Agreement

variable {P : Parsers} {digest : String → List (List String) → String} {b : Backend}

/-- Some account has cookies with this fingerprint. -/
def HasFingerprint (P : Parsers) (digest : String → List (List String) → String) (fp : String)
    (accounts : List CookieAccount) : Prop :=
  ∃ a ∈ accounts, accountFingerprint P.toChars digest a.platform a.cookies = .ok fp

/-- The single import finds the fingerprints of the stored cookies. -/
theorem accountExists_iff {accounts : List CookieAccount}
    (h : ∀ a ∈ accounts, Current P digest a) (fp : String) :
    ∃ found, accountExists P digest fp accounts = .ok found ∧
      (found = true ↔ HasFingerprint P digest fp accounts) := by
  induction accounts with
  | nil => exact ⟨false, rfl, by simp [HasFingerprint]⟩
  | cons a accounts ih =>
    obtain ⟨stored, hstored, -⟩ := h a List.mem_cons_self
    obtain ⟨found, hfound, hiff⟩ := ih fun c hc => h c (List.mem_cons_of_mem _ hc)
    rw [accountExists, hstored]
    dsimp only
    by_cases heq : stored = fp
    · rw [if_pos heq]
      exact ⟨true, rfl, fun _ => ⟨a, List.mem_cons_self, heq ▸ hstored⟩, fun _ => rfl⟩
    · rw [if_neg heq]
      refine ⟨found, hfound, hiff.trans ⟨?_, ?_⟩⟩
      · rintro ⟨c, hc, hfp⟩
        exact ⟨c, List.mem_cons_of_mem _ hc, hfp⟩
      · rintro ⟨c, hc, hfp⟩
        rcases List.mem_cons.mp hc with rfl | hc
        · exact absurd (Except.ok.inj (hstored.symm.trans hfp)) heq
        · exact ⟨c, hc, hfp⟩

/-- So does the bulk import, as long as the stored fingerprints are those. -/
theorem existing_iff {accounts : List CookieAccount} (h : ∀ a ∈ accounts, Current P digest a) :
    ∃ existing, accounts.mapM (fingerprint P.toChars digest) = .ok existing ∧
      ∀ fp, fp ∈ existing ↔ HasFingerprint P digest fp accounts := by
  induction accounts with
  | nil => exact ⟨[], rfl, by simp [HasFingerprint]⟩
  | cons a accounts ih =>
    obtain ⟨existing, hexisting, hiff⟩ := ih fun c hc => h c (List.mem_cons_of_mem _ hc)
    have ha := h a List.mem_cons_self
    obtain ⟨stored, hstored, -⟩ := h a List.mem_cons_self
    refine ⟨stored :: existing, ?_, fun fp => ?_⟩
    · rw [List.mapM_cons, ha.fingerprint, hstored, hexisting]
      rfl
    · rw [List.mem_cons, hiff]
      simp only [HasFingerprint, List.exists_mem_cons_iff, hstored, Except.ok.injEq,
        eq_comm (a := stored)]

theorem readCookies_fingerprint {platform cookieData fp : String} {cookies : List Cookie}
    (h : readCookies P digest platform cookieData = .ok (cookies, fp)) :
    accountFingerprint P.toChars digest platform cookies = .ok fp := by
  rw [readCookies] at h
  split at h
  · cases h
  · split at h
    · cases h
    · obtain ⟨fp', hfp, heq⟩ := map_ok h
      cases heq
      exact hfp

section Loop

variable {settings : ImportSettings} {platform : String} {accounts accounts' : AccountList}
  {p : Prepared}

/-- What the single import of a row does. -/
theorem addAccount_prepared (h : AllCurrent P digest accounts) (draw : Draw)
    (hplatform : normalizePlatform P.toChars settings.platform = .ok platform)
    (hread : readCookies P digest platform p.row.cookieData = .ok (p.cookies, p.fingerprint)) :
    ∃ found, (found = true ↔ HasFingerprint P digest p.fingerprint accounts.items) ∧
      addAccount P digest settings p.row.name p.row.cookieData p.row.quotaLimit draw accounts =
        if found then .error duplicateAccount
        else appendNewAccount P digest accounts p.row.name p.cookies settings p.row.quotaLimit
          platform draw := by
  obtain ⟨found, hfound, hiff⟩ := accountExists_iff h p.fingerprint
  refine ⟨found, hiff, ?_⟩
  simp only [addAccount, hplatform, hread, hfound]
  cases found <;> rfl

theorem appendNewAccount_ok {cookies : List Cookie} {fp : String} (accounts : AccountList)
    (settings : ImportSettings) (name : String) (quotaLimit : Int) (draw : Draw)
    (hfp : accountFingerprint P.toChars digest platform cookies = .ok fp) :
    ∃ after,
      appendNewAccount P digest accounts name cookies settings quotaLimit platform draw =
        .ok (importedAccount P accounts name cookies settings quotaLimit platform fp draw, after) ∧
      after.items = accounts.items ++
        [importedAccount P accounts name cookies settings quotaLimit platform fp draw] := by
  rw [appendNewAccount, hfp]
  exact ⟨_, rfl, rfl⟩

/-- New accounts of two lists of one length differ in what is drawn only. -/
theorem importedAccount_imported (P : Parsers) (settings : ImportSettings) (platform : String)
    (hlength : accounts.items.length = accounts'.items.length) (name : String)
    (cookies : List Cookie) (quotaLimit : Int) (fp : String) (draw draw' : Draw) :
    (importedAccount P accounts name cookies settings quotaLimit platform fp draw).imported =
      (importedAccount P accounts' name cookies settings quotaLimit platform fp draw').imported := by
  simp only [CookieAccount.imported, importedAccount, hlength]

theorem hasFingerprint_append {fp stored : String} {after : AccountList} {a : CookieAccount}
    (hitems : after.items = accounts.items ++ [a])
    (ha : accountFingerprint P.toChars digest a.platform a.cookies = .ok stored) :
    HasFingerprint P digest fp after.items ↔
      fp = stored ∨ HasFingerprint P digest fp accounts.items := by
  simp only [HasFingerprint, hitems, List.mem_append, List.mem_singleton, or_and_right, exists_or,
    exists_eq_left, ha, Except.ok.injEq, or_comm, eq_comm (a := stored)]

/-- The loop of the bulk import, next to the single imports of its rows: the fingerprints
that it goes by are those of the cookies in the list of the other. -/
theorem addPrepared_agrees {prepared : List Prepared} (draws draws' : Nat → Draw)
    {existing : List String}
    (hplatform : normalizePlatform P.toChars settings.platform = .ok platform)
    (hread : ∀ p ∈ prepared,
      readCookies P digest platform p.row.cookieData = .ok (p.cookies, p.fingerprint))
    (h : AllCurrent P digest accounts')
    (hlist : accounts.items.map CookieAccount.imported = accounts'.items.map CookieAccount.imported)
    (hexisting : ∀ fp, fp ∈ existing ↔ HasFingerprint P digest fp accounts'.items) :
    ∃ created skipped after created' after',
      addPrepared P digest settings platform prepared draws existing accounts =
        .ok (created, skipped, after) ∧
      addLineByLine P digest settings (prepared.map Prepared.row) draws' accounts' =
        .ok (created', after') ∧
      created.map CookieAccount.imported = created'.map CookieAccount.imported ∧
      after.items.map CookieAccount.imported = after'.items.map CookieAccount.imported ∧
      created.length + skipped = prepared.length := by
  induction prepared generalizing draws draws' existing accounts accounts' with
  | nil => exact ⟨[], 0, accounts, [], accounts', rfl, rfl, rfl, hlist, rfl⟩
  | cons p prepared ih =>
    have hp := hread p List.mem_cons_self
    have hrest : ∀ p ∈ prepared, readCookies P digest platform p.row.cookieData =
        .ok (p.cookies, p.fingerprint) := fun q hq => hread q (List.mem_cons_of_mem _ hq)
    obtain ⟨found, hfound, hadd⟩ := addAccount_prepared h (draws' 0) hplatform hp
    rw [addPrepared, List.map_cons, addLineByLine, hadd]
    by_cases hin : p.fingerprint ∈ existing
    · obtain rfl : found = true := hfound.mpr ((hexisting _).mp hin)
      obtain ⟨created, skipped, after, created', after', hbulk, hsingle, hcreated, hafter, hcount⟩ :=
        ih (draws ∘ Nat.succ) (draws' ∘ Nat.succ) hrest h hlist hexisting
      rw [if_pos hin, hbulk]
      refine ⟨created, skipped + 1, after, created', after', rfl, ?_, hcreated, hafter, ?_⟩
      · simpa using hsingle
      · rw [List.length_cons]
        omega
    · obtain rfl : found = false := by
        rw [← Bool.not_eq_true, hfound, ← hexisting]
        exact hin
      have hfp := readCookies_fingerprint hp
      have hlength : accounts.items.length = accounts'.items.length := by
        simpa using congrArg List.length hlist
      obtain ⟨next, hnext, hitems⟩ := appendNewAccount_ok accounts settings p.row.name
        p.row.quotaLimit (draws 0) hfp
      obtain ⟨next', hnext', hitems'⟩ := appendNewAccount_ok accounts' settings p.row.name
        p.row.quotaLimit (draws' 0) hfp
      have himported := importedAccount_imported P settings platform hlength p.row.name p.cookies
        p.row.quotaLimit p.fingerprint (draws 0) (draws' 0)
      have hnextList : next.items.map CookieAccount.imported =
          next'.items.map CookieAccount.imported := by
        rw [hitems, hitems', List.map_append, List.map_append, hlist, List.map_singleton,
          List.map_singleton, himported]
      have hnextExisting : ∀ fp, fp ∈ p.fingerprint :: existing ↔
          HasFingerprint P digest fp next'.items := fun fp => by
        rw [List.mem_cons, hexisting, hasFingerprint_append hitems' hfp]
      obtain ⟨created, skipped, after, created', after', hbulk, hsingle, hcreated, hafter, hcount⟩ :=
        ih (draws ∘ Nat.succ) (draws' ∘ Nat.succ) hrest (h.append hnext') hnextList hnextExisting
      rw [if_neg hin, hnext, if_neg Bool.false_ne_true, hnext']
      dsimp only
      rw [hbulk, hsingle]
      refine ⟨_, skipped, after, _, after', rfl, rfl, ?_, hafter, ?_⟩
      · rw [List.map_cons, List.map_cons, himported, hcreated]
      · show created.length + 1 + skipped = prepared.length + 1
        omega

end Loop

theorem mapM_prepareRow {platform : String} {rows : List BulkRow} {prepared : List Prepared}
    (h : rows.mapM (prepareRow P digest platform) = .ok prepared) :
    ∀ p ∈ prepared,
      readCookies P digest platform p.row.cookieData = .ok (p.cookies, p.fingerprint) := by
  induction rows generalizing prepared with
  | nil =>
    cases h
    exact fun p hp => absurd hp List.not_mem_nil
  | cons row rows ih =>
    rw [List.mapM_cons] at h
    obtain ⟨first, hfirst, h⟩ := bind_ok h
    obtain ⟨rest, hrest, h⟩ := bind_ok h
    cases h
    obtain ⟨⟨cookies, fp⟩, hread, rfl⟩ := map_ok hfirst
    intro p hp
    rcases List.mem_cons.mp hp with rfl | hp
    · exact hread
    · exact ih hrest p hp

/-- Where the stored fingerprints are up to date the two ways to import agree. -/
theorem AllCurrent.bulkAgrees {accounts : AccountList} (h : AllCurrent P digest accounts) :
    BulkAgrees P digest accounts := by
  intro settings raw defaultQuotaLimit draws draws' platform prepared hprepare
  obtain ⟨rows, -, hrows⟩ := bind_ok hprepare
  obtain ⟨normalized, hplatform, hrows⟩ := bind_ok hrows
  obtain ⟨read, hread, heq⟩ := bind_ok hrows
  cases heq
  obtain ⟨existing, hexisting, hiff⟩ := existing_iff h
  obtain ⟨created, skipped, after, created', after', hbulk, hsingle, hcreated, hafter, hcount⟩ :=
    addPrepared_agrees draws draws' hplatform (mapM_prepareRow hread) h rfl
      hiff
  refine ⟨({ accounts := created, created := created.length, skipped, received := prepared.length },
    after), (created', after'), ?_, hsingle, ?_⟩
  · simp only [addAccountsBulkResult, hprepare, hexisting, hbulk, bind, Except.bind]
  · exact { created := hcreated, list := hafter, received := rfl, counted := by
              simpa using congrArg List.length hcreated, counts := hcount }

variable (P digest b) in
/-- In a run that starts with up-to-date fingerprints (as the empty list has) and gives no account
with a stored fingerprint cookies of another one, a bulk import is the import of its rows one by
one in every state. -/
theorem bulk_agrees_throughout (operations : List Operation) (accounts : AccountList)
    (hstart : AllCurrent P digest accounts)
    (hkeeps : AllSteps (Operation.apply P digest b) (Operation.KeepsFingerprints P digest)
      operations accounts) :
    Throughout (Operation.apply P digest b) (BulkAgrees P digest) operations accounts :=
  (throughout_of_allSteps (fun _ _ h hkeep => h.apply hkeep) hstart hkeeps).mono
    fun _ h => h.bulkAgrees

end Agreement

/-! ### A fingerprint that is out of date -/

section Sample

/-- The parsers on texts that are no JSON and have one cookie. -/
def oneCookie : Parsers where
  toChars := .ascii
  loads _ := none
  dumps _ := ""
  str _ := ""
  int _ := .error "invalid literal"
  simpleCookie text := .ok <| match splitFirst ['='] text.toList with
    | some (name, value) => [(String.ofList name, String.ofList value)]
    | none => []

/-- A digest without collisions, for these cookies. -/
def joinedDigest (platform : String) (keys : List (List String)) : String :=
  "\n".intercalate (platform :: keys.flatten)

theorem longer_notMem (ids : List String) :
    String.ofList (List.replicate ((ids.map String.length).sum + 1) 'a') ∉ ids := by
  intro hmem
  have hle := List.le_sum_of_mem (List.mem_map_of_mem (f := String.length) hmem)
  rw [String.length_ofList, List.length_replicate] at hle
  omega

/-- The ids `a`, `aa` and so on. -/
def sampleDraw : Draw where
  token ids := ⟨_, longer_notMem ids⟩
  now := "now"
  today := "2025-01-01"

def dolaImport : ImportSettings where
  enabled := true
  platform := "dola"
  accountSource := "admin"

def noAccounts : AccountList := ⟨[], List.nodup_nil⟩

/-- An account is imported with the cookie `sid`, and gets another value of it. -/
def importAndRefresh (value : String) : List Operation :=
  [.addAccount dolaImport "A" "sid=1" 2 sampleDraw,
    .updateAccountCookies "a" [.object [("name", .text "sid"), ("value", .text value)]] "later"]

/-- The bulk import still takes the old cookie for that of the account. -/
theorem refreshed_cookie_skipped :
    ¬ Throughout (Operation.apply oneCookie joinedDigest .jsonFile)
      (BulkAgrees oneCookie joinedDigest) (importAndRefresh "2") noAccounts := by
  intro h
  obtain ⟨bulk, single, hbulk, hsingle, hsame⟩ := h.final dolaImport "B----sid=1" 2
    (fun _ => sampleDraw) (fun _ => sampleDraw) "dola"
    [⟨⟨"B", "sid=1", 2⟩, [⟨"sid", "1", ".dola.com", "/", "", "", none, none⟩],
      "dola\nsid\n1\n.dola.com\n/"⟩] (by decide +kernel)
  have hskipped : (addAccountsBulkResult oneCookie joinedDigest dolaImport "B----sid=1" 2
      (fun _ => sampleDraw) (run (Operation.apply oneCookie joinedDigest .jsonFile)
        (importAndRefresh "2") noAccounts)).toOption.map (·.1.created) = some 0 := by
    decide +kernel
  have hcreated : (addLineByLine oneCookie joinedDigest dolaImport [⟨"B", "sid=1", 2⟩]
      (fun _ => sampleDraw) (run (Operation.apply oneCookie joinedDigest .jsonFile)
        (importAndRefresh "2") noAccounts)).toOption.map (·.1.length) = some 1 := by
    decide +kernel
  rw [hbulk] at hskipped
  rw [List.map_singleton] at hsingle
  rw [hsingle] at hcreated
  have hzero : bulk.1.created = 0 := Option.some.inj hskipped
  have hone : single.1.length = 1 := Option.some.inj hcreated
  have hcounted := hsame.counted
  omega

/-- A refresh that brings the same value, and then an import of another one. -/
theorem bulk_agrees_throughout_sample :
    Throughout (Operation.apply oneCookie joinedDigest .jsonFile)
      (BulkAgrees oneCookie joinedDigest)
      (importAndRefresh "1" ++
        [.addAccountsBulk dolaImport "B----sid=2" 2 fun _ => sampleDraw]) noAccounts := by
  refine bulk_agrees_throughout oneCookie joinedDigest .jsonFile _ noAccounts
    (fun a ha => absurd ha List.not_mem_nil) ?_
  simp only [importAndRefresh, List.cons_append, List.nil_append, AllSteps, and_true]
  refine ⟨?_, ?_, ?_⟩
  · exact fun a ha => absurd ha List.not_mem_nil
  · unfold Operation.KeepsFingerprints
    decide +kernel
  · unfold Operation.KeepsFingerprints
    decide +kernel

end Sample

end FetchTask.Accounts
