import FetchTask.Users.Changes

/-!
What holds of the users in every state of a run.

Whatever fails, no two users have one folded name, and a login is one of an
enabled user whose password it was at that moment (`registry_sound`). No two users
have one e-mail, where e-mails are such that both ways to fold them agree and no
token is drawn twice (`emails_unique`).
-/

namespace FetchTask.Users

open TempAccess Runs
open Rotation (Draw Faults Request)

variable {S : Setting} {s s' : Registry} {key : String} {a : Account} {faults : Faults} {draw : Draw}

/-- No user is registered; the tokens there are were made for others. -/
def Registry.new (tokens : Tokens) : Registry :=
  { users := .empty, tokens, granted := [], pending := fun _ => none, logins := [] }

/-- The record that a login was confirmed with let this password in. -/
structure Login.Sound (S : Setting) (login : Login) : Prop where
  enabled : login.account.enabled = true
  password : S.passwordHash login.password login.account.passwordSalt = some login.account.passwordHash
  username : login.username = login.account.username
  token : login.token = login.account.token

/-- Names are told apart by their folded forms, and logins are sound. -/
structure Sound (S : Setting) (s : Registry) : Prop where
  names : s.users.Distinct (fun a => S.casefold a.username) fun _ => True
  logins : ∀ login ∈ s.logins, login.Sound S

/-- A record is under its name and has the hash of its token, which was given out. -/
structure RecordKept (S : Setting) (granted : List String) (key : String) (a : Account) : Prop where
  key_eq : key = nameKey S a.username
  hash_eq : a.tokenHash = S.hashToken a.token
  mem : a.tokenHash ∈ granted

/-- What every call keeps. A password that a login has read fits the salt and the hash that it
read with it. -/
structure Kept (S : Setting) (s : Registry) : Prop where
  records : ∀ key a, s.users.get? key = some a → RecordKept S s.granted key a
  pending : ∀ thread p, s.pending thread = some p → S.passwordHash p.password p.salt = some p.hash
  logins : ∀ login ∈ s.logins, login.Sound S

theorem kept_new (tokens : Tokens) : Kept S (Registry.new tokens) where
  records _ _ h := by cases h
  pending _ _ h := by cases h
  logins _ h := by cases h

theorem Kept.sound (h : Kept S s) : Sound S s where
  names key key' a a' hget hget' _ hfold := by
    rw [(h.records key a hget).key_eq, (h.records key' a' hget').key_eq]
    simp only [nameKey, hfold]
  logins := h.logins

/-! ### The records -/

theorem records_kept {allowed emails : List String}
    (h : ∀ j b, s.users.get? j = some b → RecordKept S s.granted j b)
    (hchange : Changes S allowed emails s s') :
    ∀ j b, s'.users.get? j = some b → RecordKept S s'.granted j b := by
  obtain ⟨drawn, -, hgranted, hchange⟩ := hchange
  rw [hgranted]
  have hold : ∀ j b, s.users.get? j = some b → RecordKept S (drawn ++ s.granted) j b :=
    fun j b hget => { h j b hget with mem := List.mem_append_right _ (h j b hget).mem }
  generalize s'.users = users at hchange ⊢
  cases hchange with
  | stay => exact hold
  | add hnew hkey hhash hdrawn hemail hfree =>
    exact Dict.forall_set ⟨hkey, hhash, List.mem_append_left _ hdrawn⟩ hold
  | edit hread hname hhash htoken hemail =>
    have ha := hold _ _ hread
    refine Dict.forall_set ⟨?_, ?_, ?_⟩ hold
    · rw [hname]
      exact ha.key_eq
    · rw [hhash, htoken]
      exact ha.hash_eq
    · rw [hhash]
      exact ha.mem
  | renew hread hname hhash hdrawn hemail =>
    refine Dict.forall_set ⟨?_, hhash, List.mem_append_left _ hdrawn⟩ hold
    rw [hname]
    exact (hold _ _ hread).key_eq
  | remove key => exact Dict.forall_erase hold

/-! ### Logins -/

/-- A call that has no part in a login. -/
structure Apart (s s' : Registry) : Prop where
  pending : s'.pending = s.pending
  logins : s'.logins = s.logins

theorem registerUser_apart (r : Registration) (id : String) :
    Apart s (registerUser S r draw id faults s) := by
  rw [registerUser]
  split
  · exact ⟨rfl, rfl⟩
  · split
    · exact ⟨rfl, rfl⟩
    · cases S.passwordHash r.password draw.salt with
      | none => exact ⟨rfl, rfl⟩
      | some passwordHash =>
        simp only
        split_ifs <;> exact ⟨rfl, rfl⟩

theorem rotate_apart (request : Request) : Apart s (rotate S request draw faults s) := by
  obtain hstop | ⟨key, a, hget, haccepted, htoken⟩ :=
    rotate_cases S request draw faults s
  · rw [hstop]
    exact ⟨rfl, rfl⟩
  · rw [rotate_eq hget haccepted htoken]
    cases request.update S.toSetting draw a.toUser with
    | none => exact ⟨rfl, rfl⟩
    | some user =>
      simp only
      split_ifs <;> exact ⟨rfl, rfl⟩

theorem changeEmail_apart (tokenHash email now : String) :
    Apart s (changeEmail S tokenHash email now faults s) := by
  simp only [changeEmail]
  split
  · exact ⟨rfl, rfl⟩
  · split_ifs <;> exact ⟨rfl, rfl⟩

theorem setEnabled_apart (id : String) (enabled : Bool) (now : String) :
    Apart s (setEnabled id enabled now faults s) := by
  rw [setEnabled]
  split
  · exact ⟨rfl, rfl⟩
  · split_ifs <;> exact ⟨rfl, rfl⟩

theorem deleteUser_apart (id : String) : Apart s (deleteUser S id faults s) := by
  rw [deleteUser]
  split
  · exact ⟨rfl, rfl⟩
  · cases S.backend <;> simp only <;> split_ifs <;> exact ⟨rfl, rfl⟩

/-- A password is set aside with the salt and the hash that it fits. -/
theorem loginRead_fits {identifier : String} {password : Text} {users : Accounts} {p : Pending}
    (h : loginRead S identifier password users = some p) :
    S.passwordHash p.password p.salt = some p.hash := by
  rw [loginRead] at h
  split at h
  · cases h
  · split_ifs at h with hhash
    cases h
    exact hhash

/-- A login is confirmed by a record that the password fits, though others may have changed it
since it was read. -/
theorem loginConfirm_logins {p : Pending} {now : String}
    (hfits : S.passwordHash p.password p.salt = some p.hash)
    (h : ∀ login ∈ s.logins, login.Sound S) :
    ∀ login ∈ (loginConfirm S p now faults s).logins, login.Sound S := by
  rw [loginConfirm]
  split
  · exact h
  · rename_i account hget
    split_ifs with hsame
    · obtain ⟨henabled, hsalt, hhash, -⟩ := hsame
      intro login hmem
      obtain rfl | hmem := List.mem_cons.mp hmem
      · refine ⟨henabled, ?_, rfl, rfl⟩
        rw [hsalt, hhash]
        exact hfits
      · exact h login hmem
    · exact h

theorem loginConfirm_pending {p : Pending} {now : String} :
    (loginConfirm S p now faults s).pending = s.pending := by
  rw [loginConfirm]
  split
  · rfl
  · split_ifs <;> rfl

theorem Apart.kept {allowed emails : List String} (h : Kept S s) (hapart : Apart s s')
    (hchange : Changes S allowed emails s s') : Kept S s' where
  records := records_kept h.records hchange
  pending := by
    rw [hapart.pending]
    exact h.pending
  logins := by
    rw [hapart.logins]
    exact h.logins

/-- A thread's set-aside login is replaced by one that fits, or dropped. -/
theorem pending_update {thread : Nat} {next : Option Pending} (h : Kept S s)
    (hnext : ∀ p, next = some p → S.passwordHash p.password p.salt = some p.hash) (t : Nat)
    (p : Pending) (hp : Function.update s.pending thread next t = some p) :
    S.passwordHash p.password p.salt = some p.hash := by
  by_cases ht : t = thread
  · rw [ht, Function.update_self] at hp
    exact hnext p hp
  · rw [Function.update_of_ne ht] at hp
    exact h.pending t p hp

theorem step_kept (e : Event) (s : Registry) (h : Kept S s) : Kept S (step S e s) := by
  have hchange := step_changes (S := S) (s := s) e
  have hrecords := records_kept h.records hchange
  cases e with
  | register r draw id faults =>
    refine Apart.kept h ?_ hchange
    rw [step]
    split_ifs
    · exact registerUser_apart r id
    · exact ⟨rfl, rfl⟩
  | loginRead thread identifier password =>
    exact ⟨hrecords, pending_update h fun _ => loginRead_fits, h.logins⟩
  | loginConfirm thread now faults =>
    rw [step] at hrecords ⊢
    cases hp : s.pending thread with
    | none => exact h
    | some p =>
      simp only [hp] at hrecords
      refine ⟨hrecords, ?_, loginConfirm_logins (h.pending thread p hp) h.logins⟩
      simp only [loginConfirm_pending]
      exact pending_update h fun _ hnone => by cases hnone
  | rotate request draw faults =>
    refine Apart.kept h ?_ hchange
    rw [step]
    split_ifs
    · exact rotate_apart request
    · exact ⟨rfl, rfl⟩
  | changeEmail tokenHash email now faults =>
    exact Apart.kept h (changeEmail_apart tokenHash email now) hchange
  | setEnabled id enabled now faults => exact Apart.kept h (setEnabled_apart id enabled now) hchange
  | deleteUser id faults => exact Apart.kept h (deleteUser_apart id) hchange

theorem kept_throughout (tokens : Tokens) (events : List Event) :
    Throughout (step S) (Kept S) events (Registry.new tokens) :=
  throughout_of_step step_kept (kept_new tokens)

/-- Whatever the calls, their order and their failures, no two users have one name, and every
login let in an enabled user by the password of that moment. -/
theorem registry_sound (S : Setting) (tokens : Tokens) (events : List Event) :
    Throughout (step S) (Sound S) events (Registry.new tokens) :=
  (kept_throughout tokens events).mono fun _ => Kept.sound

/-! ### E-mails -/

/-- Both ways to fold an e-mail leave it alone. -/
structure PlainEmail (S : Setting) (email : String) : Prop where
  lower : S.chars.lower email = email
  casefold : S.casefold email = email

/-- A call writes plain e-mails only and gives out no hash a second time. -/
structure Regular (S : Setting) (e : Event) (s : Registry) : Prop where
  emails : ∀ email ∈ e.emails S, PlainEmail S email
  drawn : ∀ hash ∈ e.drawn S, hash ∉ s.granted

/-- No two users have one e-mail, where they have any. -/
def EmailsUnique (s : Registry) : Prop := s.users.Distinct (·.email) fun email => email ≠ ""

/-- What regular calls keep. -/
structure Addressed (S : Setting) (s : Registry) : Prop where
  kept : Kept S s
  plain : ∀ key a, s.users.get? key = some a → PlainEmail S a.email
  hashes : s.users.Distinct (·.tokenHash) fun _ => True
  emails : EmailsUnique s

theorem addressed_new (tokens : Tokens) : Addressed S (Registry.new tokens) where
  kept := kept_new tokens
  plain _ _ h := by cases h
  hashes := Dict.distinct_empty
  emails := Dict.distinct_empty

theorem sameEmail_self {email : String} (h : PlainEmail S email) : sameEmail S email email = true := by
  rw [sameEmail]
  cases S.backend <;> simp [h.lower, h.casefold]

theorem sameEmail_eq {stored email : String} (hstored : PlainEmail S stored)
    (h : PlainEmail S email) (hsame : sameEmail S stored email = true) : stored = email := by
  rw [sameEmail] at hsame
  cases hbackend : S.backend <;>
    simpa [hbackend, hstored.lower, hstored.casefold, h.casefold] using hsame

/-- Where a plain e-mail is not found, no record has it. -/
theorem ne_of_readByEmail {email : String} {users : Accounts} (h : PlainEmail S email)
    (hread : readByEmail S email users = none) (j : String) (b : Account)
    (hget : users.get? j = some b) : b.email ≠ email := by
  intro heq
  have hmem := (Dict.get?_eq_some_iff users).mp hget
  have hnot := List.find?_eq_none.mp hread _ hmem
  simp only [heq] at hnot
  exact hnot (sameEmail_self h)

/-- Where a plain e-mail is with no other record, only the record of the token can have it. -/
theorem key_of_emailOfOther {email : String} (h : Addressed S s) (hemail : PlainEmail S email)
    (hne : email ≠ "") (hget : s.users.get? key = some a)
    (hfree : emailOfOther S a.tokenHash email s.users = false) (j : String) (b : Account)
    (hb : s.users.get? j = some b) (heq : b.email = email) : j = key := by
  rw [emailOfOther] at hfree
  cases hbackend : S.backend with
  | postgres =>
    simp only [hbackend, Bool.and_eq_false_imp, bne_iff_ne, ne_eq, hne, not_false_eq_true,
      forall_const] at hfree
    cases hread : readByEmail S email s.users with
    | none => exact absurd heq (ne_of_readByEmail hemail hread j b hb)
    | some item =>
      -- the first record that is found has the token, and so it is the only one with the e-mail
      have hfound := read_get? hread
      have hsame := sameEmail_eq (h.plain _ _ hfound) hemail (by simpa using List.find?_some hread)
      have hhash : item.2.tokenHash = a.tokenHash := by simpa [hread] using hfree
      have hfirst : j = item.1 := h.emails j item.1 b item.2 hb hfound (ne_of_eq_of_ne heq hne)
        (heq.trans hsame.symm)
      calc j = item.1 := hfirst
        _ = key := h.hashes item.1 key item.2 a hfound hget trivial hhash
  | jsonFile =>
    simp only [hbackend] at hfree
    cases hread : readByTokenHash a.tokenHash s.users with
    | none =>
      have hnot := List.find?_eq_none.mp hread _ ((Dict.get?_eq_some_iff s.users).mp hget)
      simp at hnot
    | some item =>
      have hitem : item.1 = key := h.hashes item.1 key item.2 a (read_get? hread) hget trivial
        (readByTokenHash_hash hread)
      simp only [hread, List.any_eq_false] at hfree
      have hnot := hfree (j, b) ((Dict.get?_eq_some_iff s.users).mp hb)
      simp only [heq, sameEmail_self hemail, hitem, Bool.and_true, bne_iff_ne, ne_eq,
        not_not] at hnot
      exact hnot

/-- A hash that is new is with no record. -/
theorem tokenHash_ne {hash : String} (h : Kept S s) (hnew : hash ∉ s.granted) (j : String)
    (b : Account) (hget : s.users.get? j = some b) : b.tokenHash ≠ hash :=
  fun heq => hnew (heq ▸ (h.records j b hget).mem)

theorem addressed_change {allowed emails : List String} (h : Addressed S s) (hkept : Kept S s')
    (hemails : ∀ email ∈ emails, PlainEmail S email) (hdrawn : ∀ hash ∈ allowed, hash ∉ s.granted)
    (hchange : Changes S allowed emails s s') : Addressed S s' := by
  obtain ⟨drawn, hsub, -, hchange⟩ := hchange
  suffices hrest : (∀ key a, s'.users.get? key = some a → PlainEmail S a.email) ∧
      s'.users.Distinct (·.tokenHash) (fun _ => True) ∧
        s'.users.Distinct (·.email) fun email => email ≠ "" from
    ⟨hkept, hrest.1, hrest.2.1, hrest.2.2⟩
  generalize s'.users = users at hchange ⊢
  cases hchange with
  | stay => exact ⟨h.plain, h.hashes, h.emails⟩
  | @add key a hnew hkey hhash hdraw hemail hfree =>
    refine ⟨Dict.forall_set (hemails _ hemail) h.plain, h.hashes.set ?_, h.emails.set ?_⟩
    · intro _ j b hb heq
      exact absurd heq (tokenHash_ne h.kept (hdrawn _ (hsub hdraw)) j b hb)
    · intro hne j b hb heq
      have hread := hfree.resolve_left hne
      exact absurd heq (ne_of_readByEmail (hemails _ hemail) hread j b hb)
  | @edit key a a' hold hname hhash htoken hemail =>
    have hsame : ∀ j b, s.users.get? j = some b → b.tokenHash = a'.tokenHash → j = key :=
      fun j b hb heq => h.hashes j key b a hb hold trivial (heq.trans hhash)
    refine ⟨Dict.forall_set ?_ h.plain, h.hashes.set fun _ => hsame, h.emails.set ?_⟩
    · obtain heq | ⟨hmem, -⟩ := hemail
      · rw [heq]
        exact h.plain key a hold
      · exact hemails _ hmem
    · intro hne j b hb heq
      obtain hstill | ⟨hmem, hfree⟩ := hemail
      · exact h.emails j key b a hb hold (ne_of_eq_of_ne heq hne) (heq.trans hstill)
      · exact key_of_emailOfOther h (hemails _ hmem) hne hold hfree j b hb heq
  | @renew key a a' hold hname hhash hdraw hemail =>
    refine ⟨Dict.forall_set ?_ h.plain, h.hashes.set ?_, h.emails.set ?_⟩
    · rw [hemail]
      exact h.plain key a hold
    · intro _ j b hb heq
      exact absurd heq (tokenHash_ne h.kept (hdrawn _ (hsub hdraw)) j b hb)
    · intro hne j b hb heq
      exact h.emails j key b a hb hold (ne_of_eq_of_ne heq hne) (heq.trans hemail)
  | remove key => exact ⟨Dict.forall_erase h.plain, h.hashes.erase, h.emails.erase⟩

theorem step_addressed (e : Event) (s : Registry) (h : Addressed S s) (hregular : Regular S e s) :
    Addressed S (step S e s) :=
  addressed_change h (step_kept e s h.kept) hregular.emails hregular.drawn (step_changes e)

/-- As long as the e-mails that are written are plain and no hash is given out twice, no two users
have one e-mail, whatever fails. -/
theorem emails_unique (S : Setting) (tokens : Tokens) (events : List Event)
    (hregular : AllSteps (step S) (Regular S) events (Registry.new tokens)) :
    Throughout (step S) EmailsUnique events (Registry.new tokens) :=
  (throughout_of_allSteps step_addressed (addressed_new tokens) hregular).mono fun _ => Addressed.emails

/-! ### Two users -/

section Sample

def annDigest : String := "e5b0e035ac7ac6a7d277d5698334c557136fc0f728529a2aae938076b168ba19"
def bobDigest : String := "24f4eeb2eb0e05c07c1376a2809a22a04605d5bd526bfd0cd8d01fbb0e8ee25d"

/-- A database, the tokens `tmp_ann` and `tmp_bob`, and the password `password1` with one salt. -/
def sampleSetting : Setting where
  chars := .ascii
  backend := .postgres
  hashToken token := if token = "tmp_ann" then annDigest else bobDigest
  hashToken_normal token := by
    split_ifs <;> decide +kernel
  casefold := Chars.ascii.lower
  passwordDigest password salt :=
    if password = textOf "password1" ∧ salt = "00" then
      some "f002314c6d52713b3eb8655ff8b901764facc853c1f7ad025035c9fda56e7b71"
    else none
  upper text := String.ofList (text.toList.map Char.toUpper)

def annDraw : Draw := ⟨"tmp_ann", "00", "2025-01-01"⟩
def bobDraw : Draw := ⟨"tmp_bob", "00", "2025-01-02"⟩

/-- Ann registers and logs in; Bob registers without an e-mail and then asks for hers. -/
def sampleEvents : List Event :=
  [.register ⟨"Ann", textOf "password1", " ANN@example.com ", ""⟩ annDraw "1" {},
    .register ⟨"bob", textOf "password1", "", ""⟩ bobDraw "2" {},
    .loginRead 0 "ann" (textOf "password1"),
    .changeEmail bobDigest "Ann@Example.com" "2025-01-03" {},
    .loginConfirm 0 "2025-01-03" {}]

instance (email : String) : Decidable (PlainEmail S email) :=
  decidable_of_iff (S.chars.lower email = email ∧ S.casefold email = email)
    ⟨fun h => ⟨h.1, h.2⟩, fun h => ⟨h.lower, h.casefold⟩⟩

instance (e : Event) (s : Registry) : Decidable (Regular S e s) :=
  decidable_of_iff ((∀ email ∈ e.emails S, PlainEmail S email) ∧ ∀ hash ∈ e.drawn S, hash ∉ s.granted)
    ⟨fun h => ⟨h.1, h.2⟩, fun h => ⟨h.emails, h.drawn⟩⟩

theorem sample_emails_unique : Throughout (step sampleSetting) EmailsUnique sampleEvents
    (Registry.new fun _ => none) :=
  emails_unique sampleSetting (fun _ => none) sampleEvents (by decide +kernel)

example : (run (step sampleSetting) sampleEvents (Registry.new fun _ => none)).logins.map
    (fun login => (login.username, login.token)) = [("Ann", "tmp_ann")] := by decide +kernel

example : (run (step sampleSetting) sampleEvents (Registry.new fun _ => none)).users.items.map
    (fun item => (item.1, item.2.email)) = [("ann", "ann@example.com"), ("bob", "")] := by
  decide +kernel

end Sample

end FetchTask.Users
