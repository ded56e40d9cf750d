import FetchTask.Users

/-!
What the calls do to the records of the users.

Whatever fails, a call changes at most one record, in one of five ways
(`step_changes`): it adds one under a name and an e-mail that it has looked for,
edits one but for its name and its token, gives one a new token, or removes one.
-/

namespace FetchTask.Users

open TempAccess Runs
open Rotation (Draw Faults Request User findUser rotateTempToken)

variable {S : Setting} {s s' : Registry} {key : String} {a a' : Account} {faults : Faults} {draw : Draw}

/-! ### What a call does to the records -/

/-- What a call that gives out the hashes `drawn` and writes the e-mails `emails` does to the
records. -/
inductive Change (S : Setting) (users : Accounts) (drawn emails : List String) : Accounts → Prop
  | stay : Change S users drawn emails users
  | add {key : String} {a : Account} (hnew : users.contains key = false)
      (hkey : key = nameKey S a.username) (hhash : a.tokenHash = S.hashToken a.token)
      (hdrawn : a.tokenHash ∈ drawn) (hemail : a.email ∈ emails)
      (hfree : a.email = "" ∨ readByEmail S a.email users = none) :
      Change S users drawn emails (users.set key a)
  | edit {key : String} {a a' : Account} (hold : users.get? key = some a)
      (hname : a'.username = a.username) (hhash : a'.tokenHash = a.tokenHash)
      (htoken : a'.token = a.token)
      (hemail : a'.email = a.email ∨
        a'.email ∈ emails ∧ emailOfOther S a.tokenHash a'.email users = false) :
      Change S users drawn emails (users.set key a')
  | renew {key : String} {a a' : Account} (hold : users.get? key = some a)
      (hname : a'.username = a.username) (hhash : a'.tokenHash = S.hashToken a'.token)
      (hdrawn : a'.tokenHash ∈ drawn) (hemail : a'.email = a.email) :
      Change S users drawn emails (users.set key a')
  | remove (key : String) : Change S users drawn emails (users.erase key)

/-- The hashes that a call can give out. -/
def Event.drawn (S : Setting) : Event → List String
  | .register _ draw _ _ | .rotate _ draw _ => [S.hashToken draw.token]
  | _ => []

/-- The e-mails that a call can write. -/
def Event.emails (S : Setting) : Event → List String
  | .register r _ _ _ => [normalizeEmail S r.email]
  | .changeEmail _ email _ _ => [normalizeEmail S email]
  | _ => []

/-- A call changes the records in one of the five ways and logs the hashes that it gave out. -/
def Changes (S : Setting) (allowed emails : List String) (s s' : Registry) : Prop :=
  ∃ drawn ⊆ allowed, s'.granted = drawn ++ s.granted ∧ Change S s.users drawn emails s'.users

theorem Changes.refl {allowed emails : List String} : Changes S allowed emails s s :=
  ⟨[], List.nil_subset _, rfl, .stay⟩

theorem read_get? {p : String × Account → Bool} {users : Accounts} {item : String × Account}
    (h : users.items.find? p = some item) : users.get? item.1 = some item.2 :=
  (Dict.get?_eq_some_iff users).mpr (List.mem_of_find?_eq_some h)

theorem readByTokenHash_hash {tokenHash : String} {users : Accounts} {item : String × Account}
    (h : readByTokenHash tokenHash users = some item) : item.2.tokenHash = tokenHash := by
  have hp := List.find?_some h
  simpa using hp

theorem update_kept {request : Request} {user user' : User}
    (h : request.update S.toSetting draw user = some user') :
    user'.username = user.username ∧ user'.email = user.email := by
  cases request with
  | refresh tokenHash =>
    cases h
    exact ⟨rfl, rfl⟩
  | changePassword tokenHash currentPassword newPassword confirmPassword =>
    obtain ⟨hash, -, rfl⟩ := Option.map_eq_some_iff.mp h
    exact ⟨rfl, rfl⟩
  | resetPassword email newPassword confirmPassword =>
    obtain ⟨hash, -, rfl⟩ := Option.map_eq_some_iff.mp h
    exact ⟨rfl, rfl⟩

theorem registerUser_changes (r : Registration) (id : String) :
    Changes S [S.hashToken draw.token] [normalizeEmail S r.email] s (registerUser S r draw id faults s) := by
  rw [registerUser]
  split
  · exact .refl
  · rename_i hrefusal
    simp only [Registration.refusal] at hrefusal
    split_ifs at hrefusal with hname hpassword htaken hemail
    have hfree : normalizeEmail S r.email = "" ∨
        readByEmail S (normalizeEmail S r.email) s.users = none := by
      simp only [Bool.and_eq_true, bne_iff_ne, ne_eq, not_and, Bool.not_eq_true,
        Option.isSome_eq_false_iff, Option.isNone_iff_eq_none] at hemail
      exact (em _).imp_right hemail
    split
    · exact .refl
    · cases S.passwordHash r.password draw.salt with
      | none => exact ⟨_, List.Subset.refl _, rfl, .stay⟩
      | some passwordHash =>
        simp only
        split_ifs
        · exact ⟨_, List.Subset.refl _, rfl, .stay⟩
        · exact ⟨_, List.Subset.refl _, rfl, .add (a := r.account S draw id passwordHash)
            (Bool.eq_false_iff.mpr htaken) rfl rfl List.mem_cons_self List.mem_cons_self hfree⟩

theorem loginConfirm_changes (p : Pending) (now : String) :
    Changes S [] [] s (loginConfirm S p now faults s) := by
  rw [loginConfirm]
  split
  · exact .refl
  · rename_i hget
    split_ifs
    · exact ⟨[], List.nil_subset _, rfl, .edit hget rfl rfl rfl (.inl rfl)⟩
    · exact .refl

/-- The record that a rotation works on. -/
theorem accepted_get? {request : Request} {user : User}
    (h : request.accepted S.toSetting (s.users.mapValues Account.toUser) = some (key, user)) :
    ∃ a, s.users.get? key = some a ∧ a.toUser = user := by
  have hget := Rotation.accepted_mem
    (s := ⟨s.users.mapValues Account.toUser, s.tokens, [], .empty⟩) h
  rwa [Dict.get?_mapValues, Option.map_eq_some_iff] at hget

/-- The registry once an entry has moved. -/
def moved (S : Setting) (draw : Draw) (a : Account) (s : Registry) : Registry :=
  { s with
    tokens := (rotateTempToken S.toSetting draw a.tokenHash s.tokens).2
    granted := S.hashToken draw.token :: s.granted }

/-- The registry once the record has been written as well. -/
def renewed (S : Setting) (draw : Draw) (key : String) (a : Account) (user : User)
    (s : Registry) : Registry :=
  { moved S draw a s with users := s.users.set key { a with toUser := user } }

/-- Once the entry moves, the record is written when the view of the entry is made and the new
password is hashed. -/
theorem rotate_eq {request : Request} (hget : s.users.get? key = some a)
    (haccepted : request.accepted S.toSetting (s.users.mapValues Account.toUser) =
      some (key, a.toUser)) (htoken : faults.tokenWrite = false) :
    rotate S request draw faults s =
      match request.update S.toSetting draw a.toUser with
      | none => moved S draw a s
      | some user =>
        if (rotateTempToken S.toSetting draw a.tokenHash s.tokens).1.isOk ∧
            faults.userWrite = false then
          renewed S draw key a user s
        else moved S draw a s := by
  rw [rotate, haccepted]
  simp only [htoken, hget]
  cases hview : (rotateTempToken S.toSetting draw a.tokenHash s.tokens).1 with
  | error e => cases request.update S.toSetting draw a.toUser <;> rfl
  | ok view =>
    cases request.update S.toSetting draw a.toUser with
    | none => rfl
    | some user => cases huser : faults.userWrite <;> rfl

/-- A rotation stops at its checks or works on one record. -/
theorem rotate_cases (S : Setting) (request : Request) (draw : Draw) (faults : Faults)
    (s : Registry) : rotate S request draw faults s = s ∨
      ∃ key a, s.users.get? key = some a ∧
        request.accepted S.toSetting (s.users.mapValues Account.toUser) = some (key, a.toUser) ∧
          faults.tokenWrite = false := by
  cases haccepted : request.accepted S.toSetting (s.users.mapValues Account.toUser) with
  | none =>
    left
    rw [rotate, haccepted]
  | some item =>
    obtain ⟨key, user⟩ := item
    obtain ⟨a, hget, rfl⟩ := accepted_get? haccepted
    cases htoken : faults.tokenWrite with
    | true =>
      left
      rw [rotate, haccepted]
      simp [htoken]
    | false => exact .inr ⟨key, a, hget, rfl, rfl⟩

theorem rotate_changes (request : Request) :
    Changes S [S.hashToken draw.token] [] s (rotate S request draw faults s) := by
  obtain hstop | ⟨key, a, hget, haccepted, htoken⟩ :=
    rotate_cases S request draw faults s
  · rw [hstop]
    exact .refl
  · rw [rotate_eq hget haccepted htoken]
    cases hupdate : request.update S.toSetting draw a.toUser with
    | none => exact ⟨_, List.Subset.refl _, rfl, .stay⟩
    | some user =>
      obtain ⟨hname, hemail⟩ := update_kept hupdate
      obtain ⟨hhash, htoken'⟩ := Rotation.update_tokenHash hupdate
      simp only
      split_ifs
      · exact ⟨_, List.Subset.refl _, rfl, .renew hget hname (by rw [hhash, htoken'])
          (by rw [hhash]; exact List.mem_cons_self) hemail⟩
      · exact ⟨_, List.Subset.refl _, rfl, .stay⟩

theorem changeEmail_changes (tokenHash email now : String) :
    Changes S [] [normalizeEmail S email] s (changeEmail S tokenHash email now faults s) := by
  simp only [changeEmail]
  split
  · exact .refl
  · rename_i key account hread
    obtain ⟨hread, -⟩ := Option.filter_eq_some_iff.mp hread
    split_ifs with hrefused
    · exact .refl
    · simp only [Bool.or_eq_true, not_or, Bool.not_eq_true] at hrefused
      have hhash : account.tokenHash = tokenHash := readByTokenHash_hash hread
      refine ⟨[], List.nil_subset _, rfl,
        .edit (read_get? hread) rfl rfl rfl (.inr ⟨List.mem_cons_self, ?_⟩)⟩
      rw [hhash]
      exact hrefused.1

theorem setEnabled_changes (id : String) (enabled : Bool) (now : String) :
    Changes S [] [] s (setEnabled id enabled now faults s) := by
  rw [setEnabled]
  split
  · exact .refl
  · rename_i hread
    split_ifs
    · exact .refl
    · exact ⟨[], List.nil_subset _, rfl, .edit (read_get? hread) rfl rfl rfl (.inl rfl)⟩

theorem deleteUser_changes (id : String) : Changes S [] [] s (deleteUser S id faults s) := by
  rw [deleteUser]
  split
  · exact .refl
  · -- one of the two writes can have happened, or both
    have hgone : ∀ key tokens, Changes S [] [] s { s with users := s.users.erase key, tokens } :=
      fun key _ => ⟨[], List.nil_subset _, rfl, .remove key⟩
    have hkept : ∀ tokens, Changes S [] [] s { s with tokens } :=
      fun _ => ⟨[], List.nil_subset _, rfl, .stay⟩
    cases S.backend with
    | postgres =>
      simp only
      split_ifs
      · exact .refl
      · exact hgone _ _
      · exact hgone _ _
    | jsonFile =>
      simp only
      split_ifs
      · exact .refl
      · exact hkept _
      · exact hgone _ _

theorem step_changes (e : Event) : Changes S (e.drawn S) (e.emails S) s (step S e s) := by
  cases e with
  | register r draw id faults =>
    rw [step]
    split_ifs
    · exact registerUser_changes r id
    · exact .refl
  | loginRead thread identifier password => exact ⟨[], List.nil_subset _, rfl, .stay⟩
  | loginConfirm thread now faults =>
    rw [step]
    split
    · exact .refl
    · exact loginConfirm_changes _ now
  | rotate request draw faults =>
    rw [step]
    split_ifs
    · exact rotate_changes request
    · exact .refl
  | changeEmail tokenHash email now faults => exact changeEmail_changes tokenHash email now
  | setEnabled id enabled now faults => exact setEnabled_changes id enabled now
  | deleteUser id faults => exact deleteUser_changes id

end FetchTask.Users
