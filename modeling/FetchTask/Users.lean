import FetchTask.Lib.Runs
import FetchTask.Rotation
import FetchTask.TempAccess.Writers

/-!
The users of the site (`app/users.py`, `app/postgres.py`).

A user has a record, under its folded name, and an entry among the temporary
tokens, which pays for its tasks. The two are written one after the other: a
registration makes the entry and then the record, a rotation moves the entry and
then writes the record, a deletion removes both. The database or the disk can
fail at either write.

The functions run in threads of one process and take its lock for their whole
length, so that their calls come one after another. `loginUser` is the exception:
it hashes the password without the lock and takes the lock again to confirm what
it has read. Where a query has no order, its first record is the one it picks. Of
the tokens only those of users are followed; charges and refunds leave what is
said here alone.
-/

namespace FetchTask.Users

open TempAccess Runs
open Rotation (Draw Faults Request User findUser passwordChange rotateTempToken validPassword)

/-- The record of a user. -/
structure Account extends User where
  id : String
  invitationCode : String
  createdAt : String
  lastLoginAt : String
  deriving DecidableEq

abbrev Accounts := Dict String Account

structure Setting extends Rotation.Setting where
  upper : String → String

/-- The first section of a login: the password fits the record that was read. -/
structure Pending where
  key : String
  password : Text
  salt : String
  hash : String

/-- A login that was confirmed, and the record as it was then. -/
structure Login where
  password : Text
  username : String
  token : String
  account : Account

structure Registry where
  users : Accounts
  tokens : Tokens
  /-- The hashes of the tokens that were made for users. -/
  granted : List String
  pending : Nat → Option Pending
  logins : List Login

variable (S : Setting)

/-! ### Reading -/

/-- `read_user` and its counterpart on files, by folded name. -/
def readByName (value : String) (users : Accounts) : Option (String × Account) :=
  match S.backend with
  | .postgres => (users.get? (S.casefold value)).map fun account => (S.casefold value, account)
  | .jsonFile => users.items.find? fun item => S.casefold item.1 == S.casefold value

/-- Whether a stored e-mail is found under a given one. -/
def sameEmail (stored email : String) : Bool :=
  match S.backend with
  | .postgres => S.chars.lower stored == S.casefold email
  | .jsonFile => S.casefold stored == S.casefold email

def readByEmail (email : String) (users : Accounts) : Option (String × Account) :=
  users.items.find? fun item => sameEmail S item.2.email email

def readByTokenHash (tokenHash : String) (users : Accounts) : Option (String × Account) :=
  users.items.find? fun item => item.2.tokenHash == tokenHash

def readById (id : String) (users : Accounts) : Option (String × Account) :=
  users.items.find? fun item => item.2.id == id

/-! ### Registration -/

/-- `_USERNAME_RE`. -/
def validUsername (username : String) : Bool :=
  decide (3 ≤ username.length) && decide (username.length ≤ 24) &&
    username.toList.all fun c => c.isAlphanum || c == '_' || (0x4e00 ≤ c.toNat && c.toNat ≤ 0x9fff)

def normalizeEmail (email : String) : String := S.chars.lower (S.chars.strip email)

/-- The key of a record; `insert_user` folds the name once more. -/
def nameKey (username : String) : String :=
  match S.backend with
  | .postgres => S.casefold (S.casefold username)
  | .jsonFile => S.casefold username

structure Registration where
  username : String
  password : Text
  email : String := ""
  invitationCode : String := ""

def usernameInvalid : String := "用户名需为3-24位中文、字母、数字或下划线"
def passwordInvalid : String := "密码长度需为8-128位"
def usernameTaken : String := "用户名已存在"
def emailTaken : String := "邮箱已注册"

/-- Why a registration is refused before anything is written. -/
def Registration.refusal (r : Registration) (users : Accounts) : Option String :=
  let username := S.chars.strip r.username
  let email := normalizeEmail S r.email
  if !validUsername username then some usernameInvalid
  else if !validPassword r.password then some passwordInvalid
  else if users.contains (nameKey S username) then some usernameTaken
  else if email != "" && (readByEmail S email users).isSome then some emailTaken
  else none

/-- The entry that `create_temp_tokens` makes. -/
def Registration.entry (r : Registration) (draw : Draw) : Entry :=
  createdEntry draw.token 1 1 (takeText 100 (S.chars.strip r.username)) (normalizeRetentionDays 7)
    draw.now

def Registration.account (r : Registration) (draw : Draw) (id passwordHash : String) : Account :=
  let email := normalizeEmail S r.email
  { username := S.chars.strip r.username
    email
    emailVerifiedAt := if email = "" then "" else draw.now
    enabled := true
    passwordSalt := draw.salt
    passwordHash
    tokenHash := S.hashToken draw.token
    token := draw.token
    lastSeenAt := draw.now
    updatedAt := ""
    id
    invitationCode := takeText 80 (S.upper (S.chars.strip r.invitationCode))
    createdAt := draw.now
    lastLoginAt := draw.now }

/-- `register_user`; `draw.token` is the first drawn token whose hash is not in use. The password
is hashed once the entry is made. -/
def registerUser (r : Registration) (draw : Draw) (id : String) (faults : Faults) (s : Registry) :
    Registry :=
  match r.refusal S s.users with
  | some _ => s
  | none =>
    if faults.tokenWrite then s
    else
      let tokenHash := S.hashToken draw.token
      let made := { s with
        tokens := Function.update s.tokens tokenHash (some (r.entry S draw))
        granted := tokenHash :: s.granted }
      match S.passwordHash r.password draw.salt with
      | none => made
      | some passwordHash =>
        if faults.userWrite then made
        else { made with
          users := s.users.set (nameKey S (S.chars.strip r.username))
            (r.account S draw id passwordHash) }

/-! ### Logins -/

/-- The record that an identifier names: a folded name, or else an e-mail. -/
def candidate (identifier : String) (users : Accounts) : Option (String × Account) :=
  let value := S.casefold (S.chars.strip identifier)
  if value = "" then none else (readByName S value users).or (readByEmail S value users)

/-- The first section of `login_user`, and the hash after it. -/
def loginRead (identifier : String) (password : Text) (users : Accounts) : Option Pending :=
  match (candidate S identifier users).filter (·.2.enabled) with
  | none => none
  | some (key, account) =>
    if S.passwordHash password account.passwordSalt = some account.passwordHash then
      some ⟨key, password, account.passwordSalt, account.passwordHash⟩
    else none

/-- The second section: the record under the key has to be what it was. -/
def loginConfirm (p : Pending) (now : String) (faults : Faults) (s : Registry) : Registry :=
  let key := match S.backend with
    | .postgres => S.casefold p.key
    | .jsonFile => p.key
  match s.users.get? key with
  | none => s
  | some account =>
    if account.enabled ∧ account.passwordSalt = p.salt ∧ account.passwordHash = p.hash ∧
        faults.userWrite = false then
      { s with
        users := s.users.set key { account with lastLoginAt := now, lastSeenAt := now }
        logins := ⟨p.password, account.username, account.token, account⟩ :: s.logins }
    else s

/-! ### Changes of a record -/

/-- A token refresh, a change or a reset of the password, up to the migration of the tasks. The
entry has moved when the public view of it raises or the new password cannot be hashed. -/
def rotate (request : Request) (draw : Draw) (faults : Faults) (s : Registry) : Registry :=
  match request.accepted S.toSetting (s.users.mapValues Account.toUser) with
  | none => s
  | some (key, user) =>
    if faults.tokenWrite then s
    else
      let (view, tokens) := rotateTempToken S.toSetting draw user.tokenHash s.tokens
      let moved := { s with tokens, granted := S.hashToken draw.token :: s.granted }
      match view, request.update S.toSetting draw user, s.users.get? key with
      | .ok _, some user', some account =>
        if faults.userWrite then moved
        else { moved with users := s.users.set key { account with toUser := user' } }
      | _, _, _ => moved

/-- Whether the e-mail is found with a record of another token. -/
def emailOfOther (tokenHash email : String) (users : Accounts) : Bool :=
  match S.backend with
  | .postgres =>
    email != "" && (readByEmail S email users).any fun item => item.2.tokenHash != tokenHash
  | .jsonFile =>
    match readByTokenHash tokenHash users with
    | some (key, _) =>
      users.items.any fun item => item.1 != key && sameEmail S item.2.email email
    | none => false

/-- `change_user_email_by_token_hash`. -/
def changeEmail (tokenHash email now : String) (faults : Faults) (s : Registry) : Registry :=
  let email := normalizeEmail S email
  match (readByTokenHash tokenHash s.users).filter (·.2.enabled) with
  | none => s
  | some (key, account) =>
    if emailOfOther S tokenHash email s.users || faults.userWrite then s
    else { s with
      users := s.users.set key
        { account with email, emailVerifiedAt := now, updatedAt := now } }

/-- `set_user_enabled`. -/
def setEnabled (id : String) (enabled : Bool) (now : String) (faults : Faults) (s : Registry) :
    Registry :=
  match readById id s.users with
  | none => s
  | some (key, account) =>
    if faults.userWrite then s
    else { s with users := s.users.set key { account with enabled, updatedAt := now } }

/-- `delete_user`: a database deletes the record first, a file is written last. -/
def deleteUser (id : String) (faults : Faults) (s : Registry) : Registry :=
  match readById id s.users with
  | none => s
  | some (key, account) =>
    let tokens := Function.update s.tokens (normalizeHash S.chars account.tokenHash) none
    match S.backend with
    | .postgres =>
      if faults.userWrite then s
      else if faults.tokenWrite then { s with users := s.users.erase key }
      else { s with users := s.users.erase key, tokens }
    | .jsonFile =>
      if faults.tokenWrite then s
      else if faults.userWrite then { s with tokens }
      else { s with users := s.users.erase key, tokens }

/-! ### Runs -/

inductive Event
  | register (r : Registration) (draw : Draw) (id : String) (faults : Faults)
  | loginRead (thread : Nat) (identifier : String) (password : Text)
  | loginConfirm (thread : Nat) (now : String) (faults : Faults)
  | rotate (request : Request) (draw : Draw) (faults : Faults)
  | changeEmail (tokenHash email now : String) (faults : Faults)
  | setEnabled (id : String) (enabled : Bool) (now : String) (faults : Faults)
  | deleteUser (id : String) (faults : Faults)

/-- Whether the drawn token is new; the loops draw on until it is. -/
def fresh (draw : Draw) (s : Registry) : Bool := (s.tokens (S.hashToken draw.token)).isNone

def step : Event → Registry → Registry
  | .register r draw id faults, s =>
    if fresh S draw s then registerUser S r draw id faults s else s
  | .loginRead thread identifier password, s =>
    { s with pending := Function.update s.pending thread (loginRead S identifier password s.users) }
  | .loginConfirm thread now faults, s =>
    match s.pending thread with
    | none => s
    | some p =>
      loginConfirm S p now faults { s with pending := Function.update s.pending thread none }
  | .rotate request draw faults, s => if fresh S draw s then rotate S request draw faults s else s
  | .changeEmail tokenHash email now faults, s => changeEmail S tokenHash email now faults s
  | .setEnabled id enabled now faults, s => setEnabled id enabled now faults s
  | .deleteUser id faults, s => deleteUser S id faults s

end FetchTask.Users
