import FetchTask.TempAccess.Conservation

/-!
Token rotation (`app/users.py`, `app/temp_access.py`, `app/main.py`).

A token refresh, a change of the password and a reset of the password give a user
a new token. The entry of the token moves to the new hash, then the record of the
user is written, then `migrateTaskOwner` moves the tasks. These are separate
writes: the entry is moved inside the closure on the user's record, but on a
connection of its own (or in a file of its own), so it stays moved when the
write of the record fails. Batch jobs are keyed by the hash of their owner too.
-/

namespace FetchTask.Rotation

open TempAccess

/-! ### What is keyed by a token hash -/

structure User where
  username : String
  email : String
  emailVerifiedAt : String
  enabled : Bool
  passwordSalt : String
  passwordHash : String
  tokenHash : String
  token : String
  lastSeenAt : String
  updatedAt : String
  deriving DecidableEq

/-- A task in any status, also one that is being created. -/
structure OwnedTask where
  id : String
  ownerTokenHash : String
  updatedAt : String
  deriving DecidableEq

structure BatchRow where
  index : Nat
  status : String
  taskId : String
  deriving DecidableEq

structure BatchJob where
  ownerTokenHash : String
  status : String
  rows : List BatchRow
  deriving DecidableEq

/-- The four stores; users are keyed by their folded names and jobs by their ids. -/
structure Stores where
  users : Dict String User
  tokens : Tokens
  tasks : List OwnedTask
  jobs : Dict String BatchJob

/-- `get_job`. -/
def getJob (jobId ownerTokenHash : String) (jobs : Dict String BatchJob) : Option BatchJob :=
  (jobs.get? jobId).filter fun job =>
    ownerTokenHash == "" || job.ownerTokenHash == ownerTokenHash

structure Setting where
  chars : Chars
  backend : Backend
  /-- `hash_token`: a hexadecimal digest. -/
  hashToken : String → String
  hashToken_normal : ∀ token, normalizeHash chars (hashToken token) = hashToken token
  /-- `str.casefold()`. -/
  casefold : String → String
  /-- The digest of a password and a salt in hexadecimal; `none` for a salt that is none. -/
  passwordDigest : Text → String → Option String

/-- `_password_hash`, which raises for a password that cannot be encoded. -/
def Setting.passwordHash (S : Setting) (password : Text) (salt : String) : Option String :=
  if encodable password then S.passwordDigest password salt else none

/-- `hmac.compare_digest` of two texts, which raises unless both are ASCII. -/
def compareDigest (a b : Text) : Option Bool :=
  if a.all (· < 128) && b.all (· < 128) then some (a == b) else none

/-! ### Requests -/

/-- The three requests. A reset comes with the email that `consume_registration_code` returned,
or `none` when it raised. -/
inductive Request
  | refresh (tokenHash : String)
  | changePassword (tokenHash : String) (currentPassword newPassword confirmPassword : Text)
  | resetPassword (email : Option String) (newPassword confirmPassword : Text)

/-- What a request draws and reads from the clock. -/
structure Draw where
  token : String
  salt : String
  now : String

/-- Where a storage operation raises. -/
structure Faults where
  tokenWrite : Bool := false
  userWrite : Bool := false
  listTasks : Bool := false
  updateMeta : String → Bool := fun _ => false

section Requests

variable (S : Setting)

def validPassword (newPassword : Text) : Bool :=
  decide (8 ≤ newPassword.length) && decide (newPassword.length ≤ 128)

/-- `current_password` is right and is not the new one, and neither comparison raises. -/
def passwordChange (user : User) (currentPassword newPassword : Text) : Bool :=
  match S.passwordHash currentPassword user.passwordSalt with
  | none => false
  | some hash =>
    hash == user.passwordHash && compareDigest currentPassword newPassword == some false

/-- The first record that meets `p`, with its key. -/
def findUser (users : Dict String User) (p : User → Bool) : Option (String × User) :=
  users.items.find? fun item => p item.2

/-- The record that a request works on, if the request gets past its checks. -/
def Request.accepted (users : Dict String User) : Request → Option (String × User)
  | .refresh tokenHash => (findUser users (·.tokenHash == tokenHash)).filter (·.2.enabled)
  | .changePassword tokenHash currentPassword newPassword confirmPassword =>
    if newPassword = confirmPassword ∧ validPassword newPassword = true then
      (findUser users (·.tokenHash == tokenHash)).filter fun item =>
        item.2.enabled && passwordChange S item.2 currentPassword newPassword
    else none
  | .resetPassword (some email) newPassword confirmPassword =>
    let email := S.chars.lower (S.chars.strip email)
    if newPassword = confirmPassword ∧ validPassword newPassword = true then
      match S.backend with
      | .postgres =>
        (findUser users fun user => S.chars.lower user.email == S.casefold email).filter
          fun item => item.2.emailVerifiedAt != "" && item.2.enabled
      | .jsonFile =>
        (findUser users fun user =>
          S.chars.lower (S.chars.strip user.email) == email && user.emailVerifiedAt != "").filter
            (·.2.enabled)
    else none
  | .resetPassword none _ _ => none

/-- The record after the request; `none` where the new password cannot be hashed. -/
def Request.update (draw : Draw) (user : User) : Request → Option User
  | .refresh _ =>
    some
      { user with
        tokenHash := S.hashToken draw.token, token := draw.token, lastSeenAt := draw.now
        updatedAt := if S.backend = .postgres then draw.now else user.updatedAt }
  | .changePassword _ _ newPassword _ | .resetPassword _ newPassword _ =>
    (S.passwordHash newPassword draw.salt).map fun passwordHash =>
      { user with
        passwordSalt := draw.salt
        passwordHash
        tokenHash := S.hashToken draw.token, token := draw.token
        lastSeenAt := draw.now, updatedAt := draw.now }

/-- `rotate_temp_token`, where `draw.token` is the first drawn token whose hash is not in use.
The entry has moved when the public view of it raises. -/
def rotateTempToken (draw : Draw) (tokenHash : String) (tokens : Tokens) :
    Except BillingError PublicToken × Tokens :=
  let tokenHash := normalizeHash S.chars tokenHash
  match tokens tokenHash with
  | none => (.error (.keyError "token not found"), tokens)
  | some entry =>
    let newHash := S.hashToken draw.token
    let replacement := { entry with token := draw.token, updatedAt := draw.now }
    (publicToken S.chars newHash replacement,
      Function.update (Function.update tokens newHash (some replacement)) tokenHash none)

/-- `migrate_task_owner`: the tasks are listed, then written one by one. -/
def migrateTaskOwner (faults : Faults) (oldTokenHash newTokenHash now : String) :
    List OwnedTask → Bool × List OwnedTask
  | [] => (true, [])
  | task :: tasks =>
    if task.ownerTokenHash = oldTokenHash then
      if faults.updateMeta task.id then (false, task :: tasks)
      else
        let (done, rest) := migrateTaskOwner faults oldTokenHash newTokenHash now tasks
        (done, { task with ownerTokenHash := newTokenHash, updatedAt := now } :: rest)
    else
      let (done, rest) := migrateTaskOwner faults oldTokenHash newTokenHash now tasks
      (done, task :: rest)

/-- One of the three requests: whether it succeeds, and the stores after it. The old hash is
the one of the record that was found. -/
def Request.run (faults : Faults) (draw : Draw) (request : Request) (s : Stores) : Bool × Stores :=
  match request.accepted S s.users with
  | none => (false, s)
  | some (key, user) =>
    if faults.tokenWrite then (false, s)
    else match rotateTempToken S draw user.tokenHash s.tokens with
    | (.error _, tokens) => (false, { s with tokens })
    | (.ok _, tokens) =>
      match request.update S draw user with
      | none => (false, { s with tokens })
      | some user' =>
        if faults.userWrite then (false, { s with tokens })
        else
          let users := s.users.set key user'
          if faults.listTasks then (false, { s with tokens, users })
          else
            let (done, tasks) := migrateTaskOwner faults user.tokenHash (S.hashToken draw.token)
              draw.now s.tasks
            (done, { s with tokens, users, tasks })

end Requests

/-! ### What a rotation has to do -/

section Law

variable (S : Setting)

/-- The token hash of the record names an entry. -/
def Agrees (user : User) (tokens : Tokens) : Prop :=
  (tokens (normalizeHash S.chars user.tokenHash)).isSome = true

/-- Everything under the old hash is under the new one, and can be used there. -/
structure MovesAll (draw : Draw) (key : String) (user : User) (s s' : Stores) : Prop where
  record : ∃ user' ∈ s'.users.get? key,
    user'.tokenHash = S.hashToken draw.token ∧ user'.token = draw.token
  entry : ∃ entry ∈ s.tokens (normalizeHash S.chars user.tokenHash),
    s'.tokens (S.hashToken draw.token) = some { entry with token := draw.token, updatedAt := draw.now }
  entryGone : s'.tokens (normalizeHash S.chars user.tokenHash) = none
  tasks : s'.tasks = s.tasks.map fun task =>
    if task.ownerTokenHash = user.tokenHash then
      { task with ownerTokenHash := S.hashToken draw.token, updatedAt := draw.now }
    else task
  tasksGone : ∀ task ∈ s'.tasks, task.ownerTokenHash ≠ user.tokenHash
  jobs : ∀ id job, s.jobs.get? id = some job → job.ownerTokenHash = user.tokenHash →
    ∃ job' ∈ getJob id (S.hashToken draw.token) s'.jobs, job'.rows = job.rows
  jobsGone : ∀ id job, s'.jobs.get? id = some job → job.ownerTokenHash ≠ user.tokenHash

/-- A request that succeeds has moved everything; after one that fails the record and the
entry agree as before. -/
structure Rotates (draw : Draw) (request : Request) (s : Stores) (result : Bool × Stores) : Prop where
  moves : result.1 = true →
    ∃ item ∈ request.accepted S s.users, MovesAll S draw item.1 item.2 s result.2
  agrees : result.1 = false → ∀ item ∈ request.accepted S s.users, Agrees S item.2 s.tokens →
    ∃ user' ∈ result.2.users.get? item.1, Agrees S user' result.2.tokens

/-- The new password, if there is one, can be hashed. -/
def Request.hashable (draw : Draw) : Request → Bool
  | .refresh _ => true
  | .changePassword _ _ newPassword _ | .resetPassword _ newPassword _ =>
    (S.passwordHash newPassword draw.salt).isSome

/-- Nothing raises between the moving of the entry and the write of the record. -/
structure Unbroken (faults : Faults) (draw : Draw) (request : Request) (entry : Entry) : Prop where
  view : (normalizeBillingPriority S.chars entry.billingPriority).isOk = true
  hashable : request.hashable S draw = true
  userWrite : faults.userWrite = false

/-- Once the entry has moved, its public view is well formed, the new password can be hashed and
the record is written; and when all tasks are written too, there is no batch job under the old
hash. -/
def MoveSafe (faults : Faults) (draw : Draw) (request : Request) (user : User) (entry : Entry)
    (s : Stores) : Prop :=
  Unbroken S faults draw request entry ∧
    (faults.listTasks = false →
      (∀ task ∈ s.tasks, task.ownerTokenHash = user.tokenHash → faults.updateMeta task.id = false) →
      ∀ id job, s.jobs.get? id = some job → job.ownerTokenHash ≠ user.tokenHash)

/-- A request that gets past its checks and moves the entry is safe from then on. -/
def RotationSafe (faults : Faults) (draw : Draw) (request : Request) (s : Stores) : Prop :=
  ∀ item ∈ request.accepted S s.users, ∀ entry ∈ s.tokens (normalizeHash S.chars item.2.tokenHash),
    faults.tokenWrite = false → MoveSafe S faults draw request item.2 entry s

variable {S} {faults : Faults} {draw : Draw} {request : Request} {s : Stores}

theorem publicToken_isOk (u : Chars) (tokenHash : String) (entry : Entry) :
    (publicToken u tokenHash entry).isOk = (normalizeBillingPriority u entry.billingPriority).isOk := by
  unfold publicToken
  cases normalizeBillingPriority u entry.billingPriority <;> rfl

theorem accepted_mem {key : String} {user : User}
    (h : request.accepted S s.users = some (key, user)) : s.users.get? key = some user := by
  rw [Dict.get?_eq_some_iff]
  have hfilter : ∀ (p : User → Bool) (q : String × User → Bool),
      (findUser s.users p).filter q = some (key, user) → (key, user) ∈ s.users.items := by
    intro p q hfound
    exact List.mem_of_find?_eq_some (Option.filter_eq_some_iff.mp hfound).1
  cases request with
  | refresh tokenHash => exact hfilter _ _ h
  | changePassword tokenHash currentPassword newPassword confirmPassword =>
    simp only [Request.accepted] at h
    split at h
    · exact hfilter _ _ h
    · cases h
  | resetPassword email newPassword confirmPassword =>
    cases email with
    | none => cases h
    | some email =>
      simp only [Request.accepted] at h
      split at h
      · split at h
        · exact hfilter _ _ h
        · exact hfilter _ _ h
      · cases h

/-- The migration succeeds exactly when no write of an owned task raises, and then every such
task has the new owner. -/
theorem migrateTaskOwner_done (oldTokenHash newTokenHash now : String) (tasks : List OwnedTask) :
    (migrateTaskOwner faults oldTokenHash newTokenHash now tasks).1 = true ↔
      ∀ task ∈ tasks, task.ownerTokenHash = oldTokenHash → faults.updateMeta task.id = false := by
  induction tasks with
  | nil => simp [migrateTaskOwner]
  | cons task tasks ih =>
    unfold migrateTaskOwner
    split
    · rename_i howner
      cases hfault : faults.updateMeta task.id with
      | true => simp [howner, hfault]
      | false => simpa [howner, hfault] using ih
    · rename_i howner
      simpa [howner] using ih

theorem migrateTaskOwner_tasks {oldTokenHash newTokenHash now : String} {tasks : List OwnedTask}
    (h : (migrateTaskOwner faults oldTokenHash newTokenHash now tasks).1 = true) :
    (migrateTaskOwner faults oldTokenHash newTokenHash now tasks).2 = tasks.map fun task =>
      if task.ownerTokenHash = oldTokenHash then
        { task with ownerTokenHash := newTokenHash, updatedAt := now }
      else task := by
  induction tasks with
  | nil => rfl
  | cons task tasks ih =>
    unfold migrateTaskOwner at h ⊢
    split at h
    · rename_i howner
      cases hfault : faults.updateMeta task.id with
      | true => simp [hfault] at h
      | false =>
        simp only [hfault] at h
        simp [howner, ih h]
    · rename_i howner
      simp [howner, ih h]

/-- The tokens once the entry of a record has moved. -/
def movedTokens (S : Setting) (draw : Draw) (user : User) (entry : Entry) (tokens : Tokens) : Tokens :=
  Function.update
    (Function.update tokens (S.hashToken draw.token)
      (some { entry with token := draw.token, updatedAt := draw.now }))
    (normalizeHash S.chars user.tokenHash) none

section Moved

variable {key : String} {user : User} {entry : Entry}

theorem hash_ne (hfresh : s.tokens (S.hashToken draw.token) = none)
    (hentry : s.tokens (normalizeHash S.chars user.tokenHash) = some entry) :
    S.hashToken draw.token ≠ normalizeHash S.chars user.tokenHash := by
  intro heq
  rw [heq, hentry] at hfresh
  cases hfresh

theorem movedTokens_old : movedTokens S draw user entry s.tokens
    (normalizeHash S.chars user.tokenHash) = none := Function.update_self ..

theorem movedTokens_new (hfresh : s.tokens (S.hashToken draw.token) = none)
    (hentry : s.tokens (normalizeHash S.chars user.tokenHash) = some entry) :
    movedTokens S draw user entry s.tokens (S.hashToken draw.token) =
      some { entry with token := draw.token, updatedAt := draw.now } := by
  unfold movedTokens
  rw [Function.update_of_ne (hash_ne hfresh hentry), Function.update_self]

theorem update_isSome (user : User) :
    (request.update S draw user).isSome = request.hashable S draw := by
  cases request <;> simp [Request.update, Request.hashable]

/-- The record gets the new token and its hash. -/
theorem update_tokenHash {user user' : User} (h : request.update S draw user = some user') :
    user'.tokenHash = S.hashToken draw.token ∧ user'.token = draw.token := by
  cases request with
  | refresh tokenHash =>
    cases h
    exact ⟨rfl, rfl⟩
  | changePassword tokenHash currentPassword newPassword confirmPassword =>
    obtain ⟨hash, -, rfl⟩ := Option.map_eq_some_iff.mp h
    exact ⟨rfl, rfl⟩
  | resetPassword email newPassword confirmPassword =>
    obtain ⟨hash, -, rfl⟩ := Option.map_eq_some_iff.mp h
    exact ⟨rfl, rfl⟩

/-- The record that was not written names an entry that is gone. -/
theorem not_agrees_moved : ¬ Agrees S user (movedTokens S draw user entry s.tokens) := by
  unfold Agrees
  rw [movedTokens_old]
  exact Bool.false_ne_true

/-- The record that was written names the entry. -/
theorem agrees_moved {user' : User} (hupdate : request.update S draw user = some user')
    (hfresh : s.tokens (S.hashToken draw.token) = none)
    (hentry : s.tokens (normalizeHash S.chars user.tokenHash) = some entry) :
    Agrees S user' (movedTokens S draw user entry s.tokens) := by
  unfold Agrees
  rw [(update_tokenHash hupdate).1, S.hashToken_normal, movedTokens_new hfresh hentry]
  rfl

theorem rotateTempToken_eq (hentry : s.tokens (normalizeHash S.chars user.tokenHash) = some entry) :
    rotateTempToken S draw user.tokenHash s.tokens =
      (publicToken S.chars (S.hashToken draw.token)
          { entry with token := draw.token, updatedAt := draw.now },
        movedTokens S draw user entry s.tokens) := by
  simp only [rotateTempToken, hentry]
  rfl

variable (haccepted : request.accepted S s.users = some (key, user))
  (hentry : s.tokens (normalizeHash S.chars user.tokenHash) = some entry)
  (htoken : faults.tokenWrite = false)

include haccepted hentry htoken

/-- The entry has moved and the record has not been written. -/
theorem run_stranded (h : ¬ Unbroken S faults draw request entry) :
    request.run S faults draw s = (false, { s with tokens := movedTokens S draw user entry s.tokens }) := by
  have hview := publicToken_isOk S.chars (S.hashToken draw.token)
    { entry with token := draw.token, updatedAt := draw.now }
  simp only [Request.run, haccepted, htoken, rotateTempToken_eq hentry]
  cases hpublic : publicToken S.chars (S.hashToken draw.token)
      { entry with token := draw.token, updatedAt := draw.now } with
  | error e => rfl
  | ok view =>
    rw [hpublic] at hview
    cases hupdate : request.update S draw user with
    | none => rfl
    | some user' =>
      have hhashable : request.hashable S draw = true := by
        rw [← update_isSome user, hupdate]
        rfl
      have huser : faults.userWrite = true := by
        by_contra hnot
        exact h ⟨hview.symm, hhashable, Bool.eq_false_iff.mpr hnot⟩
      simp [huser]

/-- The record has been written; the tasks may have been. -/
theorem run_written {user' : User} (hupdate : request.update S draw user = some user')
    (h : (normalizeBillingPriority S.chars entry.billingPriority).isOk = true)
    (huser : faults.userWrite = false) :
    request.run S faults draw s =
      if faults.listTasks then
        (false,
          { s with
            tokens := movedTokens S draw user entry s.tokens
            users := s.users.set key user' })
      else
        let migrated := migrateTaskOwner faults user.tokenHash (S.hashToken draw.token) draw.now s.tasks
        (migrated.1,
          { s with
            tokens := movedTokens S draw user entry s.tokens
            users := s.users.set key user'
            tasks := migrated.2 }) := by
  have hview := publicToken_isOk S.chars (S.hashToken draw.token)
    { entry with token := draw.token, updatedAt := draw.now }
  simp only [Request.run, haccepted, htoken, rotateTempToken_eq hentry]
  cases hpublic : publicToken S.chars (S.hashToken draw.token)
      { entry with token := draw.token, updatedAt := draw.now } with
  | error e =>
    rw [hpublic] at hview
    rw [show Except.isOk (normalizeBillingPriority S.chars entry.billingPriority) = false from
      hview.symm] at h
    cases h
  | ok view => simp [hupdate, huser]

omit haccepted htoken in
/-- What a request that has moved everything but the batch jobs leaves. -/
theorem movesAll_iff {user' : User} (hupdate : request.update S draw user = some user')
    (hfresh : s.tokens (S.hashToken draw.token) = none) {tasks : List OwnedTask}
    (htasks : tasks = s.tasks.map fun task =>
      if task.ownerTokenHash = user.tokenHash then
        { task with ownerTokenHash := S.hashToken draw.token, updatedAt := draw.now }
      else task) :
    MovesAll S draw key user s
        { s with
          tokens := movedTokens S draw user entry s.tokens
          users := s.users.set key user'
          tasks } ↔
      ∀ id job, s.jobs.get? id = some job → job.ownerTokenHash ≠ user.tokenHash := by
  refine ⟨fun h => h.jobsGone, fun hjobs => ?_⟩
  have hne : S.hashToken draw.token ≠ user.tokenHash := by
    intro heq
    have hnormal := S.hashToken_normal draw.token
    rw [heq] at hnormal
    exact hash_ne hfresh hentry (heq.trans hnormal.symm)
  refine
    { record := ⟨_, Dict.get?_set_self _ _ _, update_tokenHash hupdate⟩
      entry := ⟨entry, hentry, movedTokens_new hfresh hentry⟩
      entryGone := movedTokens_old
      tasks := htasks
      tasksGone := fun task htask => ?_
      jobs := fun id job hjob howner => absurd howner (hjobs id job hjob)
      jobsGone := hjobs }
  have hmem : task ∈ tasks := htask
  rw [htasks] at hmem
  obtain ⟨before, -, rfl⟩ := List.mem_map.mp hmem
  split
  · exact hne
  · assumption

/-- The request whose entry has moved. -/
theorem moveSafe_iff (hfresh : s.tokens (S.hashToken draw.token) = none) :
    Rotates S draw request s (request.run S faults draw s) ↔
      MoveSafe S faults draw request user entry s := by
  have hkey : s.users.get? key = some user := accepted_mem haccepted
  have hagrees : Agrees S user s.tokens := by
    unfold Agrees
    rw [hentry]
    rfl
  by_cases hwritten : Unbroken S faults draw request entry
  · obtain ⟨user', hupdate⟩ : ∃ user', request.update S draw user = some user' := by
      rw [← Option.isSome_iff_exists, update_isSome]
      exact hwritten.hashable
    have hnew : ∃ user'' ∈ (s.users.set key user').get? key,
        Agrees S user'' (movedTokens S draw user entry s.tokens) :=
      ⟨_, Dict.get?_set_self _ _ _, agrees_moved hupdate hfresh hentry⟩
    have hmoveSafe : MoveSafe S faults draw request user entry s ↔ _ := and_iff_right hwritten
    rw [run_written haccepted hentry htoken hupdate hwritten.view hwritten.userWrite, hmoveSafe]
    -- a migration that stops is reported, and the user and the token agree
    have hfails : ∀ tasks, Rotates S draw request s
        (false,
          { s with
            tokens := movedTokens S draw user entry s.tokens
            users := s.users.set key user'
            tasks }) := by
      refine fun tasks => ⟨fun h => absurd h (by simp), fun _ item hitem _ => ?_⟩
      rw [haccepted] at hitem
      cases hitem
      exact hnew
    cases hlist : faults.listTasks with
    | true => exact iff_of_true (hfails s.tasks) fun hnot => absurd hnot (by simp)
    | false =>
      have hdone : (migrateTaskOwner faults user.tokenHash (S.hashToken draw.token) draw.now
          s.tasks).1 = true ↔ ∀ task ∈ s.tasks, task.ownerTokenHash = user.tokenHash →
            faults.updateMeta task.id = false :=
        migrateTaskOwner_done user.tokenHash (S.hashToken draw.token) draw.now s.tasks
      cases hmigrated : (migrateTaskOwner faults user.tokenHash (S.hashToken draw.token) draw.now
          s.tasks).1 with
      | false =>
        rw [hmigrated] at hdone
        refine iff_of_true ?_ fun _ hall => absurd (hdone.mpr hall) (by simp)
        rw [if_neg Bool.false_ne_true]
        simp only [hmigrated]
        exact hfails _
      | true =>
        rw [hmigrated] at hdone
        have hmoves := @movesAll_iff S draw request s key user entry hentry user' hupdate hfresh _
          (migrateTaskOwner_tasks hmigrated)
        rw [if_neg Bool.false_ne_true]
        simp only [hmigrated]
        constructor
        · intro hlaw _ _
          obtain ⟨item, hitem, hall⟩ := hlaw.moves rfl
          rw [haccepted] at hitem
          cases hitem
          exact hmoves.mp hall
        · intro hjobs
          refine ⟨fun _ => ⟨(key, user), haccepted, hmoves.mpr (hjobs trivial ?_)⟩, ?_⟩
          · exact hdone.mp rfl
          · exact fun h => absurd h (by simp)
  · -- the token has moved and the record of the user has not followed
    rw [run_stranded haccepted hentry htoken hwritten]
    refine iff_of_false (fun hlaw => ?_) fun hsafe => hwritten hsafe.1
    obtain ⟨user', huser', hafter⟩ := hlaw.agrees rfl (key, user) haccepted hagrees
    rw [show s.users.get? key = some user' from huser', Option.some.injEq] at hkey
    subst hkey
    exact not_agrees_moved hafter

end Moved

/-- A request does what it has to do exactly when it is safe. -/
theorem rotates_iff (S : Setting) (faults : Faults) (draw : Draw) (request : Request)
    (s : Stores) (hfresh : s.tokens (S.hashToken draw.token) = none) :
    Rotates S draw request s (request.run S faults draw s) ↔
      RotationSafe S faults draw request s := by
  cases haccepted : request.accepted S s.users with
  | none =>
    refine iff_of_true ⟨?_, fun _ item hitem => ?_⟩ fun item hitem => ?_
    · simp [Request.run, haccepted]
    · rw [haccepted] at hitem
      cases hitem
    · rw [haccepted] at hitem
      cases hitem
  | some item =>
    obtain ⟨key, user⟩ := item
    have hkey : s.users.get? key = some user := accepted_mem haccepted
    have hstay : Rotates S draw request s (false, s) := by
      refine ⟨nofun, fun _ item hitem hagrees => ?_⟩
      rw [haccepted] at hitem
      cases hitem
      exact ⟨user, hkey, hagrees⟩
    cases htoken : faults.tokenWrite with
    | true =>
      refine iff_of_true ?_ fun _ _ _ _ hnot => ?_
      · simpa [Request.run, haccepted, htoken] using hstay
      · rw [htoken] at hnot
        cases hnot
    | false =>
      cases hentry : s.tokens (normalizeHash S.chars user.tokenHash) with
      | none =>
        refine iff_of_true ?_ fun item hitem entry hfound => ?_
        · simpa [Request.run, haccepted, htoken, rotateTempToken, hentry] using hstay
        · rw [haccepted] at hitem
          cases hitem
          rw [hentry] at hfound
          cases hfound
      | some entry =>
        have hsafe : RotationSafe S faults draw request s ↔
            MoveSafe S faults draw request user entry s := by
          simp [RotationSafe, haccepted, hentry, htoken]
        rw [hsafe]
        exact moveSafe_iff haccepted hentry htoken hfresh

end Law

/-! ### A batch that is left behind -/

section Sample

/-- The digest of the token `tmp_new`. -/
def newDigest : String := "4e8e71309558c020012f94bddd0675f0dea3ad327e797289cc1cc4fc09dfa70d"

def sampleSetting : Setting where
  chars := .ascii
  backend := .postgres
  hashToken _ := newDigest
  hashToken_normal _ := by decide +kernel
  casefold := Chars.ascii.lower
  passwordDigest _ _ := none

def sampleUser : User :=
  ⟨"ann", "ann@example.com", "2025-01-01", true, "", "", "a", "tmp_a", "", ""⟩

/-- A user with a task that is being created, and with these batch jobs. -/
def sampleStores (jobs : Dict String BatchJob) : Stores where
  users := Dict.empty.set "ann" sampleUser
  tokens := sampleTokens
  tasks := [⟨"t1", "a", ""⟩, ⟨"t2", "other", ""⟩]
  jobs := jobs

def sampleDraw : Draw := ⟨"tmp_new", "00", "2025-01-02"⟩

def queuedJob : BatchJob := ⟨"a", "queued", [⟨1, "queued", ""⟩]⟩

/-- The refresh succeeds, and the batch with its queued row stays under the old hash. -/
theorem batch_job_left_behind :
    let s := sampleStores (Dict.empty.set "j1" queuedJob)
    let result := Request.run sampleSetting {} sampleDraw (.refresh "a") s
    result.1 = true ∧ ¬ Rotates sampleSetting sampleDraw (.refresh "a") s result := by
  refine ⟨by decide +kernel, fun h => ?_⟩
  obtain ⟨item, hitem, hmoves⟩ := h.moves (by decide +kernel)
  have hitem' : item = ("ann", sampleUser) := by
    have hfound : Request.accepted sampleSetting (Dict.empty.set "ann" sampleUser) (.refresh "a") =
        some ("ann", sampleUser) := by decide +kernel
    exact Option.some.inj ((show some item = _ from hitem.symm).trans hfound)
  subst hitem'
  exact hmoves.jobsGone "j1" queuedJob (by decide +kernel) rfl

/-- The refresh whose listing of the tasks raises, without a batch job. -/
theorem rotates_iff_sample :
    Rotates sampleSetting sampleDraw (.refresh "a") (sampleStores .empty)
        (Request.run sampleSetting { listTasks := true } sampleDraw (.refresh "a") (sampleStores .empty)) ↔
      RotationSafe sampleSetting { listTasks := true } sampleDraw (.refresh "a")
        (sampleStores .empty) :=
  rotates_iff sampleSetting { listTasks := true } sampleDraw (.refresh "a") (sampleStores .empty)
    (by decide +kernel)

end Sample

end FetchTask.Rotation
