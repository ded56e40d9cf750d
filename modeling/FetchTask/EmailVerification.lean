import FetchTask.Lib.Transaction
import FetchTask.Runtime

/-!
Registration codes by e-mail (`app/email_verification.py`).

A code is stored as a digest with an expiry time and a counter of failed
attempts. `sendRegistrationCode` writes the entry, `consumeRegistrationCode`
compares a submitted code with it. Both run on either of two backends: the JSON
file, which is written back in a `finally`, and a Postgres document, which is
committed only when the mutator returns normally.

The character tables of the language (`lower`, `isspace`, `isdigit`), the keyed
hash and the drawn number are parameters. Times are integers in microseconds.
-/

namespace FetchTask

open Transaction

/-- How a backend runs a mutator over the document. -/
def Backend.mutate {σ ε α : Type} : Backend → Mutator σ ε α → Mutator σ ε α
  | .jsonFile, m => always m
  | .postgres, m => commit m

namespace EmailVerification

structure Settings where
  registrationEmailVerificationEnabled : Bool
  registrationEmailDomains : List String
  registrationEmailCodeTtlMinutes : Int
  apiToken : String

/-- The arguments that both functions share. -/
structure Request where
  emailValue : String
  purpose : String
  scope : String
  allowUnlisted : Bool
  settings : Settings

structure CodeEntry where
  digest : String
  expiresAt : Int
  attempts : Int
  sentAt : Int
  deriving DecidableEq

/-- The `codes` object of the stored document, by storage key. -/
abbrev Codes := String → Option CodeEntry

def invalidEmail : String := "请输入有效的邮箱地址"
def unlistedDomain : String := "该邮箱后缀暂不支持注册"
def verificationDisabled : String := "邮箱注册验证未启用"
def wrongCode : String := "邮箱验证码错误"
def expiredCode : String := "邮箱验证码已失效，请重新获取"
def tooManyAttempts : String := "验证码尝试次数过多，请重新获取"

section Validation

variable (u : Chars)

/-- The part of a normalized address before and after its `@`. -/
def splitAddress (email : String) : List Char × List Char :=
  (email.toList.takeWhile (· ≠ '@'), (email.toList.dropWhile (· ≠ '@')).drop 1)

def normalizeEmail (value : String) : Except String String :=
  let email := u.lower (u.strip value)
  if 254 < email.length ∨ email.toList.count '@' ≠ 1 then .error invalidEmail
  else
    let (localPart, domain) := splitAddress email
    if localPart = [] ∨ 64 < localPart.length ∨ domain = [] ∨ email.toList.any u.isSpace then
      .error invalidEmail
    else .ok email

def validateAllowedEmail (value : String) (settings : Settings) : Except String String := do
  let email ← normalizeEmail u value
  if String.ofList (splitAddress email).2 ∈ settings.registrationEmailDomains then .ok email
  else .error unlistedDomain

def Request.address (req : Request) : Except String String :=
  if req.allowUnlisted then normalizeEmail u req.emailValue
  else validateAllowedEmail u req.emailValue req.settings

end Validation

def Request.storageKey (req : Request) (email : String) : String :=
  s!"{req.purpose}:{req.scope}:{email}"

/-- `_digest`, with the keyed hash `mac secret message` as a parameter. -/
def digest (mac : String → String → String) (email code : String) (req : Request) : String :=
  mac req.settings.apiToken s!"{req.purpose}:{req.scope}:{email}:{code}"

/-- `f"{n:06d}"`. -/
def sixDigits (n : Fin 1000000) : String :=
  let digits := (Nat.repr n).toList
  String.ofList (List.replicate (6 - digits.length) '0' ++ digits)

/-- The entry that `send_registration_code` stores. -/
def issuedEntry (mac : String → String → String) (req : Request) (email : String)
    (draw : Fin 1000000) (now : Int) : CodeEntry :=
  { digest := digest mac email (sixDigits draw) req
    expiresAt := now + req.settings.registrationEmailCodeTtlMinutes * 60 * 1000000
    attempts := 0
    sentAt := now }

section Operations

variable (u : Chars) (mac : String → String → String) (b : Backend)

/-- The closures of `send_registration_code`: `codes[key] = entry` and `codes.pop(key, None)`. -/
def setCode (storageKey : String) (entry : Option CodeEntry) : Mutator Codes String Unit :=
  fun codes => (.ok (), Function.update codes storageKey entry)

/-- `send_registration_code`; `delivery` is what `_send_qq_email` returns or raises. -/
def sendRegistrationCode (req : Request) (draw : Fin 1000000) (now : Int)
    (delivery : Except String Unit) : Mutator Codes String Unit := fun codes =>
  if !req.settings.registrationEmailVerificationEnabled then (.error verificationDisabled, codes)
  else match req.address u with
  | .error e => (.error e, codes)
  | .ok email =>
    let storageKey := req.storageKey email
    let entry := issuedEntry mac req email draw now
    let stored := (b.mutate (setCode storageKey (some entry)) codes).2
    match delivery with
    | .ok () => (.ok (), stored)
    | .error e =>
      -- A code that could not be delivered is taken back before the error goes on.
      (.error e, (b.mutate (setCode storageKey none) stored).2)

/-- The closure `consume` inside `consume_registration_code`. -/
def consume (req : Request) (email code : String) (now : Int) : Mutator Codes String String :=
  fun codes =>
    let storageKey := req.storageKey email
    match codes storageKey with
    | none => (.error expiredCode, Function.update codes storageKey none)
    | some entry =>
      if entry.expiresAt < now then (.error expiredCode, Function.update codes storageKey none)
      else if 5 ≤ entry.attempts then
        (.error tooManyAttempts, Function.update codes storageKey none)
      else if entry.digest ≠ digest mac email code req then
        (.error wrongCode,
          Function.update codes storageKey (some { entry with attempts := entry.attempts + 1 }))
      else (.ok email, Function.update codes storageKey none)

/-- `consume_registration_code` is asked only for six digits. -/
def wellFormedCode (code : String) : Bool := code.length == 6 && code.toList.all u.isDigit

def consumeRegistrationCode (req : Request) (codeValue : String) (now : Int) :
    Mutator Codes String String := fun codes =>
  match req.address u with
  | .error e => (.error e, codes)
  | .ok email =>
    let code := u.strip codeValue
    if !wellFormedCode u code then (.error wrongCode, codes)
    else b.mutate (consume mac req email code now) codes

end Operations

/-! ### The law about guessing

A code under test is the one a successful `sendRegistrationCode` stored. The
calls after it are read in order; for each one on the same storage key it is
recorded whether its code was compared with the stored digest, whether it is a
wrong code, and whether it was accepted. A later send on the same key replaces
the code, and from there on the calls are about another code. -/

inductive Event
  | send (req : Request) (draw : Fin 1000000) (now : Int) (delivery : Except String Unit)
  | consume (req : Request) (codeValue : String) (now : Int)

structure Tally where
  /-- Calls with a wrong code that were compared with the stored digest. -/
  wrongCompared : Nat
  accepted : Nat

section Law

variable (u : Chars) (mac : String → String → String) (b : Backend)

/-- The document after an event. -/
def Event.apply : Event → Codes → Codes
  | .send req draw now delivery, codes => (sendRegistrationCode u mac b req draw now delivery codes).2
  | .consume req codeValue now, codes => (consumeRegistrationCode u mac b req codeValue now codes).2

/-- A send that gets as far as storing a code under `key`. -/
def Event.replaces (key : String) : Event → Bool
  | .send req _ _ _ => req.settings.registrationEmailVerificationEnabled &&
      match req.address u with
      | .ok email => req.storageKey email == key
      | .error _ => false
  | .consume .. => false

/-- A consume call on `key` that reaches the closure: its request, address, code and time. -/
def Event.attempt? (key : String) : Event → Option (Request × String × String × Int)
  | .send .. => none
  | .consume req codeValue now =>
    match req.address u with
    | .error _ => none
    | .ok email =>
      if req.storageKey email = key ∧ wellFormedCode u (u.strip codeValue) then
        some (req, email, u.strip codeValue, now)
      else none

/-- `consume` compares a digest exactly when it gets past its first two guards. -/
def compares (key : String) (now : Int) (codes : Codes) : Bool :=
  match codes key with
  | none => false
  | some entry => !decide (entry.expiresAt < now) && decide (entry.attempts < 5)

def accepts : Except String String → Bool
  | .ok _ => true
  | .error _ => false

/-- The record of the calls about `code`, stored under `key`. -/
def tally (key code : String) : List Event → Codes → Tally
  | [], _ => ⟨0, 0⟩
  | event :: events, codes =>
    if event.replaces u key then ⟨0, 0⟩
    else
      let rest := tally key code events (event.apply u mac b codes)
      match event.attempt? u key with
      | none => rest
      | some (req, email, submitted, now) =>
        let result := (b.mutate (consume mac req email submitted now) codes).1
        { wrongCompared := rest.wrongCompared +
            (if submitted ≠ code ∧ compares key now codes then 1 else 0)
          accepted := rest.accepted + (if accepts result then 1 else 0) }

/-- At most five wrong codes are compared, and the code is accepted at most once. -/
def GuessesBounded (key code : String) (events : List Event) (codes : Codes) : Prop :=
  (tally u mac b key code events codes).wrongCompared ≤ 5 ∧
    (tally u mac b key code events codes).accepted ≤ 1

/-- The wrong codes submitted for an entry before it expires and before a code
matches it, with no regard to the attempt counter. -/
def openGuesses (entry : CodeEntry) (key code : String) : List Event → Nat
  | [] => 0
  | event :: events =>
    if event.replaces u key then 0
    else match event.attempt? u key with
      | none => openGuesses entry key code events
      | some (req, email, submitted, now) =>
        let guess := if submitted ≠ code then 1 else 0
        if entry.expiresAt < now then openGuesses entry key code events
        else if entry.digest = digest mac email submitted req then guess
        else guess + openGuesses entry key code events

variable {u mac b}

@[simp] theorem mutate_setCode (key : String) (entry : Option CodeEntry) (codes : Codes) :
    (b.mutate (setCode key entry) codes).2 = Function.update codes key entry := by
  cases b <;> rfl

theorem consume_other_key {req : Request} {email key : String} (code : String) (now : Int)
    (codes : Codes) (hkey : req.storageKey email ≠ key) :
    (consume mac req email code now codes).2 key = codes key := by
  simp only [consume]
  repeat' split
  all_goals exact Function.update_of_ne hkey.symm _ _

theorem mutate_consume_other_key {req : Request} {email code key : String} {now : Int}
    {codes : Codes} (hkey : req.storageKey email ≠ key) :
    (b.mutate (consume mac req email code now) codes).2 key = codes key := by
  cases b with
  | jsonFile => exact consume_other_key code now codes hkey
  | postgres =>
    have keep : ∀ (a : String) (c : Codes), consume mac req email code now codes = (.ok a, c) →
        c key = codes key := fun a c h => by
      have hc : (consume mac req email code now codes).2 key = codes key :=
        consume_other_key code now codes hkey
      rwa [h] at hc
    exact commit_preserves (I := fun c : Codes => c key = codes key) rfl keep

theorem send_other_key {key : String} {req : Request} {draw : Fin 1000000} {now : Int}
    {delivery : Except String Unit} {codes : Codes}
    (hrep : Event.replaces u key (.send req draw now delivery) = false) :
    (sendRegistrationCode u mac b req draw now delivery codes).2 key = codes key := by
  cases hen : req.settings.registrationEmailVerificationEnabled with
  | false => simp [sendRegistrationCode, hen]
  | true =>
    cases haddr : req.address u with
    | error e => simp [sendRegistrationCode, hen, haddr]
    | ok email =>
      have hkey : key ≠ req.storageKey email := by
        rintro rfl
        simp [Event.replaces, hen, haddr] at hrep
      cases delivery <;> simp [sendRegistrationCode, hen, haddr, Function.update_of_ne hkey]

/-- An event that neither replaces the code nor reaches the closure on `key`
leaves the entry under `key` alone. -/
theorem apply_other {key : String} {event : Event} {codes : Codes}
    (hrep : event.replaces u key = false) (hatt : event.attempt? u key = none) :
    event.apply u mac b codes key = codes key := by
  cases event with
  | send req draw now delivery => exact send_other_key hrep
  | consume req codeValue now =>
    cases haddr : req.address u with
    | error e => simp [Event.apply, consumeRegistrationCode, haddr]
    | ok email =>
      by_cases hcode : wellFormedCode u (u.strip codeValue) = true
      · have hkey : req.storageKey email ≠ key := by
          intro hkey
          simp [Event.attempt?, haddr, hkey, hcode] at hatt
        simp only [Event.apply, consumeRegistrationCode, haddr, hcode, Bool.not_true,
          Bool.false_eq_true, if_false]
        exact mutate_consume_other_key hkey
      · simp [Event.apply, consumeRegistrationCode, haddr, hcode]

theorem attempt_key {key : String} {event : Event} {req : Request} {email submitted : String}
    {now : Int} (hatt : event.attempt? u key = some (req, email, submitted, now)) :
    req.storageKey email = key := by
  cases event with
  | send => simp [Event.attempt?] at hatt
  | consume req' codeValue now' =>
    cases haddr : req'.address u with
    | error e => simp [Event.attempt?, haddr] at hatt
    | ok email' =>
      simp only [Event.attempt?, haddr, Option.ite_none_right_eq_some, Option.some.injEq,
        Prod.mk.injEq] at hatt
      obtain ⟨⟨hkey, -⟩, rfl, rfl, -⟩ := hatt
      exact hkey

/-- An event that reaches the closure on `key` is that closure run by the backend. -/
theorem apply_attempt (b : Backend) (codes : Codes) {key : String} {event : Event}
    {req : Request} {email submitted : String} {now : Int}
    (hatt : event.attempt? u key = some (req, email, submitted, now)) :
    event.apply u mac b codes = (b.mutate (consume mac req email submitted now) codes).2 := by
  cases event with
  | send => simp [Event.attempt?] at hatt
  | consume req' codeValue now' =>
    cases haddr : req'.address u with
    | error e => simp [Event.attempt?, haddr] at hatt
    | ok email' =>
      simp only [Event.attempt?, haddr, Option.ite_none_right_eq_some, Option.some.injEq,
        Prod.mk.injEq] at hatt
      obtain ⟨⟨-, hcode⟩, rfl, rfl, rfl, rfl⟩ := hatt
      simp [Event.apply, consumeRegistrationCode, haddr, hcode]

/-! One equation for each exit of `consume`. -/

section Exits

variable {req : Request} {email code : String} {now : Int} {codes : Codes} {entry : CodeEntry}

theorem consume_missing (h : codes (req.storageKey email) = none) :
    consume mac req email code now codes =
      (.error expiredCode, Function.update codes (req.storageKey email) none) := by
  simp [consume, h]

theorem consume_expired (h : codes (req.storageKey email) = some entry)
    (hexp : entry.expiresAt < now) :
    consume mac req email code now codes =
      (.error expiredCode, Function.update codes (req.storageKey email) none) := by
  simp [consume, h, hexp]

theorem consume_exhausted (h : codes (req.storageKey email) = some entry)
    (hexp : ¬ entry.expiresAt < now) (hatt : 5 ≤ entry.attempts) :
    consume mac req email code now codes =
      (.error tooManyAttempts, Function.update codes (req.storageKey email) none) := by
  simp [consume, h, hexp, hatt]

theorem consume_mismatch (h : codes (req.storageKey email) = some entry)
    (hexp : ¬ entry.expiresAt < now) (hatt : ¬ 5 ≤ entry.attempts)
    (hdig : entry.digest ≠ digest mac email code req) :
    consume mac req email code now codes =
      (.error wrongCode, Function.update codes (req.storageKey email)
        (some { entry with attempts := entry.attempts + 1 })) := by
  simp [consume, h, hexp, hatt, hdig]

theorem consume_match (h : codes (req.storageKey email) = some entry)
    (hexp : ¬ entry.expiresAt < now) (hatt : ¬ 5 ≤ entry.attempts)
    (hdig : entry.digest = digest mac email code req) :
    consume mac req email code now codes =
      (.ok email, Function.update codes (req.storageKey email) none) := by
  simp [consume, h, hexp, hatt, hdig]

end Exits

theorem Backend.mutate_ok {α : Type} {m : Mutator Codes String α} {codes codes' : Codes} {a : α}
    (h : m codes = (.ok a, codes')) : b.mutate m codes = (.ok a, codes') := by
  cases b with
  | jsonFile => exact h
  | postgres => exact commit_of_ok h

theorem Backend.mutate_error {α : Type} {m : Mutator Codes String α} {codes codes' : Codes}
    {e : String} (h : m codes = (.error e, codes')) :
    b.mutate m codes = (.error e, if b = .jsonFile then codes' else codes) := by
  cases b with
  | jsonFile => exact h
  | postgres => exact commit_of_error h

/-! One equation for each way `tally` reads an event. -/

section Reading

variable {key code : String} {event : Event} {events : List Event} {codes : Codes}

theorem tally_replaced (h : event.replaces u key = true) :
    tally u mac b key code (event :: events) codes = ⟨0, 0⟩ := by
  simp [tally, h]

theorem tally_other (hrep : event.replaces u key = false) (hatt : event.attempt? u key = none) :
    tally u mac b key code (event :: events) codes =
      tally u mac b key code events (event.apply u mac b codes) := by
  simp [tally, hrep, hatt]

theorem tally_attempt {req : Request} {email submitted : String} {now : Int}
    (hrep : event.replaces u key = false)
    (hatt : event.attempt? u key = some (req, email, submitted, now)) :
    tally u mac b key code (event :: events) codes =
      { wrongCompared :=
          (tally u mac b key code events
            (b.mutate (consume mac req email submitted now) codes).2).wrongCompared +
            (if submitted ≠ code ∧ compares key now codes then 1 else 0)
        accepted :=
          (tally u mac b key code events
            (b.mutate (consume mac req email submitted now) codes).2).accepted +
            (if accepts (b.mutate (consume mac req email submitted now) codes).1
              then 1 else 0) } := by
  simp [tally, hrep, hatt, apply_attempt b codes hatt]

end Reading

/-- Without an entry nothing is compared and nothing is accepted, for ever. -/
theorem tally_absent {key code : String} {events : List Event} {codes : Codes}
    (habs : codes key = none) : tally u mac b key code events codes = ⟨0, 0⟩ := by
  induction events generalizing codes with
  | nil => rfl
  | cons event events ih =>
    cases hrep : event.replaces u key with
    | true => exact tally_replaced hrep
    | false =>
      cases hatt : event.attempt? u key with
      | none => rw [tally_other hrep hatt, ih (by rw [apply_other hrep hatt, habs])]
      | some call =>
        obtain ⟨req, email, submitted, now⟩ := call
        obtain rfl := attempt_key hatt
        rw [tally_attempt hrep hatt, Backend.mutate_error (consume_missing habs),
          ih (by cases b <;> simp [habs])]
        simp [compares, habs, accepts]

variable (u mac) in
/-- On the JSON file every mismatch is counted, so a wrong comparison uses up
one of the five attempts left. -/
theorem tally_jsonFile {key : String} (code : String) (events : List Event) {codes : Codes}
    {entry : CodeEntry} (hentry : codes key = some entry) (hle : entry.attempts ≤ 5) :
    (tally u mac .jsonFile key code events codes).wrongCompared + entry.attempts ≤ 5 ∧
      (tally u mac .jsonFile key code events codes).accepted ≤ 1 := by
  induction events generalizing codes entry with
  | nil => simpa [tally] using hle
  | cons event events ih =>
    cases hrep : event.replaces u key with
    | true => simpa [tally_replaced hrep] using hle
    | false =>
      cases hatt : event.attempt? u key with
      | none =>
        rw [tally_other hrep hatt]
        exact ih (by rw [apply_other hrep hatt, hentry]) hle
      | some call =>
        obtain ⟨req, email, submitted, now⟩ := call
        obtain rfl := attempt_key hatt
        rw [tally_attempt hrep hatt]
        by_cases hexp : entry.expiresAt < now
        · rw [Backend.mutate_error (consume_expired hentry hexp), tally_absent (by simp)]
          simpa [compares, hentry, hexp, accepts] using hle
        by_cases hfull : 5 ≤ entry.attempts
        · rw [Backend.mutate_error (consume_exhausted hentry hexp hfull), tally_absent (by simp)]
          have : ¬ entry.attempts < 5 := by omega
          simpa [compares, hentry, this, accepts] using hle
        by_cases hdig : entry.digest = digest mac email submitted req
        · rw [Backend.mutate_ok (consume_match hentry hexp hfull hdig), tally_absent (by simp)]
          refine ⟨?_, by simp [accepts]⟩
          dsimp only
          split <;> simp <;> omega
        · rw [Backend.mutate_error (consume_mismatch hentry hexp hfull hdig)]
          have hstored : Function.update codes (req.storageKey email)
              (some { entry with attempts := entry.attempts + 1 }) (req.storageKey email) =
              some { entry with attempts := entry.attempts + 1 } := Function.update_self ..
          have step := ih hstored (by dsimp only; omega)
          refine ⟨?_, by simpa [accepts] using step.2⟩
          have hstep := step.1
          simp only [if_true] at hstep ⊢
          split <;> push_cast <;> omega

variable (u mac) in
/-- On Postgres a refused call leaves the entry as it was issued, so the
comparisons are the open guesses, however many there are. -/
theorem tally_postgres {key : String} (code : String) (events : List Event) {codes : Codes}
    {entry : CodeEntry} (hentry : codes key = some entry) (hlt : entry.attempts < 5) :
    (tally u mac .postgres key code events codes).wrongCompared =
        openGuesses u mac entry key code events ∧
      (tally u mac .postgres key code events codes).accepted ≤ 1 := by
  induction events generalizing codes with
  | nil => exact ⟨rfl, Nat.zero_le _⟩
  | cons event events ih =>
    cases hrep : event.replaces u key with
    | true => simp [tally_replaced hrep, openGuesses, hrep]
    | false =>
      cases hatt : event.attempt? u key with
      | none =>
        rw [tally_other hrep hatt, openGuesses, hrep, hatt]
        exact ih (by rw [apply_other hrep hatt, hentry])
      | some call =>
        obtain ⟨req, email, submitted, now⟩ := call
        obtain rfl := attempt_key hatt
        have hopen : ¬ 5 ≤ entry.attempts := by omega
        have step := ih hentry
        rw [tally_attempt hrep hatt, openGuesses, hrep, hatt]
        by_cases hexp : entry.expiresAt < now
        · rw [Backend.mutate_error (consume_expired hentry hexp)]
          simpa [compares, hentry, hexp, accepts] using step
        by_cases hdig : entry.digest = digest mac email submitted req
        · rw [Backend.mutate_ok (consume_match hentry hexp hopen hdig), tally_absent (by simp)]
          simp [compares, hentry, hexp, hlt, hdig, accepts]
        · rw [Backend.mutate_error (consume_mismatch hentry hexp hopen hdig)]
          simp only [compares, hentry, hexp, hlt, hdig, accepts]
          simpa [Nat.add_comm] using step

/-- A send that returned stored the issued entry under its key. -/
theorem send_stores {req : Request} {draw : Fin 1000000} {now : Int}
    {delivery : Except String Unit} {codes : Codes} {email : String}
    (hemail : req.address u = .ok email)
    (hsent : (sendRegistrationCode u mac b req draw now delivery codes).1 = .ok ()) :
    (sendRegistrationCode u mac b req draw now delivery codes).2 (req.storageKey email) =
      some (issuedEntry mac req email draw now) := by
  cases hen : req.settings.registrationEmailVerificationEnabled with
  | false => simp [sendRegistrationCode, hen] at hsent
  | true =>
    cases delivery with
    | error e => simp [sendRegistrationCode, hen, hemail] at hsent
    | ok => simp [sendRegistrationCode, hen, hemail]

/-- Guessing is bounded on the JSON file, and on Postgres exactly when no more
than five wrong codes arrive while the issued code is open. -/
theorem guessesBounded_iff {req : Request} {draw : Fin 1000000} {now : Int}
    {delivery : Except String Unit} {codes : Codes} {email : String} (events : List Event)
    (hemail : req.address u = .ok email)
    (hsent : (sendRegistrationCode u mac b req draw now delivery codes).1 = .ok ()) :
    GuessesBounded u mac b (req.storageKey email) (sixDigits draw) events
        (sendRegistrationCode u mac b req draw now delivery codes).2 ↔
      b = .jsonFile ∨ openGuesses u mac (issuedEntry mac req email draw now)
        (req.storageKey email) (sixDigits draw) events ≤ 5 := by
  have hentry := send_stores hemail hsent
  cases b with
  | jsonFile =>
    have bound := tally_jsonFile u mac (sixDigits draw) events hentry (by simp [issuedEntry])
    simp only [true_or, iff_true, GuessesBounded]
    refine ⟨?_, bound.2⟩
    have hcount := bound.1
    simp only [issuedEntry] at hcount
    omega
  | postgres =>
    have count := tally_postgres u mac (sixDigits draw) events hentry (by simp [issuedEntry])
    simp only [GuessesBounded, count.1, count.2, and_true, reduceCtorEq, false_or]

end Law

/-! ### Six guesses on Postgres -/

section Sample

/-- Stands for the keyed hash: different messages have different digests. -/
def sampleMac (secret message : String) : String := secret ++ message

def sampleRequest : Request where
  emailValue := "user@qq.com"
  purpose := "register"
  scope := ""
  allowUnlisted := false
  settings := ⟨true, ["qq.com"], 10, "secret"⟩

def sampleSend (b : Backend) : Except String Unit × Codes :=
  sendRegistrationCode .ascii sampleMac b sampleRequest 123456 0 (.ok ()) fun _ => none

def sixWrongGuesses : List Event := List.replicate 6 (.consume sampleRequest "000000" 1)

/-- On Postgres the sixth wrong guess is compared like the first. -/
theorem six_guesses_compared :
    (sampleSend .postgres).1 = .ok () ∧
      ¬ GuessesBounded .ascii sampleMac .postgres "register::user@qq.com" "123456"
        sixWrongGuesses (sampleSend .postgres).2 := by
  refine ⟨by rfl, fun h => ?_⟩
  exact absurd h.1 (by decide +kernel)

/-- The same six calls on the JSON file stay within the bound. -/
theorem guessesBounded_iff_sample :
    GuessesBounded .ascii sampleMac .jsonFile (sampleRequest.storageKey "user@qq.com")
        (sixDigits 123456) sixWrongGuesses (sampleSend .jsonFile).2 ↔
      Backend.jsonFile = .jsonFile ∨ openGuesses .ascii sampleMac
        (issuedEntry sampleMac sampleRequest "user@qq.com" 123456 0)
        (sampleRequest.storageKey "user@qq.com") (sixDigits 123456) sixWrongGuesses ≤ 5 :=
  guessesBounded_iff sixWrongGuesses (by rfl) (by rfl)

end Sample

end EmailVerification

end FetchTask
