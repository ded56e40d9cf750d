import FetchTask.Lib.Dict
import FetchTask.Lib.Expiring
import FetchTask.Lib.Runs
import Mathlib.Algebra.Order.Ring.Unbundled.Rat
import Mathlib.Logic.Function.Basic

/-!
The sessions of the client portal (`app/client_auth.py`).

A session is a random identifier that stands for the hash of a token for twelve
hours after it was last used. It is kept in Redis or, when Redis cannot be
reached, in a table of the process; every call asks Redis first, and each of its
commands can fail. Times are exact, and identifiers do not collide.
-/

namespace FetchTask.ClientSessions

open Runs Expiring

def clientSessionTtlSeconds : Rat := 12 * 60 * 60

@[irreducible] def sessionLimit : Nat := 50000

/-- `_SESSIONS`: when a session expires, and the hash of its token. -/
abbrev Table := Dict String (Rat × String)

structure Sessions where
  redis : String → Option (Key Rat String)
  table : Table

/-- How far a call gets with Redis. -/
inductive Reach
  | up
  /-- The session is read, its expiry is not renewed. -/
  | expireFails
  | down
  deriving DecidableEq

def pruneSessions (now : Rat) (table : Table) : Table :=
  let rest := table.filter fun item => decide (now < item.2.1)
  rest.drop (rest.size - sessionLimit)

def createClientSession (id tokenHash : String) (reach : Reach) (now : Rat) (s : Sessions) :
    Sessions :=
  if reach = .down then
    { s with
      table := (pruneSessions now s.table).set id (now + clientSessionTtlSeconds, tokenHash) }
  else
    { s with
      redis := Function.update s.redis id
        (some ⟨tokenHash, some (now + clientSessionTtlSeconds)⟩) }

/-- The part of a look-up that goes to the table. -/
def tableTokenHash (id : String) (now : Rat) (s : Sessions) : Option String × Sessions :=
  let table := pruneSessions now s.table
  match table.get? id with
  | none => (none, { s with table })
  | some (expiresAt, tokenHash) =>
    if expiresAt ≤ now then (none, { s with table })
    else (some tokenHash, { s with
      table := table.set id (now + clientSessionTtlSeconds, tokenHash) })

def clientSessionTokenHash (lasting : Bool) (id : String) (reach : Reach) (now : Rat)
    (s : Sessions) : Option String × Sessions :=
  if id = "" then (none, s)
  else if reach = .down then tableTokenHash id now s
  else
    match live lasting now (s.redis id) with
    | none => (none, s)
    | some key =>
      if key.value = "" then (none, s)
      else if reach = .expireFails then tableTokenHash id now s
      else (some key.value, { s with
        redis := Function.update s.redis id
          (some (expire (now + clientSessionTtlSeconds) key)) })

def deleteClientSession (id : String) (reach : Reach) (s : Sessions) : Sessions :=
  if id = "" then s
  else
    let s := { s with table := s.table.erase id }
    if reach = .down then s else { s with redis := Function.update s.redis id none }

/-! ### Runs -/

/-- The sessions, the identifiers that have been drawn, and the account of a reader: for which
hash a session was made, and when it was made or last answered. -/
structure World where
  now : Rat
  sessions : Sessions
  issued : List String
  account : String → Option (String × Rat)

def World.new (now : Rat) : World where
  now
  sessions := ⟨fun _ => none, .empty⟩
  issued := []
  account _ := none

inductive Event
  | pass (time : Rat)
  | create (id tokenHash : String) (reach : Reach)
  | lookup (id : String) (reach : Reach)
  | delete (id : String) (reach : Reach)

/-- Identifiers are new and not empty, and nobody has an empty hash. -/
def step (lasting : Bool) : Event → World → World
  | .pass time, w => if w.now ≤ time then { w with now := time } else w
  | .create id tokenHash reach, w =>
    if id ∉ w.issued ∧ id ≠ "" ∧ tokenHash ≠ "" then
      { w with
        sessions := createClientSession id tokenHash reach w.now w.sessions
        issued := id :: w.issued
        account := Function.update w.account id (some (tokenHash, w.now)) }
    else w
  | .lookup id reach, w =>
    let (answer, sessions) := clientSessionTokenHash lasting id reach w.now w.sessions
    match answer with
    | some tokenHash =>
      { w with sessions, account := Function.update w.account id (some (tokenHash, w.now)) }
    | none => { w with sessions }
  | .delete id reach, w =>
    { w with
      sessions := deleteClientSession id reach w.sessions
      account := if id = "" then w.account else Function.update w.account id none }

/-- What a look-up would answer now. -/
def World.answer (lasting : Bool) (id : String) (reach : Reach) (w : World) : Option String :=
  (clientSessionTokenHash lasting id reach w.now w.sessions).1

/-- A session that is used within twelve hours, and not deleted. -/
def World.expected (lasting : Bool) (id : String) (w : World) : Option String :=
  match w.account id with
  | none => none
  | some (tokenHash, used) =>
    if there lasting w.now (some (used + clientSessionTtlSeconds)) then some tokenHash else none

/-- Whatever is answered, at any look-up, is what the account says. -/
def Honest (lasting : Bool) (w : World) : Prop :=
  ∀ id reach tokenHash, w.answer lasting id reach = some tokenHash →
    w.expected lasting id = some tokenHash

/-- A deletion reaches Redis, or there is nothing to be deleted there. -/
def Reaches (lasting : Bool) : Event → World → Prop
  | .delete id reach, w => reach ≠ .down ∨ id = "" ∨ live lasting w.now (w.sessions.redis id) = none
  | _, _ => True

end FetchTask.ClientSessions
