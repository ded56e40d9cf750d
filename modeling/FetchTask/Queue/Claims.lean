import FetchTask.Lib.Locks
import FetchTask.Queue.AtMostOnce

/-!
The transactions on task records, statement by statement (`app/postgres.py`).

In the other modules of the queue a transaction is one step. Here it is a
sequence of statements: `claim_task` takes the advisory lock of the owner, selects
the row for update, counts the running rows of the owner and writes, and other
transactions take place between any two of its statements. A statement sees what
was committed before it; a row that is selected for update or written stays locked
until the transaction ends, and so does an advisory lock.
-/

namespace FetchTask.Queue.Claims

open Store

/-! ### Transactions on one row -/

/-- A record as `create_task` and `find_or_create_task` write it. -/
structure NewTask where
  record : Meta
  fresh : record.status = .pending ∨ record.status = .initializing

/-- The fields that `update_meta` is called with: never the status, never the owner. -/
structure FieldUpdate where
  apply : Meta → Meta
  status : ∀ m, (apply m).status = m.status
  owner : ∀ m, (apply m).ownerTokenHash = m.ownerTokenHash

def isMarkRunning : StoreOp → Bool
  | .markRunning .. => true
  | _ => false

/-- A transaction that selects or writes one row and is not a claim. -/
inductive RowOp
  | create (task : NewTask)
  | mutate (o : { o : StoreOp // isMarkRunning o = false })
  | update (f : FieldUpdate)
  | delete

/-- What the row is made into. -/
def RowOp.after (u : Chars) : RowOp → Option Meta → Option Meta
  | .create task, none => some task.record
  | .create _, some m => some m
  | .mutate o, row => row.map (o.1.apply u)
  | .update f, row => row.map f.apply
  | .delete, _ => none

/-! ### Sessions -/

/-- The arguments of `mark_running`, and what it reads besides. -/
structure Claim where
  task : TaskId
  worker : WorkerId
  limits : Limits
  paused : Bool
  claimedAt : Int

inductive Call
  | markRunning (c : Claim)
  | row (t : TaskId) (op : RowOp)
  | finalize (t : TaskId) (now : Int)

/-- Where a session is: the statement that it executes next, with what it has read. -/
inductive Session
  | idle
  | readOwner (c : Claim)
  | lockOwner (c : Claim) (owner : String) (limit : Option Int)
  | selectRow (c : Claim) (owner : String) (limit : Option Int)
  | countRunning (c : Claim) (owner : String) (limit : Option Int) (m : Meta)
  | updateRow (c : Claim) (owner : String) (limit : Option Int) (m : Meta)
  | takeRow (t : TaskId) (op : RowOp)
  | readInitializing (t : TaskId) (now : Int)
  | writeFinalized (t : TaskId) (now : Int) (m : Meta)
  | commit (t : TaskId) (row : Option Meta) (claim : Bool)

structure Database where
  rows : Dict TaskId Meta
  owners : Locks String := fun _ => none
  rowLocks : Locks TaskId := fun _ => none
  sessions : Nat → Session := fun _ => .idle

namespace Database

variable (db : Database)

def goto (p : Nat) (s : Session) : Database :=
  { db with sessions := Function.update db.sessions p s }

/-- The end of a transaction, with or without its changes. -/
def finish (p : Nat) : Database :=
  { db.goto p .idle with owners := db.owners.release p, rowLocks := db.rowLocks.release p }

def lockRow (t : TaskId) (p : Nat) : Database := { db with rowLocks := db.rowLocks.acquire t p }

def lockOwner (owner : String) (p : Nat) : Database :=
  { db with owners := db.owners.acquire owner p }

def setRow (t : TaskId) : Option Meta → Database
  | some m => { db with rows := db.rows.set t m }
  | none => { db with rows := db.rows.erase t }

end Database

/-- The next statement of a session; one that has to wait does nothing. -/
def act (u : Chars) (p : Nat) (db : Database) : Database :=
  match db.sessions p with
  | .idle => db
  | .readOwner c =>
    -- Its own transaction.
    if c.paused then db.finish p
    else
      match db.rows.get? c.task with
      | none => db.finish p
      | some m =>
        let owner := m.ownerTokenHash
        db.goto p (.lockOwner c owner (if owner = "" then none else c.limits owner))
  | .lockOwner c owner limit =>
    if owner ≠ "" ∧ limit.isSome then
      if db.owners.Available owner p then
        (db.lockOwner owner p).goto p (.selectRow c owner limit)
      else db
    else db.goto p (.selectRow c owner limit)
  | .selectRow c owner limit =>
    if db.rowLocks.Available c.task p then
      match db.rows.get? c.task with
      | none => db.finish p
      | some m =>
        if m.status ≠ .pending ∨ m.cancelRequested then db.finish p
        else (db.lockRow c.task p).goto p (.countRunning c owner limit m)
    else db
  | .countRunning c owner limit m =>
    if atLimit db.rows owner limit then db.finish p
    else db.goto p (.updateRow c owner limit m)
  | .updateRow c _ _ m =>
    db.goto p (.commit c.task (some (claimTask c.worker false c.claimedAt m).2) true)
  | .takeRow t op =>
    if db.rowLocks.Available t p then
      (db.lockRow t p).goto p (.commit t (op.after u (db.rows.get? t)) false)
    else db
  | .readInitializing t now =>
    match db.rows.get? t with
    | none => db.finish p
    | some m =>
      match finalizeRead m with
      | .error _ => db.finish p
      | .ok m => db.goto p (.writeFinalized t now m)
  | .writeFinalized t now m =>
    if db.rowLocks.Available t p then
      match db.rows.get? t with
      | none => db.finish p
      | some _ => (db.lockRow t p).goto p (.commit t (some (finalized now m)) false)
    else db
  | .commit t row _ => (db.setRow t row).finish p

def Call.start : Call → Session
  | .markRunning c => .readOwner c
  | .row t op => .takeRow t op
  | .finalize t now => .readInitializing t now

/-- `abort` is a rollback, also by a crash of the process. -/
inductive Event
  | begin (p : Nat) (call : Call)
  | act (p : Nat)
  | abort (p : Nat)

def step (u : Chars) : Event → Database → Database
  | .begin p call, db =>
    match db.sessions p with
    | .idle => db.goto p call.start
    | _ => db
  | .act p, db => act u p db
  | .abort p, db => db.finish p

end FetchTask.Queue.Claims
