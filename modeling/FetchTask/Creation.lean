import FetchTask.Lib.Runs
import FetchTask.Store.Endings
import Mathlib.Data.List.Sort

/-!
Idempotent creation of tasks (`app/store.py`, `app/postgres.py`).

A request to create a task may carry an idempotency key. With the JSON files,
`find_or_create_task` runs under a lock of the one process: it looks for the key
among the tasks that it lists. With Postgres every call is a transaction that
takes an advisory lock on owner, route and key, looks for the task, and inserts
it; transactions of several processes interleave.
-/

namespace FetchTask.Creation

open Store

structure Setting where
  chars : Chars
  /-- `hashlib.sha256(key).hexdigest()`. -/
  sha256 : String → String
  /-- A digest has 64 characters. -/
  sha256_ne_empty : ∀ key, sha256 key ≠ ""
  /-- `hashtextextended(scope, 0)`. -/
  hashText : String → Int

/-- The arguments of `find_or_create_task`. -/
structure Request where
  prompt : String
  ratio : String
  ownerTokenHash : String
  platform : String
  model : String
  taskType : String
  idempotencyKey : String
  requestFingerprint : String
  requestRoute : String
  duration : Option Int := none
  batchId : String := ""
  batchIndex : Int := 0
  batchRow : Int := 0

/-- A stored task: its record, the fields of the record that only creation reads or writes, and
whether its result has a video. -/
structure Task where
  id : String
  ratio : String
  batchId : String
  batchIndex : Int
  batchRow : Int
  idempotencyHash : String
  requestFingerprint : String
  requestRoute : String
  record : Meta
  hasVideo : Bool := false
  deriving DecidableEq

def Task.ownerTokenHash (t : Task) : String := t.record.ownerTokenHash

inductive Answer
  | created (t : Task)
  | existing (t : Task)
  | raised (message : String)
  deriving DecidableEq

def conflictMessage : String := "idempotency key conflicts with a different request"

def supportedPlatforms : List String := ["dola", "doubao", "qianwen"]

section

variable (S : Setting)

def normalizePlatform (value : String) : Except String String :=
  let platform := S.chars.lower (S.chars.strip (textOr value "dola"))
  if platform ∈ supportedPlatforms then .ok platform else .error "invalid platform"

def normalizeModel (value : String) : String := takeText 80 (S.chars.strip value)

/-- The task that a call creates. -/
def newTask (r : Request) (platform id : String) (now : Int) : Task where
  id := id
  ratio := r.ratio
  batchId := r.batchId
  batchIndex := max 0 r.batchIndex
  batchRow := max 0 r.batchRow
  idempotencyHash := S.sha256 r.idempotencyKey
  requestFingerprint := r.requestFingerprint
  requestRoute := r.requestRoute
  record :=
    { status := .initializing, prompt := r.prompt, platform, model := normalizeModel S r.model
      taskType := if r.taskType = "image" then "image" else "video"
      duration := r.duration.getD 0, ownerTokenHash := r.ownerTokenHash, createdAt := some now
      queuedAt := some now, queuePriorityAt := some now, updatedAt := some now }

/-! ### With the JSON files -/

/-- `expire_task_if_timeout`, as far as it changes the task. -/
def Task.expireIfTimeout (now : Int) (t : Task) : Task :=
  if t.record.isTaskExpired now = true ∧ t.hasVideo = false then
    let retryExpired := 0 < max 0 t.record.retryCount ∧ t.record.status ∈ [.running, .submitted]
    { t with
      record := (markFailed S.chars
        (if retryExpired then "重试超过30分钟，生成失败" else "超时生成失败") now t.record).2 }
  else t

/-- The order of `list_tasks`: the newest first, a missing time last. -/
def Task.newer (t t' : Task) : Bool :=
  match t.record.createdAt, t'.record.createdAt with
  | some time, some time' => decide (time' < time ∨ (time' = time ∧ t'.id ≤ t.id))
  | some _, none => true
  | none, some _ => false
  | none, none => decide (t'.id ≤ t.id)

/-- `list_tasks` on tasks that have been expired already; `none` lists the tasks of all owners. -/
def listTasks (owner : Option String) (tasks : List Task) : List Task :=
  (tasks.filter fun t => owner.all fun hash => t.ownerTokenHash == hash).mergeSort Task.newer

/-- The first listed task with the key and the route of the call. -/
def listedTask (r : Request) (tasks : List Task) : Option Task :=
  (listTasks (if r.ownerTokenHash = "" then none else some r.ownerTokenHash) tasks).find? fun t =>
    decide (t.idempotencyHash = S.sha256 r.idempotencyKey ∧ t.requestRoute = r.requestRoute)

/-- `create_task` with these random identifiers. -/
def createTask (r : Request) (ids : List String) (now : Int) (tasks : List Task) :
    Answer × List Task :=
  match normalizePlatform S r.platform with
  | .error message => (.raised message, tasks)
  | .ok platform =>
    match (ids.take 20).find? fun id => tasks.all fun t => t.id ≠ id with
    | none => (.raised "could not allocate task id", tasks)
    | some id =>
      let t := newTask S r platform id now
      (.created t, tasks ++ [t])

/-- `find_or_create_task` with the JSON files. -/
def findOrCreateTask (r : Request) (ids : List String) (now : Int) (tasks : List Task) :
    Answer × List Task :=
  let tasks := tasks.map (Task.expireIfTimeout S now)
  match listedTask S r tasks with
  | some t =>
    if t.requestFingerprint ≠ r.requestFingerprint then (.raised conflictMessage, tasks)
    else (.existing t, tasks)
  | none => createTask S r ids now tasks

/-! ### With Postgres -/

def lockScope (r : Request) : Int :=
  S.hashText s!"{r.ownerTokenHash}:{r.requestRoute}:{S.sha256 r.idempotencyKey}"

/-- The row that the transaction looks for. -/
def Task.isOf (t : Task) (r : Request) : Bool :=
  decide (t.ownerTokenHash = r.ownerTokenHash ∧ t.requestRoute = r.requestRoute ∧
    t.idempotencyHash = S.sha256 r.idempotencyKey)

end

/-- Where a connection is in `find_or_create_idempotent_task`, with the task that it would
insert. -/
inductive Session
  | idle
  | begun (r : Request) (t : Task)
  | locked (r : Request) (t : Task)
  | found (r : Request) (t existing : Task)
  | absent (r : Request) (t : Task)
  | inserted (r : Request) (t : Task)
  deriving Inhabited

/-- The committed rows, the holders of the advisory locks, the connections, and the calls that
have been answered. -/
structure Database where
  tasks : List Task
  holder : Int → Option Nat := fun _ => none
  session : Nat → Session := fun _ => .idle
  answers : List (Request × Answer) := []

/-- A step of a connection, or another transaction on the record of one task. -/
inductive Step
  | start (i : Nat) (r : Request) (id : String) (now : Int)
  | lock (i : Nat)
  | select (i : Nat)
  | insert (i : Nat)
  | commit (i : Nat)
  | abort (i : Nat)
  | record (id : String) (o : StoreOp)

section

variable (S : Setting)

def Database.enter (db : Database) (i : Nat) (s : Session) : Database :=
  { db with session := Function.update db.session i s }

/-- The end of a transaction: its lock is released, and the call has its answer. -/
def Database.finish (db : Database) (i : Nat) (r : Request) (a : Answer) : Database :=
  { db with
    holder := fun scope => if db.holder scope = some i then none else db.holder scope
    session := Function.update db.session i .idle
    answers := db.answers ++ [(r, a)] }

/-- One step; a step that its connection cannot take changes nothing. -/
def Step.apply : Step → Database → Database
  | .start i r id now, db =>
    match db.session i with
    | .idle =>
      match normalizePlatform S r.platform with
      | .error message => { db with answers := db.answers ++ [(r, .raised message)] }
      | .ok platform => db.enter i (.begun r (newTask S r platform id now))
    | _ => db
  | .lock i, db =>
    match db.session i with
    | .begun r t =>
      -- A connection waits for a lock that another one holds.
      if db.holder (lockScope S r) = none then
        { db with holder := Function.update db.holder (lockScope S r) (some i) }.enter i (.locked r t)
      else db
    | _ => db
  | .select i, db =>
    match db.session i with
    | .locked r t =>
      match db.tasks.find? fun row => row.isOf S r with
      | some row =>
        if row.requestFingerprint ≠ r.requestFingerprint then db.finish i r (.raised conflictMessage)
        else db.enter i (.found r t row)
      | none => db.enter i (.absent r t)
    | _ => db
  | .insert i, db =>
    match db.session i with
    | .absent r t => db.enter i (.inserted r t)
    | _ => db
  | .commit i, db =>
    match db.session i with
    | .found r _ row => db.finish i r (.existing row)
    | .inserted r t =>
      if db.tasks.any fun row => row.id = t.id then db.finish i r (.raised "duplicate key")
      else { db with tasks := db.tasks ++ [t] }.finish i r (.created t)
    | _ => db
  | .abort i, db =>
    match db.session i with
    | .idle => db
    | .begun r _ | .locked r _ | .found r _ _ | .absent r _ | .inserted r _ =>
      db.finish i r (.raised "connection lost")
  | .record id o, db =>
    { db with
      tasks := db.tasks.map fun t =>
        if t.id = id then { t with record := o.apply S.chars t.record } else t }

end

/-! ### The files as a system -/

/-- The stored tasks, and the calls that have been answered. -/
structure Files where
  tasks : List Task
  answers : List (Request × Answer) := []

inductive FileCall
  | findOrCreate (r : Request) (ids : List String) (now : Int)
  | record (id : String) (o : StoreOp)

def FileCall.apply (S : Setting) : FileCall → Files → Files
  | .findOrCreate r ids now, files =>
    let result := findOrCreateTask S r ids now files.tasks
    { tasks := result.2, answers := files.answers ++ [(r, result.1)] }
  | .record id o, files =>
    { files with
      tasks := files.tasks.map fun t =>
        if t.id = id then { t with record := o.apply S.chars t.record } else t }

end FetchTask.Creation
