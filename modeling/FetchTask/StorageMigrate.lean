import FetchTask.Lib.Dict
import FetchTask.Lib.Json
import FetchTask.Lib.Raising
import Mathlib.Logic.Function.Basic

/-!
The migration of the storage (`scripts/storage_migrate.py`), and what it uses of
`app/postgres.py`.

`migrate_to_postgres` copies the documents and the tasks of a data directory into
the database and keeps a backup; `rollback_to_json` writes them back. Every access
to a file or to the database is a command, and any command may raise.
-/

namespace FetchTask.StorageMigrate

open Raising

/-- `DOCUMENT_FILES`. -/
def documentFiles : List (String × String) :=
  [("runtime", "runtime.json"), ("accounts", "accounts.json"), ("temp_tokens", "temp_tokens.json"),
    ("users", "users.json"), ("point_packages", "point_packages.json"),
    ("feedback", "feedback.json")]

/-! ### Files -/

abbrev Images := List (String × List UInt8)

/-- A directory under `tasks`. -/
structure TaskDir where
  record : Option Json := none
  result : Option Json := none
  images : Option Images := none

/-- A data directory, or its backup: the content of each file, and the directories under
`tasks` in the order of their names. -/
structure DataDir where
  documents : String → Option Json := fun _ => none
  tasks : Option (List (String × TaskDir)) := none
  manifest : Option Json := none

/-! ### The database -/

structure TaskRow where
  record : Json
  result : Json := .object []

structure Database where
  documents : Dict String Json := .empty
  accounts : Dict String Json := .empty
  tempTokens : Dict String Json := .empty
  users : Dict String Json := .empty
  tasks : Dict String TaskRow := .empty

structure World where
  data : DataDir
  backup : Option DataDir := none
  staging : Option DataDir := none
  db : Database := {}
  commands : Nat := 0

abbrev Script := EStateM String World

/-- What the program takes from its surroundings: whether `DOLA_DATABASE_URL` is set, `str`
of values that are no texts, the order in which the database returns rows, and the error
of each command that raises, by its number. Strings stand for the texts of the language; which
of them have a lone surrogate is a parameter, and so is which rows have an entry that is too
large for an index of their table. -/
structure Setting where
  enabled : Bool
  str : Json → String
  surrogate : String → Bool := fun _ => false
  oversized : String × Json → Bool := fun _ => false
  ordered : List (String × Json) → List (String × Json)
  orderedTasks : List (String × TaskRow) → List (String × TaskRow)
  ordered_perm : ∀ rows, (ordered rows).Perm rows
  orderedTasks_perm : ∀ rows, (orderedTasks rows).Perm rows
  faults : Nat → Option String := fun _ => none

variable (S : Setting)

/-- A command that raises has no effect. -/
def command {α : Type} (f : World → Except String (α × World)) : Script α := fun w =>
  let w := { w with commands := w.commands + 1 }
  match S.faults (w.commands - 1) with
  | some error => .error error w
  | none =>
    match f w with
    | .ok (a, w) => .ok a w
    | .error error => .error error w

def reading {α : Type} (f : World → Except String α) : Script α :=
  command S fun w => (f w).map fun a => (a, w)

def writing (f : World → World) : Script Unit := command S fun w => .ok ((), f w)

def onDatabase (f : Database → Except String Database) : Script Unit :=
  command S fun w => (f w.db).map fun db => ((), { w with db })

/-! ### `app/postgres.py` -/

/-- `read_document`, for the names of `DOCUMENT_FILES`. -/
def readDocument (name : String) : Script Json :=
  reading S fun w =>
    if name = "accounts" then
      .ok (.object [("accounts", .array ((S.ordered w.db.accounts.items).map Prod.snd))])
    else if name = "temp_tokens" then
      .ok (.object [("tokens", .object (S.ordered w.db.tempTokens.items))])
    else if name = "users" then .ok (.object [("users", .object (S.ordered w.db.users.items))])
    else .ok ((w.db.documents.get? name).getD (.object []))

/-- A text column takes the text. -/
def takesText (s : String) : Bool := !S.surrogate s && !s.toList.contains (Char.ofNat 0)

/-- `jsonb` takes the value. -/
def takesJson (value : Json) : Bool :=
  value.all (takesText S) fun literal =>
    !(["NaN", "Infinity", "-Infinity"].contains literal)

def takesRow (row : String × Json) : Bool :=
  takesText S row.1 && takesJson S row.2 && !S.oversized row

/-- `INSERT`, with the primary key and the width of its column. -/
def insert (width : Option Nat) (rows : Dict String Json) (entry : String × Json) :
    Except String (Dict String Json) :=
  if takesRow S entry = false then .error "invalid input syntax"
  else if (width.any fun width => decide (width < entry.1.length)) = true then
    .error "value too long for type character varying"
  else if (rows.get? entry.1).isSome then .error "duplicate key value violates unique constraint"
  else .ok (rows.set entry.1 entry.2)

def insertAll (width : Option Nat) (rows : List (String × Json)) : Except String (Dict String Json) :=
  rows.foldlM (insert S width) .empty

def accountRow? (item : Json) : Option (String × Json) :=
  let id := Json.textOf S.str (item.get? "id")
  if item.members?.isSome ∧ id ≠ "" then some (id, item) else none

/-- The accounts that `write_document` keeps. The items of an object or a text are texts. -/
def accountRows (payload : Json) : Except String (List (String × Json)) :=
  match payload.getD "accounts" (.array []) with
  | .array items => .ok (items.filterMap (accountRow? S))
  | .object _ | .text _ => .ok []
  | _ => .error "object is not iterable"

/-- The entries of the tokens or the users that it keeps. -/
def entryRows (payload : Json) (key : String) : List (String × Json) :=
  (((payload.get? key).bind Json.members?).getD []).filter fun entry =>
    entry.2.members?.isSome && entry.1 != ""

/-- `write_document`, for the names of `DOCUMENT_FILES`: one transaction. -/
def writeDocument (name : String) (payload : Json) : Script Unit :=
  onDatabase S fun db =>
    if name = "accounts" then do
      let rows ← accountRows S payload
      return { db with accounts := ← insertAll S (some 64) rows }
    else if name = "temp_tokens" then do
      return { db with tempTokens := ← insertAll S (some 64) (entryRows payload "tokens") }
    else if name = "users" then do
      return { db with users := ← insertAll S none (entryRows payload "users") }
    else if takesJson S payload then .ok { db with documents := db.documents.set name payload }
    else .error "invalid input syntax"

/-- `create_task`; whether the row is new. -/
def createTask (taskId : String) (record : Json) : Script Bool :=
  command S fun w =>
    if 32 < taskId.length then .error "value too long for type character varying(32)"
    else if takesRow S (taskId, record) = false then .error "invalid input syntax"
    else if (w.db.tasks.get? taskId).isSome then .ok (false, w)
    else .ok (true, { w with db := { w.db with tasks := w.db.tasks.set taskId { record } } })

def writeTaskResult (taskId : String) (result : Json) : Script Unit :=
  onDatabase S fun db =>
    match db.tasks.get? taskId with
    | none => .error taskId
    | some row =>
      if takesJson S result then .ok { db with tasks := db.tasks.set taskId { row with result } }
      else .error "invalid input syntax"

def readTask (taskId : String) : Script TaskRow :=
  reading S fun w =>
    match w.db.tasks.get? taskId with
    | none => .error taskId
    | some row => .ok row

def listTaskIds : Script (List String) :=
  reading S fun w => .ok ((S.orderedTasks w.db.tasks.items).map Prod.fst)

/-! ### To the database -/

/-- `_load_json` on a file that exists. -/
def loadJson (content : Json) : Script Json :=
  if content.members?.isSome then pure content else EStateM.throw "JSON root must be an object"

def onBackup (f : DataDir → DataDir) : Script Unit :=
  writing S fun w => { w with backup := w.backup.map f }

def migrateDocuments : List (String × String) → Script Nat
  | [] => pure 0
  | (name, filename) :: files => do
    match ← reading S fun w => .ok (w.data.documents filename) with
    | none => migrateDocuments files
    | some content =>
      let payload ← loadJson content
      writeDocument S name payload
      onBackup S fun b => { b with documents := Function.update b.documents filename (some content) }
      let count ← migrateDocuments files
      pure (count + 1)

def migrateTask (name : String) (dir : TaskDir) (record : Json) : Script Unit := do
  let record ← loadJson record
  let id := Json.textOf S.str (record.get? "id")
  let taskId := if id = "" then name else id
  let created ← createTask S taskId record
  if created then
    match dir.result with
    | none => pure ()
    | some result => do
      let result ← loadJson result
      writeTaskResult S taskId result
    onBackup S fun b => { b with tasks := some (b.tasks.getD [] ++ [(name, dir)]) }
  else EStateM.throw ("duplicate task: " ++ taskId)

def migrateTasks : List (String × TaskDir) → Script Nat
  | [] => pure 0
  | (name, dir) :: dirs =>
    match dir.record with
    | none => migrateTasks dirs
    | some record => do
      migrateTask S name dir record
      let count ← migrateTasks dirs
      pure (count + 1)

def manifestOf (direction : String) (tasks documents : Nat) : Json :=
  .object [("direction", .text direction), ("tasks", .number (toString tasks) (tasks == 0)),
    ("documents", .number (toString documents) (documents == 0))]

/-- The body of `migrate_to_postgres`: how many tasks and how many documents. -/
def migrateAll : Script (Nat × Nat) := do
  let documents ← migrateDocuments S documentFiles
  let dirs ← reading S fun w => .ok (w.data.tasks.getD [])
  let tasks ← migrateTasks S dirs
  onBackup S fun b =>
    { b with manifest := some (manifestOf "json-to-postgres" tasks documents) }
  pure (tasks, documents)

/-- `any(postgres.read_document(name) for name in names)`. -/
def anyDocument : List String → Script Bool
  | [] => pure false
  | name :: names => do
    let payload ← readDocument S name
    if payload.truthy then pure true else anyDocument names

/-- The test of the target. -/
def occupied : Script Bool := do
  let ids ← listTaskIds S
  if ids ≠ [] then pure true else anyDocument S (documentFiles.map Prod.fst)

def clearAll : Script Unit := onDatabase S fun _ => .ok {}

/-- `shutil.rmtree(backup_dir, ignore_errors=True)`. -/
def removeBackup : Script Unit := fun w =>
  .ok () (match S.faults w.commands with
    | some _ => { w with commands := w.commands + 1 }
    | none => { w with commands := w.commands + 1, backup := none })

/-- The cleanup of `migrate_to_postgres`. -/
def undo (error : String) : Script (Nat × Nat) := do
  clearAll S
  removeBackup S
  EStateM.throw error

def migrateToPostgres : Script (Nat × Nat) :=
  if S.enabled then do
    let exists_ ← reading S fun w => .ok w.backup.isSome
    if exists_ then EStateM.throw "backup directory already exists"
    else
      writing S fun w => { w with backup := some {} }
      -- `ensure_schema` finds a schema that is there.
      writing S id
      let occupied ← occupied S
      if occupied then EStateM.throw "PostgreSQL target is not empty"
      else tryCatch (migrateAll S) (undo S)
  else EStateM.throw "DOLA_DATABASE_URL is required"

/-! ### Back to files -/

def onStaging (f : DataDir → DataDir) : Script Unit :=
  writing S fun w => { w with staging := w.staging.map f }

def stageDocuments : List (String × String) → Script Nat
  | [] => pure 0
  | (name, filename) :: files => do
    let payload ← readDocument S name
    if payload.truthy then
      onStaging S fun d => { d with documents := Function.update d.documents filename (some payload) }
      let count ← stageDocuments files
      pure (count + 1)
    else stageDocuments files

/-- The images that the backup has for a task. -/
def backupImages (w : World) (taskId : String) : Option Images :=
  (((w.backup.bind DataDir.tasks).getD []).find? fun e => e.1 == taskId).bind fun e => e.2.images

def stageTask (taskId : String) : Script Unit := do
  let row ← readTask S taskId
  let images ← reading S fun w => .ok ((backupImages w taskId).getD [])
  let result := if row.result.truthy then some row.result else none
  let dir : TaskDir := { record := some row.record, result, images := some images }
  onStaging S fun d => { d with tasks := some (d.tasks.getD [] ++ [(taskId, dir)]) }

/-- A child of the staging directory takes the place of its name in the data directory. -/
def moveDocument (filename : String) : Script Unit :=
  writing S fun w =>
    match w.staging.bind fun d => d.documents filename with
    | none => w
    | some payload =>
      { w with data.documents := Function.update w.data.documents filename (some payload) }

def moveTasks : Script Unit :=
  writing S fun w =>
    match w.staging.bind DataDir.tasks with
    | none => w
    | some tasks => { w with data.tasks := some tasks }

def rollbackToJson : Script (Nat × Nat) :=
  if S.enabled then do
    let exists_ ← reading S fun w => .ok w.backup.isSome
    if exists_ then
      writing S fun w => { w with staging := some {} }
      let taskIds ← listTaskIds S
      let documents ← stageDocuments S documentFiles
      taskIds.forM (stageTask S)
      (documentFiles.map Prod.snd).forM (moveDocument S)
      moveTasks S
      writing S fun w => { w with staging := none }
      pure (taskIds.length, documents)
    else EStateM.throw "backup directory does not exist"
  else EStateM.throw "DOLA_DATABASE_URL is required"

end FetchTask.StorageMigrate
