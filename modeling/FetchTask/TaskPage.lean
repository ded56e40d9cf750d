import FetchTask.Lib.Collation
import FetchTask.Lib.Dict
import FetchTask.Lib.Json
import FetchTask.Lib.Like
import FetchTask.Lib.Sorting
import FetchTask.Store.Meta

/-!
A page of the task list, computed twice (`app/postgres.py`, `app/store.py`).

`query_task_page` selects, counts and orders in SQL over the JSON that a row keeps;
without a database `list_tasks_page` reads the directories of the tasks and does the
same in the language. A stored task is its identifier and its record as JSON. Of an
item the page itself looks at the fields kept here; the numbers and lists that it only
passes on are left out. Times are in microseconds, and the clock is read once.
-/

namespace FetchTask.TaskPage

open Store (minute hour taskRetryTimeoutMinutes taskTimeoutHours)

/-- What the page takes from its language. -/
structure Texts extends Chars where
  lower_empty : lower "" = ""
  casefold : String → String
  /-- `str(value)` of a value that is no text. -/
  str : Json → String
  int : Json → Int
  /-- `datetime.fromisoformat`, a text without a zone being one in UTC. -/
  fromisoformat : String → Option Int
  isoformat : Int → String

structure Database where
  /-- `LOWER`. -/
  lower : String → String
  /-- `->>` of a number, an array or an object. -/
  jsonText : Json → String
  collation : Collation

/-- `meta->>'field'`: a member that is missing or null is `NULL`. -/
def Database.text (db : Database) : Option Json → Option String
  | none => none
  | some .null => none
  | some (.bool b) => some (if b then "true" else "false")
  | some (.text s) => some s
  | some value => some (db.jsonText value)

structure StoredTask where
  id : String
  record : List (String × Json)

namespace StoredTask

variable (u : Texts) (t : StoredTask)

/-- `meta.get(key)`. -/
def get? (key : String) : Option Json := (Json.object t.record).get? key

/-- `str(meta.get(key) or "")`. -/
def str (key : String) : String := Json.textOf u.str (t.get? key)

/-- `str(meta.get(key) or meta.get(key') or ... or "")`. -/
def strOf (keys : List String) : String :=
  Json.textOf u.str ((keys.filterMap t.get?).find? Json.truthy)

/-- `int(meta.get(key) or 0)`. -/
def int (key : String) : Int := (((t.get? key).filter Json.truthy).map u.int).getD 0

/-- `bool(meta.get(key, False))`. -/
def flag (key : String) : Bool := ((t.get? key).map Json.truthy).getD false

/-- `is_task_expired`. -/
def isTaskExpired (now : Int) : Bool :=
  let status := t.str u "status"
  if status ∈ ["success", "failed", "canceled"] then false
  else
    let createdAt := u.fromisoformat (t.str u "created_at")
    if 0 < max 0 (t.int u "retry_count") ∧ status ∈ ["running", "submitted"] then
      match u.fromisoformat (t.strOf u ["retry_attempt_started_at", "claimed_at",
          "retry_started_at"]) <|> createdAt with
      | some origin => decide (taskRetryTimeoutMinutes * minute ≤ now - origin)
      | none => false
    else
      match createdAt with
      | some created => decide (taskTimeoutHours * hour ≤ now - created)
      | none => false

end StoredTask

/-- The stored tasks, of distinct identifiers and creation times and none of them expired. -/
structure TaskStore (u : Texts) (now : Int) where
  tasks : List StoredTask
  ids : (tasks.map StoredTask.id).Nodup
  created : (tasks.map (StoredTask.str u · "created_at")).Nodup
  live : ∀ t ∈ tasks, t.isTaskExpired u now = false

/-- The arguments of `list_tasks_page` apart from the page. -/
structure Query where
  ownerTokenHash : Option String := none
  ownerRemarks : Dict String String := Dict.empty
  audience : String := "admin"
  keyword : String := ""
  status : String := ""
  platform : String := ""

structure Stats where
  total : Nat
  pending : Nat
  running : Nat
  success : Nat
  failed : Nat
  completedToday : Nat
  todaySuccess : Nat
  todayFailed : Nat
  failureReasons : List (String × Nat)
  deriving DecidableEq

/-- What the page answers, the items by their identifiers. -/
structure Page where
  items : List String
  total : Nat
  page : Int
  pageSize : Nat
  totalPages : Nat
  stats : Stats
  deriving DecidableEq

/-- `needle in text`. -/
def isIn (needle text : String) : Bool := decide (needle.toList <:+: text.toList)

/-- `max(1, (total + page_size - 1) // page_size)`. -/
def totalPages (total pageSize : Nat) : Nat := max 1 ((total + pageSize - 1) / pageSize)

/-- `min(max(1, page), total_pages)`. -/
def currentPage (page : Int) (totalPages : Nat) : Int := min (max 1 page) totalPages

/-- The rows from `(current_page - 1) * page_size` on, `page_size` of them. -/
def pageOf {α : Type} (currentPage : Int) (pageSize : Nat) (rows : List α) : List α :=
  (rows.drop ((currentPage - 1) * pageSize).toNat).take pageSize

/-- The counts by which a row is counted. -/
@[ext] structure Marks where
  pending : Bool
  running : Bool
  success : Bool
  failed : Bool
  completedToday : Bool
  todaySuccess : Bool
  todayFailed : Bool
  deriving DecidableEq

def Stats.of {α : Type} (marks : α → Marks) (rows : List α) (failureReasons : List (String × Nat)) :
    Stats where
  total := rows.length
  pending := rows.countP fun row => (marks row).pending
  running := rows.countP fun row => (marks row).running
  success := rows.countP fun row => (marks row).success
  failed := rows.countP fun row => (marks row).failed
  completedToday := rows.countP fun row => (marks row).completedToday
  todaySuccess := rows.countP fun row => (marks row).todaySuccess
  todayFailed := rows.countP fun row => (marks row).todayFailed
  failureReasons := failureReasons

/-- The texts with how often each occurs, in the order of the counts. -/
def countReasons (c : Collation) (reasons : List String) : List (String × Nat) :=
  (reasons.dedup.map fun reason => (reason, reasons.count reason)).insertionSort c.ranked

def unknownReason : String := "未知原因"

/-- `TASK_ID_RE`. -/
def isTaskId (id : String) : Bool :=
  id.toList.length == 32 &&
    id.toList.all fun c => ('0' ≤ c && c ≤ '9') || ('a' ≤ c && c ≤ 'f')

/-- The day of the local zone, eight hours ahead, that a time falls on. -/
def localDay (t : Int) : Int := (t + 8 * hour) / (24 * hour)

/-! ### In the database -/

section Sql

variable (u : Texts) (db : Database) (now : Int) (q : Query) (t : StoredTask)

/-- `meta->>'key'` of a row. -/
def StoredTask.sqlText (key : String) : Option String := db.text (t.get? key)

/-- `_task_scope_conditions`. -/
def sqlInScope : Bool :=
  q.ownerTokenHash.all (fun owner => t.sqlText db "owner_token_hash" == some owner) &&
    (!(q.audience == "admin" || q.audience == "client") ||
      (t.sqlText db ("task_hidden_for_" ++ q.audience)).getD "false" != "true")

/-- `status_groups`. -/
def statusGroups : List (String × List String) :=
  [("generating", ["pending", "running", "submitted"]), ("running", ["running", "submitted"]),
    ("failed", ["failed"]), ("canceled", ["canceled"]), ("success", ["success"]),
    ("pending", ["pending"])]

/-- The condition on the status. -/
def sqlStatus : Bool :=
  let selected := u.lower (u.strip q.status)
  selected == "" || selected == "all" ||
    ((statusGroups.lookup selected).getD [selected]).contains
      (db.lower ((t.sqlText db "status").getD ""))

/-- The condition on the platform. -/
def sqlPlatform : Bool :=
  q.platform == "" || q.platform == "all" ||
    db.lower ((t.sqlText db "platform").getD "") == u.lower q.platform

/-- `searchable`, without the identifier. -/
def searchable : List String :=
  ["prompt", "status", "error", "model", "platform", "created_at", "updated_at"]

/-- `matching_owner_hashes`. -/
def matchingOwners : List String :=
  (q.ownerRemarks.items.filter fun p =>
    q.keyword != "" && isIn (u.casefold q.keyword) (u.casefold p.2)).map Prod.fst

/-- The condition on the keyword. -/
def sqlKeyword : Bool :=
  q.keyword == "" ||
    (let pattern := '%' :: ((u.lower q.keyword).toList ++ ['%'])
     like pattern (db.lower t.id).toList ||
      searchable.any (fun field =>
        like pattern (db.lower ((t.sqlText db field).getD "")).toList) ||
      ((matchingOwners u q).filter (· != "")).any fun owner =>
        t.sqlText db "owner_token_hash" == some owner)

def sqlSelected : Bool := sqlStatus u db q t && sqlPlatform u db q t && sqlKeyword u db q t

/-- `start_utc`. -/
def startUtc : String := u.isoformat (localDay now * (24 * hour) - 8 * hour)

/-- `end_utc`. -/
def endUtc : String := u.isoformat ((localDay now + 1) * (24 * hour) - 8 * hour)

/-- `finished_at` lies between the texts of the bounds of the day. -/
def sqlFinishedToday : Bool :=
  let finished := (t.sqlText db "finished_at").getD ""
  db.collation.le (startUtc u now) finished && !db.collation.le (endUtc u now) finished

def sqlMarks : Marks :=
  let status := t.sqlText db "status"
  { pending := status == some "pending"
    running := status == some "running" || status == some "submitted"
    success := status == some "success"
    failed := status == some "failed" || status == some "canceled"
    completedToday := sqlFinishedToday u db now t
    todaySuccess := status == some "success" && sqlFinishedToday u db now t
    todayFailed := status == some "failed" && sqlFinishedToday u db now t }

/-- `COALESCE(NULLIF(meta->>'error', ''), ...)`. -/
def sqlReason : String := ((t.sqlText db "error").filter (· != "")).getD unknownReason

/-- What `ORDER BY meta->>'created_at' DESC, id DESC` looks at. -/
def sqlKey : Option String × String := (t.sqlText db "created_at", t.id)

/-- `query_task_page` over the rows of `dola_tasks`. -/
def queryTaskPage (page : Int) (pageSize : Nat) (rows : List StoredTask) : Page :=
  let scope := rows.filter (sqlInScope db q)
  let selected := rows.filter fun t => sqlInScope db q t && sqlSelected u db q t
  let total := selected.length
  let current := currentPage page (totalPages total pageSize)
  let failures := scope.filter fun t => (sqlMarks u db now t).todayFailed
  { items := (pageOf current pageSize
      (selected.insertionSort (db.collation.newestBy (sqlKey db)))).map StoredTask.id
    total, page := current, pageSize, totalPages := totalPages total pageSize
    stats := Stats.of (sqlMarks u db now) scope
      ((countReasons db.collation (failures.map (sqlReason db))).map fun row =>
        (textOr row.1 unknownReason, row.2)) }

/-- `list_tasks_page` with a database. -/
def sqlPage (page : Int) (pageSize : Nat) (rows : List StoredTask) : Page :=
  let result := queryTaskPage u db now q page pageSize rows
  { result with items := result.items.filter isTaskId }

end Sql

/-! ### In the files -/

section Files

/-- `DEFAULT_PLATFORM`. -/
def defaultPlatform : String := "dola"

structure Item where
  id : String
  prompt : String
  promptPreview : String
  platform : String
  model : String
  createdAt : String
  updatedAt : String
  completedToday : Bool
  status : String
  error : String
  ownerName : String
  taskHiddenForAdmin : Bool
  taskHiddenForClient : Bool

variable (u : Texts) (now : Int) (q : Query) (t : StoredTask) (item : Item)

/-- `is_local_today`. -/
def isLocalToday (value : String) : Bool :=
  ((u.fromisoformat value).map fun parsed => localDay parsed == localDay now).getD false

/-- `_task_list_item`. -/
def taskListItem : Item :=
  let owner := t.str u "owner_token_hash"
  { id := t.id
    prompt := t.str u "prompt", promptPreview := takeText 15 (t.str u "prompt")
    platform := textOr (t.str u "platform") defaultPlatform
    model := t.str u "model"
    createdAt := t.str u "created_at", updatedAt := t.str u "updated_at"
    completedToday := isLocalToday u now (t.str u "finished_at")
    status := t.str u "status", error := t.str u "error"
    ownerName := if owner = "" then "管理员" else (q.ownerRemarks.get? owner).getD ""
    taskHiddenForAdmin := t.flag "task_hidden_for_admin"
    taskHiddenForClient := t.flag "task_hidden_for_client" }

/-- What the sort of `list_tasks` looks at. -/
def Item.key : Option String × String := (some item.createdAt, item.id)

/-- The directory is that of a task of the owner. -/
def isListed : Bool :=
  isTaskId t.id && q.ownerTokenHash.all fun owner => t.str u "owner_token_hash" == owner

/-- `list_tasks` over the directories of the tasks. -/
def listTasks (directories : List StoredTask) : List Item :=
  ((directories.filter (isListed u q)).map (taskListItem u now q)).insertionSort
    (Collation.codePoints.newestBy Item.key)

/-- `item.get(f"task_hidden_for_{audience}")`. -/
def Item.hidden : Bool :=
  (q.audience == "admin" && item.taskHiddenForAdmin) ||
    (q.audience == "client" && item.taskHiddenForClient)

/-- `TASK_STATUS_FILTERS`. -/
def taskStatusFilters : List (String × List String) :=
  [("generating", ["pending", "running", "submitted"]), ("running", ["running", "submitted"]),
    ("failed", ["failed"]), ("canceled", ["canceled"]), ("success", ["success"]),
    ("pending", ["pending"])]

/-- `task_status_filter_values`. -/
def taskStatusFilterValues (status : String) : List String :=
  let selected := u.lower (u.strip status)
  if selected = "" ∨ selected = "all" then []
  else (taskStatusFilters.lookup selected).getD [selected]

def Item.matchesStatus : Bool :=
  let selectedStatuses := taskStatusFilterValues u q.status
  selectedStatuses.isEmpty || selectedStatuses.contains (u.lower item.status)

def Item.matchesPlatform : Bool :=
  let selectedPlatform := u.lower (u.strip q.platform)
  selectedPlatform == "" || selectedPlatform == "all" || u.lower item.platform == selectedPlatform

def Item.matchesKeyword : Bool :=
  let normalizedKeyword := u.lower (u.strip q.keyword)
  normalizedKeyword == "" ||
    [item.id, item.prompt, item.promptPreview, item.status, item.error, item.ownerName, item.model,
      item.platform, item.createdAt, item.updatedAt].any fun value =>
        isIn normalizedKeyword (u.lower value)

def Item.selected : Bool :=
  item.matchesStatus u q && item.matchesPlatform u q && item.matchesKeyword u q

def Item.marks : Marks where
  pending := item.status == "pending"
  running := item.status == "running" || item.status == "submitted"
  success := item.status == "success"
  failed := item.status == "failed" || item.status == "canceled"
  completedToday := item.completedToday
  todaySuccess := item.status == "success" && item.completedToday
  todayFailed := item.status == "failed" && item.completedToday

/-- `str(item.get("error") or ...).strip() or ...`. -/
def Item.reason : String := textOr (u.strip (textOr item.error unknownReason)) unknownReason

/-- `list_tasks_page` over the directories of the tasks. -/
def filePage (page : Int) (pageSize : Nat) (directories : List StoredTask) : Page :=
  let tasks := (listTasks u now q directories).filter fun item => !item.hidden q
  let filtered := tasks.filter (Item.selected u q)
  let total := filtered.length
  let current := currentPage page (totalPages total pageSize)
  let todayFailed := tasks.filter fun item => item.marks.todayFailed
  { items := (pageOf current pageSize filtered).map Item.id
    total, page := current, pageSize, totalPages := totalPages total pageSize
    stats := Stats.of Item.marks tasks
      (countReasons Collation.codePoints (todayFailed.map (Item.reason u))) }

end Files

end FetchTask.TaskPage
