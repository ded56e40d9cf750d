import FetchTask.StorageMigrate
import Mathlib.Algebra.GroupWithZero.Nat

/-!
Backups of the users, the tokens and the accounts (`app/data_backup.py`).

A backup is an archive of three documents and a description. `restoreBackup`
takes one apart, checks the documents, keeps a backup of what is there and then
replaces the three stores one after the other. Every access to a file or to the
database is a command that may raise, as in the migration.

What the standard library makes of bytes is a parameter: an archive comes as its
members with their contents as JSON.
-/

namespace FetchTask.DataBackup

open Raising StorageMigrate

def backupFormat : String := "dola-user-account-backup"
def backupVersion : Int := 1
def maxBackupBytes : Nat := 128 * 1024 * 1024

inductive StoreName
  | users
  | tempTokens
  | accounts
  deriving DecidableEq

def StoreName.file : StoreName → String
  | .users => "users.json"
  | .tempTokens => "temp_tokens.json"
  | .accounts => "accounts.json"

/-- The name of the document in the database. -/
def StoreName.document : StoreName → String
  | .users => "users"
  | .tempTokens => "temp_tokens"
  | .accounts => "accounts"

/-- The member of the document that holds the records. -/
def StoreName.key : StoreName → String
  | .users => "users"
  | .tempTokens => "tokens"
  | .accounts => "accounts"

def storeNames : List StoreName := [.users, .tempTokens, .accounts]

abbrev Payloads := StoreName → Json

/-- A value that `json.loads` may return, as far as it matters here: an object and the
objects in it have no member twice. -/
def Loaded (value : Json) : Prop :=
  ∀ members, value = .object members → (members.map Prod.fst).Nodup ∧
    ∀ member ∈ members, ∀ inner, member.2 = .object inner → (inner.map Prod.fst).Nodup

/-- A member of an archive; `content` is `none` when reading it as JSON in UTF-8 raises. -/
structure Member where
  name : String
  fileSize : Nat
  content : Option Json
  loaded : ∀ value ∈ content, Loaded value

structure Library where
  /-- `zipfile.ZipFile`; `none` stands for `BadZipFile`. -/
  openZip : List UInt8 → Option (List Member)
  /-- `int(value)`, where it does not raise. -/
  toInt : Json → Option Int

/-! ### Checks -/

/-- The records of a document that is an object by key. -/
def records (payloads : Payloads) (name : StoreName) : List (String × Json) :=
  (((payloads name).get? name.key).bind Json.members?).getD []

def accountItems (payloads : Payloads) : Option (List Json) :=
  match (payloads .accounts).get? "accounts" with
  | some (.array items) => some items
  | _ => none

/-- `_validate_payloads`; `str` is that of values that are no texts. -/
def validatePayloads (str : Json → String) (payloads : Payloads) : Except String Unit :=
  if (((payloads .users).get? "users").bind Json.members?).isNone then
    .error "users.json format is invalid"
  else if (((payloads .tempTokens).get? "tokens").bind Json.members?).isNone then
    .error "temp_tokens.json format is invalid"
  else match accountItems payloads with
  | none => .error "accounts.json format is invalid"
  | some items =>
    if 200000 < (records payloads .users).length ∨ 200000 < (records payloads .tempTokens).length ∨
        100000 < items.length then
      .error "backup contains too many records"
    else if items.any fun item => item.members?.isNone || Json.textOf str (item.get? "id") == "" then
      .error "accounts.json contains an invalid account"
    else .ok ()

/-- An absolute name, or one with a part `..`. -/
def unsafeName (name : String) : Bool :=
  name.toList.head? == some '/' || (name.toList.splitOn '/').contains ['.', '.']

/-- `archive.read` finds the last member of that name. -/
def readMember (members : List Member) (name : String) : Except String Json :=
  match (members.reverse.find? fun member => member.name == name).bind Member.content with
  | none => .error (name ++ " cannot be read")
  | some value => .ok value

def readPayload (members : List Member) (name : StoreName) : Except String Json := do
  let data ← readMember members name.file
  if data.members?.isSome then return data else throw (name.file ++ " is invalid")

/-- `int(metadata.get("version") or 0)`. -/
def versionOf (L : Library) (metadata : Json) : Option Int :=
  match metadata.get? "version" with
  | none => some 0
  | some version => if version.truthy then L.toInt version else some 0

def checkMetadata (L : Library) (metadata : Json) : Except String Unit :=
  if metadata.members?.isNone then .error "metadata has no attribute get"
  else match metadata.get? "format" with
  | some (.text format) =>
    if format ≠ backupFormat then .error "unsupported backup format"
    else match versionOf L metadata with
    | none => .error "invalid version"
    | some version =>
      if version = backupVersion then .ok () else .error "unsupported backup format"
  | _ => .error "unsupported backup format"

def decodeBackup (L : Library) (str : Json → String) (raw : List UInt8) :
    Except String Payloads :=
  if raw = [] ∨ maxBackupBytes < raw.length then .error "backup file is empty or too large"
  else match L.openZip raw with
  | none => .error "backup must be a valid ZIP file"
  | some members =>
    let names := members.map Member.name
    if names.any unsafeName then .error "backup contains an unsafe path"
    else if maxBackupBytes < (members.map Member.fileSize).sum then
      .error "backup expands beyond the allowed size"
    else if ("metadata.json" :: storeNames.map StoreName.file).any (· ∉ names) then
      .error "backup is missing required files"
    else do
      checkMetadata L (← readMember members "metadata.json")
      let users ← readPayload members .users
      let tempTokens ← readPayload members .tempTokens
      let accounts ← readPayload members .accounts
      let payloads : Payloads
        | .users => users
        | .tempTokens => tempTokens
        | .accounts => accounts
      validatePayloads str payloads
      return payloads

/-! ### Backups -/

section Scripts

variable (S : Setting)

/-- What a missing file stands for. -/
def defaultDocument (name : StoreName) : Json :=
  .object [(name.key, if name = .accounts then .array [] else .object [])]

/-- `_read_json_file`, once the file is read. -/
def fileDocument (name : StoreName) (content : Option Json) : Except String Json :=
  match content with
  | none => .ok (defaultDocument name)
  | some data =>
    if data.members?.isSome then .ok data else .error ("invalid backup source: " ++ name.file)

def currentPayload (name : StoreName) : Script Json :=
  if S.enabled then readDocument S name.document
  else reading S fun w => fileDocument name (w.data.documents name.file)

def currentPayloads : Script Payloads := do
  -- `ensure_dirs`
  writing S id
  let users ← currentPayload S .users
  let tempTokens ← currentPayload S .tempTokens
  let accounts ← currentPayload S .accounts
  return fun
    | .users => users
    | .tempTokens => tempTokens
    | .accounts => accounts

def countJson (n : Nat) : Json := .number (toString n) (n == 0)

def metadataOf (payloads : Payloads) (now : String) : Json :=
  .object [("format", .text backupFormat), ("version", countJson 1), ("created_at", .text now),
    ("includes", .array [.text "users", .text "temporary_tokens", .text "accounts"]),
    ("record_counts", .object [("users", countJson (records payloads .users).length),
      ("temporary_tokens", countJson (records payloads .tempTokens).length),
      ("accounts", countJson ((accountItems payloads).getD []).length)])]

/-- UTF-8 encodes the value: no text in it has a lone surrogate. -/
def encodes (value : Json) : Bool := value.all (fun s => !S.surrogate s) fun _ => true

def encoded (values : List Json) : Except String Unit :=
  if values.all (encodes S) then .ok () else .error "'utf-8' codec can't encode characters"

/-- The members of the archive that `create_backup` writes, with their contents. -/
def createBackup (now : String) : Script (List (String × Json)) := do
  let payloads ← currentPayloads S
  result (validatePayloads S.str payloads)
  result (encoded S (storeNames.map payloads))
  return ("metadata.json", metadataOf payloads now) ::
    storeNames.map fun name => (name.file, payloads name)

/-! ### Restoring -/

/-- One store is replaced: a transaction, or a temporary file that takes the place of the file. -/
def replaceStore (payloads : Payloads) (name : StoreName) : Script Unit :=
  if S.enabled then writeDocument S name.document (payloads name)
  else do
    command S fun w => (encoded S [payloads name]).map fun _ => ((), w)
    writing S fun w => { w with
      data := { w.data with
        documents := Function.update w.data.documents name.file (some (payloads name)) } }

structure Restored where
  users : Nat
  temporaryTokens : Nat
  accounts : Nat
  preRestoreSnapshot : String

/-- The part of `restore_backup` before a store is written: the directory and the copy of what
is there. -/
def takeSnapshot (now : String) : Script Unit := do
  writing S id
  let _ ← createBackup S now
  writing S id

def restoreBackup (L : Library) (raw : List UInt8) (now snapshot : String) : Script Restored := do
  let payloads ← result (decodeBackup L S.str raw)
  takeSnapshot S now
  replaceStore S payloads .users
  replaceStore S payloads .tempTokens
  replaceStore S payloads .accounts
  return {
    users := (records payloads .users).length
    temporaryTokens := (records payloads .tempTokens).length
    accounts := ((accountItems payloads).getD []).length
    preRestoreSnapshot := snapshot }

end Scripts

end FetchTask.DataBackup
