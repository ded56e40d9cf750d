import FetchTask.Lib.Dict
import FetchTask.Lib.Runs
import FetchTask.Runtime

/-!
Invitation codes (`app/invitation_codes.py`), and the registrations that use them
(`client_register` of `app/main.py`).

All codes are one document, and each call reads and writes it in one transaction. A
registration looks its code up, creates the user and only then counts the use.
Nothing is held in between, so that a code can be deleted, or drawn once more, while
a registration is under way.

Records of the earlier one-time codes are left out, and so is the date of the
document. A file that a call leaves as it is, is not written, but it reads the same.
-/

namespace FetchTask.InvitationCodes

open Runs

def minCodeLength : Nat := 4
def maxCodeLength : Nat := 32
def maxUseHistory : Nat := 100

def countInvalid : String := "生成数量需为 1-200"
def lengthInvalid : String := "邀请码长度需为 4-32"
def codeInvalid : String := "邀请码无效"
def codeMissing : String := "请输入邀请码"
def lastCode : String := "启用邀请码注册时至少需要保留一个邀请码"

/-- An item of `uses`. -/
structure Use where
  usedAt : String
  userId : String
  username : String
  deriving DecidableEq

structure Code where
  id : String
  code : String
  codeHash : String
  createdAt : String
  note : String
  useCount : Nat := 0
  lastUsedAt : String := ""
  lastUsedBy : String := ""
  lastUsedUsername : String := ""
  uses : List Use := []
  deriving DecidableEq

abbrev Codes := Dict String Code

/-- The document. -/
structure Data where
  required : Bool := true
  codes : Codes := .empty

structure Setting where
  chars : Chars
  /-- The alphanumeric characters of the text in upper case. -/
  normalize : String → String
  /-- `hashlib.sha256(text.encode("ascii", errors="ignore")).hexdigest()`. -/
  sha256 : String → String

/-- `_digest`. -/
def Setting.digest (S : Setting) (code : String) : String := S.sha256 (S.normalize code)

/-- `items[-n:]`. -/
def lastItems {α : Type} (n : Nat) (items : List α) : List α := items.drop (items.length - n)

variable (S : Setting)

def Code.normalized (r : Code) : Code :=
  { r with note := takeText 120 (S.chars.strip r.note), uses := lastItems maxUseHistory r.uses }

/-- `_normalize_data`. -/
def normalizeData (d : Data) : Data := { d with codes := d.codes.mapValues (Code.normalized S) }

/-- `_mutate`: a call that raises leaves the document as it was. -/
def mutate {α : Type} (mutator : Data → Except String (α × Data)) (d : Data) :
    Except String α × Data :=
  match mutator (normalizeData S d) with
  | .ok (answer, d') => (.ok answer, d')
  | .error text => (.error text, d)

/-- `counts` of `invitation_state`. -/
structure Counts where
  total : Nat
  uses : Nat
  deriving DecidableEq

def counts (d : Data) : Counts := ⟨d.codes.size, d.codes.total Code.useCount⟩

def setRegistrationRequired (required : Bool) : Data → Except String Counts × Data :=
  mutate S fun d => .ok (counts d, { d with required })

/-- The loop of `generate_codes`, over the codes and ids that are drawn. -/
def drawCodes (now note : String) : Nat → List (String × String) → Codes → List Code × Codes
  | 0, _, codes => ([], codes)
  | _, [], codes => ([], codes)
  | count + 1, (code, id) :: draws, codes =>
    if codes.contains (S.digest code) then drawCodes now note (count + 1) draws codes
    else
      let record : Code := { id, code, codeHash := S.digest code, createdAt := now, note }
      let rest := drawCodes now note count draws (codes.set (S.digest code) record)
      (record :: rest.1, rest.2)

def generateCodes (now : String) (draws : List (String × String)) (count length : Int)
    (note : String) (d : Data) : Except String (List Code) × Data :=
  if count < 1 ∨ 200 < count then (.error countInvalid, d)
  else if length < minCodeLength ∨ maxCodeLength < length then (.error lengthInvalid, d)
  else
    mutate S (fun d =>
      let drawn := drawCodes S now (takeText 120 (S.chars.strip note)) count.toNat draws d.codes
      .ok (drawn.1, { d with codes := drawn.2 })) d

/-- What `reserve_code` returns: the digest, as the id of the reservation, and the code. -/
def reserveCode (code : String) (d : Data) : Except String (String × String) × Data :=
  if (S.normalize code).length < minCodeLength then (.error codeInvalid, d)
  else
    mutate S (fun d =>
      let codeHash := S.digest (S.normalize code)
      match d.codes.get? codeHash with
      | none => .error codeInvalid
      | some record => .ok ((codeHash, record.code), d)) d

def Code.used (use : Use) (r : Code) : Code :=
  { r with
    useCount := r.useCount + 1
    lastUsedAt := use.usedAt
    lastUsedBy := use.userId
    lastUsedUsername := use.username
    uses := lastItems maxUseHistory (r.uses ++ [use]) }

def useOf (now userId username : String) : Use := ⟨now, userId, takeText 80 username⟩

def completeReservation (reservationId : String) (use : Use) : Data → Except String Unit × Data :=
  mutate S fun d =>
    match d.codes.get? reservationId with
    | none => .ok ((), d)
    | some record => .ok ((), { d with codes := d.codes.set reservationId (record.used use) })

/-- The first code with an id. -/
def findCode (codeId : String) (codes : Codes) : Option (String × Code) :=
  codes.items.find? fun item => item.2.id = S.chars.strip codeId

def deleteCode (codeId : String) (d : Data) : Except String (Option Code) × Data :=
  if S.chars.strip codeId = "" then (.ok none, d)
  else
    mutate S (fun d =>
      match findCode S codeId d.codes with
      | none => .ok (none, d)
      | some (codeHash, record) =>
        if d.required ∧ d.codes.size ≤ 1 then .error lastCode
        else .ok (some record, { d with codes := d.codes.erase codeHash })) d

def updateCodeNote (codeId note : String) (d : Data) : Except String (Option Code) × Data :=
  if S.chars.strip codeId = "" then (.ok none, d)
  else
    mutate S (fun d =>
      match findCode S codeId d.codes with
      | none => .ok (none, d)
      | some (codeHash, record) =>
        let record := { record with note := takeText 120 (S.chars.strip note) }
        .ok (some record, { d with codes := d.codes.set codeHash record })) d

/-! ### Registrations -/

/-- The code of a registration, if it has one, as `client_register` looks it up. -/
def invitation (code : String) (d : Data) : Except String (Option String) × Data :=
  if (normalizeData S d).required ∧ S.chars.strip code = "" then (.error codeMissing, d)
  else if S.chars.strip code = "" then (.ok none, d)
  else
    let reserved := reserveCode S (S.chars.strip code) d
    (reserved.1.map fun reservation => some reservation.1, reserved.2)

/-- A registration under way. -/
structure Registration where
  /-- Whether a code was required when it began. -/
  required : Bool
  invitation : Option String
  /-- The id and the name of the user, once it is created. -/
  user : Option (String × String) := none

/-- A user that was created, and the code it came with. -/
structure Registered where
  userId : String
  username : String
  invitation : Option String

inductive Event
  | setRequired (required : Bool)
  | generate (now : String) (draws : List (String × String)) (count length : Int) (note : String)
  | delete (codeId : String)
  | note (codeId note : String)
  | start (call code : String)
  /-- The user is created. -/
  | create (call userId username : String)
  /-- The use is counted. -/
  | complete (call now : String)
  /-- The registration raises, before or after the user is created. -/
  | fail (call : String)

structure World where
  data : Data := {}
  calls : Dict String Registration := .empty
  registered : List Registered := []
  /-- The uses of a code since it was generated, by its digest. -/
  since : String → List Use := fun _ => []

def World.counted (use : Use) (w : World) : Option String → World
  | none => w
  | some codeHash =>
    { w with
      data := (completeReservation S codeHash use w.data).2
      since := Function.update w.since codeHash (w.since codeHash ++ [use]) }

def step : Event → World → World
  | .setRequired required, w => { w with data := (setRegistrationRequired S required w.data).2 }
  | .generate now draws count length note, w =>
    match generateCodes S now draws count length note w.data with
    | (.ok created, data) =>
      { w with
        data
        since := fun codeHash => if created.any (·.codeHash = codeHash) then [] else w.since codeHash }
    | (.error _, data) => { w with data }
  | .delete codeId, w => { w with data := (deleteCode S codeId w.data).2 }
  | .note codeId note, w => { w with data := (updateCodeNote S codeId note w.data).2 }
  | .start call code, w =>
    match invitation S code w.data with
    | (.ok invitation, data) =>
      if w.calls.contains call then { w with data }
      else
        { w with data, calls := w.calls.set call ⟨(normalizeData S w.data).required, invitation, none⟩ }
    | (.error _, data) => { w with data }
  | .create call userId username, w =>
    match w.calls.get? call with
    | some ⟨required, invitation, none⟩ =>
      { w with
        calls := w.calls.set call ⟨required, invitation, some (userId, username)⟩
        registered := ⟨userId, username, invitation⟩ :: w.registered }
    | _ => w
  | .complete call now, w =>
    match w.calls.get? call with
    | some ⟨_, invitation, some (userId, username)⟩ =>
      { w.counted S (useOf now userId username) invitation with calls := w.calls.erase call }
    | _ => w
  | .fail call, w => { w with calls := w.calls.erase call }

end FetchTask.InvitationCodes
