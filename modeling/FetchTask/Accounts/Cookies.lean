import FetchTask.AccountProxies
import FetchTask.Accounts.Merging
import FetchTask.Lib.Json

/-!
Texts that accounts are imported from (`parse_cookie_payload` and
`parse_bulk_accounts`).

A text is read as JSON or as a cookie header, and the text of a bulk import is a
JSON list of accounts or has one account on each line. The parsers of the language
are parameters.
-/

namespace FetchTask.Accounts

open AccountProxies (splitMax splitLines)

/-- The functions of the language that read and write values. -/
structure Parsers extends Chars where
  /-- `json.loads`; `none` when it raises. -/
  loads : String → Option Json
  /-- `json.dumps(value, ensure_ascii=False)`. -/
  dumps : Json → String
  /-- `str(value)` of a value that is no text. -/
  str : Json → String
  /-- `int(value)`. -/
  int : Json → Except String Int
  /-- The names and values that `SimpleCookie().load` reads, in order. -/
  simpleCookie : String → Except String (List (String × String))

variable (P : Parsers)

/-! ### Cookies -/

def defaultCookieDomain (platform : String) : String :=
  if platform = "doubao" then ".doubao.com"
  else if platform = "qianwen" then ".tongyi.com"
  else ".dola.com"

/-- A positive number, as it is written. -/
def positiveNumber : Json → Option String
  | .number literal zero =>
    if zero || literal == "NaN" || literal.toList.head? == some '-' then none else some literal
  -- A truth value is a number, too.
  | .bool true => some "true"
  | _ => none

/-- The value if it is `True` or `False`. -/
def boolOf : Json → Option Bool
  | .bool b => some b
  | _ => none

def normalizeCookieItem (platform : String) (item : Json) : Option Cookie :=
  let name := P.strip (Json.textOf P.str (item.get? "name"))
  let domain := textOr (Json.textOf P.str (item.get? "domain")) (defaultCookieDomain platform)
  let path := textOr (Json.textOf P.str (item.get? "path")) "/"
  let sameSite := P.strip (textOr (Json.textOf P.str (item.get? "sameSite"))
    (Json.textOf P.str (item.get? "same_site")))
  if name = "" then none
  else some
    { name
      value := Json.textOf P.str (item.get? "value")
      domain := textOr (P.strip domain) (defaultCookieDomain platform)
      path := textOr (P.strip path) "/"
      expires := ((item.get? "expires").bind positiveNumber).getD ""
      sameSite := if sameSite ∈ ["Strict", "Lax", "None"] then sameSite else ""
      httpOnly := (item.get? "httpOnly").bind boolOf
      secure := (item.get? "secure").bind boolOf }

/-- The cookies among the items that are objects. -/
def normalizeCookies (platform : String) (items : List Json) : List Cookie :=
  (items.filter fun item => item.members?.isSome).filterMap (normalizeCookieItem P platform)

def cookieHeaderFromItems (items : List Cookie) : String :=
  "; ".intercalate ((items.filter fun c => P.strip c.name ≠ "").map fun c =>
    P.strip c.name ++ "=" ++ c.value)

def parseCookieHeader (text platform : String) : Except String (List Cookie) :=
  (P.simpleCookie text).map fun morsels =>
    (morsels.filter fun m => m.1 ≠ "").map fun m =>
      { name := m.1, value := m.2, domain := defaultCookieDomain platform, path := "/" }

def parseCookiePayload (raw platform : String) : Except String (List Cookie) :=
  let text := P.strip raw
  if text = "" then .error "cookie data is required"
  else match P.loads text with
  | some (.object members) =>
    let data := Json.object members
    match data.get? "cookies" with
    | some (.array source) => .ok (normalizeCookies P platform source)
    | _ =>
      if (data.get? "name").isSome ∧ (data.get? "value").isSome then
        .ok (normalizeCookies P platform [data])
      else .ok []
  | some (.array source) => .ok (normalizeCookies P platform source)
  | _ => do
    let items ← parseCookieHeader P text platform
    if items = [] then .error "cookie data is invalid" else .ok items

/-! ### Bulk texts -/

structure BulkRow where
  name : String
  cookieData : String
  quotaLimit : Int
  deriving DecidableEq

/-- `text.split(sep, 1)`, when `sep` occurs. -/
def splitFirst (sep : List Char) : List Char → Option (List Char × List Char)
  | [] => if sep = [] then some ([], []) else none
  | c :: cs =>
    if sep.isPrefixOf (c :: cs) then some ([], (c :: cs).drop sep.length)
    else (splitFirst sep cs).map fun p => (c :: p.1, p.2)

/-- `str.isdigit`. -/
def isDigits (text : String) : Bool := text != "" && text.toList.all P.isDigit

/-- The name, the cookie data and the quota limit of a line. -/
def splitBulkLine (line : String) : Except String (String × String × Int) :=
  let text := P.strip line
  match ["----", "\t"].findSome? fun sep => splitFirst sep.toList text.toList with
  | some (left, cookie) =>
    .ok (P.strip (String.ofList left), P.strip (String.ofList cookie), 0)
  | none =>
    match (splitMax '|' 2 text.toList).map fun part => P.strip (String.ofList part) with
    | [name, quota, cookie] =>
      if isDigits P quota then (P.int (.text quota)).map fun quota => (name, cookie, quota)
      else .ok ("", text, 0)
    | [name, cookie] => if '=' ∈ cookie.toList then .ok (name, cookie, 0) else .ok ("", text, 0)
    | _ => .ok ("", text, 0)

/-- The row of an item of a JSON list, if it is one of an account. -/
def bulkItem (defaultQuotaLimit : Int) (item : Json) : Except String (Option BulkRow) :=
  if (item.get? "cookie_data").isNone ∧ (item.get? "cookies").isNone then .ok none
  else do
    let quotaLimit ← match item.get? "quota_limit" with
      | some value => if value.truthy then P.int value else .ok defaultQuotaLimit
      | none => .ok defaultQuotaLimit
    .ok (some
      { name := P.strip (Json.textOf P.str (item.get? "name"))
        cookieData := match item.get? "cookies" with
          | some cookies => P.dumps cookies
          | none => Json.textOf P.str (item.get? "cookie_data")
        quotaLimit := max 0 quotaLimit })

/-- The row of a line; a limit of zero stands for the default. -/
def bulkLine (defaultQuotaLimit : Int) (line : String) : Except String BulkRow :=
  (splitBulkLine P line).map fun (name, cookieData, quotaLimit) =>
    { name, cookieData, quotaLimit := orDefault quotaLimit (max 0 defaultQuotaLimit) }

def parseBulkAccounts (raw : String) (defaultQuotaLimit : Int) : Except String (List BulkRow) :=
  let text := P.strip raw
  if text = "" then .error "cookie data is required"
  else do
    let listed ← match P.loads text with
      | some (.array items) => items.mapM (bulkItem P defaultQuotaLimit)
      | _ => .ok []
    let rows := listed.filterMap id
    if rows ≠ [] then .ok rows
    else do
      let lines := ((splitLines [] text.toList).map P.strip).filter (· ≠ "")
      let rows ← lines.mapM (bulkLine P defaultQuotaLimit)
      if rows = [] then .error "cookie data is invalid" else .ok rows

end FetchTask.Accounts
