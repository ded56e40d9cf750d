import FetchTask.Lib.Dict
import FetchTask.Runtime
import Mathlib.Data.List.Infix

/-!
The store of account proxies (`app/account_proxies.py`).

A file holds a list of proxies and the ids of those that are selected. Five
operations read it, change what they read and write it back through a temporary
file, all under one lock; a check that fails comes before the write. Without a
file the store is made of the one proxy of the old settings.

What the standard library takes apart (`urlsplit`, `unquote`, `int`,
`ip_address`, the digest of an id) is a parameter.
-/

namespace FetchTask.AccountProxies

def maxAccountProxies : Nat := 300
def maxImportBytes : Nat := 256 * 1024
def validProxyServerSchemes : List String := ["http", "https", "socks5", "socks5h"]

/-- Exceptions of the module, with their texts. -/
inductive StoreError
  | valueError (message : String)
  | runtimeError (message : String)
  | osError
  deriving DecidableEq

def storeDamaged : String := "账密代理列表数据损坏"
def badLine : String := "代理格式无效"
def badLineFormat : String := "代理格式应为 协议://用户名:密码@主机:端口"
def badPort : String := "代理端口无效"
def badAddress : String := "代理地址或端口无效"
def extraAddressParts : String := "代理地址不能包含路径、查询参数或片段"
def portOutOfRange : String := "代理端口必须在 1-65535 之间"
def missingCredentials : String := "代理用户名和密码不能为空"
def longCredentials : String := "代理用户名或密码过长"
def unknownCountry : String := "未知"

/-- What `urlsplit` finds; reading the port raises where the text is no port. -/
structure UrlParts where
  scheme : String
  hostname : Option String
  port : Option (Option Int)
  username : Option String
  password : Option String
  path : String
  query : String
  fragment : String

structure IpAddress where
  isLoopback : Bool
  isUnspecified : Bool
  isLinkLocal : Bool

/-- The functions of the standard library that the module calls; `none` is a `ValueError`. -/
structure Library extends Chars where
  isAlnum : Char → Bool
  toInt : String → Option Int
  urlsplit : String → Option UrlParts
  unquote : String → String
  ipAddress : String → Option IpAddress
  /-- `hashlib.sha256(...).hexdigest()`. -/
  sha256 : String → String

structure AccountProxy where
  id : String
  scheme : String
  host : String
  port : Int
  username : String
  password : String
  country : String
  enabled : Bool
  latencyMs : Option Int
  latencyStatus : String
  checkedAt : String
  createdAt : String

structure Settings where
  proxyAccountScheme : String
  proxyAccountHost : String
  proxyAccountPort : Int
  proxyAccountUsername : String
  proxyAccountPassword : String

structure Store where
  proxies : List AccountProxy
  selectedIds : List String
  rotationEnabled : Bool
  updatedAt : String

/-- The file of the store. -/
inductive StoreFile
  | missing
  | damaged
  | stored (store : Store)

/-- What a call finds around it: the clock, the settings, and which accesses to the file fail. -/
structure Surroundings where
  now : String
  settings : Settings
  readFails : Bool
  writeFails : Bool
  rereadFails : Bool

/-! ### Texts -/

/-- `needle in text`. -/
def containsText (needle text : String) : Bool := decide (needle.toList <:+: text.toList)

/-- `text.split(sep, n)`. -/
def splitMax (sep : Char) : Nat → List Char → List (List Char)
  | 0, cs => [cs]
  | n + 1, cs =>
    match cs.dropWhile (· ≠ sep) with
    | [] => [cs]
    | _ :: rest => cs.takeWhile (· ≠ sep) :: splitMax sep n rest

/-- `text.split(sep)`. -/
def splitAll (sep : Char) (text : String) : List String :=
  (splitMax sep text.length text.toList).map String.ofList

/-- The line boundaries of `str.splitlines`. -/
def isLineEnd (c : Char) : Bool :=
  let n := c.toNat
  (10 ≤ n && n ≤ 13) || (28 ≤ n && n ≤ 30) || n == 0x85 || n == 0x2028 || n == 0x2029

/-- `splitlines`, with the line that is being read in reverse. -/
def splitLines : List Char → List Char → List String
  | [], [] => []
  | line, [] => [String.ofList line.reverse]
  | line, '\r' :: '\n' :: cs => String.ofList line.reverse :: splitLines [] cs
  | line, c :: cs =>
    if isLineEnd c then String.ofList line.reverse :: splitLines [] cs
    else splitLines (c :: line) cs

/-- `dict.fromkeys`: the items without repetitions, in the order they first occur. -/
def fromKeys (items : List String) : List String := items.eraseDups

section Parsing

variable (L : Library)

def validateProxyApiScheme (value : String) : Except StoreError String :=
  let scheme := L.lower (L.strip (textOr value "http"))
  if scheme ∈ validProxyServerSchemes then .ok scheme
  else .error (.valueError "proxy_api_scheme must be one of http, https, socks5, socks5h")

/-- A label of a host name. -/
def validLabel (label : String) : Bool :=
  label ≠ "" && label.length ≤ 63 && label.toList.head? ≠ some '-' &&
    label.toList.getLast? ≠ some '-' && label.toList.all fun c => L.isAlnum c || c == '-'

def validateProxyAccountHost (value : Option String) : Except StoreError String :=
  let lowered := L.lower (L.strip (value.getD ""))
  let host := String.ofList (lowered.toList.reverse.dropWhile (· == '.')).reverse
  if host = "" ∨ 253 < host.length ∨
      host.toList.any (fun c => "\r\n\x00/@?#:".toList.contains c || L.isSpace c) then
    .error (.valueError "proxy_account_host is invalid")
  else if host = "localhost" ∨ ".localhost".toList <:+ host.toList then
    .error (.valueError "proxy_account_host is not allowed")
  else match L.ipAddress host with
  | none =>
    if (splitAll '.' host).all (validLabel L) then .ok host
    else .error (.valueError "proxy_account_host is invalid")
  | some address =>
    if address.isLoopback || address.isUnspecified || address.isLinkLocal then
      .error (.valueError "proxy_account_host is not allowed")
    else .ok host

def entryId (scheme host : String) (port : Int) (username password : String) : String :=
  takeText 20 (L.sha256 (String.intercalate "\x00" [scheme, host, toString port, username, password]))

def countryMarkers : List (String × List String) :=
  [("香港", [" hong kong ", " hongkong ", " hk "]),
    ("台湾", [" taiwan ", " taipei ", " tw "]),
    ("日本", [" japan ", " tokyo ", " osaka ", " jp "]),
    ("新加坡", [" singapore ", " sg "]),
    ("美国", [" united states ", " los angeles ", " san jose ", " seattle ", " us "]),
    ("韩国", [" korea ", " seoul ", " kr "]),
    ("英国", [" united kingdom ", " london ", " uk "]),
    ("德国", [" germany ", " frankfurt ", " de "]),
    ("法国", [" france ", " paris ", " fr "]),
    ("加拿大", [" canada ", " toronto ", " ca "]),
    ("澳大利亚", [" australia ", " sydney ", " au "])]

def countryFor (username host : String) : String :=
  let lowered := L.lower (" " ++ username ++ " " ++ host ++ " ")
  let searchable := String.ofList
    (lowered.toList.map fun c => if c == '_' || c == '-' then ' ' else c)
  ((countryMarkers.find? fun p => p.2.any (containsText · searchable)).map Prod.fst).getD
    unknownCountry

/-- The entry of a proxy that has just been read. -/
def newEntry (scheme host : String) (port : Int) (username password now : String) :
    AccountProxy where
  id := entryId L scheme host port username password
  scheme := scheme
  host := host
  port := port
  username := username
  password := password
  country := countryFor L username host
  enabled := true
  latencyMs := none
  latencyStatus := "untested"
  checkedAt := ""
  createdAt := now

/-- The scheme, host, port and credentials of `host:port:username:password`. -/
def parseColons (line : String) :
    Except StoreError (String × String × Int × String × String) :=
  match (splitMax ':' 3 line.toList).map String.ofList with
  | [host, rawPort, username, password] => do
    let host ← validateProxyAccountHost L (some host)
    match L.toInt rawPort with
    | none => .error (.valueError badPort)
    | some port => .ok ("socks5", host, port, username, password)
  | _ => .error (.valueError badLineFormat)

/-- The same of an address with a scheme or an `@`. -/
def parseUrl (line : String) : Except StoreError (String × String × Int × String × String) :=
  let normalized := if containsText "://" line then line else "socks5://" ++ line
  match L.urlsplit normalized with
  | none => .error (.valueError badAddress)
  | some parsed =>
    match validateProxyApiScheme L parsed.scheme, validateProxyAccountHost L parsed.hostname,
      parsed.port with
    | .ok scheme, .ok host, some port =>
      if (parsed.path ≠ "" ∧ parsed.path ≠ "/") ∨ parsed.query ≠ "" ∨ parsed.fragment ≠ "" then
        .error (.valueError extraAddressParts)
      else .ok (scheme, host, port.getD 0, L.unquote (parsed.username.getD ""),
        L.unquote (parsed.password.getD ""))
    | _, _, _ => .error (.valueError badAddress)

def parseAccountProxyLine (value now : String) : Except StoreError AccountProxy :=
  let line := L.strip value
  if line = "" ∨ 2000 < line.length ∨ line.toList.any (fun c => "\r\n\x00".toList.contains c) then
    .error (.valueError badLine)
  else do
    let (scheme, host, port, username, password) ←
      if !containsText "://" line && !containsText "@" line then parseColons L line
      else parseUrl L line
    let username := L.strip username
    if port < 1 ∨ 65535 < port then .error (.valueError portOutOfRange)
    else if username = "" ∨ password = "" then .error (.valueError missingCredentials)
    else if 300 < username.length ∨ 500 < password.length then
      .error (.valueError longCredentials)
    else .ok (newEntry L scheme host port username password now)

def legacyEntry (settings : Settings) (now : String) : Except StoreError (Option AccountProxy) :=
  if settings.proxyAccountHost = "" ∨ settings.proxyAccountPort = 0 ∨
      settings.proxyAccountUsername = "" ∨ settings.proxyAccountPassword = "" then .ok none
  else do
    let scheme ← validateProxyApiScheme L settings.proxyAccountScheme
    let host ← validateProxyAccountHost L (some settings.proxyAccountHost)
    return some (newEntry L scheme host settings.proxyAccountPort settings.proxyAccountUsername
      settings.proxyAccountPassword now)

end Parsing

/-! ### The file -/

section File

variable (L : Library)

def emptyStore (now : String) : Store where
  proxies := []
  selectedIds := []
  rotationEnabled := true
  updatedAt := now

def readStore (around : Surroundings) : StoreFile → Except StoreError Store
  | .stored store =>
    if around.readFails then .error (.runtimeError storeDamaged) else .ok store
  | .damaged => .error (.runtimeError storeDamaged)
  | .missing => do
    let store := emptyStore around.now
    match ← legacyEntry L around.settings around.now with
    | none => return store
    | some legacy => return { store with proxies := [legacy], selectedIds := [legacy.id] }

/-- A write that fails leaves the file. -/
def writeStore (around : Surroundings) (store : Store) (file : StoreFile) :
    Except StoreError Unit × StoreFile :=
  if around.writeFails then (.error .osError, file)
  else (.ok (), .stored { store with updatedAt := around.now })

structure PublicProxy where
  id : String
  name : String
  host : String
  port : Int
  protocol : String
  usernameMasked : String
  country : String
  enabled : Bool
  selected : Bool
  latencyMs : Option Int
  latencyStatus : String
  checkedAt : String

def maskedUsername (username : String) : String :=
  if 5 < username.length then
    takeText 3 username ++ "***" ++
      String.ofList (username.toList.drop (username.length - 2))
  else "***"

def publicAccountProxy (entry : AccountProxy) (selectedIds : List String) : PublicProxy where
  id := entry.id
  name := entry.host ++ ":" ++ toString entry.port
  host := entry.host
  port := entry.port
  protocol := textOr entry.scheme "socks5"
  usernameMasked := maskedUsername entry.username
  country := textOr entry.country unknownCountry
  enabled := entry.enabled
  selected := decide (entry.id ∈ selectedIds)
  latencyMs := entry.latencyMs.filter (· ≠ 0)
  latencyStatus := textOr entry.latencyStatus "untested"
  checkedAt := entry.checkedAt

structure ProxyList where
  proxies : List PublicProxy
  selectedIds : List String
  rotationEnabled : Bool

def listAccountProxies (around : Surroundings) (file : StoreFile) : Except StoreError ProxyList := do
  let store ← readStore L around file
  let selectedOrder := fromKeys (store.selectedIds.filter (· ≠ ""))
  return {
    proxies := store.proxies.map fun entry => publicAccountProxy entry selectedOrder
    selectedIds := selectedOrder
    rotationEnabled := store.rotationEnabled }

/-- The end of every operation: write the changed store and list what is there then. -/
def writeAndList (around : Surroundings) (store : Store) (file : StoreFile) :
    Except StoreError ProxyList × StoreFile :=
  match writeStore around store file with
  | (.error e, file) => (.error e, file)
  | (.ok (), file) =>
    (listAccountProxies L { around with readFails := around.rereadFails } file, file)

/-- An operation without what it answers on success: the store that it writes. -/
def changeStore (around : Surroundings) (change : Store → Except StoreError Store)
    (file : StoreFile) : Except StoreError ProxyList × StoreFile :=
  match readStore L around file with
  | .error e => (.error e, file)
  | .ok store =>
    match change store with
    | .error e => (.error e, file)
    | .ok store => writeAndList L around store file

end File

/-! ### Operations -/

section Operations

variable (L : Library)

/-- The lines of an import that are not blank, stripped. -/
def importLines (text : String) : List String :=
  ((splitLines [] text.toList).map L.strip).filter (· ≠ "")

/-- The proxies of the lines, and what is wrong with the lines that have none, with their
numbers from `index` on. -/
def parseLines (now : String) : Nat → List String → List AccountProxy × List (Nat × String)
  | _, [] => ([], [])
  | index, line :: lines =>
    let (parsed, errors) := parseLines now (index + 1) lines
    match parseAccountProxyLine L line now with
    | .ok entry => (entry :: parsed, errors)
    | .error (.valueError message) => (parsed, (index, message) :: errors)
    | .error _ => (parsed, (index, "") :: errors)

def errorPreview (errors : List (Nat × String)) : String :=
  String.intercalate "；" ((errors.take 5).map fun e => "第" ++ toString e.1 ++ "行：" ++ e.2)

/-- What an import reads from its text. -/
def parseImport (text now : String) : Except StoreError (List AccountProxy) :=
  if maxImportBytes < text.utf8ByteSize then .error (.valueError "导入内容不能超过 256KB")
  else
    let lines := importLines L text
    if lines = [] then .error (.valueError "请粘贴至少一条代理")
    else if maxAccountProxies < lines.length then .error (.valueError "单次最多导入 300 条代理")
    else match parseLines L now 1 lines with
    | (parsed, []) => .ok parsed
    | (_, errors) => .error (.valueError (errorPreview errors))

/-- The loop of `import_account_proxies` over the parsed entries. -/
def addParsed : List AccountProxy → Dict String AccountProxy → List String →
    Except StoreError (Dict String AccountProxy × List String)
  | [], existing, addedIds => .ok (existing, addedIds)
  | entry :: parsed, existing, addedIds =>
    if existing.contains entry.id then addParsed parsed existing addedIds
    else if maxAccountProxies ≤ existing.size then
      .error (.valueError "账密代理列表最多保存 300 条")
    else addParsed parsed (existing.set entry.id entry) (addedIds ++ [entry.id])

/-- The store after an import, with the ids that are new in it. -/
def imported (parsed : List AccountProxy) (store : Store) :
    Except StoreError (Store × List String) := do
  let (existing, addedIds) ← addParsed parsed (Dict.ofList AccountProxy.id store.proxies) []
  return ({ store with
    proxies := existing.items.map Prod.snd
    selectedIds := fromKeys (store.selectedIds ++ addedIds) }, addedIds)

structure ImportResult where
  list : ProxyList
  added : Nat
  addedIds : List String
  duplicates : Nat

def importAccountProxies (text : String) (around : Surroundings) (file : StoreFile) :
    Except StoreError ImportResult × StoreFile :=
  match parseImport L text around.now with
  | .error e => (.error e, file)
  | .ok parsed =>
    match readStore L around file with
    | .error e => (.error e, file)
    | .ok store =>
      match imported parsed store with
      | .error e => (.error e, file)
      | .ok (store, addedIds) =>
        let (list, file) := writeAndList L around store file
        (list.map fun list =>
          { list, addedIds
            added := addedIds.length
            duplicates := parsed.length - addedIds.length }, file)

/-- The ids of a request, stripped and without repetitions. -/
def requestedIds (proxyIds : List String) : List String :=
  fromKeys ((proxyIds.map L.strip).filter (· ≠ ""))

def selected (requested : List String) (rotationEnabled : Bool) (store : Store) :
    Except StoreError Store :=
  let available := (store.proxies.filter (·.enabled)).map (·.id)
  if requested.any (· ∉ available) then
    .error (.valueError "选择中包含不存在或已禁用的账密代理")
  else .ok { store with selectedIds := requested, rotationEnabled }

def selectAccountProxies (proxyIds : List String) (rotationEnabled : Bool) (around : Surroundings)
    (file : StoreFile) : Except StoreError ProxyList × StoreFile :=
  changeStore L around (selected (requestedIds L proxyIds) rotationEnabled) file

def enabledSet (requested : List String) (enabled : Bool) (store : Store) :
    Except StoreError Store :=
  let proxies := store.proxies.map fun entry =>
    if entry.id ∈ requested then { entry with enabled } else entry
  if requested.any (· ∉ store.proxies.map (·.id)) then .error (.valueError "部分账密代理不存在")
  else .ok { store with
    proxies
    selectedIds := if enabled then store.selectedIds
      else store.selectedIds.filter (· ∉ requested) }

def setAccountProxiesEnabled (proxyIds : List String) (enabled : Bool) (around : Surroundings)
    (file : StoreFile) : Except StoreError ProxyList × StoreFile :=
  let requested := requestedIds L proxyIds
  if requested = [] then (.error (.valueError "请选择账密代理"), file)
  else changeStore L around (enabledSet requested enabled) file

def deleted (requested : List String) (store : Store) : Except StoreError Store :=
  let proxies := store.proxies.filter (·.id ∉ requested)
  if (store.proxies.length - proxies.length) ≠ requested.length then
    .error (.valueError "部分账密代理不存在")
  else .ok { store with proxies, selectedIds := store.selectedIds.filter (· ∉ requested) }

def deleteAccountProxies (proxyIds : List String) (around : Surroundings) (file : StoreFile) :
    Except StoreError ProxyList × StoreFile :=
  let requested := requestedIds L proxyIds
  if requested = [] then (.error (.valueError "请选择账密代理"), file)
  else changeStore L around (deleted requested) file

/-- A proxy with the outcome of its check. -/
def checked (result : Bool × Option Int) (checkedAt : String) (entry : AccountProxy) :
    AccountProxy :=
  { entry with
    latencyMs := if result.1 then result.2.filter (· ≠ 0) else none
    latencyStatus := if result.1 then "available" else "unavailable"
    checkedAt }

def latenciesUpdated (results : String → Option (Bool × Option Int)) (checkedAt : String)
    (store : Store) : Store :=
  { store with proxies := store.proxies.map fun entry =>
      match results entry.id with
      | none => entry
      | some result => checked result checkedAt entry }

def updateAccountProxyLatencies (results : String → Option (Bool × Option Int))
    (around : Surroundings) (file : StoreFile) : Except StoreError ProxyList × StoreFile :=
  changeStore L around (fun store => .ok (latenciesUpdated results around.now store)) file

end Operations

end FetchTask.AccountProxies
