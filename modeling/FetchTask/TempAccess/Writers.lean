import FetchTask.TempAccess.Conservation

/-!
The other functions that write token entries, and the two that read a token.

`getTempContext` answers from the fields `limit` and `used`, which every change
of a balance computes again, and `getTempContextByHash` from the balances. The
functions here end as the source does: some build their answer after the file
is written, others inside the closure that Postgres runs in a transaction.
-/

namespace FetchTask.TempAccess

/-- A number of points or of video quota as it is read: no number, a number that is no
multiple of 0.1, or tenths. -/
inductive Amount
  | malformed
  | inexact
  | tenths (units : Int)
  deriving DecidableEq

def pointsToUnits : Amount → Except BillingError Int
  | .malformed => .error (.valueError "积分格式无效")
  | .inexact => .error (.valueError "积分必须为正数且精确到0.1")
  | .tenths units =>
    if units ≤ 0 then .error (.valueError "积分必须为正数且精确到0.1") else .ok units

/-- The parsing part of `adjust_temp_video_quota`. -/
def quotaChange : Amount → Except BillingError Int
  | .tenths units =>
    if units = 0 then .error (.valueError "视频额度数量不能为 0") else .ok units
  | _ => .error (.valueError "视频额度必须精确到 0.1")

/-- `hash_token`: a hexadecimal digest. -/
structure TokenHash (u : Chars) where
  hashToken : String → String
  normal : ∀ token, normalizeHash u (hashToken token) = hashToken token
  nonempty : ∀ token, hashToken token ≠ ""

section Readers

variable (u : Chars) (H : TokenHash u)

def readTokenEntry (tokenHash : String) (tokens : Tokens) : Option Entry :=
  let tokenHash := normalizeHash u tokenHash
  if tokenHash = "" then none else tokens tokenHash

def getTempContext (token : String) (tokens : Tokens) :
    Except BillingError (Option AccessContext) :=
  if token = "" then .ok none
  else
    let tokenHash := H.hashToken token
    match readTokenEntry u tokenHash tokens with
    | none => .ok none
    | some entry =>
      let limit := max 0 (orDefault entry.limit tempTokenLimit)
      let used := max 0 entry.used
      match normalizeBillingPriority u entry.billingPriority with
      | .error e => .error e
      | .ok billingPriority => .ok (some
        { tokenHash, isAdmin := false, isTemp := true
          limit, used
          remaining := max 0 (limit - used)
          concurrency := normalizeConcurrency entry.concurrency
          remoteGenerationLimit := normalizeRemoteGenerationLimit entry
          taskRetentionDays := normalizeRetentionDays entry.taskRetentionDays
          freeRemaining := entryVideoQuotaUnits entry
          videoQuotaUnits := entryVideoQuotaUnits entry
          creditUnits := max 0 entry.creditUnits
          billingPriority })

def getTempContextByHash (tokenHash : String) (tokens : Tokens) :
    Except BillingError (Option AccessContext) :=
  match readTokenEntry u tokenHash tokens with
  | none => .ok none
  | some entry => (getTempContextFromEntry u (normalizeHash u tokenHash) entry).map some

end Readers

/-! ### Closures -/

/-- The closure of `deduct_temp_points`, up to where the answer is built. -/
def deducted (freeLimit units : Int) (now : String) (entry : Entry) : Except BillingError Entry :=
  match migrateEntry entry freeLimit with
  | .error e => .error e
  | .ok entry =>
    if entry.creditUnits < units then .error (.valueError "用户积分不足")
    else
      let entry := syncLegacyFields { entry with creditUnits := entry.creditUnits - units }
      .ok { entry with updatedAt := now }

/-- The closure of `adjust_temp_video_quota`, up to where the answer is built. -/
def adjusted (freeLimit changeUnits : Int) (now : String) (entry : Entry) :
    Except BillingError Entry :=
  match migrateEntry entry freeLimit with
  | .error e => .error e
  | .ok entry =>
    let currentUnits := entryVideoQuotaUnits entry
    if currentUnits + changeUnits < 0 then .error (.valueError "用户视频额度不足")
    else
      let entry := syncLegacyFields (setEntryVideoQuotaUnits entry (currentUnits + changeUnits))
      .ok { entry with updatedAt := now }

/-- The closure of `purchase_temp_membership`, up to where the answer is built. -/
def purchased (freeLimit units bonusFreeUses concurrency : Int) (now : String) (entry : Entry) :
    Except BillingError Entry :=
  match migrateEntry entry freeLimit with
  | .error e => .error e
  | .ok entry =>
    if entry.creditUnits < units then .error (.valueError "用户积分不足")
    else
      let bonus := max 0 bonusFreeUses
      let entry := { entry with creditUnits := entry.creditUnits - units }
      let entry := setEntryVideoQuotaUnits entry (entryVideoQuotaUnits entry + bonus * pointScale)
      let entry := { entry with concurrency := max 1 (min maxTempTokenConcurrency concurrency) }
      .ok { syncLegacyFields entry with updatedAt := now }

/-! ### Writers -/

section Writers

variable (u : Chars) (b : Backend) (H : TokenHash u)

/-- Change one entry and answer with what is public of it. -/
def changeToken (tokenHash : String) (change : Entry → Except BillingError Entry)
    (tokens : Tokens) : Except BillingError PublicToken × Tokens :=
  let tokenHash := normalizeHash u tokenHash
  match tokens tokenHash with
  | none => (.error (.keyError "token not found"), tokens)
  | some entry =>
    match change entry with
    | .error e => (.error e, tokens)
    | .ok entry' => answer b tokens tokenHash entry' (publicToken u tokenHash entry')

def deductTempPoints (tokenHash : String) (freeLimit : Int) (amount : Amount) (now : String)
    (tokens : Tokens) : Except BillingError PublicToken × Tokens :=
  match pointsToUnits amount with
  | .error e => (.error e, tokens)
  | .ok units => changeToken u b tokenHash (deducted freeLimit units now) tokens

/-- The answer is built in the closure, so that nothing is written when that fails. -/
def adjustTempVideoQuota (tokenHash : String) (freeLimit : Int) (amount : Amount) (now : String)
    (tokens : Tokens) : Except BillingError PublicToken × Tokens :=
  match quotaChange amount with
  | .error e => (.error e, tokens)
  | .ok changeUnits =>
    changeToken u .postgres tokenHash (adjusted freeLimit changeUnits now) tokens

/-- The answer is built in the closure here too. -/
def purchaseTempMembership (tokenHash : String) (freeLimit : Int) (pointsCost : Amount)
    (bonusFreeUses concurrency : Int) (now : String) (tokens : Tokens) :
    Except BillingError PublicToken × Tokens :=
  match pointsToUnits pointsCost with
  | .error e => (.error e, tokens)
  | .ok units =>
    changeToken u .postgres tokenHash (purchased freeLimit units bonusFreeUses concurrency now)
      tokens

/-- `migrate_temp_token`: whether the entry was migrated. -/
def migrateTempToken (tokenHash : String) (freeLimit : Int) (now : String) (tokens : Tokens) :
    Except BillingError Bool × Tokens :=
  let tokenHash := normalizeHash u tokenHash
  match tokens tokenHash with
  | none => (.ok false, tokens)
  | some entry =>
    match migrateEntry entry freeLimit with
    | .error e => (.error e, tokens)
    | .ok entry' =>
      if 3 ≤ entry.billingVersion then (.ok false, tokens)
      else (.ok true, Function.update tokens tokenHash (some { entry' with updatedAt := now }))

/-- A new entry of `create_temp_tokens`. -/
def createdEntry (token : String) (limit concurrency : Int) (remark : String)
    (taskRetentionDays : Int) (now : String) : Entry where
  token := token
  remark := remark
  note := ""
  billingVersion := 3
  creditUnits := 0
  videoQuotaUnits := some (limit * pointScale)
  freeRemaining := some (limit * pointScale).toNat
  limit := limit
  used := 0
  concurrency := concurrency
  remoteGenerationLimit := 0
  taskRetentionDays := taskRetentionDays
  billingPriority := ""
  reservations := .empty
  quotaRefundIds := []
  createdAt := now
  updatedAt := ""

/-- `f"tmp_{...}"` of a drawn `secrets.token_urlsafe(24)`. -/
def newToken (drawn : String) : String := "tmp_" ++ drawn

/-- The loop of `create_temp_tokens`: a token whose hash is taken is drawn again. `none` when
the loop is not through with the tokens that are drawn. -/
def addTokens (make : String → Entry) :
    Nat → List String → Tokens → Option (List (String × Entry) × Tokens)
  | 0, _, tokens => some ([], tokens)
  | _ + 1, [], _ => none
  | n + 1, drawn :: draws, tokens =>
    let token := newToken drawn
    let tokenHash := H.hashToken token
    if (tokens tokenHash).isSome then addTokens make (n + 1) draws tokens
    else
      (addTokens make n draws (Function.update tokens tokenHash (some (make token)))).map
        fun rest => ((tokenHash, make token) :: rest.1, rest.2)

def createTempTokens (count limit concurrency : Int) (remark : String) (taskRetentionDays : Int)
    (draws : List String) (now : String) (tokens : Tokens) :
    Option (Except BillingError (List PublicToken) × Tokens) :=
  let make token := createdEntry token (max 1 (min 100000 limit))
    (max 1 (min maxTempTokenConcurrency concurrency)) (takeText 100 remark)
    (normalizeRetentionDays taskRetentionDays) now
  (addTokens u H make (max 1 (min 200 count)).toNat draws tokens).map fun created =>
    match created.1.mapM fun item => publicToken u item.1 item.2 with
    | .error e => (.error e, tokens)
    | .ok items => (.ok items, created.2)

/-- A token whose hash is taken is drawn again; `none` when all that are drawn are taken. -/
def rotateTempToken (tokenHash : String) (draws : List String) (now : String) (tokens : Tokens) :
    Option (Except BillingError PublicToken × Tokens) :=
  let tokenHash := normalizeHash u tokenHash
  match tokens tokenHash with
  | none => some (.error (.keyError "token not found"), tokens)
  | some entry =>
    (draws.find? fun drawn => (tokens (H.hashToken (newToken drawn))).isNone).map fun drawn =>
      let newHash := H.hashToken (newToken drawn)
      let replacement := { entry with token := newToken drawn, updatedAt := now }
      (publicToken u newHash replacement,
        Function.update (Function.update tokens newHash (some replacement)) tokenHash none)

def deleteTempToken (tokenHash : String) (tokens : Tokens) : Bool × Tokens :=
  let tokenHash := normalizeHash u tokenHash
  ((tokens tokenHash).isSome, Function.update tokens tokenHash none)

end Writers

end FetchTask.TempAccess
