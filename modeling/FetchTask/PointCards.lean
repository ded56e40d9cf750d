import FetchTask.Lib.Dict
import FetchTask.Lib.Prog
import FetchTask.TempAccess

/-!
Point cards (`app/point_cards.py`).

All cards are one document, keyed by the digest of their code. A call reads it,
changes what it has read, and writes it back, each in a transaction of its own;
the lock around a call is local to its process. A redemption writes three times,
around the credit to the balance of the user. Calls of any number of processes
run at once.
-/

namespace FetchTask.PointCards

open TempAccess

structure Card where
  id : String
  codeHash : String
  code : String
  codeHint : String
  pointsUnits : Int
  status : String
  note : String
  createdAt : String
  redeemedAt : String := ""
  redeemedBy : String := ""
  redeemedUsername : String := ""
  deriving DecidableEq

/-- The document; `none` stands for a stored value that is no object. -/
abbrev Cards := Dict String (Option Card)

structure Setting where
  chars : Chars
  /-- The alphanumeric characters of the text in upper case. -/
  normalize : String → String
  /-- `hashlib.sha256(text.encode("ascii")).hexdigest()`; a text that is not ASCII raises. -/
  sha256 : String → Except String String

/-- `_digest`. -/
def Setting.digest (S : Setting) (code : String) : Except String String := S.sha256 (S.normalize code)

/-- What a write means to do, by the digests of its cards. -/
inductive Change
  | generate (digests : List String)
  | delete (digests : List String)
  /-- `status = "redeeming"`. -/
  | take (digest : String)
  /-- The credit failed: `status = "unused"`. -/
  | giveBack (digest : String)
  /-- `status = "redeemed"`. -/
  | settle (digest : String)

def Change.digests : Change → List String
  | .generate digests | .delete digests => digests
  | .take digest | .giveBack digest | .settle digest => [digest]

/-! ### The shared state -/

/-- The document and the balances, and what has happened to the cards in this run. -/
structure Store where
  cards : Cards
  tokens : Tokens
  /-- The cards whose points were added to a balance, once for each time. -/
  credited : List String := []
  /-- The cards whose redemption has begun and has not been taken back. -/
  taken : List String := []
  /-- The cards that a completed `generate_cards` has returned. -/
  returned : List String := []
  deleted : List String := []
  /-- The cards whose redemption has returned. -/
  redeemed : List String := []

def Change.record : Change → Store → Store
  | .generate digests, s => { s with returned := digests ++ s.returned }
  | .delete digests, s => { s with deleted := digests ++ s.deleted }
  | .take digest, s => { s with taken := digest :: s.taken }
  | .giveBack digest, s => { s with taken := s.taken.filter (· ≠ digest) }
  | .settle digest, s => { s with redeemed := digest :: s.redeemed }

inductive Op
  | now
  /-- `_new_code()` and `secrets.token_hex(12)`. -/
  | newCode
  | read
  | write (cards : Cards) (change : Change)
  /-- `add_temp_credit_units`, for the card with this digest. -/
  | addCredit (digest tokenHash : String) (units : Int)

abbrev Op.Res : Op → Type
  | .now => String
  | .newCode => String × String
  | .read => Cards
  | .write .. => Unit
  | .addCredit .. => Except BillingError PublicToken

abbrev CardSig : Sig := ⟨Op, Op.Res⟩

/-- What the surroundings contribute to a step. -/
structure Env where
  now : String := ""
  code : String := ""
  id : String := ""

def handle (S : Setting) (e : Env) : (o : Op) → Store → o.Res × Store
  | .now, s => (e.now, s)
  | .newCode, s => ((e.code, e.id), s)
  | .read, s => (s.cards, s)
  | .write cards change, s => ((), change.record { s with cards := cards })
  | .addCredit digest tokenHash units, s =>
    match addTempCreditUnits S.chars .postgres tokenHash units e.now s.tokens with
    | (.ok token, tokens) => (.ok token, { s with tokens := tokens, credited := digest :: s.credited })
    | (.error e, tokens) => (.error e, { s with tokens := tokens })

/-! ### Calls -/

/-- A call: a program of operations that may end with an exception. -/
abbrev Run (α : Type) := ExceptT String (Prog CardSig) α

def op (o : Op) : Run o.Res := (Prog.act o fun r => .ret (.ok r) : Prog CardSig (Except String o.Res))

def raised {α : Type} : Except String α → Run α
  | .ok a => pure a
  | .error message => throw message

section Calls

variable (S : Setting)

/-- The record of a new card. -/
def newCard (units : Int) (note digest code id now : String) : Card where
  id := id
  codeHash := digest
  code := code
  codeHint := takeText 7 code ++ "..." ++ String.ofList (code.toList.drop (code.length - 4))
  pointsUnits := units
  status := "unused"
  note := takeText 120 (S.chars.strip note)
  createdAt := now

/-- The loop of `generate_cards`: the document with the new cards, and their digests. -/
def newCards (units : Int) (note : String) : Nat → Cards → Run (Cards × List String)
  | 0, cards => pure (cards, [])
  | count + 1, cards => do
    let (code, id) ← op .newCode
    let digest ← raised (S.digest code)
    let now ← op .now
    let (cards, digests) ← newCards units note count
      (cards.set digest (some (newCard S units note digest code id now)))
    return (cards, digest :: digests)

/-- `generate_cards`; `units` is what `points_to_units` makes of its first argument. -/
def generateCards (units count : Int) (note : String) : Run Unit := do
  if count < 1 ∨ 200 < count then
    throw "生成数量需为 1-200"
  let cards ← op .read
  let (cards, digests) ← newCards S units note count.toNat cards
  op (.write cards (.generate digests))

/-- Write the document without these cards, unless there is none of them. -/
def removeCards (cards : Cards) (isDeleted : String × Option Card → Bool) : Run Unit :=
  let deletedKeys := (cards.items.filter isDeleted).map Prod.fst
  if deletedKeys = [] then pure ()
  else op (.write (cards.filter fun item => !isDeleted item) (.delete deletedKeys))

/-- `delete_cards`. -/
def deleteCards (cardIds : List String) (status : String) : Run Unit := do
  let selectedIds := (cardIds.map S.chars.strip).filter (· ≠ "")
  let normalizedStatus := S.chars.lower (S.chars.strip status)
  if normalizedStatus ≠ "" ∧ normalizedStatus ∉ ["unused", "redeemed"] then
    throw "卡密状态无效"
  if selectedIds = [] ∧ normalizedStatus = "" then
    throw "请选择要删除的卡密"
  let cards ← op .read
  let isDeleted := fun (item : String × Option Card) => item.2.any fun card =>
    decide (card.id ∈ selectedIds ∨ (normalizedStatus ≠ "" ∧ card.status = normalizedStatus))
  removeCards cards isDeleted

/-- `purge_legacy_cards`. -/
def purgeLegacyCards : Run Unit := do
  let cards ← op .read
  removeCards cards fun item =>
    item.2.all fun card => decide (S.chars.strip card.code = "")

/-- `redeem_card`. -/
def redeemCard (code userId tokenHash username : String) : Run Unit := do
  let normalized := S.normalize code
  if normalized.length < 12 then
    throw "卡密格式无效"
  let digest ← raised (S.digest normalized)
  let cards ← op .read
  match (cards.get? digest).join with
  | none => throw "card not found"
  | some card =>
    if card.status ≠ "unused" then
      throw "卡密已被使用"
    let redeeming := { card with
      status := "redeeming", redeemedBy := userId
      redeemedUsername := takeText 80 (S.chars.strip username) }
    op (.write (cards.set digest (some redeeming)) (.take digest))
    let credited ← op (.addCredit digest tokenHash card.pointsUnits)
    match credited with
    | .error _ =>
      op (.write (cards.set digest (some
        { card with status := "unused", redeemedBy := "", redeemedUsername := "" })) (.giveBack digest))
      throw "credit failed"
    | .ok _ =>
      let now ← op .now
      op (.write (cards.set digest (some { redeeming with status := "redeemed", redeemedAt := now }))
        (.settle digest))

end Calls

inductive Call
  | generateCards (units count : Int) (note : String)
  | deleteCards (cardIds : List String) (status : String)
  | purgeLegacyCards
  | redeemCard (code userId tokenHash username : String)

def Call.run (S : Setting) : Call → Run Unit
  | .generateCards units count note => PointCards.generateCards S units count note
  | .deleteCards cardIds status => PointCards.deleteCards S cardIds status
  | .purgeLegacyCards => PointCards.purgeLegacyCards S
  | .redeemCard code userId tokenHash username => PointCards.redeemCard S code userId tokenHash username

/-- A call ends when its program does, with or without an exception. -/
def Call.prog (S : Setting) (call : Call) : Prog CardSig Unit := do
  let _ ← (call.run S).run
  return ()

end FetchTask.PointCards
