import Mathlib.Logic.Function.Basic

/-!
What the program takes from its language and its surroundings: the string
methods whose character tables are not spelled out here, and the two places
where it keeps its documents.
-/

namespace FetchTask

/-- The string methods of the language whose tables are not spelled out here. -/
structure Chars where
  lower : String → String
  isSpace : Char → Bool
  isDigit : Char → Bool

/-- `str.strip()`. -/
def Chars.strip (u : Chars) (s : String) : String :=
  String.ofList ((s.toList.dropWhile u.isSpace).reverse.dropWhile u.isSpace).reverse

/-- The characters that `str.strip` takes for white space. -/
def isStrSpace (c : Char) : Bool :=
  let n := c.toNat
  (9 ≤ n && n ≤ 13) || (28 ≤ n && n ≤ 32) || n == 0x85 || n == 0xa0 || n == 0x1680 ||
    (0x2000 ≤ n && n ≤ 0x200a) || n == 0x2028 || n == 0x2029 || n == 0x202f || n == 0x205f ||
    n == 0x3000

/-- `s[:n]`. -/
def takeText (n : Nat) (s : String) : String := String.ofList (s.toList.take n)

/-- `s or d` on texts. -/
def textOr (s d : String) : String := if s = "" then d else s

/-- The tables on ASCII letters, blanks and digits. -/
def Chars.ascii : Chars where
  lower s := String.ofList (s.toList.map Char.toLower)
  isSpace := Char.isWhitespace
  isDigit := Char.isDigit

/-- A text as its code points, where surrogates have to be told from characters. -/
abbrev Text := List Nat

def textOf (s : String) : Text := s.toList.map Char.toNat

/-- The text can be encoded and written to a file: no code point of it is a surrogate. -/
def encodable (t : Text) : Bool := t.all fun c => !(0xd800 ≤ c && c ≤ 0xdfff)

/-- `x or d` on numbers. -/
def orDefault (x d : Int) : Int := if x = 0 then d else x

/-- `int(x)` of an exact number. -/
def truncate (q : Rat) : Int := q.num.tdiv q.den

/-- A computation that returns has returned from each of its parts. -/
theorem bind_ok {ε α β : Type} {x : Except ε α} {f : α → Except ε β} {b : β}
    (h : x >>= f = .ok b) : ∃ a, x = .ok a ∧ f a = .ok b := by
  cases x with
  | error e => cases h
  | ok a => exact ⟨a, rfl, h⟩

theorem map_ok {ε α β : Type} {x : Except ε α} {f : α → β} {b : β} (h : x.map f = .ok b) :
    ∃ a, x = .ok a ∧ f a = b := by
  cases x with
  | error e => cases h
  | ok a => exact ⟨a, rfl, Except.ok.inj h⟩

/-- `postgres.enabled()` decides between a database and JSON files. -/
inductive Backend
  | jsonFile
  | postgres
  deriving DecidableEq

end FetchTask
