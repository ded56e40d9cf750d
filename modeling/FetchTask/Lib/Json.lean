import Mathlib.Data.List.Basic

/-!
JSON values as the language has them.

An object is the list of its members in order, and the truth of a value is the one
that `if`, `or` and `any` look at.
-/

namespace FetchTask

inductive Json
  | null
  | bool (b : Bool)
  | number (literal : String) (zero : Bool)
  | text (s : String)
  | array (items : List Json)
  | object (members : List (String × Json))

namespace Json

/-- `bool(value)`. -/
def truthy : Json → Bool
  | .null => false
  | .bool b => b
  | .number _ zero => !zero
  | .text s => s != ""
  | .array items => !items.isEmpty
  | .object members => !members.isEmpty

/-- `isinstance(value, dict)`, with its members. -/
def members? : Json → Option (List (String × Json))
  | .object members => some members
  | _ => none

/-- `value.get(key)` of an object. -/
def get? (value : Json) (key : String) : Option Json :=
  value.members?.bind fun members => (members.find? fun m => m.1 == key).map Prod.snd

/-- `value.get(key, default)`. -/
def getD (value : Json) (key : String) (default : Json) : Json := (value.get? key).getD default

/-- `str(value or "")`, where `str` is that of a value that is no text. -/
def textOf (str : Json → String) (value : Option Json) : String :=
  match value with
  | none => ""
  | some (.text s) => s
  | some value => if value.truthy then str value else ""

mutual

/-- Every text in the value, the keys among them, passes `p`, and every number passes `q`. -/
def all (p q : String → Bool) : Json → Bool
  | .null => true
  | .bool _ => true
  | .number literal _ => q literal
  | .text s => p s
  | .array items => allItems p q items
  | .object members => allMembers p q members

def allItems (p q : String → Bool) : List Json → Bool
  | [] => true
  | value :: values => value.all p q && allItems p q values

def allMembers (p q : String → Bool) : List (String × Json) → Bool
  | [] => true
  | (key, value) :: members => p key && value.all p q && allMembers p q members

end

@[simp] theorem truthy_object_cons (m : String × Json) (members : List (String × Json)) :
    (object (m :: members)).truthy = true := rfl

end Json

end FetchTask
