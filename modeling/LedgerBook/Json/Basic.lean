import LedgerBook.Number.Binary64
import LedgerBook.Text.Basic
/-!
JSON values. Whole numbers and floating-point numbers are different kinds, because they are written
differently; the members of an object keep the order in which their names first came.
-/
namespace LedgerBook

inductive Json
  | null
  | bool (value : Bool)
  | int (value : Int)
  | float (value : Binary64)
  | str (text : Text)
  | arr (items : List Json)
  | obj (members : List (Text × Json))
  deriving Inhabited, Repr

namespace Json

/-- The members of an object, by name. -/
abbrev Members := List (Text × Json)

inductive Kind
  | null | bool | int | float | str | arr | obj
  deriving DecidableEq, Repr

def kind : Json → Kind
  | null => .null
  | bool _ => .bool
  | int _ => .int
  | float _ => .float
  | str _ => .str
  | arr _ => .arr
  | obj _ => .obj

def Kind.name : Kind → String
  | .null => "NoneType"
  | .bool => "bool"
  | .int => "int"
  | .float => "float"
  | .str => "str"
  | .arr => "list"
  | .obj => "dict"

/-- Whether a value counts as given: null, false, zero and everything empty do not. -/
def isTruthy : Json → Bool
  | null => false
  | bool value => value
  | int value => value != 0
  | float value => !value.isZero
  | str text => !text.isEmpty
  | arr items => !items.isEmpty
  | obj members => !members.isEmpty

def isNull : Json → Bool
  | null => true
  | _ => false

/-- The value itself, or another one if it does not count as given. -/
def orElse (value other : Json) : Json :=
  if value.isTruthy then value else other

namespace Members

/-- The value of a name, null if there is no such name. -/
def get (members : Members) (name : Text) : Json :=
  (members.lookup name).getD null

/-- Gives a name a value: in its place if the name is there, else at the end. -/
def put (members : Members) (name : Text) (value : Json) : Members :=
  if members.any (·.1 == name) then
    members.map fun member => if member.1 == name then (name, value) else member
  else members ++ [(name, value)]

def present (members : Members) : Members :=
  members.filter fun member => !member.2.isNull

end Members

/-- The member of an object, null for everything else. -/
def member (value : Json) (name : Text) : Json :=
  match value with
  | obj members => Members.get members name
  | _ => null

/-- A value that may be missing, null if it is. -/
def ofOption {α : Type} (encode : α → Json) : Option α → Json
  | some value => encode value
  | none => null

end Json

end LedgerBook
