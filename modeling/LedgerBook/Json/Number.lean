import LedgerBook.Failure
/-!
Values where a number is wanted: truth values are one and zero, texts are read, and arrays, objects
and null are refused.
-/
namespace LedgerBook.Json

def boolInt (value : Bool) : Int :=
  if value then 1 else 0

/-- The integer that a value denotes; a floating-point number loses its fraction. -/
def toInt : Json → Except Failure Int
  | bool value => return boolInt value
  | int value => return value
  | float value => match value.view with
    | .nan => throw .notNumeric
    | .infinite _ => throw .outOfRange
    | .finite negative significand exponent =>
      return Binary64.truncated negative significand exponent
  | str text => match Numeral.integer? text with
    | some value => return value
    | none => throw .notNumeric
  | _ => throw .wrongKind

/-- The floating-point number nearest to an integer, unless it is infinite. -/
def floatOfInt (value : Int) : Except Failure Binary64 :=
  let nearest := Binary64.ofInt value
  if nearest.isInfinite then throw .outOfRange else return nearest

def toBinary64 : Json → Except Failure Binary64
  | bool value => floatOfInt (boolInt value)
  | int value => floatOfInt value
  | float value => return value
  | str text => match Numeral.binary64? text with
    | some value => return value
    | none => throw .notNumeric
  | _ => throw .wrongKind

/-- Whether a number is zero or below; only numbers and truth values can be compared with zero. -/
def isAtMostZero : Json → Except Failure Bool
  | bool value => return !value
  | int value => return decide (value ≤ 0)
  | float value => return value.isAtMostZero
  | _ => throw .wrongKind

/-- The values that a loop over a value goes through: the items of an array, the names of an object
and the code points of a text. -/
def elements : Json → Except Failure (List Json)
  | arr items => return items
  | obj members => return members.map fun member => str member.1
  | str text => return text.map fun point => str [point]
  | _ => throw .wrongKind

end LedgerBook.Json
