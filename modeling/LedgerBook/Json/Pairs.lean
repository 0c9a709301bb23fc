import LedgerBook.Json.Number
/-!
Members given in other ways than by an object: by pairs of a name and a value. A pair is whatever a
loop goes through in two steps.
-/
namespace LedgerBook.Json

/-- Whether a value can be a name. Containers cannot. -/
def canName : Json → Bool
  | arr _ => false
  | obj _ => false
  | _ => true

/-- Adds a pair to members. Nothing asks for names that are no texts, and so they are left out. -/
def Members.putPair (members : Members) (pair : Json) : Except Failure Members := do
  match ← pair.elements with
  | [name, value] =>
    if !name.canName then throw .wrongKind
    match name with
    | str name => return members.put name value
    | _ => return members
  | _ => throw .notPair

/-- The members that a value gives: those of an object, or those of pairs. A value that does not
count as given has none. -/
def toMembers (value : Json) : Except Failure Members :=
  if value.isTruthy then
    match value with
    | obj members => return members
    | other => do (← other.elements).foldlM Members.putPair []
  else return []

end LedgerBook.Json
