import LedgerBook.Json.Path
import LedgerBook.Text.Base64
/-!
Values of dynamic fields as the service sends them: a type and a serialized payload in base64. Only
one member of the union of field values is of this kind; the others are objects.
-/
namespace LedgerBook

/-- An untyped value: the text of its type and its payload in base64. -/
structure MoveValue where
  type : Text
  payload : Text
  deriving DecidableEq, Repr

namespace MoveValue

/-- The type name of serialized values in the union of field values. -/
def valueType : Text := "MoveValue"

/-- The type name of objects in the union of field values. -/
def objectType : Text := "MoveObject"

def bytes (value : MoveValue) : Except Failure Bytes :=
  let cs := value.payload.chars
  if cs.any (128 ≤ ·.toNat) then throw .base64Script
  else match Base64.decodeChars? cs with
    | some bytes => return bytes
    | none => throw .base64

/-- The text of the type: a member of the value's type, which may be missing. -/
def typeText (value : Json) : Except Failure Json :=
  let type := value.member "type"
  match type.orElse (.obj []) with
  | .obj members => return Json.Members.get members "repr"
  | _ => throw .noMembers

/-- The value in a field, if the field holds one; an object or an incomplete value is none. -/
def ofJson? (field : Json) : Except Failure (Option MoveValue) :=
  if field.hasType valueType then do
    match ← typeText field, field.member "bcs" with
    | .str type, .str payload => return some ⟨type, payload⟩
    | _, _ => return none
  else return none

end MoveValue

end LedgerBook
