import LedgerBook.Address
import LedgerBook.Bcs.Writer
import LedgerBook.Text.Base64
/-!
Names of dynamic fields. A name is a value of some type, given by the type and the serialized value;
the names of an order book's parts are the values of key types without fields.
-/
namespace LedgerBook

/-- The name of a dynamic field. -/
structure FieldName where
  type : Text
  bcs : Bytes
  deriving DecidableEq, Repr

namespace FieldName

def toJson (name : FieldName) : Json :=
  .obj [("type", .str name.type), ("bcs", .str (Base64.encode name.bcs))]

/-- A key type without fields is stored as if it had one, the truth value false. -/
def emptyKey : Bytes := [0]

/-- The name of the key type that a package declares under a name. -/
def key (package : Json) (struct : Text) : Except Failure FieldName := do
  let address ← Address.canonical package
  return ⟨address ++ "::keys::" ++ struct, emptyKey⟩

def orderbook (package : Json) : Except Failure FieldName :=
  key package "Orderbook"

def asksMap (package : Json) : Except Failure FieldName :=
  key package "AsksMap"

def bidsMap (package : Json) : Except Failure FieldName :=
  key package "BidsMap"

end FieldName

end LedgerBook
