import LedgerBook.Failure
import LedgerBook.Text.Blank
/-!
Addresses of objects and packages: numbers of 64 hexadecimal digits. People may leave out the marker
and leading zeros; the canonical text has both.
-/
namespace LedgerBook

/-- The address of an object or package. -/
structure Address where
  value : Nat
  lt_limit : value < Nat.pow 16 64
  deriving DecidableEq

namespace Address

/-- The number of digits of an address. -/
def width : Nat := 64

def marker : List Char := ['0', 'x']

/-- The digits of a text, with or without the marker in front of them. -/
def digitsOf : List Char → List Char
  | '0' :: 'x' :: digits => digits
  | digits => digits

/-- The address that a text writes: one to 64 hexadecimal digits in either case. -/
def ofChars? (cs : List Char) : Option Address := do
  let digits := digitsOf cs
  if digits.isEmpty || width < digits.length then none
  else
    let value ← Text.hexValue? digits
    if lt_limit : value < Nat.pow 16 64 then some ⟨value, lt_limit⟩ else none

/-- The canonical text of an address: the marker and all of its digits in lower case. -/
def toChars (address : Address) : List Char :=
  marker ++ Text.hexDigits width address.value

def toText (address : Address) : String :=
  String.ofList address.toChars

/-- The address that a value gives, with blanks around it; a value that does not count as given is
no address. -/
def ofJson (given : Json) : Except Failure Address :=
  match ofChars? (Text.strip (given.orElse (.str "")).text).chars with
  | some address => return address
  | none => throw (.address given)

/-- The canonical text of the address that a value gives. -/
def canonical (given : Json) : Except Failure String :=
  toText <$> ofJson given

end Address

end LedgerBook
