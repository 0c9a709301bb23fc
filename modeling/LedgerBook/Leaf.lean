import LedgerBook.MoveValue
import LedgerBook.Order
/-!
The nodes of a remote ordered map. A leaf holds entries in ascending order of their keys and points
to the next leaf; branches hold no entries. An answer does not say which of them a payload is: what
does not decode as a leaf is passed over.
-/
namespace LedgerBook

/-- An entry of a map. -/
abbrev Entry (α : Type) := Nat × α

namespace Leaf

/-- What the type of every leaf holds between its package and the type of its values. -/
def typeName : List Char := "::ordered_map::Leaf<".toList

/-- Whether a text ends a leaf's type: one or more characters of one line and a bracket, which one
end of line may follow. -/
def isArgument (cs : List Char) : Bool :=
  let line := if cs.getLast? == some '\n' then cs.dropLast else cs
  let inner := line.dropLast
  line.getLast? == some '>' && !inner.isEmpty && inner.all (· != '\n')

def isHex (c : Char) : Bool :=
  (Text.hexDigit? c).isSome

/-- Whether the characters of a type are those of a leaf: an address of one to 64 digits with its
marker, the name of leaves, and an argument. -/
def isTypeChars : List Char → Bool
  | '0' :: 'x' :: rest =>
    let digits := rest.takeWhile isHex
    let after := rest.dropWhile isHex
    !digits.isEmpty && digits.length ≤ 64 && typeName.isPrefixOf after
      && isArgument (after.drop typeName.length)
  | _ => false

def isType (type : Text) : Bool :=
  isTypeChars type.chars

/-- An entry is its key, a number of 128 bits, and its value. -/
def readEntry {α : Type} (value : Bcs.Reader α) : Bcs.Reader (Entry α) := do
  let key ← Bcs.Reader.unsigned 16
  return (key, ← value)

/-- A leaf is the vector of its entries and the pointer to the next leaf, and nothing follows. -/
def read {α : Type} (value : Bcs.Reader α) : Bcs.Reader (List (Entry α)) := do
  let entries ← Bcs.Reader.vector (readEntry value)
  let _ ← Bcs.Reader.unsigned 8
  Bcs.Reader.finish
  return entries

/-- The result of a reader on a whole byte string. -/
def runReader {α : Type} (reader : Bcs.Reader α) (bytes : Bytes) : Except Failure α :=
  match reader.run bytes with
  | .ok value _ => .ok value
  | .error failure _ => .error failure

/-- The entries of a value that is a leaf; none if it is not one, whatever is wrong with it. -/
def entries {α : Type} (value : Bcs.Reader α) (node : MoveValue) : List (Entry α) :=
  if isType node.type then
    match node.bytes >>= runReader (read value) with
    | .ok entries => entries
    | .error _ => []
  else []

def write {α : Type} (value : α → Bcs.Writer) (entries : List (Int × α)) (next : Int) :
    Bcs.Writer := do
  Bcs.Writer.vector (fun entry : Int × α => do
    Bcs.Writer.unsigned 16 entry.1
    value entry.2) entries
  Bcs.Writer.unsigned 8 next

def encode {α : Type} (value : α → Bcs.Writer) (entries : List (Int × α)) (next : Int) :
    Except Failure Bytes :=
  match (write value entries next).run [] with
  | .ok _ bytes => .ok bytes
  | .error failure _ => .error failure

end Leaf

end LedgerBook
