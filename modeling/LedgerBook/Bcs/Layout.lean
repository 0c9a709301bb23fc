import LedgerBook.Order
/-!
Layouts of serialized values: what to read, as data. Those without fixed bytes, sequences, numbers
of 32 bits and refusals can also be written.
-/
namespace LedgerBook.Bcs

inductive Layout
  | u8 | u32 | u64 | u128
  | bool | text | length | order
  /-- Nothing. -/
  | unit
  /-- What no bytes match: the caller's own decoder refuses them with this failure. -/
  | refusing (name reason : Text)
  | bytes (count : Int)
  | vector (item : Layout)
  | sequence (items : List Layout)
  deriving Inhabited, Repr

inductive Value
  | unit
  | int (value : Int)
  | bool (value : Bool)
  | text (value : Text)
  | bytes (value : Bytes)
  | order (value : Order)
  | list (items : List Value)
  deriving Repr, Inhabited

namespace Layout

mutual

def read : Layout → Reader Value
  | u8 => return .int (← Reader.unsigned 1)
  | u32 => return .int (← Reader.unsigned 4)
  | u64 => return .int (← Reader.unsigned 8)
  | u128 => return .int (← Reader.unsigned 16)
  | bool => return .bool (← Reader.bool)
  | text => return .text (← Reader.text)
  | length => return .int (← Reader.length)
  | order => return .order (← Order.read)
  | unit => return .unit
  | refusing name reason => throw (.foreign name reason)
  | bytes count => return .bytes (← Reader.bytes count)
  | vector item => return .list (← Reader.vector item.read)
  | sequence items => return .list (← readAll items)

def readAll : List Layout → Reader (List Value)
  | [] => return []
  | first :: rest => do
    let value ← first.read
    return value :: (← readAll rest)

end

/-- Writes a value of a layout that can be written. -/
def write : Layout → Value → Writer
  | u8, .int value => Writer.unsigned 1 value
  | u64, .int value => Writer.unsigned 8 value
  | u128, .int value => Writer.unsigned 16 value
  | bool, .bool value => Writer.bool value
  | text, .text value => Writer.text value
  | length, .int value => Writer.length value
  | order, .order value => value.write
  | vector item, .list items => Writer.vector item.write items
  | _, _ => throw .wrongKind

end Layout

end LedgerBook.Bcs
