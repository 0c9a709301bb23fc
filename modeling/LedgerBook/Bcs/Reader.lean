import LedgerBook.Failure
import LedgerBook.Text.Bytes
/-!
Reading Binary Canonical Serialization from the front of a byte string. A reader that fails leaves
the bytes it has not taken, so that reading can go on from there.
-/
namespace LedgerBook.Bcs

/-- A reader takes bytes from the front of its input and returns a value, or fails. -/
abbrev Reader (α : Type) := EStateM Failure Bytes α

namespace Reader

/-- Fails because of what the bytes hold. -/
def refuse {α : Type} (fault : Fault) : Reader α :=
  throw (.bcs fault)

def remaining : Reader Nat := do
  return (← get).length

/-- Takes a number of bytes, or none of them if there are fewer. -/
def bytes (count : Int) : Reader Bytes := do
  let input ← get
  if count < 0 || (input.length : Int) < count then refuse (.endOfInput count input.length)
  set (input.drop count.toNat)
  return input.take count.toNat

/-- The number that bytes write, the lowest byte first. -/
def littleEndian (bytes : Bytes) : Nat :=
  bytes.foldr (fun byte higher => byte.toNat + 256 * higher) 0

def unsigned (width : Nat) : Reader Nat := do
  return littleEndian (← bytes width)

/-- A truth value is one byte, zero or one. -/
def bool : Reader Bool := do
  match ← unsigned 1 with
  | 0 => return false
  | 1 => return true
  | byte => refuse (.notBool byte)

/-- The greatest length that can be written. -/
def greatestLength : Nat := 0xFFFFFFFF

/-- The rest of a length, of which some groups of seven bits have been read; `groups` is how many
may still follow, `shift` how many bits have been read. Every byte but the last has its highest bit
set, and the last group is not zero unless it is the only one. -/
def lengthFrom : (groups shift value : Nat) → Reader Nat
  | 0, _, _ => refuse .hugeLength
  | groups + 1, shift, value => do
    let byte ← unsigned 1
    let value := value + (byte % 128) <<< shift
    if 128 ≤ byte then lengthFrom groups (shift + 7) value
    else if byte = 0 ∧ 0 < shift then refuse .redundantLength
    else if greatestLength < value then refuse .hugeLength
    else return value

/-- A length in groups of seven bits, the lowest first, of which there are at most five. -/
def length : Reader Nat :=
  lengthFrom 5 0 0

def times {α : Type} (item : Reader α) : Nat → Reader (List α)
  | 0 => return []
  | count + 1 => do
    let first ← item
    return first :: (← times item count)

/-- A vector is its length and its items. More items than bytes are refused before any is read. -/
def vector {α : Type} (item : Reader α) : Reader (List α) := do
  let count ← length
  let left ← remaining
  if left < count then refuse (.tooManyItems count left)
  item.times count

/-- A text is its length in bytes and its UTF-8 form. -/
def text : Reader String := do
  let count ← length
  match Bytes.toText? (← bytes count) with
  | some text => return text
  | none => refuse .notText

def finish : Reader Unit := do
  let left ← remaining
  if left ≠ 0 then refuse (.trailing left)

end Reader

end LedgerBook.Bcs
