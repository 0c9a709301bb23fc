import LedgerBook.Bcs.Reader
/-!
Writing Binary Canonical Serialization at the end of a buffer. What was written before a failure
stays written.
-/
namespace LedgerBook.Bcs

/-- A writer adds bytes to a buffer, or fails. -/
abbrev Writer := EStateM Failure Bytes Unit

namespace Writer

/-- Fails because of a value that the layout has no room for. -/
def refuse (fault : Fault) : Writer :=
  throw (.bcs fault)

def bytes (added : Bytes) : Writer :=
  modify (· ++ added)

/-- The lowest bytes of a number, as many as asked for, the lowest of them first. -/
def littleEndian : (width value : Nat) → Bytes
  | 0, _ => []
  | width + 1, value => UInt8.ofNat value :: littleEndian width (value / 256)

def unsigned (width : Nat) (value : Int) : Writer :=
  if value < 0 ∨ (Nat.pow 256 width : Int) ≤ value then refuse (.tooWide value (8 * width))
  else bytes (littleEndian width value.toNat)

def bool (value : Bool) : Writer :=
  unsigned 1 (if value then 1 else 0)

/-- A number in groups of seven bits, the lowest first, every byte but the last with its highest bit
set. -/
def groups (value : Nat) : Bytes :=
  if value < 128 then [UInt8.ofNat value]
  else UInt8.ofNat (value % 128 + 128) :: groups (value / 128)

def length (value : Int) : Writer :=
  if value < 0 ∨ (Reader.greatestLength : Int) < value then refuse (.notLength value)
  else bytes (groups value.toNat)

/-- A text as its length in bytes and its UTF-8 form, which every text without halves has. -/
def text (value : Text) : Writer :=
  match value.toString? with
  | some value => do
    let encoded := Bytes.ofText value
    length encoded.length
    bytes encoded
  | none => throw .notUtf8

def each {α : Type} (item : α → Writer) : List α → Writer
  | [] => return
  | first :: rest => do
    item first
    each item rest

def vector {α : Type} (item : α → Writer) (items : List α) : Writer := do
  length items.length
  each item items

end Writer

end LedgerBook.Bcs
