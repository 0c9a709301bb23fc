import LedgerBook.Text.Digit
/-!
Byte strings and the texts that stand for them: hexadecimal digits and UTF-8.
-/
namespace LedgerBook

abbrev Bytes := List UInt8

namespace Bytes

def toHex (bytes : Bytes) : String :=
  String.ofList (bytes.flatMap fun byte => Text.hexDigits 2 byte.toNat)

/-- The bytes that pairs of hexadecimal digits write. -/
def ofHexDigits? : List Char → Option Bytes
  | [] => some []
  | [_] => none
  | high :: low :: rest => do
    let upper ← Text.hexDigit? high
    let lower ← Text.hexDigit? low
    return UInt8.ofNat (16 * upper + lower) :: (← ofHexDigits? rest)

/-- The bytes that a text of hexadecimal digits writes. -/
def ofHex? (text : String) : Option Bytes :=
  ofHexDigits? text.toList

def ofText (text : String) : Bytes :=
  text.toByteArray.data.toList

/-- The text of which the bytes are the UTF-8 form, if there is one. -/
def toText? (bytes : Bytes) : Option String :=
  String.fromUTF8? ⟨bytes.toArray⟩

theorem toText?_ofText (text : String) : toText? (ofText text) = some text := by
  simp only [toText?, ofText, Array.toArray_toList, String.fromUTF8?]
  exact dif_pos text.isValidUTF8

theorem ofText_of_toText? {bytes : Bytes} {text : String} (reads : toText? bytes = some text) :
    ofText text = bytes := by
  simp only [toText?, String.fromUTF8?] at reads
  split at reads
  · cases reads
    simp [ofText, String.fromUTF8]
  · cases reads

/-! ## Reading damaged text -/

/-- What an unfinished character still needs: how many more bytes, the range of the next of them,
and the bits that have arrived. -/
structure Pending where
  count : Nat
  low : Nat
  high : Nat
  bits : Nat

/-- The character that stands for bytes that form none. -/
def replacement : Char := '\uFFFD'

/-- What a byte at the start of a character gives: the character itself, or what it needs to become
one, or nothing if no character starts with the byte. -/
def firstByte (byte : Nat) : Option (Char ⊕ Pending) :=
  if byte < 0x80 then some (.inl (Char.ofNat byte))
  else if byte < 0xC2 then none
  else if byte < 0xE0 then some (.inr ⟨1, 0x80, 0xBF, byte - 0xC0⟩)
  else if byte == 0xE0 then some (.inr ⟨2, 0xA0, 0xBF, 0⟩)
  else if byte == 0xED then some (.inr ⟨2, 0x80, 0x9F, 0xD⟩)
  else if byte < 0xF0 then some (.inr ⟨2, 0x80, 0xBF, byte - 0xE0⟩)
  else if byte == 0xF0 then some (.inr ⟨3, 0x90, 0xBF, 0⟩)
  else if byte < 0xF4 then some (.inr ⟨3, 0x80, 0xBF, byte - 0xF0⟩)
  else if byte == 0xF4 then some (.inr ⟨3, 0x80, 0x8F, 4⟩)
  else none

/-- The characters of a byte string that need not be well formed, while a character may be
unfinished: bytes that can no longer become a character give one replacement together, and reading
goes on at the first byte that did not fit. -/
def decodeDamaged : Option Pending → Bytes → List Char
  | none, [] => []
  | some _, [] => [replacement]
  | none, byte :: rest =>
    match firstByte byte.toNat with
    | none => replacement :: decodeDamaged none rest
    | some (.inl c) => c :: decodeDamaged none rest
    | some (.inr needs) => decodeDamaged (some needs) rest
  | some needs, byte :: rest =>
    if needs.low ≤ byte.toNat && byte.toNat ≤ needs.high then
      let bits := 64 * needs.bits + byte.toNat % 64
      if needs.count == 1 then Char.ofNat bits :: decodeDamaged none rest
      else decodeDamaged (some ⟨needs.count - 1, 0x80, 0xBF, bits⟩) rest
    else
      replacement :: match firstByte byte.toNat with
        | none => replacement :: decodeDamaged none rest
        | some (.inl c) => c :: decodeDamaged none rest
        | some (.inr other) => decodeDamaged (some other) rest

/-- A byte string as text, with replacement characters where it is not UTF-8. -/
def toTextReplacing (bytes : Bytes) : String :=
  String.ofList (decodeDamaged none bytes)

example : toTextReplacing [0x61, 0xE2, 0x82, 0x62] = "a\uFFFDb" := by cbv
example : toTextReplacing [0xED, 0xA0, 0x80] = "\uFFFD\uFFFD\uFFFD" := by cbv

end Bytes

end LedgerBook
