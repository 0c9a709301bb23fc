import LedgerBook.Text.Bytes
/-!
Base64 with padding. Writing always pads to a multiple of four characters. Reading asks for the
exact padding after an unfinished group of four, ignores padding after a finished one, and ignores
the bits of the last character that no byte takes.
-/
namespace LedgerBook.Base64

/-- The value from 0 to 63 that a digit stands for. -/
def value? (c : Char) : Option Nat :=
  let n := c.toNat
  if 'A' ≤ c && c ≤ 'Z' then some (n - 65)
  else if 'a' ≤ c && c ≤ 'z' then some (n - 71)
  else if '0' ≤ c && c ≤ '9' then some (n + 4)
  else if c == '+' then some 62
  else if c == '/' then some 63
  else none

def digit (value : Nat) : Char :=
  if value < 26 then Char.ofNat (65 + value)
  else if value < 52 then Char.ofNat (71 + value)
  else if value < 62 then Char.ofNat (value - 4)
  else if value == 62 then '+'
  else '/'

/-- The bytes of values from 0 to 63, four of them for three bytes. Bits that fill no byte are
dropped. -/
def pack : List Nat → Bytes
  | a :: b :: c :: d :: rest =>
    UInt8.ofNat (4 * a + b / 16) :: UInt8.ofNat (16 * b + c / 4) :: UInt8.ofNat (64 * c + d)
      :: pack rest
  | [a, b, c] => [UInt8.ofNat (4 * a + b / 16), UInt8.ofNat (16 * b + c / 4)]
  | [a, b] => [UInt8.ofNat (4 * a + b / 16)]
  | _ => []

/-- Whether padding of this length may follow this many digits. -/
def padFits (digits padding : Nat) : Bool :=
  match digits % 4 with
  | 0 => digits != 0 || padding == 0
  | 2 => padding == 2
  | 3 => padding == 1
  | _ => false

/-- The bytes that a base64 text stands for, if it is well formed. -/
def decodeChars? (cs : List Char) : Option Bytes := do
  let digits := cs.takeWhile (· != '=')
  let padding := cs.dropWhile (· != '=')
  let values ← digits.mapM value?
  if padding.all (· == '=') && padFits digits.length padding.length then some (pack values)
  else none

/-- The padded base64 text of a byte string. -/
def encodeChars : Bytes → List Char
  | a :: b :: c :: rest =>
    let x := a.toNat
    let y := b.toNat
    let z := c.toNat
    digit (x / 4) :: digit (x % 4 * 16 + y / 16) :: digit (y % 16 * 4 + z / 64) :: digit (z % 64)
      :: encodeChars rest
  | [a, b] =>
    let x := a.toNat
    let y := b.toNat
    [digit (x / 4), digit (x % 4 * 16 + y / 16), digit (y % 16 * 4), '=']
  | [a] =>
    let x := a.toNat
    [digit (x / 4), digit (x % 4 * 16), '=', '=']
  | [] => []

def encode (bytes : Bytes) : String :=
  String.ofList (encodeChars bytes)

theorem value?_digit (value : Nat) (small : value < 64) : value? (digit value) = some value := by
  revert value
  decide

example : encodeChars [0xFB, 0xFF] = ['+', '/', '8', '='] := by decide

end LedgerBook.Base64
