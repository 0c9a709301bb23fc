import LedgerBook.Text.Basic
import LedgerBook.Text.Digit
import LedgerBook.Text.Printable
/-!
Quoted text: a text between two quotation marks of one kind, with everything escaped that would not
show. The double mark is used for a text that holds single marks and no double ones.
-/
namespace LedgerBook.Text.Quoted

/-- The mark around a text. -/
def mark (text : Text) : Char :=
  if text.contains (.char '\'') && !text.contains (.char '"') then '"' else '\''

/-- One character between two marks: the mark and the backslash are escaped, three controls have a
letter of their own, and what does not show is written by its number in the fewest of two, four or
eight hexadecimal digits. -/
def encodeChar (around c : Char) : List Char :=
  if c == around || c == '\\' then ['\\', c]
  else if c == '\n' then ['\\', 'n']
  else if c == '\r' then ['\\', 'r']
  else if c == '\t' then ['\\', 't']
  else if isPrintable c then [c]
  else if c.toNat < 0x100 then '\\' :: 'x' :: hexDigits 2 c.toNat
  else if c.toNat < 0x10000 then '\\' :: 'u' :: hexDigits 4 c.toNat
  else '\\' :: 'U' :: hexDigits 8 c.toNat

/-- One code point between two marks. A half does not show. -/
def encodePoint (around : Char) : CodePoint → List Char
  | .char c => encodeChar around c
  | half => '\\' :: 'u' :: hexDigits 4 half.number

def encode (text : Text) : List Char :=
  mark text :: text.flatMap (encodePoint (mark text)) ++ [mark text]

end LedgerBook.Text.Quoted

namespace LedgerBook.Text

/-- A text as it is quoted inside other texts. -/
def quoted (text : Text) : String :=
  String.ofList (Quoted.encode text)

example : quoted "it's" = "\"it's\"" := by decide +kernel
example : quoted "a\n\x01\"" = "'a\\n\\x01\"'" := by decide +kernel
example : quoted [.half 0] = "'\\ud800'" := by decide +kernel

end LedgerBook.Text
