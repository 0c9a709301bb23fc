import LedgerBook.Json.Basic
import LedgerBook.Number.Shortest
/-!
Writing JSON in ASCII: what is outside ASCII is escaped by its UTF-16 units.
-/
namespace LedgerBook.Json

/-- The escape of a unit of sixteen bits. -/
def unitEscape (unit : Nat) : List Char :=
  '\\' :: 'u' :: Text.hexDigits 4 unit

def escapeChar (c : Char) : List Char :=
  if c == '"' || c == '\\' then ['\\', c]
  else if c == '\n' then ['\\', 'n']
  else if c == '\r' then ['\\', 'r']
  else if c == '\t' then ['\\', 't']
  else if 0x20 ≤ c.toNat && c.toNat < 0x7F then [c]
  else if c.toNat < 0x10000 then unitEscape c.toNat
  else
    let offset := c.toNat - 0x10000
    unitEscape (0xD800 + offset / 0x400) ++ unitEscape (0xDC00 + offset % 0x400)

/-- A code point inside quotation marks. A half is the unit that it is. -/
def escapePoint : CodePoint → List Char
  | .char c => escapeChar c
  | half => unitEscape half.number

def printText (text : Text) : String :=
  String.ofList ('"' :: text.flatMap escapePoint ++ ['"'])

/-- A floating-point number, with the words that JSON readers know for what has no digits. -/
def printFloat (value : Binary64) : String :=
  value.render ⟨"NaN", "Infinity"⟩

mutual

def print : Json → String
  | null => "null"
  | bool value => if value then "true" else "false"
  | int value => Text.decimal value
  | float value => printFloat value
  | str text => printText text
  | arr items => "[" ++ String.intercalate ", " (printItems items) ++ "]"
  | obj members => "\x7b" ++ String.intercalate ", " (printMembers members) ++ "\x7d"

/-- The JSON texts of the items of an array. -/
def printItems : List Json → List String
  | [] => []
  | item :: rest => print item :: printItems rest

/-- The JSON texts of the members of an object. -/
def printMembers : List (Text × Json) → List String
  | [] => []
  | (name, value) :: rest => (printText name ++ ": " ++ print value) :: printMembers rest

end

end LedgerBook.Json
