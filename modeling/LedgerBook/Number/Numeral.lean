import LedgerBook.Number.Binary64
import LedgerBook.Text.Blank
import LedgerBook.Text.Digit
/-!
Reading numbers that people wrote: white space around them does not matter, the digits may be those
of any script, and single underscores may stand between digits.
-/
namespace LedgerBook.Numeral

/-- The white space of a text is dropped at its ends and its digits are replaced by their ASCII
forms. -/
def normalized (text : Text) : List Char :=
  (Text.trimWhere Text.isSpace text.chars).map fun c =>
    match Text.decimalDigit? c with
    | some value => Char.ofNat (48 + value)
    | none => c

def takeSign : List Char → Bool × List Char
  | '-' :: rest => (true, rest)
  | '+' :: rest => (false, rest)
  | cs => (false, cs)

/-- Removes the underscores of a text if each of them stands between two digits. `before` is the
character before the text. -/
def dropUnderscores (before : Char) : List Char → Option (List Char)
  | [] => some []
  | '_' :: c :: rest =>
    if before.isDigit && c.isDigit then (dropUnderscores c rest).map (c :: ·) else none
  | ['_'] => none
  | c :: rest => (dropUnderscores c rest).map (c :: ·)

def ofDigits (digits : List Char) : Nat :=
  digits.foldl (fun value c => 10 * value + (c.toNat - 48)) 0

/-- The most digits that a written integer may have. -/
def mostDigits : Nat := 4300

def integer? (text : Text) : Option Int := do
  let (negative, body) := takeSign (normalized text)
  let digits ← dropUnderscores ' ' body
  if digits.isEmpty || !digits.all Char.isDigit || mostDigits < digits.length then none
  else some (Binary64.signed negative (ofDigits digits))

/-- Digits, then a point and digits, then an exponent, where all but one digit may be missing. -/
structure Decimal where
  whole : List Char
  fraction : List Char
  exponent : Int
  deriving DecidableEq

/-- The exponent after its letter: digits with a sign. -/
def exponent? (cs : List Char) : Option Int :=
  let (negative, digits) := takeSign cs
  if digits.isEmpty || !digits.all Char.isDigit then none
  else some (Binary64.signed negative (ofDigits digits))

/-- Takes a decimal without its sign apart. -/
def decimal? (cs : List Char) : Option Decimal := do
  let whole := cs.takeWhile Char.isDigit
  let (fraction, rest) := match cs.dropWhile Char.isDigit with
    | '.' :: more => (more.takeWhile Char.isDigit, more.dropWhile Char.isDigit)
    | more => ([], more)
  if whole.isEmpty && fraction.isEmpty then none
  else match rest with
    | [] => some ⟨whole, fraction, 0⟩
    | c :: digits =>
      if c == 'e' || c == 'E' then (exponent? digits).map (⟨whole, fraction, ·⟩) else none

/-- The floating-point number nearest to a decimal. -/
def Decimal.toBinary64 (decimal : Decimal) (negative : Bool) : Binary64 :=
  Binary64.ofDecimal negative (ofDigits (decimal.whole ++ decimal.fraction))
    (decimal.exponent - decimal.fraction.length)

/-- The floating-point number that a text denotes: a decimal, or in any case one of the words for
infinity and for no number. -/
def binary64? (text : Text) : Option Binary64 := do
  let (negative, body) := takeSign (← dropUnderscores ' ' (normalized text))
  let word := String.ofList (body.map Char.toLower)
  if word == "inf" || word == "infinity" then some (Binary64.infinity negative)
  else if word == "nan" then some (Binary64.nan negative)
  else (decimal? body).map (·.toBinary64 negative)

example : integer? " -1_2\u0663 " = some (-123) := by decide +kernel
example : integer? "1__2" = none := by decide +kernel
example : binary64? "1_0.5e1" = some (Binary64.ofInt 105) := by decide +kernel

end LedgerBook.Numeral
