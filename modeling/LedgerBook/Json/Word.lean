import LedgerBook.Json.Basic
import LedgerBook.Number.Numeral
/-!
The words of a JSON text, which are what stands outside quotation marks: the names of three values,
and numbers. Besides the standard, `NaN`, `Infinity` and `-Infinity` are numbers. A number is read
before what stands behind it, so that a word can be wrong in two ways, of which the first counts.
-/
namespace LedgerBook.Json

/-- Why a text is no JSON value that can be read. -/
inductive ReadFault
  | malformed
  | tooManyDigits
  | tooDeep
  deriving DecidableEq, Repr

/-- A number at the front of a word: its sign, its digits, and the fraction and exponent, which are
not there if the number is whole. -/
structure Written where
  negative : Bool
  whole : List Char
  decimal : Option Numeral.Decimal
  deriving DecidableEq

/-- Splits off the digits after a point, if a digit follows the point. -/
def takeFraction (cs : List Char) : List Char × List Char :=
  match cs with
  | '.' :: rest =>
    let digits := rest.takeWhile Char.isDigit
    if digits.isEmpty then ([], cs) else (digits, rest.dropWhile Char.isDigit)
  | _ => ([], cs)

/-- Splits off an exponent, if a digit follows its letter and sign. -/
def takeExponent (cs : List Char) : Option Int × List Char :=
  match cs with
  | c :: rest =>
    let (negative, rest) := Numeral.takeSign rest
    let digits := rest.takeWhile Char.isDigit
    if (c == 'e' || c == 'E') && !digits.isEmpty then
      (some (Binary64.signed negative (Numeral.ofDigits digits)), rest.dropWhile Char.isDigit)
    else (none, cs)
  | [] => (none, cs)

/-- The longest number at the front of a word, and what follows it. A zero is followed by no other
digit, and a fraction or exponent without a digit is no part of the number. -/
def takeNumber (cs : List Char) : Option (Written × List Char) :=
  let (negative, body) := match cs with
    | '-' :: rest => (true, rest)
    | _ => (false, cs)
  let (whole, rest) := match body with
    | '0' :: rest => (['0'], rest)
    | _ => (body.takeWhile Char.isDigit, body.dropWhile Char.isDigit)
  if whole.isEmpty then none
  else
    let (fraction, rest) := takeFraction rest
    let (exponent, rest) := takeExponent rest
    let decimal := if fraction.isEmpty && exponent.isNone then none
      else some ⟨whole, fraction, exponent.getD 0⟩
    some (⟨negative, whole, decimal⟩, rest)

/-- The value of a number. Whole numbers have a greatest number of digits. -/
def Written.value (number : Written) : Except ReadFault Json :=
  match number.decimal with
  | some decimal => return float (decimal.toBinary64 number.negative)
  | none =>
    if Numeral.mostDigits < number.whole.length then throw .tooManyDigits
    else return int (Binary64.signed number.negative (Numeral.ofDigits number.whole))

def ofWord (cs : List Char) : Except ReadFault Json :=
  match String.ofList cs with
  | "null" => return null
  | "true" => return bool true
  | "false" => return bool false
  | "NaN" => return float (Binary64.nan false)
  | "Infinity" => return float (Binary64.infinity false)
  | "-Infinity" => return float (Binary64.infinity true)
  | _ => do
    let some (number, rest) := takeNumber cs | throw .malformed
    let value ← number.value
    if rest.isEmpty then return value else throw .malformed

example : takeNumber "-01".toList = some (⟨true, ['0'], none⟩, ['1']) := by decide +kernel
example : takeNumber "12.e5".toList = some (⟨false, ['1', '2'], none⟩, ['.', 'e', '5']) := by
  decide +kernel

end LedgerBook.Json
