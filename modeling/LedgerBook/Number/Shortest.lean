import LedgerBook.Number.Binary64
import LedgerBook.Text.Digit
/-!
The shortest decimal of a floating-point number: of the decimals that read back as the number, one
with the fewest digits, and of those the nearest to its value.
-/
namespace LedgerBook.Binary64

/-- A positive decimal: 0.digits · 10 ^ point, where the digits do not end in a zero. -/
structure ShortDecimal where
  digits : List Char
  point : Int
  deriving DecidableEq, Repr

/-- The reals that round to significand · 2 ^ exponent, between two quotients with one denominator.
The ends belong to it if the significand is even. -/
structure RoundingInterval where
  low : Nat
  value : Nat
  high : Nat
  denominator : Nat
  closed : Bool

/-- The interval of a positive finite number. Below a power of two the numbers stand twice as close
as above it, except at the least exponent. -/
def roundingInterval (significand : Nat) (exponent : Int) : RoundingInterval :=
  let unit := if exponent < 0 then 1 else 1 <<< exponent.natAbs
  let below := if significand = fractionRange && exponent != -1074 then unit else 2 * unit
  let value := 4 * significand * unit
  { low := value - below
    value := value
    high := value + 2 * unit
    denominator := 4 * if exponent < 0 then 1 <<< exponent.natAbs else 1
    closed := significand % 2 = 0 }

/-- The power of ten above a positive quotient: the least `point` with quotient < 10 ^ point. The
search starts at an estimate from below. -/
def pointAbove (numerator denominator : Nat) : Int :=
  let estimate : Int := ((numerator.log2 : Int) - denominator.log2 - 1) * 30102 / 100000
  let exceeds (point : Int) : Bool :=
    if point < 0 then numerator * Nat.pow 10 point.natAbs < denominator
    else numerator < denominator * Nat.pow 10 point.natAbs
  if exceeds estimate then estimate
  else if exceeds (estimate + 1) then estimate + 1
  else estimate + 2

/-- The better of the two neighbours of the value on the grid of multiples of 10 ^ step, if one of
them lies in the interval: the nearer, and of two equally near the even one. -/
def RoundingInterval.onGrid? (interval : RoundingInterval) (step : Int) : Option Nat :=
  let up := if step < 0 then Nat.pow 10 step.natAbs else 1
  let down := interval.denominator * if step < 0 then 1 else Nat.pow 10 step.natAbs
  let floor := interval.value * up / down
  let inside (multiple : Nat) : Bool :=
    if interval.closed then
      interval.low * up ≤ multiple * down && multiple * down ≤ interval.high * up
    else interval.low * up < multiple * down && multiple * down < interval.high * up
  let distanceDown := interval.value * up - floor * down
  let distanceUp := (floor + 1) * down - interval.value * up
  let upFirst := distanceUp < distanceDown || (distanceUp == distanceDown && floor % 2 == 1)
  let first := if upFirst then floor + 1 else floor
  let second := if upFirst then floor else floor + 1
  if inside first && first != 0 then some first
  else if inside second && second != 0 then some second
  else none

/-- The first grid with a point in the interval, from the coarsest of the given number of grids. -/
def RoundingInterval.firstGrid (interval : RoundingInterval) : Nat → Int → Nat × Int
  | 0, step => (0, step)
  | grids + 1, step =>
    match interval.onGrid? step with
    | some multiple => (multiple, step)
    | none => interval.firstGrid grids (step - 1)

def dropFinalZeros (digits : List Char) : List Char :=
  (digits.reverse.dropWhile (· == '0')).reverse

/-- The shortest decimal of a positive finite number. Seventeen digits always suffice. -/
def shortest (significand : Nat) (exponent : Int) : ShortDecimal :=
  let interval := roundingInterval significand exponent
  let point := pointAbove interval.value interval.denominator
  let (multiple, step) := interval.firstGrid 17 (point - 1)
  let digits := Nat.toDigits 10 multiple
  ⟨dropFinalZeros digits, step + digits.length⟩

/-! ## The text of a number -/

/-- How a decimal is laid out: the range of the point in which the digits stand around it, and the
least number of digits of an exponent. -/
structure Layout where
  leastPoint : Int
  greatestPoint : Int
  exponentDigits : Nat

/-- Numbers from 0.0001 up to below 10 ^ 16 are written around the point, all others with an
exponent of two digits or more. -/
def layout : Layout := ⟨-3, 16, 2⟩

/-- Digits with zeros in front, up to a width. -/
def padDigits (width : Nat) (digits : List Char) : List Char :=
  List.replicate (width - digits.length) '0' ++ digits

/-- Lays out a decimal. A number without a fraction gets one zero as its fraction, unless it has an
exponent. -/
def ShortDecimal.render (decimal : ShortDecimal) : List Char :=
  let digits := decimal.digits
  let point := decimal.point
  if layout.leastPoint ≤ point && point ≤ layout.greatestPoint then
    if point ≤ 0 then '0' :: '.' :: (List.replicate point.natAbs '0' ++ digits)
    else
      let whole := digits.take point.natAbs
      let fraction := digits.drop point.natAbs
      whole ++ List.replicate (point.natAbs - whole.length) '0'
        ++ '.' :: if fraction.isEmpty then ['0'] else fraction
  else
    let exponent := point - 1
    let tail := 'e' :: (if exponent < 0 then '-' else '+')
      :: padDigits layout.exponentDigits (Nat.toDigits 10 exponent.natAbs)
    match digits with
    | first :: second :: rest => first :: '.' :: second :: rest ++ tail
    | _ => digits ++ tail

/-- The words for what has no digits. -/
structure Names where
  nan : String
  infinity : String

/-- The text of a number, with the given words for what has no digits. -/
def render (names : Names) (x : Binary64) : String :=
  let sign := if x.negative then "-" else ""
  match x.view with
  | .nan => names.nan
  | .infinite _ => sign ++ names.infinity
  | .finite _ 0 _ => sign ++ "0.0"
  | .finite _ significand exponent =>
    sign ++ String.ofList (shortest significand exponent).render

/-- The text of a number inside a message. -/
def text (x : Binary64) : String :=
  x.render ⟨"nan", "inf"⟩

example : (Binary64.mk 1).text = "5e-324" := by decide +kernel
example : (ofDecimal false 1 16).text = "1e+16" := by decide +kernel
example : (ofDecimal false 1234567 (-3)).text = "1234.567" := by decide +kernel

end LedgerBook.Binary64
