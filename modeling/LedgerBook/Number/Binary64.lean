/-!
Binary floating-point numbers of 64 bits, by their bits and exact values. Every operation is exact
arithmetic on whole numbers followed by one rounding to the nearest number, a tie going to the even
significand.
-/
namespace LedgerBook

/-- A floating-point number by its 64 bits: sign, eleven bits of exponent, 52 bits of fraction. -/
structure Binary64 where
  bits : UInt64
  deriving DecidableEq, Repr

namespace Binary64

/-- What a number is: nothing, an infinity, or a sign with significand · 2 ^ exponent. -/
inductive View
  | nan
  | infinite (negative : Bool)
  | finite (negative : Bool) (significand : Nat) (exponent : Int)
  deriving DecidableEq, Repr

def signWeight : Nat := 0x8000000000000000

/-- The number of fractions, and the weight of the lowest bit of the exponent. -/
def fractionRange : Nat := 0x10000000000000

/-- The number of exponents. -/
def exponentRange : Nat := 0x800

def negative (x : Binary64) : Bool :=
  signWeight ≤ x.bits.toNat

def view (x : Binary64) : View :=
  let fraction : Nat := x.bits.toNat % fractionRange
  let exponent : Nat := x.bits.toNat / fractionRange % exponentRange
  if exponent + 1 = exponentRange then
    if fraction = 0 then .infinite x.negative else .nan
  else if exponent = 0 then .finite x.negative fraction (-1074)
  else .finite x.negative (fractionRange + fraction) ((exponent : Int) - 1075)

/-- A number from its sign and the bits below the sign. -/
def ofMagnitude (negative : Bool) (magnitude : Nat) : Binary64 :=
  ⟨UInt64.ofNat (magnitude + if negative then signWeight else 0)⟩

def infinityBits : Nat := 0x7FF0000000000000

def infinity (negative : Bool) : Binary64 :=
  ofMagnitude negative infinityBits

/-- The quiet number that is none, of a sign. -/
def nan (negative : Bool) : Binary64 :=
  ofMagnitude negative (infinityBits + fractionRange / 2)

/-- The whole number nearest to a quotient; a half goes to the even neighbour. -/
def roundQuotient (numerator denominator : Nat) : Nat :=
  let quotient := numerator / denominator
  let remainder := numerator % denominator
  if 2 * remainder < denominator then quotient
  else if denominator < 2 * remainder then quotient + 1
  else quotient + quotient % 2

/-- The quotient times 2 ^ `-exponent`, rounded to a whole number. -/
def scaledQuotient (numerator denominator : Nat) (exponent : Int) : Nat :=
  if exponent < 0 then roundQuotient (numerator <<< exponent.natAbs) denominator
  else roundQuotient numerator (denominator <<< exponent.natAbs)

/-- The exponent with which the significand of a quotient has 53 bits, or the least exponent if
that one is too small. -/
def exponentFor (numerator denominator : Nat) : Int :=
  let guess : Int := (numerator.log2 : Int) - denominator.log2 - 52
  let reaches :=
    if guess < 0 then denominator * fractionRange ≤ numerator <<< guess.natAbs
    else (denominator * fractionRange) <<< guess.natAbs ≤ numerator
  max (-1074) (if reaches then guess else guess - 1)

/-- The number nearest to a quotient of whole numbers with a sign; infinite if the quotient is too
large. The denominator is positive. A significand that rounds up to 54 bits carries into the
exponent, because the fields are added and not put side by side. -/
def ofQuotient (negative : Bool) (numerator denominator : Nat) : Binary64 :=
  if numerator = 0 then ofMagnitude negative 0
  else
    let exponent := exponentFor numerator denominator
    let significand := scaledQuotient numerator denominator exponent
    ofMagnitude negative (min infinityBits ((exponent + 1074).toNat * fractionRange + significand))

/-- The number nearest to an integer. -/
def ofInt (value : Int) : Binary64 :=
  ofQuotient (value < 0) value.natAbs 1

/-- The number nearest to digits · 10 ^ scale. Scales that are out of range whatever the digits are
do not build their power of ten. -/
def ofDecimal (negative : Bool) (digits : Nat) (scale : Int) : Binary64 :=
  if digits = 0 then ofMagnitude negative 0
  else if 400 < scale then infinity negative
  else if scale + (digits.log2 : Int) < -1200 then ofMagnitude negative 0
  else if scale < 0 then ofQuotient negative digits (Nat.pow 10 scale.natAbs)
  else ofQuotient negative (digits * Nat.pow 10 scale.natAbs) 1

def isInfinite (x : Binary64) : Bool :=
  match x.view with
  | .infinite _ => true
  | _ => false

def isZero (x : Binary64) : Bool :=
  match x.view with
  | .finite _ 0 _ => true
  | _ => false

/-- Whether a number is zero or below. What is no number is not. -/
def isAtMostZero (x : Binary64) : Bool :=
  match x.view with
  | .nan => false
  | .infinite negative => negative
  | .finite negative significand _ => negative || significand == 0

/-- A sign and a magnitude as an integer. -/
def signed (negative : Bool) (magnitude : Nat) : Int :=
  if negative then -magnitude else magnitude

/-- The integer nearest to zero among the two around a finite number. -/
def truncated (negative : Bool) (significand : Nat) (exponent : Int) : Int :=
  signed negative
    (if exponent < 0 then significand >>> exponent.natAbs
      else significand <<< exponent.natAbs)

/-- An integer times a power of two, rounded to the nearest number. -/
def ofScaled (value : Int) (exponent : Int) : Binary64 :=
  if exponent < 0 then ofQuotient (value < 0) value.natAbs (1 <<< exponent.natAbs)
  else ofQuotient (value < 0) (value.natAbs <<< exponent.natAbs) 1

def sub (x y : Binary64) : Binary64 :=
  match x.view, y.view with
  | .nan, _ => nan false
  | _, .nan => nan false
  | .infinite p, .infinite q => if p == q then nan false else x
  | .infinite _, _ => x
  | _, .infinite q => infinity (!q)
  | .finite p m e, .finite q n f =>
    let low := min e f
    let left := signed p (m <<< (e - low).natAbs)
    let right := signed q (n <<< (f - low).natAbs)
    ofScaled (left - right) low

/-- A number a whole number of times. -/
def scale (x : Binary64) (times : Nat) : Binary64 :=
  match x.view with
  | .finite p m e => ofScaled (signed p m * times) e
  | _ => if times = 0 then nan false else x

example : (ofDecimal false 1 (-1)).bits = 0x3FB999999999999A := by decide +kernel
example : (ofDecimal true 5 (-324)).bits = 0x8000000000000001 := by decide +kernel
example : (ofDecimal false 179769313486231580793 289).isInfinite = true := by decide +kernel
example : (ofInt 0x20000000000001).bits = 0x4340000000000000 := by decide +kernel

end Binary64

end LedgerBook
