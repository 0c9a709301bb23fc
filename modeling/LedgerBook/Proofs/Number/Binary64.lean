import LedgerBook.Number.Binary64
import Mathlib.Algebra.Order.Field.Power
import Mathlib.Algebra.Order.Ring.Abs
import Mathlib.Data.Rat.Cast.Order
import Mathlib.Tactic.FieldSimp
import Mathlib.Tactic.Linarith
import Mathlib.Tactic.Positivity
import Mathlib.Tactic.Ring
/-!
Whole numbers as floating-point numbers. A positive whole number below the bound of overflow becomes
a positive finite number, at most half a unit of its last place away from it and the number itself
if it has no more than 53 bits; from the bound on it becomes infinite.
-/
namespace LedgerBook.Binary64

/-- The least whole number for which there is no finite number: half a unit of the last place above
the largest of them, (2 ^ 53 - 1) · 2 ^ 971. -/
def overflowBound : Nat :=
  (2 ^ 54 - 1) * 2 ^ 970

/-- Whether a number stands for a whole number: it is positive and finite, its significand has all
53 bits, and it is at most half a unit of its last place away, and not away at all if the whole
number has no more bits. -/
inductive StandsFor (x : Binary64) (number : Nat) : Prop
  | intro (significand : Nat) (exponent : Int) :
      x.view = .finite false significand exponent →
      2 ^ 52 ≤ significand →
      |(significand : ℚ) * 2 ^ exponent - number| ≤ 2 ^ exponent / 2 →
      (number < 2 ^ 53 → (significand : ℚ) * 2 ^ exponent = number) →
      StandsFor x number

/-! ## Rounding a quotient -/

theorem roundQuotient_one (numerator : Nat) : roundQuotient numerator 1 = numerator := by
  simp only [roundQuotient, Nat.mod_one, Nat.div_one]
  rfl

/-- A quotient is rounded to one of its neighbours: the nearer, and of two equally near the even
one. -/
theorem roundQuotient_cases (numerator denominator : Nat) :
    (2 * (numerator % denominator) < denominator ∧
        roundQuotient numerator denominator = numerator / denominator) ∨
      (denominator < 2 * (numerator % denominator) ∧
        roundQuotient numerator denominator = numerator / denominator + 1) ∨
      2 * (numerator % denominator) = denominator ∧
        roundQuotient numerator denominator =
          numerator / denominator + numerator / denominator % 2 := by
  simp only [roundQuotient]
  split
  next below => exact .inl ⟨below, rfl⟩
  next =>
    split
    next above => exact .inr (.inl ⟨above, rfl⟩)
    next => exact .inr (.inr ⟨by omega, rfl⟩)

theorem le_roundQuotient (numerator denominator : Nat) :
    numerator / denominator ≤ roundQuotient numerator denominator ∧
      roundQuotient numerator denominator ≤ numerator / denominator + 1 := by
  have cases := roundQuotient_cases numerator denominator
  omega

section Rounding

variable {denominator : Nat}

/-- A rounded quotient is at most one half away. -/
theorem roundQuotient_near (numerator : Nat) (positive : 0 < denominator) :
    2 * numerator ≤ (2 * roundQuotient numerator denominator + 1) * denominator ∧
      2 * roundQuotient numerator denominator * denominator ≤ 2 * numerator + denominator := by
  have splits := Nat.div_add_mod numerator denominator
  have small := Nat.mod_lt numerator positive
  have cases := roundQuotient_cases numerator denominator
  generalize numerator / denominator = quotient at *
  generalize numerator % denominator = remainder at *
  subst splits
  rcases cases with ⟨below, same⟩ | ⟨above, same⟩ | ⟨between, same⟩
  · rw [same]
    constructor <;> nlinarith
  · rw [same]
    constructor <;> nlinarith
  · rw [same]
    rcases Nat.mod_two_eq_zero_or_one quotient with even | odd
    · rw [even]
      constructor <;> nlinarith
    · rw [odd]
      constructor <;> nlinarith

/-- What is rounded stays at an odd number only below the half above it. -/
theorem roundQuotient_le_iff (numerator : Nat) {limit : Nat} (positive : 0 < denominator)
    (odd : limit % 2 = 1) :
    roundQuotient numerator denominator ≤ limit ↔
      2 * numerator < (2 * limit + 1) * denominator := by
  have splits := Nat.div_add_mod numerator denominator
  have small := Nat.mod_lt numerator positive
  have cases := roundQuotient_cases numerator denominator
  generalize numerator / denominator = quotient at *
  generalize numerator % denominator = remainder at *
  subst splits
  rcases Nat.lt_trichotomy quotient limit with less | rfl | greater
  · have room : denominator * (quotient + 1) ≤ denominator * limit :=
      Nat.mul_le_mul_left _ less
    refine iff_of_true (by omega) ?_
    nlinarith
  · have here : 2 * (denominator * quotient + remainder) < (2 * quotient + 1) * denominator ↔
        2 * remainder < denominator := by
      constructor <;> intro <;> nlinarith
    rw [here]
    omega
  · have room : denominator * (limit + 1) ≤ denominator * quotient :=
      Nat.mul_le_mul_left _ greater
    refine iff_of_false (by omega) ?_
    rw [Nat.not_lt]
    nlinarith

end Rounding

/-! ## Whole numbers -/

section Whole

variable {number : Nat}

/-- The exponent with which a positive whole number has a significand of 53 bits. -/
theorem exponentFor_one (positive : 0 < number) :
    exponentFor number 1 = (number.log2 : Int) - 52 := by
  have reached : 2 ^ number.log2 ≤ number := Nat.log2_self_le positive.ne'
  have one : Nat.log2 1 = 0 := by decide
  have range : 1 * fractionRange = 2 ^ 52 := by decide
  -- The guess is the exponent, because the number reaches the power of two below it.
  have reaches : (if (number.log2 : Int) - (0 : Nat) - 52 < 0 then
      1 * fractionRange ≤ number <<< ((number.log2 : Int) - (0 : Nat) - 52).natAbs
      else (1 * fractionRange) <<< ((number.log2 : Int) - (0 : Nat) - 52).natAbs ≤ number) := by
    rw [range]
    split
    next low =>
      have count : ((number.log2 : Int) - (0 : Nat) - 52).natAbs = 52 - number.log2 := by omega
      rw [count, Nat.shiftLeft_eq]
      calc
        2 ^ 52 = 2 ^ number.log2 * 2 ^ (52 - number.log2) := by
          rw [← Nat.pow_add]
          congr 1
          omega
        _ ≤ number * 2 ^ (52 - number.log2) := Nat.mul_le_mul_right _ reached
    next high =>
      have count : ((number.log2 : Int) - (0 : Nat) - 52).natAbs = number.log2 - 52 := by omega
      have whole : 52 + (number.log2 - 52) = number.log2 := by omega
      rwa [count, Nat.shiftLeft_eq, ← Nat.pow_add, whole]
  simp only [exponentFor, one]
  rw [if_pos reaches]
  omega

/-- The significand of a whole number, rounded to 53 bits. -/
def significandOf (number : Nat) : Nat :=
  scaledQuotient number 1 ((number.log2 : Int) - 52)

theorem significandOf_of_lt (short : number.log2 < 52) :
    significandOf number = number * 2 ^ (52 - number.log2) := by
  have negative : (number.log2 : Int) - 52 < 0 := by omega
  have count : ((number.log2 : Int) - 52).natAbs = 52 - number.log2 := by omega
  rw [significandOf, scaledQuotient, if_pos negative, roundQuotient_one, count, Nat.shiftLeft_eq]

theorem significandOf_of_le (long : 52 ≤ number.log2) :
    significandOf number = roundQuotient number (2 ^ (number.log2 - 52)) := by
  have nonnegative : ¬ (number.log2 : Int) - 52 < 0 := by omega
  have count : ((number.log2 : Int) - 52).natAbs = number.log2 - 52 := by omega
  rw [significandOf, scaledQuotient, if_neg nonnegative, count, Nat.shiftLeft_eq, Nat.one_mul]

/-- A significand has 53 bits, or is rounded up to the next power of two. -/
theorem significandOf_bounds (positive : 0 < number) :
    2 ^ 52 ≤ significandOf number ∧ significandOf number ≤ 2 ^ 53 := by
  have reached : 2 ^ number.log2 ≤ number := Nat.log2_self_le positive.ne'
  have below : number < 2 ^ (number.log2 + 1) := Nat.lt_log2_self
  rcases Nat.lt_or_ge number.log2 52 with short | long
  · have whole : 2 ^ number.log2 * 2 ^ (52 - number.log2) = 2 ^ 52 := by
      rw [← Nat.pow_add]
      congr 1
      omega
    rw [significandOf_of_lt short, ← whole]
    refine ⟨Nat.mul_le_mul_right _ reached, ?_⟩
    calc
      number * 2 ^ (52 - number.log2) ≤ 2 ^ (number.log2 + 1) * 2 ^ (52 - number.log2) :=
        Nat.mul_le_mul_right _ below.le
      _ = 2 ^ 53 := by
        rw [Nat.pow_succ, Nat.mul_right_comm, whole, ← Nat.pow_succ]
  · have whole : 2 ^ 52 * 2 ^ (number.log2 - 52) = 2 ^ number.log2 := by
      rw [← Nat.pow_add]
      congr 1
      omega
    have unit : 0 < 2 ^ (number.log2 - 52) := Nat.two_pow_pos _
    obtain ⟨low, high⟩ := le_roundQuotient number (2 ^ (number.log2 - 52))
    rw [significandOf_of_le long]
    constructor
    · refine le_trans ?_ low
      rw [Nat.le_div_iff_mul_le unit, whole]
      exact reached
    · refine high.trans (Nat.succ_le_of_lt ?_)
      rw [Nat.div_lt_iff_lt_mul unit]
      calc
        number < 2 ^ (number.log2 + 1) := below
        _ = 2 ^ 53 * 2 ^ (number.log2 - 52) := by
          rw [Nat.pow_succ, ← whole]
          ring

/-- A significand times its unit is at most half a unit away from the number. -/
theorem significandOf_near (positive : 0 < number) :
    |(significandOf number : ℚ) * 2 ^ ((number.log2 : Int) - 52) - number| ≤
        2 ^ ((number.log2 : Int) - 52) / 2 ∧
      (number < 2 ^ 53 →
        (significandOf number : ℚ) * 2 ^ ((number.log2 : Int) - 52) = number) := by
  rcases Nat.lt_or_ge number.log2 52 with short | long
  · have same : (significandOf number : ℚ) * 2 ^ ((number.log2 : Int) - 52) = number := by
      have whole : ((52 - number.log2 : Nat) : Int) + ((number.log2 : Int) - 52) = 0 := by omega
      rw [significandOf_of_lt short, Nat.cast_mul, Nat.cast_pow, Nat.cast_ofNat, mul_assoc,
        ← zpow_natCast, ← zpow_add₀ two_ne_zero, whole, zpow_zero, mul_one]
    refine ⟨?_, fun _ => same⟩
    rw [same, sub_self, abs_zero]
    positivity
  · have unit : (2 : ℚ) ^ ((number.log2 : Int) - 52) = ((2 ^ (number.log2 - 52) : Nat) : ℚ) := by
      have count : (number.log2 : Int) - 52 = ((number.log2 - 52 : Nat) : Int) := by omega
      rw [count, zpow_natCast, Nat.cast_pow, Nat.cast_ofNat]
    obtain ⟨above, below⟩ := roundQuotient_near number (Nat.two_pow_pos (number.log2 - 52))
    rw [significandOf_of_le long, unit]
    constructor
    · rw [abs_le]
      constructor
      · have above := Nat.mono_cast (α := ℚ) above
        push_cast at above ⊢
        linarith
      · have below := Nat.mono_cast (α := ℚ) below
        push_cast at below ⊢
        linarith
    · intro short
      have same : number.log2 = 52 := by
        have upper := (Nat.log2_lt positive.ne').mpr short
        omega
      rw [same, Nat.sub_self, Nat.pow_zero, roundQuotient_one, Nat.cast_one, mul_one]

/-- The number whose bits are a magnitude below infinity is finite. -/
theorem view_ofMagnitude {magnitude : Nat} (normal : fractionRange ≤ magnitude)
    (finite : magnitude < infinityBits) :
    (ofMagnitude false magnitude).view =
      .finite false (fractionRange + magnitude % fractionRange)
        ((magnitude / fractionRange : Nat) - 1075) := by
  have range : fractionRange = 0x10000000000000 := rfl
  have infinite : infinityBits = 0x7FF0000000000000 := rfl
  have bits : (UInt64.ofNat magnitude).toNat = magnitude := by
    rw [UInt64.toNat_ofNat']
    omega
  have room : exponentRange = 0x800 := rfl
  have first : 0 < magnitude / fractionRange := Nat.div_pos normal (by decide)
  have last : magnitude / fractionRange < 0x7FF := by
    rw [Nat.div_lt_iff_lt_mul (by decide), range]
    omega
  have field : magnitude / fractionRange % exponentRange = magnitude / fractionRange :=
    Nat.mod_eq_of_lt (by omega)
  have notLast : ¬ magnitude / fractionRange + 1 = exponentRange := by omega
  have notFirst : ¬ magnitude / fractionRange = 0 := first.ne'
  have positive : ¬ signWeight ≤ magnitude := by
    have sign : signWeight = 0x8000000000000000 := rfl
    omega
  simp only [ofMagnitude, view, negative, Bool.false_eq_true, if_false, Nat.add_zero, bits, field,
    if_neg notLast, if_neg notFirst, decide_eq_false positive]

theorem view_infinityBits : (ofMagnitude false infinityBits).view = .infinite false := by
  decide +kernel

/-- The bits of a whole number: the significand is added to the exponent less one, so that it
carries. -/
theorem ofInt_eq (positive : 0 < number) :
    ofInt number = ofMagnitude false
      (min infinityBits ((number.log2 + 1022) * fractionRange + significandOf number)) := by
  have notNegative : decide ((number : Int) < 0) = false := decide_eq_false (by omega)
  have count : ((number.log2 : Int) - 52 + 1074).toNat = number.log2 + 1022 := by omega
  rw [ofInt, notNegative, Int.natAbs_natCast, ofQuotient, if_neg positive.ne']
  simp only [exponentFor_one positive, count]
  rfl

/-! The exponents of the bound are variables below, with their values as equations: a power with a
literal exponent this large is not one to be evaluated. -/

theorem overflowBound_eq {exponent : Nat} (last : exponent = 970) :
    overflowBound = (2 ^ 54 - 1) * 2 ^ exponent := by
  rw [last, overflowBound]

/-- Twice the bound of overflow, in units of the largest finite numbers. -/
theorem overflowBound_mul_two {exponent : Nat} (largest : exponent = 971) :
    overflowBound * 2 = (2 ^ 54 - 1) * 2 ^ exponent := by
  obtain ⟨before, rfl⟩ : ∃ before, exponent = before + 1 := ⟨970, largest⟩
  rw [overflowBound_eq (Nat.succ.inj largest), Nat.mul_assoc, ← Nat.pow_succ]

theorem two_pow_le_overflowBound {power : Nat} (small : power ≤ 1023) :
    2 ^ power ≤ overflowBound := by
  obtain ⟨exponent, last⟩ : ∃ exponent, exponent = 970 := ⟨970, rfl⟩
  rw [overflowBound_eq last]
  calc
    2 ^ power ≤ 2 ^ (53 + exponent) := Nat.pow_le_pow_right Nat.two_pos (by omega)
    _ = 2 ^ 53 * 2 ^ exponent := Nat.pow_add 2 53 exponent
    _ ≤ (2 ^ 54 - 1) * 2 ^ exponent := Nat.mul_le_mul_right _ (by decide)

theorem overflowBound_le_two_pow {power : Nat} (large : 1024 ≤ power) :
    overflowBound ≤ 2 ^ power := by
  obtain ⟨exponent, last⟩ : ∃ exponent, exponent = 970 := ⟨970, rfl⟩
  rw [overflowBound_eq last]
  calc
    (2 ^ 54 - 1) * 2 ^ exponent ≤ 2 ^ 54 * 2 ^ exponent := Nat.mul_le_mul_right _ (by decide)
    _ = 2 ^ (54 + exponent) := (Nat.pow_add 2 54 exponent).symm
    _ ≤ 2 ^ power := Nat.pow_le_pow_right Nat.two_pos (by omega)

/-- With the highest exponent, a significand has 53 bits below the bound of overflow only. -/
theorem significandOf_lt_iff (highest : number.log2 = 1023) :
    significandOf number < 2 ^ 53 ↔ number < overflowBound := by
  have unit := Nat.two_pow_pos (number.log2 - 52)
  have limit := roundQuotient_le_iff number unit (by decide : (2 ^ 53 - 1) % 2 = 1)
  have odd : 2 * (2 ^ 53 - 1) + 1 = 2 ^ 54 - 1 := by decide
  have same : significandOf number = roundQuotient number (2 ^ (number.log2 - 52)) :=
    significandOf_of_le (by omega)
  rw [odd, ← overflowBound_mul_two (by omega), ← same] at limit
  omega

/-- A whole number below the bound of overflow stays below infinity, and no other does. -/
theorem lt_infinityBits_iff (positive : 0 < number) :
    (number.log2 + 1022) * fractionRange + significandOf number < infinityBits ↔
      number < overflowBound := by
  have range : fractionRange = 2 ^ 52 := by decide
  have infinite : infinityBits = 2047 * 2 ^ 52 := by decide
  obtain ⟨low, high⟩ := significandOf_bounds positive
  have reached : 2 ^ number.log2 ≤ number := Nat.log2_self_le positive.ne'
  have below : number < 2 ^ (number.log2 + 1) := Nat.lt_log2_self
  rw [range, infinite]
  rcases Nat.lt_trichotomy number.log2 1023 with less | same | greater
  · exact iff_of_true (by omega) (below.trans_le (two_pow_le_overflowBound less))
  · have significand := significandOf_lt_iff same
    omega
  · have beyond := (overflowBound_le_two_pow greater).trans reached
    exact iff_of_false (by omega) (Nat.not_lt.mpr beyond)

/-- Below the bound of overflow, a whole number is seen by its significand, which is carried into
the exponent if it is rounded up to 54 bits. -/
theorem view_ofInt (positive : 0 < number) (finite : number < overflowBound) :
    (ofInt number).view =
      if significandOf number < 2 ^ 53 then
        .finite false (significandOf number) ((number.log2 : Int) - 52)
      else .finite false (2 ^ 52) ((number.log2 : Int) - 51) := by
  have range : fractionRange = 2 ^ 52 := by decide
  obtain ⟨low, high⟩ := significandOf_bounds positive
  have small := (lt_infinityBits_iff positive).mpr finite
  have normal : fractionRange ≤
      (number.log2 + 1022) * fractionRange + significandOf number := by
    rw [range]
    omega
  rw [ofInt_eq positive, Nat.min_eq_right small.le, view_ofMagnitude normal small, range]
  split
  next fits =>
    have quotient : ((number.log2 + 1022) * 2 ^ 52 + significandOf number) / 2 ^ 52 =
        number.log2 + 1023 := by
      omega
    have remainder : 2 ^ 52 + ((number.log2 + 1022) * 2 ^ 52 + significandOf number) % 2 ^ 52 =
        significandOf number := by
      omega
    have exponent : ((number.log2 + 1023 : Nat) : Int) - 1075 = (number.log2 : Int) - 52 := by omega
    rw [quotient, remainder, exponent]
  next carries =>
    have same : significandOf number = 2 ^ 53 := by omega
    have quotient : ((number.log2 + 1022) * 2 ^ 52 + 2 ^ 53) / 2 ^ 52 = number.log2 + 1024 := by
      omega
    have remainder : 2 ^ 52 + ((number.log2 + 1022) * 2 ^ 52 + 2 ^ 53) % 2 ^ 52 = 2 ^ 52 := by
      omega
    have exponent : ((number.log2 + 1024 : Nat) : Int) - 1075 = (number.log2 : Int) - 51 := by omega
    rw [same, quotient, remainder, exponent]

/-- A whole number becomes infinite from the bound of overflow on. -/
theorem isInfinite_ofInt_iff (positive : 0 < number) :
    (ofInt number).isInfinite = true ↔ overflowBound ≤ number := by
  rcases Nat.lt_or_ge number overflowBound with finite | infinite
  · refine iff_of_false ?_ (Nat.not_le.mpr finite)
    have view := view_ofInt positive finite
    split at view
    · rw [isInfinite, view]
      exact Bool.false_ne_true
    · rw [isInfinite, view]
      exact Bool.false_ne_true
  · have large := Nat.not_lt.mp (mt (lt_infinityBits_iff positive).mp (Nat.not_lt.mpr infinite))
    refine iff_of_true ?_ infinite
    rw [isInfinite, ofInt_eq positive, Nat.min_eq_left large, view_infinityBits]

/-- Below the bound of overflow, a whole number is stood for. -/
theorem standsFor_ofInt (positive : 0 < number) (finite : number < overflowBound) :
    (ofInt number).StandsFor number := by
  have view := view_ofInt positive finite
  obtain ⟨low, high⟩ := significandOf_bounds positive
  obtain ⟨near, same⟩ := significandOf_near positive
  split at view
  next => exact .intro _ _ view (by omega) near same
  next carries =>
    -- One bit less with the next exponent is the same number.
    have full : significandOf number = 2 ^ 53 := by omega
    have carried : ((2 ^ 52 : Nat) : ℚ) * 2 ^ ((number.log2 : Int) - 51) =
        (significandOf number : ℚ) * 2 ^ ((number.log2 : Int) - 52) := by
      have next : (number.log2 : Int) - 51 = (number.log2 : Int) - 52 + 1 := by omega
      rw [full, next, zpow_add_one₀ two_ne_zero]
      push_cast
      ring
    have unit : (2 : ℚ) ^ ((number.log2 : Int) - 52) ≤ 2 ^ ((number.log2 : Int) - 51) :=
      zpow_le_zpow_right₀ one_le_two (by omega)
    refine .intro _ _ view le_rfl ?_ ?_
    · rw [carried]
      linarith
    · rw [carried]
      exact same

end Whole

end LedgerBook.Binary64
