import LedgerBook.Config
import LedgerBook.Proofs.Number.Binary64
import LedgerBook.Proofs.Number.Numeral
/-!
What the variables of the environment tell. A variable that holds the text of a positive integer
tells this integer, every other variable tells nothing, and then a default stands in its place. As a
floating-point number such an integer is known only below the bound of overflow.
-/
namespace LedgerBook

namespace Environment

variable {environment : Environment} {name : Text} {number default : Int}

/-- A variable tells a positive integer: its text writes it, whatever blanks there are around. -/
def Tells (environment : Environment) (name : Text) (number : Int) : Prop :=
  0 < number ∧ Numeral.Writes (Text.strip ((environment name).getD [])) number

/-- The integer that a variable tells, or the default if it tells none. -/
def TellsElse (environment : Environment) (name : Text) (default number : Int) : Prop :=
  environment.Tells name number ∨ (∀ said, ¬ environment.Tells name said) ∧ number = default

theorem positive?_eq_some_iff :
    environment.positive? name = some number ↔ environment.Tells name number := by
  rw [positive?, Tells, ← Numeral.integer?_eq_some_iff]
  cases Numeral.integer? (Text.strip ((environment name).getD [])) with
  | none =>
      constructor
      · intro impossible
        cases impossible
      · rintro ⟨_, impossible⟩
        cases impossible
  | some value =>
      simp only [Option.ite_none_right_eq_some, Option.some.injEq]
      constructor
      · rintro ⟨positive, rfl⟩
        exact ⟨positive, rfl⟩
      · rintro ⟨positive, rfl⟩
        exact ⟨positive, rfl⟩

theorem tellsElse_iff :
    environment.TellsElse name default number ↔
      (environment.positive? name).getD default = number := by
  rw [TellsElse]
  cases said : environment.positive? name with
  | none =>
      have tells (value : Int) : ¬ environment.Tells name value := by
        rw [← positive?_eq_some_iff, said]
        exact nofun
      constructor
      · rintro (impossible | ⟨_, same⟩)
        · exact absurd impossible (tells number)
        · exact same.symm
      · intro same
        exact .inr ⟨tells, same.symm⟩
  | some value =>
      have tells := positive?_eq_some_iff.mp said
      constructor
      · rintro (also | ⟨nothing, _⟩)
        · rw [← positive?_eq_some_iff, said] at also
          exact Option.some.inj also
        · exact absurd tells (nothing value)
      · rintro rfl
        exact .inl tells

theorem TellsElse.positive (tells : environment.TellsElse name default number)
    (positive : 0 < default) : 0 < number := by
  rcases tells with ⟨isPositive, _⟩ | ⟨_, rfl⟩
  · exact isPositive
  · exact positive

theorem TellsElse.nonneg (tells : environment.TellsElse name default number)
    (nonneg : 0 ≤ default) : 0 ≤ number := by
  rcases tells with ⟨isPositive, _⟩ | ⟨_, rfl⟩
  · exact isPositive.le
  · exact nonneg

end Environment

/-- A positive integer has a floating-point number that stands for it below the bound of overflow,
and none from there on. -/
theorem Json.floatOfInt_natCast {number : Nat} (positive : 0 < number) :
    floatOfInt number = if number < Binary64.overflowBound then .ok (Binary64.ofInt number)
      else .error .outOfRange := by
  rw [floatOfInt]
  split
  next infinite =>
    rw [if_neg (Nat.not_lt.mpr ((Binary64.isInfinite_ofInt_iff positive).mp infinite))]
    rfl
  next finite =>
    have small := Nat.not_le.mp (mt (Binary64.isInfinite_ofInt_iff positive).mpr finite)
    rw [if_pos small]
    rfl

end LedgerBook
