import LedgerBook.Text.Digit
import Mathlib.Data.List.Forall2
import Mathlib.Data.Nat.Digits.Lemmas
/-!
Numbers in hexadecimal digits. The reader takes digits in either case and is undone by the writer,
which writes as many digits in lower case as it is asked for.
-/
namespace LedgerBook.Text

/-! ## Digits -/

def lowerDigits : List Char :=
  "0123456789abcdef".toList

def upperDigits : List Char :=
  "0123456789ABCDEF".toList

/-- A character is the hexadecimal digit of a value in lower case. -/
def IsLowerDigit (c : Char) (value : Nat) : Prop :=
  lowerDigits[value]? = some c

/-- A character is the hexadecimal digit of a value in one of the cases. -/
def IsHexDigit (c : Char) (value : Nat) : Prop :=
  IsLowerDigit c value ∨ upperDigits[value]? = some c

section Digits

variable {c : Char} {value : Nat}

instance : Decidable (IsLowerDigit c value) :=
  inferInstanceAs (Decidable (lowerDigits[value]? = some c))

instance : Decidable (IsHexDigit c value) :=
  inferInstanceAs (Decidable (IsLowerDigit c value ∨ upperDigits[value]? = some c))

theorem IsLowerDigit.isHexDigit (digit : IsLowerDigit c value) : IsHexDigit c value :=
  .inl digit

theorem IsHexDigit.lt (digit : IsHexDigit c value) : value < 16 := by
  rcases digit with lower | upper
  · exact (List.getElem?_eq_some_iff.mp lower).1
  · exact (List.getElem?_eq_some_iff.mp upper).1

theorem isLowerDigit_hexDigit : ∀ value < 16, IsLowerDigit (hexDigit value) value := by
  decide

/-- What holds of the characters of ASCII may be checked number by number. -/
theorem of_ascii {p : Char → Prop} (byNumber : ∀ number < 128, p (Char.ofNat number))
    (ascii : c.toNat < 128) : p c := by
  have ofNumber := byNumber c.toNat ascii
  rwa [Char.ofNat_toNat] at ofNumber

theorem toNat_lt_of_hexDigit? (digit : hexDigit? c = some value) : c.toNat < 128 := by
  have among : ('0' ≤ c ∧ c ≤ '9') ∨ ('a' ≤ c ∧ c ≤ 'f') ∨ ('A' ≤ c ∧ c ≤ 'F') := by
    by_contra outside
    simp only [not_or] at outside
    simp [hexDigit?, outside] at digit
  simp only [Char.le_def, UInt32.le_iff_toNat_le] at among
  change c.val.toNat < 128
  have bounds : ('9' : Char).val.toNat < 128 ∧ ('f' : Char).val.toNat < 128 ∧
      ('F' : Char).val.toNat < 128 := by decide
  omega

theorem hexDigit?_eq_some_iff : hexDigit? c = some value ↔ IsHexDigit c value := by
  constructor
  · intro digit
    -- There are too many characters to go through, but only those of ASCII are read.
    exact of_ascii (p := fun c => ∀ value ∈ hexDigit? c, IsHexDigit c value)
      (by decide +kernel) (toNat_lt_of_hexDigit? digit) value digit
  · intro digit
    have read : ∀ value < 16, lowerDigits[value]?.bind hexDigit? = some value ∧
        upperDigits[value]?.bind hexDigit? = some value := by
      decide
    obtain ⟨lowerRead, upperRead⟩ := read value digit.lt
    rcases digit with lower | upper
    · rwa [lower] at lowerRead
    · rwa [upper] at upperRead

end Digits

/-! ## Numbers -/

/-- Characters are the digits of a number, the highest first, where each of them is the digit of its
value in a given sense. -/
def Denotes (isDigit : Char → Nat → Prop) (digits : List Char) (number : Nat) : Prop :=
  ∃ values, List.Forall₂ isDigit digits values ∧ number = Nat.ofDigits 16 values.reverse

section Numbers

variable {digits : List Char} {number : Nat}

theorem Denotes.isHex (denotes : Denotes IsLowerDigit digits number) :
    Denotes IsHexDigit digits number := by
  obtain ⟨values, areDigits, same⟩ := denotes
  exact ⟨values, areDigits.imp fun _ _ => IsLowerDigit.isHexDigit, same⟩

theorem Denotes.exists_digit {isDigit : Char → Nat → Prop}
    (denotes : Denotes isDigit digits number) {c : Char} (inside : c ∈ digits) :
    ∃ value, isDigit c value := by
  obtain ⟨values, areDigits, -⟩ := denotes
  obtain ⟨place, within, rfl⟩ := List.getElem_of_mem inside
  exact ⟨_, areDigits.get within (areDigits.length_eq ▸ within)⟩

theorem Denotes.lt (denotes : Denotes IsHexDigit digits number) :
    number < 16 ^ digits.length := by
  obtain ⟨values, areDigits, rfl⟩ := denotes
  have small : ∀ value ∈ values.reverse, value < 16 := by
    intro value inside
    obtain ⟨place, within, rfl⟩ := List.getElem_of_mem (List.mem_reverse.mp inside)
    exact (areDigits.get (areDigits.length_eq ▸ within) within).lt
  rw [areDigits.length_eq, ← List.length_reverse]
  exact Nat.ofDigits_lt_base_pow_length (by decide) small

theorem foldlM_hexDigit?_eq_some_iff {start : Nat} :
    digits.foldlM (fun value c => (hexDigit? c).map (16 * value + ·)) start = some number ↔
      ∃ values, List.Forall₂ IsHexDigit digits values ∧
        number = values.foldl (fun value digit => 16 * value + digit) start := by
  induction digits generalizing start with
  | nil =>
      constructor
      · rintro ⟨⟩
        exact ⟨[], .nil, rfl⟩
      · rintro ⟨_, ⟨⟩, rfl⟩
        rfl
  | cons c rest inductionHypothesis =>
      rw [List.foldlM_cons, Option.bind_eq_bind, Option.bind_eq_some_iff]
      constructor
      · rintro ⟨_, reads, goesOn⟩
        obtain ⟨value, digit, rfl⟩ := Option.map_eq_some_iff.mp reads
        obtain ⟨values, areDigits, same⟩ := inductionHypothesis.mp goesOn
        exact ⟨value :: values, .cons (hexDigit?_eq_some_iff.mp digit) areDigits, same⟩
      · rintro ⟨_, areDigits, same⟩
        cases areDigits with
        | cons digit areDigits =>
            refine ⟨_, ?_, inductionHypothesis.mpr ⟨_, areDigits, same⟩⟩
            rw [hexDigit?_eq_some_iff.mpr digit]
            rfl

/-- Characters are read as the number of which they are the digits. -/
theorem hexValue?_eq_some_iff :
    hexValue? digits = some number ↔ Denotes IsHexDigit digits number := by
  unfold Denotes
  rw [hexValue?, foldlM_hexDigit?_eq_some_iff]
  simp only [Nat.ofDigits_eq_foldr, List.foldr_reverse, Nat.cast_id, Nat.add_comm]

/-- The digits written of a number that has no more of them are its digits. -/
theorem denotes_hexDigits {count : Nat} (small : number < 16 ^ count) :
    Denotes IsLowerDigit (hexDigits count number) number := by
  induction count generalizing number with
  | zero =>
      rw [Nat.pow_zero, Nat.lt_one_iff] at small
      exact ⟨[], .nil, small⟩
  | succ count inductionHypothesis =>
      have higher : number / 16 < 16 ^ count := by
        rw [Nat.pow_succ] at small
        omega
      obtain ⟨values, areDigits, same⟩ := inductionHypothesis higher
      have last := isLowerDigit_hexDigit (number % 16) (Nat.mod_lt _ (by decide))
      refine ⟨values ++ [number % 16], List.rel_append areDigits (.cons last .nil), ?_⟩
      rw [List.reverse_append, List.reverse_singleton, List.singleton_append, Nat.ofDigits_cons,
        ← same]
      exact (Nat.mod_add_div number 16).symm

end Numbers

end LedgerBook.Text
