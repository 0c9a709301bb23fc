import LedgerBook.MoveValue
import Mathlib.Data.List.Basic
/-!
Base64 texts of byte strings are read back. A byte string is first cut into values below 64, three
bytes into four of them, each of which stands for one character; padding fills the last group.
-/
namespace LedgerBook

namespace Base64

/-- The values of the characters that stand for a byte string. -/
def sextets : Bytes → List Nat
  | a :: b :: c :: rest =>
    a.toNat / 4 :: (a.toNat % 4 * 16 + b.toNat / 16) :: (b.toNat % 16 * 4 + c.toNat / 64)
      :: c.toNat % 64 :: sextets rest
  | [a, b] => [a.toNat / 4, a.toNat % 4 * 16 + b.toNat / 16, b.toNat % 16 * 4]
  | [a] => [a.toNat / 4, a.toNat % 4 * 16]
  | [] => []

/-- How much padding follows the characters of a byte string. -/
def padding (bytes : Bytes) : Nat :=
  (3 - bytes.length % 3) % 3

theorem encodeChars_eq (bytes : Bytes) :
    encodeChars bytes = (sextets bytes).map digit ++ List.replicate (padding bytes) '=' := by
  fun_induction sextets bytes with
  | case1 a b c rest inductionHypothesis =>
      have same : padding (a :: b :: c :: rest) = padding rest := by
        simp only [padding, List.length_cons]
        omega
      rw [encodeChars, inductionHypothesis, same]
      rfl
  | case2 a b => rfl
  | case3 a => rfl
  | case4 => rfl

theorem sextet_lt (bytes : Bytes) : ∀ value ∈ sextets bytes, value < 64 := by
  fun_induction sextets bytes with
  | case1 a b c rest inductionHypothesis =>
      have first := a.toNat_lt
      have second := b.toNat_lt
      have third := c.toNat_lt
      simp only [List.forall_mem_cons]
      exact ⟨by omega, by omega, by omega, by omega, inductionHypothesis⟩
  | case2 a b =>
      have first := a.toNat_lt
      have second := b.toNat_lt
      simp only [List.forall_mem_cons]
      exact ⟨by omega, by omega, by omega, List.forall_mem_nil _⟩
  | case3 a =>
      have first := a.toNat_lt
      simp only [List.forall_mem_cons]
      exact ⟨by omega, by omega, List.forall_mem_nil _⟩
  | case4 => exact List.forall_mem_nil _

theorem ofNat_eq_of_mod {number : Nat} {byte : UInt8} (same : number % 256 = byte.toNat) :
    UInt8.ofNat number = byte := by
  apply UInt8.toNat_inj.mp
  rw [UInt8.toNat_ofNat']
  exact same

theorem first_byte (a b : UInt8) :
    UInt8.ofNat (4 * (a.toNat / 4) + (a.toNat % 4 * 16 + b.toNat / 16) / 16) = a := by
  have first := a.toNat_lt
  have second := b.toNat_lt
  exact ofNat_eq_of_mod (by omega)

theorem second_byte (a b c : UInt8) :
    UInt8.ofNat (16 * (a.toNat % 4 * 16 + b.toNat / 16) + (b.toNat % 16 * 4 + c.toNat / 64) / 4) =
      b := by
  have second := b.toNat_lt
  have third := c.toNat_lt
  exact ofNat_eq_of_mod (by omega)

theorem third_byte (b c : UInt8) :
    UInt8.ofNat (64 * (b.toNat % 16 * 4 + c.toNat / 64) + c.toNat % 64) = c := by
  have third := c.toNat_lt
  exact ofNat_eq_of_mod (by omega)

/-- The values of a byte string pack it again: the bits that fill no byte are dropped. -/
theorem pack_sextets (bytes : Bytes) : pack (sextets bytes) = bytes := by
  fun_induction sextets bytes with
  | case1 a b c rest inductionHypothesis =>
      rw [pack, inductionHypothesis, first_byte, second_byte, third_byte]
  | case2 a b =>
      -- The last group has no third byte, which is as if it were zero.
      have last := second_byte a b 0
      rw [UInt8.toNat_zero, Nat.zero_div, Nat.add_zero] at last
      rw [pack, first_byte, last]
  | case3 a =>
      have last := first_byte a 0
      rw [UInt8.toNat_zero, Nat.zero_div, Nat.add_zero] at last
      rw [pack, last]
  | case4 => rfl

theorem padFits_sextets (bytes : Bytes) :
    padFits (sextets bytes).length (padding bytes) = true := by
  fun_induction sextets bytes with
  | case1 a b c rest inductionHypothesis =>
      have samePadding : padding (a :: b :: c :: rest) = padding rest := by
        simp only [padding, List.length_cons]
        omega
      have sameRest : ((sextets rest).length + 4) % 4 = (sextets rest).length % 4 := by
        omega
      simp only [List.length_cons, padFits, samePadding]
      rw [sameRest]
      simp only [padFits] at inductionHypothesis
      split
      next => simp
      next two => rw [two] at inductionHypothesis; exact inductionHypothesis
      next three => rw [three] at inductionHypothesis; exact inductionHypothesis
      next one two three =>
        split at inductionHypothesis
        next zero => exact absurd zero one
        next zero => exact absurd zero two
        next zero => exact absurd zero three
        next => exact inductionHypothesis
  | case2 a b => rfl
  | case3 a => rfl
  | case4 => rfl

theorem digit_ne_pad {value : Nat} (small : value < 64) : digit value ≠ '=' := by
  revert value
  decide

theorem digit_ascii {value : Nat} (small : value < 64) : (digit value).toNat < 128 := by
  revert value
  decide

theorem mapM_value?_digit {values : List Nat} (small : ∀ value ∈ values, value < 64) :
    (values.map digit).mapM value? = some values := by
  induction values with
  | nil => rfl
  | cons first rest inductionHypothesis =>
      rw [List.forall_mem_cons] at small
      rw [List.map_cons, List.mapM_cons, value?_digit first small.1, inductionHypothesis small.2]
      rfl

theorem takeWhile_digits {values : List Nat} (small : ∀ value ∈ values, value < 64)
    (count : Nat) :
    (values.map digit ++ List.replicate count '=').takeWhile (· != '=') = values.map digit ∧
      (values.map digit ++ List.replicate count '=').dropWhile (· != '=') =
        List.replicate count '=' := by
  have digits : ∀ c ∈ values.map digit, (c != '=') = true := by
    intro c member
    obtain ⟨value, valueMember, rfl⟩ := List.mem_map.mp member
    exact bne_iff_ne.mpr (digit_ne_pad (small value valueMember))
  rw [List.takeWhile_append_of_pos digits, List.dropWhile_append_of_pos digits]
  cases count with
  | zero => simp
  | succ count => simp [List.replicate_succ]

/-- The text of a byte string is read back. -/
theorem decodeChars?_encodeChars (bytes : Bytes) :
    decodeChars? (encodeChars bytes) = some bytes := by
  obtain ⟨digits, rest⟩ := takeWhile_digits (sextet_lt bytes) (padding bytes)
  have onlyPadding : (List.replicate (padding bytes) '=').all (· == '=') = true := by
    simp
  simp only [decodeChars?, encodeChars_eq, digits, rest, mapM_value?_digit (sextet_lt bytes),
    onlyPadding, List.length_map, List.length_replicate, padFits_sextets]
  change some (pack (sextets bytes)) = some bytes
  rw [pack_sextets]

theorem encodeChars_ascii (bytes : Bytes) : ∀ c ∈ encodeChars bytes, c.toNat < 128 := by
  intro c member
  rw [encodeChars_eq, List.mem_append] at member
  rcases member with isDigit | isPadding
  · obtain ⟨value, valueMember, rfl⟩ := List.mem_map.mp isDigit
    exact digit_ascii (sextet_lt bytes value valueMember)
  · rw [List.eq_of_mem_replicate isPadding]
    decide

end Base64

/-- The payload of a value that was made from a byte string is that byte string. -/
theorem MoveValue.bytes_encode (type : Text) (bytes : Bytes) :
    MoveValue.bytes ⟨type, Base64.encode bytes⟩ = .ok bytes := by
  have characters : Text.chars (Base64.encode bytes) = Base64.encodeChars bytes := by
    rw [Text.chars_ofString, Base64.encode, String.toList_ofList]
  have ascii : (Base64.encodeChars bytes).any (128 ≤ ·.toNat) = false := by
    rw [List.any_eq_false]
    intro c member
    have := Base64.encodeChars_ascii bytes c member
    simp only [decide_eq_true_eq]
    omega
  simp only [MoveValue.bytes, characters, ascii, Base64.decodeChars?_encodeChars]
  rfl

end LedgerBook
