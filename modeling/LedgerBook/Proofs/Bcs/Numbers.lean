import LedgerBook.Bcs.Writer
import Mathlib.Tactic.Ring
import Mathlib.Order.Basic
/-!
The two forms of numbers. In a fixed width the bytes of a number and the number of bytes determine
each other. A length has exactly one form of at most five groups of seven bits.
-/
namespace LedgerBook.Bcs

/-! ## Numbers of a fixed width -/

namespace Writer

theorem length_littleEndian (width value : Nat) : (littleEndian width value).length = width := by
  induction width generalizing value with
  | zero => rfl
  | succ width inductionHypothesis =>
      rw [littleEndian, List.length_cons, inductionHypothesis]

end Writer

namespace Reader

theorem littleEndian_cons (byte : UInt8) (rest : Bytes) :
    littleEndian (byte :: rest) = byte.toNat + 256 * littleEndian rest :=
  rfl

theorem littleEndian_lt (bytes : Bytes) : littleEndian bytes < 256 ^ bytes.length := by
  induction bytes with
  | nil => exact Nat.one_pos
  | cons byte rest inductionHypothesis =>
      have small := byte.toNat_lt
      rw [littleEndian_cons, List.length_cons, Nat.pow_succ]
      omega

/-- Reading the bytes of a number gives the number. -/
theorem littleEndian_write (width value : Nat) (fits : value < 256 ^ width) :
    littleEndian (Writer.littleEndian width value) = value := by
  induction width generalizing value with
  | zero =>
      have zero : value = 0 := by simpa using fits
      rw [zero]
      rfl
  | succ width inductionHypothesis =>
      have higher : value / 256 < 256 ^ width := by
        rw [Nat.pow_succ] at fits
        omega
      rw [Writer.littleEndian, littleEndian_cons, inductionHypothesis _ higher,
        UInt8.toNat_ofNat']
      omega

/-- Writing the number of some bytes in their width gives the bytes. -/
theorem write_littleEndian (bytes : Bytes) :
    Writer.littleEndian bytes.length (littleEndian bytes) = bytes := by
  induction bytes with
  | nil => rfl
  | cons byte rest inductionHypothesis =>
      have small := byte.toNat_lt
      have lowest : UInt8.ofNat (byte.toNat + 256 * littleEndian rest) = byte := by
        apply UInt8.toNat_inj.mp
        rw [UInt8.toNat_ofNat']
        omega
      have higher : (byte.toNat + 256 * littleEndian rest) / 256 = littleEndian rest := by
        omega
      rw [littleEndian_cons, List.length_cons, Writer.littleEndian, lowest, higher,
        inductionHypothesis]

end Reader

/-! ## Reading from the front -/

namespace Reader

variable {α β : Type}

theorem run_bind_eq_ok {first : Reader α} {next : α → Reader β} {input rest : Bytes} {value : β} :
    (first >>= next).run input = .ok value rest ↔
      ∃ head between, first.run input = .ok head between ∧
        (next head).run between = .ok value rest := by
  rw [EStateM.run_bind]
  cases first.run input with
  | ok head between =>
      constructor
      · intro follows
        exact ⟨head, between, rfl, follows⟩
      · intro facts
        obtain ⟨_, _, same, follows⟩ := facts
        cases same
        exact follows
  | error failure left =>
      constructor
      · intro impossible
        cases impossible
      · intro facts
        obtain ⟨_, _, impossible, _⟩ := facts
        cases impossible

theorem run_refuse_ne_ok {fault : Fault} {input rest : Bytes} {value : α} :
    (refuse fault : Reader α).run input ≠ .ok value rest := by
  intro impossible
  cases impossible

theorem run_bytes (count : Int) (input : Bytes) :
    (bytes count).run input =
      if count < 0 || (input.length : Int) < count then
        .error (.bcs (.endOfInput count input.length)) input
      else .ok (input.take count.toNat) (input.drop count.toNat) := by
  by_cases short : (count < 0 || (input.length : Int) < count) = true
  · simp only [bytes, EStateM.run_bind, EStateM.run_get, if_pos short]
    rfl
  · simp only [bytes, EStateM.run_bind, EStateM.run_get, if_neg short]
    rfl

/-- Taking bytes gives the front of the input if that is long enough. -/
theorem run_bytes_eq_ok {count : Int} {input taken rest : Bytes} :
    (bytes count).run input = .ok taken rest ↔
      input = taken ++ rest ∧ count = taken.length := by
  rw [run_bytes]
  constructor
  · intro takes
    split at takes
    · cases takes
    next enough =>
      cases takes
      simp only [Bool.or_eq_true, decide_eq_true_eq, not_or, not_lt] at enough
      refine ⟨(List.take_append_drop _ _).symm, ?_⟩
      rw [List.length_take]
      omega
  · intro facts
    obtain ⟨rfl, rfl⟩ := facts
    rw [if_neg (by simp), Int.toNat_natCast, List.take_left, List.drop_left]

/-- A number of some width is that of as many bytes at the front. -/
theorem run_unsigned_eq_ok {width : Nat} {input rest : Bytes} {value : Nat} :
    (unsigned width).run input = .ok value rest ↔
      value < 256 ^ width ∧ input = Writer.littleEndian width value ++ rest := by
  unfold unsigned
  rw [run_bind_eq_ok]
  constructor
  · intro facts
    obtain ⟨taken, between, takes, gives⟩ := facts
    cases gives
    obtain ⟨rfl, wide⟩ := run_bytes_eq_ok.mp takes
    have width_eq : width = taken.length := by omega
    subst width_eq
    exact ⟨littleEndian_lt taken, by rw [write_littleEndian]⟩
  · intro facts
    obtain ⟨fits, rfl⟩ := facts
    refine ⟨Writer.littleEndian width value, rest, ?_, ?_⟩
    · exact run_bytes_eq_ok.mpr ⟨rfl, by rw [Writer.length_littleEndian]⟩
    · rw [littleEndian_write width value fits]
      rfl

/-- A single byte is the front of the input. -/
theorem run_unsigned_one_eq_ok {input rest : Bytes} {value : Nat} :
    (unsigned 1).run input = .ok value rest ↔
      value < 256 ∧ input = UInt8.ofNat value :: rest := by
  rw [run_unsigned_eq_ok]
  rfl

theorem run_finish_eq_ok {input rest : Bytes} :
    finish.run input = .ok () rest ↔ input = [] ∧ rest = [] := by
  cases input with
  | nil =>
      constructor
      · intro ends
        cases ends
        exact ⟨rfl, rfl⟩
      · intro facts
        obtain ⟨-, rfl⟩ := facts
        rfl
  | cons byte others =>
      constructor
      · intro impossible
        cases impossible
      · intro facts
        obtain ⟨impossible, -⟩ := facts
        cases impossible

end Reader

/-! ## Lengths -/

theorem Writer.groups_of_lt {value : Nat} (small : value < 128) :
    groups value = [UInt8.ofNat value] := by
  rw [groups, if_pos small]

theorem Writer.groups_of_le {value : Nat} (large : 128 ≤ value) :
    groups value = UInt8.ofNat (value % 128 + 128) :: groups (value / 128) := by
  rw [groups, if_neg (by omega)]

theorem Writer.groups_ne_nil (value : Nat) : groups value ≠ [] := by
  rcases Nat.lt_or_ge value 128 with small | large
  · rw [groups_of_lt small]
    exact List.cons_ne_nil _ _
  · rw [groups_of_le large]
    exact List.cons_ne_nil _ _

namespace Reader

/-- What a length does with its next byte. -/
theorem run_lengthFrom_eq_ok {groups shift value result : Nat} {input rest : Bytes} :
    (lengthFrom (groups + 1) shift value).run input = .ok result rest ↔
      ∃ byte between, byte < 256 ∧ input = UInt8.ofNat byte :: between ∧
        ((128 ≤ byte ∧
            (lengthFrom groups (shift + 7) (value + byte % 128 * 2 ^ shift)).run between =
              .ok result rest) ∨
          byte < 128 ∧ (byte = 0 → shift = 0) ∧ result = value + byte * 2 ^ shift ∧
            result ≤ greatestLength ∧ rest = between) := by
  rw [lengthFrom, run_bind_eq_ok]
  constructor
  · intro facts
    obtain ⟨byte, between, reads, follows⟩ := facts
    obtain ⟨small, front⟩ := run_unsigned_one_eq_ok.mp reads
    refine ⟨byte, between, small, front, ?_⟩
    simp only [Nat.shiftLeft_eq] at follows
    split at follows
    next more => exact Or.inl ⟨more, follows⟩
    next last =>
      split at follows
      · exact False.elim (run_refuse_ne_ok follows)
      next needed =>
        split at follows
        · exact False.elim (run_refuse_ne_ok follows)
        next bounded =>
          cases follows
          -- The last byte has no highest bit, so that nothing is cut off.
          have low : byte % 128 = byte := Nat.mod_eq_of_lt (by omega)
          rw [low] at bounded ⊢
          exact Or.inr ⟨by omega, by omega, rfl, by omega, rfl⟩
  · intro facts
    obtain ⟨byte, between, small, front, ⟨more, follows⟩ | ⟨last, needed, rfl, bounded, rfl⟩⟩ :=
      facts
    · refine ⟨byte, between, run_unsigned_one_eq_ok.mpr ⟨small, front⟩, ?_⟩
      simp only [Nat.shiftLeft_eq]
      rw [if_pos more]
      exact follows
    · refine ⟨byte, rest, run_unsigned_one_eq_ok.mpr ⟨small, front⟩, ?_⟩
      have low : byte % 128 = byte := Nat.mod_eq_of_lt last
      simp only [Nat.shiftLeft_eq]
      rw [if_neg (by omega), if_neg (by omega), low, if_neg (by omega)]
      rfl

/-- The groups of a number are read back behind some bits that have been read already. -/
theorem run_lengthFrom_groups {groups shift value number : Nat} (rest : Bytes)
    (short : number < 128 ^ (groups + 1)) (needed : number = 0 → shift = 0)
    (bounded : value + number * 2 ^ shift ≤ greatestLength) :
    (lengthFrom (groups + 1) shift value).run (Writer.groups number ++ rest) =
      .ok (value + number * 2 ^ shift) rest := by
  induction groups generalizing shift value number with
  | zero =>
      have small : number < 128 := by simpa using short
      rw [run_lengthFrom_eq_ok, Writer.groups_of_lt small]
      exact ⟨number, rest, by omega, rfl, Or.inr ⟨small, needed, rfl, bounded, rfl⟩⟩
  | succ groups inductionHypothesis =>
      rw [run_lengthFrom_eq_ok]
      rcases Nat.lt_or_ge number 128 with small | large
      · rw [Writer.groups_of_lt small]
        exact ⟨number, rest, by omega, rfl, Or.inr ⟨small, needed, rfl, bounded, rfl⟩⟩
      · -- The bits of the lowest group and those of the others make up the number.
        have split :
            value + number % 128 * 2 ^ shift + number / 128 * 2 ^ (shift + 7) =
              value + number * 2 ^ shift := by
          have parts : number % 128 + 128 * (number / 128) = number :=
            Nat.mod_add_div number 128
          calc
            value + number % 128 * 2 ^ shift + number / 128 * 2 ^ (shift + 7) =
                value + (number % 128 + 128 * (number / 128)) * 2 ^ shift := by ring
            _ = value + number * 2 ^ shift := by rw [parts]
        have shorter : number / 128 < 128 ^ (groups + 1) := by
          rw [Nat.pow_succ] at short
          omega
        rw [Writer.groups_of_le large]
        refine ⟨number % 128 + 128, Writer.groups (number / 128) ++ rest, by omega, rfl,
          Or.inl ⟨by omega, ?_⟩⟩
        have low : (number % 128 + 128) % 128 = number % 128 := by omega
        rw [low, ← split]
        exact inductionHypothesis shorter (by omega) (by omega)

/-- Whatever is read as a length is the groups of some number. -/
theorem groups_of_run_lengthFrom {groups shift value result : Nat} {input rest : Bytes}
    (reads : (lengthFrom groups shift value).run input = .ok result rest) :
    ∃ number, input = Writer.groups number ++ rest ∧ (number = 0 → shift = 0) ∧
      result = value + number * 2 ^ shift ∧ result ≤ greatestLength := by
  induction groups generalizing shift value input with
  | zero => exact False.elim (run_refuse_ne_ok reads)
  | succ groups inductionHypothesis =>
      obtain ⟨byte, between, small, rfl, ⟨more, follows⟩ | ⟨last, needed, rfl, bounded, rfl⟩⟩ :=
        run_lengthFrom_eq_ok.mp reads
      · obtain ⟨higher, rfl, nonzero, rfl, bounded⟩ := inductionHypothesis follows
        have positive : higher ≠ 0 := by
          intro zero
          exact absurd (nonzero zero) (by omega)
        have large : 128 ≤ byte % 128 + 128 * higher := by omega
        have lowest : (byte % 128 + 128 * higher) % 128 + 128 = byte := by omega
        have others : (byte % 128 + 128 * higher) / 128 = higher := by omega
        refine ⟨byte % 128 + 128 * higher, ?_, by omega, by ring, bounded⟩
        rw [Writer.groups_of_le large, lowest, others]
        rfl
      · exact ⟨byte, by rw [Writer.groups_of_lt last]; rfl, needed, rfl, bounded⟩

/-- A length is the groups of a number that is not too great. -/
theorem run_length_eq_ok {input rest : Bytes} {value : Nat} :
    length.run input = .ok value rest ↔
      value ≤ greatestLength ∧ input = Writer.groups value ++ rest := by
  constructor
  · intro reads
    obtain ⟨number, front, -, result, bounded⟩ := groups_of_run_lengthFrom reads
    have same : value = number := by simpa using result
    subst same
    exact ⟨bounded, front⟩
  · intro facts
    obtain ⟨bounded, rfl⟩ := facts
    have short : value < 128 ^ (4 + 1) := lt_of_le_of_lt bounded (by decide)
    have reads : (lengthFrom (4 + 1) 0 0).run (Writer.groups value ++ rest) =
        .ok (0 + value * 2 ^ 0) rest :=
      run_lengthFrom_groups rest short (fun _ => rfl) (by simpa using bounded)
    rw [pow_zero, Nat.mul_one, Nat.zero_add] at reads
    exact reads

end Reader

end LedgerBook.Bcs
