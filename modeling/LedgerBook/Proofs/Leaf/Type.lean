import LedgerBook.Leaf
import LedgerBook.Proofs.Text.Characters
import LedgerBook.Proofs.Text.Hexadecimal
import Mathlib.Data.List.TakeWhile
/-!
The types of leaves. A text is taken for the type of a leaf exactly if it is spelled as one: an
address with its marker, the name of leaves, and an argument in brackets, which may hold brackets of
its own. The last bracket closes the argument, so that a type is spelled in one way only.
-/
namespace LedgerBook.Leaf

open Text (IsHexDigit ofChars)

/-- How the type of a leaf is spelled. -/
@[ext]
structure Spelling where
  /-- The digits of the address behind its marker. -/
  digits : List Char
  /-- All that stands between the first bracket and the last one. -/
  argument : Text
  /-- Whether an end of line follows the last bracket. -/
  endsLine : Bool
  digits_pos : 1 ≤ digits.length
  digits_le : digits.length ≤ 64
  digits_hex : ∀ c ∈ digits, ∃ value, IsHexDigit c value
  argument_ne_nil : argument ≠ []
  argument_line : .char '\n' ∉ argument

namespace Spelling

/-- What follows the last bracket. -/
def lineEnd (spelling : Spelling) : List Char :=
  if spelling.endsLine then ['\n'] else []

/-- The type that is spelled. -/
def text (spelling : Spelling) : Text :=
  "0x" ++ ofChars spelling.digits ++ "::ordered_map::Leaf<" ++ spelling.argument ++ ">" ++
    ofChars spelling.lineEnd

end Spelling

/-! ## Digits -/

theorem isHex_iff {c : Char} : isHex c = true ↔ ∃ value, IsHexDigit c value := by
  rw [isHex, Option.isSome_iff_exists]
  simp only [Text.hexDigit?_eq_some_iff]

section Characters

variable {cs digits rest : List Char}

theorem typeName_eq : typeName = ':' :: typeName.tail := by
  decide

/-- The digits before the name of leaves end where the name begins. -/
theorem takeWhile_isHex (areHex : ∀ c ∈ digits, isHex c = true) (rest : List Char) :
    (digits ++ (typeName ++ rest)).takeWhile isHex = digits := by
  have noDigit : isHex ':' = false := by decide
  rw [List.takeWhile_append_of_pos areHex, typeName_eq, List.cons_append, List.takeWhile_cons,
    noDigit]
  exact List.append_nil digits

theorem dropWhile_isHex (areHex : ∀ c ∈ digits, isHex c = true) (rest : List Char) :
    (digits ++ (typeName ++ rest)).dropWhile isHex = typeName ++ rest := by
  have noDigit : isHex ':' = false := by decide
  rw [List.dropWhile_append_of_pos areHex, typeName_eq, List.cons_append, List.dropWhile_cons,
    noDigit]
  rfl

/-! ## Arguments -/

/-- A line is an argument and its last bracket. -/
def Closes (line : List Char) : Prop :=
  ∃ inner, line = inner ++ ['>'] ∧ inner ≠ [] ∧ '\n' ∉ inner

theorem closes_iff {line : List Char} :
    (line.getLast? == some '>' && !line.dropLast.isEmpty && line.dropLast.all (· != '\n')) = true ↔
      Closes line := by
  rw [Bool.and_eq_true, Bool.and_eq_true, beq_iff_eq, Bool.not_eq_true', List.isEmpty_eq_false_iff,
    List.all_eq_true]
  constructor
  · rintro ⟨⟨last, nonempty⟩, oneLine⟩
    obtain ⟨inner, rfl⟩ := List.getLast?_eq_some_iff.mp last
    rw [List.dropLast_concat] at nonempty oneLine
    refine ⟨inner, rfl, nonempty, ?_⟩
    intro inside
    exact absurd (oneLine '\n' inside) (by decide)
  · rintro ⟨inner, rfl, nonempty, oneLine⟩
    rw [List.getLast?_concat, List.dropLast_concat]
    refine ⟨⟨rfl, nonempty⟩, ?_⟩
    intro c inside
    rw [bne_iff_ne]
    rintro rfl
    exact oneLine inside

theorem isArgument_of_endsLine (line : List Char) :
    isArgument (line ++ ['\n']) = true ↔ Closes line := by
  rw [← closes_iff, isArgument, List.getLast?_concat, List.dropLast_concat]
  rfl

theorem isArgument_of_no_end (noEnd : cs.getLast? ≠ some '\n') :
    isArgument cs = true ↔ Closes cs := by
  rw [← closes_iff, isArgument, beq_false_of_ne noEnd]
  rfl

/-- Characters end the type of a leaf exactly if they are an argument, the bracket that closes it and
maybe the end of a line. -/
theorem isArgument_iff :
    isArgument cs = true ↔
      ∃ (inner : List Char) (endsLine : Bool), inner ≠ [] ∧ '\n' ∉ inner ∧
        cs = inner ++ ('>' :: if endsLine then ['\n'] else []) := by
  by_cases ends : cs.getLast? = some '\n'
  · obtain ⟨line, rfl⟩ := List.getLast?_eq_some_iff.mp ends
    rw [isArgument_of_endsLine]
    constructor
    · rintro ⟨inner, rfl, nonempty, oneLine⟩
      exact ⟨inner, true, nonempty, oneLine, List.append_assoc _ _ _⟩
    · rintro ⟨inner, endsLine, nonempty, oneLine, same⟩
      cases endsLine with
      | true =>
          have whole : line ++ ['\n'] = (inner ++ ['>']) ++ ['\n'] := by
            rw [same, List.append_assoc]
            rfl
          exact ⟨inner, List.append_cancel_right whole, nonempty, oneLine⟩
      | false =>
          have last := congrArg List.getLast? same
          rw [List.getLast?_concat, List.getLast?_append] at last
          have different : some '\n' ≠ some '>' := by decide
          exact absurd last different
  · rw [isArgument_of_no_end ends]
    constructor
    · rintro ⟨inner, rfl, nonempty, oneLine⟩
      exact ⟨inner, false, nonempty, oneLine, rfl⟩
    · rintro ⟨inner, endsLine, nonempty, oneLine, rfl⟩
      cases endsLine with
      | true =>
          rw [List.getLast?_append] at ends
          exact absurd rfl ends
      | false => exact ⟨inner, rfl, nonempty, oneLine⟩

/-! ## Types -/

/-- The characters of a type of a leaf, part by part. -/
theorem isTypeChars_iff :
    isTypeChars cs = true ↔
      ∃ digits rest, cs = '0' :: 'x' :: (digits ++ (typeName ++ rest)) ∧
        1 ≤ digits.length ∧ digits.length ≤ 64 ∧ (∀ c ∈ digits, isHex c = true) ∧
          isArgument rest = true := by
  constructor
  · intro accepted
    unfold isTypeChars at accepted
    split at accepted
    next after =>
      simp only [Bool.and_eq_true, Bool.not_eq_true', List.isEmpty_eq_false_iff,
        decide_eq_true_eq, List.isPrefixOf_iff_prefix] at accepted
      obtain ⟨⟨⟨nonempty, few⟩, named⟩, argument⟩ := accepted
      obtain ⟨rest, goesOn⟩ := named
      rw [← goesOn, List.drop_left] at argument
      refine ⟨after.takeWhile isHex, rest, ?_, List.length_pos_of_ne_nil nonempty, few, ?_,
        argument⟩
      · rw [goesOn, List.takeWhile_append_dropWhile]
      · intro c inside
        exact List.mem_takeWhile_imp inside
    next => cases accepted
  · rintro ⟨digits, rest, rfl, some, few, areHex, argument⟩
    rw [isTypeChars, takeWhile_isHex areHex, dropWhile_isHex areHex, List.drop_left, argument]
    simp only [Bool.and_eq_true, Bool.not_eq_true', List.isEmpty_eq_false_iff,
      decide_eq_true_eq, List.isPrefixOf_iff_prefix, and_true]
    exact ⟨⟨List.ne_nil_of_length_pos some, few⟩, List.prefix_append _ _⟩

end Characters

namespace Spelling

theorem isHex_digits (spelling : Spelling) : ∀ c ∈ spelling.digits, isHex c = true :=
  fun c inside => isHex_iff.mpr (spelling.digits_hex c inside)

/-- A type in three parts: what stands before the argument, the argument, and what follows it. -/
theorem text_eq (spelling : Spelling) :
    spelling.text =
      ofChars ('0' :: 'x' :: (spelling.digits ++ typeName)) ++
        (spelling.argument ++ ofChars ('>' :: spelling.lineEnd)) := by
  have marker : Text.ofString "0x" = ofChars ['0', 'x'] := by decide
  have bracket : Text.ofString ">" = ofChars ['>'] := by decide
  have front : ofChars ('0' :: 'x' :: (spelling.digits ++ typeName)) =
      ofChars ['0', 'x'] ++ (ofChars spelling.digits ++ ofChars typeName) := by
    rw [← Text.ofChars_append, ← Text.ofChars_append]
    rfl
  have back : ofChars ('>' :: spelling.lineEnd) = ofChars ['>'] ++ ofChars spelling.lineEnd := by
    rw [← Text.ofChars_append]
    rfl
  rw [text, marker, bracket, front, back]
  simp only [List.append_assoc]
  rfl

theorem chars_text (spelling : Spelling) :
    spelling.text.chars =
      '0' :: 'x' :: (spelling.digits ++
        (typeName ++ (spelling.argument.chars ++ '>' :: spelling.lineEnd))) := by
  rw [text_eq, Text.chars_append, Text.chars_append, Text.chars_ofChars, Text.chars_ofChars,
    List.cons_append, List.cons_append, List.append_assoc]

theorem isType_text (spelling : Spelling) : isType spelling.text = true := by
  rw [isType, isTypeChars_iff, chars_text]
  refine ⟨spelling.digits, _, rfl, spelling.digits_pos, spelling.digits_le, spelling.isHex_digits,
    ?_⟩
  rw [isArgument_iff]
  refine ⟨spelling.argument.chars, spelling.endsLine, ?_, ?_, rfl⟩
  · intro empty
    exact spelling.argument_ne_nil (List.map_eq_nil_iff.mp empty)
  · intro inside
    exact spelling.argument_line ((Text.char_mem_iff (by decide)).mpr inside)

theorem exists_of_isType {type : Text} (accepted : isType type = true) :
    ∃ spelling : Spelling, spelling.text = type := by
  obtain ⟨digits, rest, same, some, few, areHex, argument⟩ := isTypeChars_iff.mp accepted
  obtain ⟨inner, endsLine, nonempty, oneLine, rfl⟩ := isArgument_iff.mp argument
  have noHalfBefore : '\uFFFD' ∉ '0' :: 'x' :: (digits ++ typeName) := by
    simp only [List.mem_cons, List.mem_append, not_or]
    refine ⟨by decide, by decide, ?_, by decide⟩
    intro inside
    exact absurd (areHex _ inside) (by decide)
  have noHalfAfter : '\uFFFD' ∉ '>' :: if endsLine then ['\n'] else [] := by
    cases endsLine <;> decide
  have parts : type.chars =
      ('0' :: 'x' :: (digits ++ typeName)) ++
        (inner ++ '>' :: if endsLine then ['\n'] else []) := by
    rw [same, List.cons_append, List.cons_append, List.append_assoc]
  -- Halves may stand in the argument, so that only the ends of the text are known by characters.
  obtain ⟨between, rfl, rfl⟩ := Text.exists_between_of_chars noHalfBefore noHalfAfter parts
  refine ⟨⟨digits, between, endsLine, some, few, ?_, ?_, ?_⟩, text_eq _⟩
  · exact fun c inside => isHex_iff.mp (areHex c inside)
  · rintro rfl
    exact nonempty rfl
  · intro inside
    exact oneLine ((Text.char_mem_iff (by decide)).mp inside)

/-! ## Types are spelled in one way -/

theorem digits_eq_of_text_eq {spelling other : Spelling} (same : spelling.text = other.text) :
    spelling.digits = other.digits := by
  have chars := congrArg Text.chars same
  rw [chars_text, chars_text, List.cons_inj_right, List.cons_inj_right] at chars
  rw [← takeWhile_isHex spelling.isHex_digits, chars, takeWhile_isHex other.isHex_digits]

theorem endsLine_iff (spelling : Spelling) :
    spelling.endsLine = true ↔ spelling.text.getLast? = some (.char '\n') := by
  rw [text_eq, List.getLast?_append, List.getLast?_append, lineEnd]
  cases spelling.endsLine with
  | true => exact iff_of_true rfl rfl
  | false =>
      have different : some (CodePoint.char '>') ≠ some (.char '\n') := by decide
      exact iff_of_false Bool.noConfusion different

theorem text_injective : Function.Injective text := by
  intro spelling other same
  have digits : spelling.digits = other.digits := digits_eq_of_text_eq same
  have ends : spelling.endsLine = other.endsLine := by
    rw [Bool.eq_iff_iff, endsLine_iff, endsLine_iff, same]
  rw [text_eq, text_eq, lineEnd, lineEnd, digits, ends] at same
  have argument := List.append_cancel_right (List.append_cancel_left same)
  exact Spelling.ext digits argument ends

end Spelling

/-- A text is taken for the type of a leaf exactly if it is spelled as one, and there is only one way
to spell it: the digits end at the name, and the argument ends at the last bracket, however many
brackets there are. -/
theorem isType_exactly_spelled :
    (∀ type : Text, isType type = true ↔ ∃ spelling : Spelling, spelling.text = type) ∧
      Function.Injective Spelling.text := by
  refine ⟨?_, Spelling.text_injective⟩
  intro type
  constructor
  · exact Spelling.exists_of_isType
  · rintro ⟨spelling, rfl⟩
    exact spelling.isType_text

example : isType "0x2::ordered_map::Leaf<Pair<u64, u8>>\n" = true := by cbv

end LedgerBook.Leaf
