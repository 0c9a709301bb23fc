import LedgerBook.Number.Numeral
import Mathlib.Data.List.Basic
import Mathlib.Data.List.TakeWhile
import Mathlib.Data.Nat.Digits.Defs
/-!
How people write integers: a sign, which may be left out, and digits of any script, where one
underscore may stand between two of them, with white space around. A text that is written in this
way is read as its integer, and every other text as none.
-/
namespace LedgerBook

namespace Text

variable {α : Type} {drops : α → Bool} {items core before after : List α}

/-- What is trimmed off a list stood at its ends. -/
theorem exists_trimWhere (drops : α → Bool) (items : List α) :
    ∃ before after, items = before ++ (trimWhere drops items ++ after) ∧
      (∀ item ∈ before, drops item = true) ∧ ∀ item ∈ after, drops item = true := by
  have front := List.takeWhile_append_dropWhile (p := drops) (l := items)
  have back := List.takeWhile_append_dropWhile (p := drops) (l := (items.dropWhile drops).reverse)
  refine ⟨items.takeWhile drops, ((items.dropWhile drops).reverse.takeWhile drops).reverse, ?_,
    fun item inside => List.mem_takeWhile_imp inside,
    fun item inside => List.mem_takeWhile_imp (List.mem_reverse.mp inside)⟩
  rw [trimWhere, ← List.reverse_append, back, List.reverse_reverse, front]

/-- A list that neither begins nor ends with something dropped is what remains of it when more that
is dropped stands around it. -/
theorem trimWhere_eq (isBefore : ∀ item ∈ before, drops item = true)
    (isAfter : ∀ item ∈ after, drops item = true)
    (first : ∀ item ∈ core.head?, drops item = false)
    (last : ∀ item ∈ core.getLast?, drops item = false) (nonempty : core ≠ []) :
    trimWhere drops (before ++ (core ++ after)) = core := by
  have dropped : (before ++ (core ++ after)).dropWhile drops = core ++ after := by
    rw [List.dropWhile_append_of_pos isBefore]
    cases core with
    | nil => exact absurd rfl nonempty
    | cons item rest =>
        have stays : ¬ drops item = true := by
          rw [first item rfl]
          exact Bool.false_ne_true
        exact List.dropWhile_cons_of_neg stays
  have isAfterReversed : ∀ item ∈ after.reverse, drops item = true :=
    fun item inside => isAfter item (List.mem_reverse.mp inside)
  rw [trimWhere, dropped, List.reverse_append, List.dropWhile_append_of_pos isAfterReversed]
  cases reversed : core.reverse with
  | nil => exact absurd (List.reverse_eq_nil_iff.mp reversed) nonempty
  | cons item rest =>
      have stays : ¬ drops item = true := by
        rw [last item (by rw [← List.head?_reverse, reversed]; rfl)]
        exact Bool.false_ne_true
      rw [List.dropWhile_cons_of_neg stays, ← reversed, List.reverse_reverse]

end Text

namespace Numeral

open Text (decimalDigit? zeros isSpace)

/-! ## Digits of every script -/

/-- The digit of a value in ASCII. -/
def asciiDigit (value : Nat) : Char :=
  Char.ofNat (48 + value)

/-- A character in ASCII, if it is a digit. -/
def toAscii (c : Char) : Char :=
  match decimalDigit? c with
  | some value => asciiDigit value
  | none => c

theorem normalized_eq (text : Text) :
    normalized text = (Text.trimWhere isSpace text.chars).map toAscii :=
  rfl

section Digits

variable {c : Char} {value : Nat}

theorem exists_zero (digit : decimalDigit? c = some value) :
    ∃ start ∈ zeros, value < 10 ∧ c.toNat = start + value := by
  unfold decimalDigit? at digit
  obtain ⟨start, found, rfl⟩ := Option.map_eq_some_iff.mp digit
  have within := List.find?_some found
  simp only [Bool.and_eq_true, decide_eq_true_eq] at within
  exact ⟨start, List.mem_of_find?_eq_some found, by omega, by omega⟩

theorem value_lt (digit : decimalDigit? c = some value) : value < 10 := by
  obtain ⟨_, _, small, _⟩ := exists_zero digit
  exact small

/-- The digits of no script are white space. -/
theorem isSpace_eq_false (digit : decimalDigit? c = some value) : isSpace c = false := by
  obtain ⟨start, isZero, small, same⟩ := exists_zero digit
  have apart : ∀ start ∈ zeros, ∀ value < 10, ∀ space ∈ [9, 10, 11, 12, 13, 0x20, 0x85, 0xA0,
      0x1680, 0x2028, 0x2029, 0x202F, 0x205F, 0x3000], start + value ≠ space := by
    decide +kernel
  have outside : ∀ start ∈ zeros, ∀ value < 10,
      start + value < 0x2000 ∨ 0x200A < start + value := by
    decide +kernel
  have differs := apart start isZero value small
  have beyond := outside start isZero value small
  simp only [List.forall_mem_cons] at differs
  simp only [isSpace, Bool.or_eq_false_iff, Bool.and_eq_false_iff, decide_eq_false_iff_not,
    beq_eq_false_iff_ne, same]
  omega

theorem isDigit_asciiDigit (small : value < 10) : (asciiDigit value).isDigit = true := by
  revert value
  decide

theorem toNat_asciiDigit (small : value < 10) : (asciiDigit value).toNat - 48 = value := by
  revert value
  decide

theorem toAscii_of_digit (digit : decimalDigit? c = some value) : toAscii c = asciiDigit value := by
  rw [toAscii, digit]

theorem toAscii_of_none (other : decimalDigit? c = none) : toAscii c = c := by
  rw [toAscii, other]

theorem exists_digit_of_isDigit (isDigit : c.isDigit = true) :
    ∃ value, decimalDigit? c = some value := by
  have first : zeros.find? (fun start => start ≤ c.toNat && c.toNat ≤ start + 9) = some 0x30 := by
    simp only [Char.isDigit, Bool.and_eq_true, decide_eq_true_eq] at isDigit
    refine List.find?_cons_of_pos ?_
    simp only [Bool.and_eq_true, decide_eq_true_eq]
    exact isDigit
  exact ⟨_, by rw [decimalDigit?, first]; rfl⟩

/-- A character is a digit of some script if it is a digit in ASCII. -/
theorem exists_digit_iff : (toAscii c).isDigit = true ↔ ∃ value, decimalDigit? c = some value := by
  cases digit : decimalDigit? c with
  | some value =>
      rw [toAscii_of_digit digit, isDigit_asciiDigit (value_lt digit)]
      exact iff_of_true rfl ⟨value, rfl⟩
  | none =>
      rw [toAscii_of_none digit]
      refine ⟨fun isDigit => ?_, fun impossible => nomatch impossible⟩
      obtain ⟨value, isOne⟩ := exists_digit_of_isDigit isDigit
      rw [digit] at isOne
      cases isOne

theorem toAscii_eq_iff {other : Char} (noDigit : other.isDigit = false)
    (noScript : decimalDigit? other = none) : toAscii c = other ↔ c = other := by
  constructor
  · rintro rfl
    cases digit : decimalDigit? c with
    | some value =>
        have isDigit := exists_digit_iff.mpr ⟨value, digit⟩
        rw [noDigit] at isDigit
        cases isDigit
    | none => exact (toAscii_of_none digit).symm
  · rintro rfl
    exact toAscii_of_none noScript

end Digits

/-! ## How integers are written -/

/-- Some digits with their values, the highest first. One underscore may stand between two of
them. -/
inductive Spelled : List Char → List Nat → Prop
  | single {c : Char} {value : Nat} :
      decimalDigit? c = some value →
      Spelled [c] [value]
  | next {c : Char} {value : Nat} {cs : List Char} {values : List Nat} :
      decimalDigit? c = some value →
      Spelled cs values →
      Spelled (c :: cs) (value :: values)
  | spaced {c : Char} {value : Nat} {cs : List Char} {values : List Nat} :
      decimalDigit? c = some value →
      Spelled cs values →
      Spelled (c :: '_' :: cs) (value :: values)

/-- A sign, and whether it makes a number negative. -/
inductive SignOf : List Char → Bool → Prop
  | missing : SignOf [] false
  | plus : SignOf ['+'] false
  | minus : SignOf ['-'] true

/-- A text writes an integer. There may be white space around it, and not too many digits. -/
inductive Writes : Text → Int → Prop
  | intro {text : Text} {before sign digits after : List Char} {negative : Bool}
      {values : List Nat} :
      text.chars = before ++ (sign ++ digits ++ after) →
      (∀ c ∈ before, isSpace c = true) →
      (∀ c ∈ after, isSpace c = true) →
      SignOf sign negative →
      Spelled digits values →
      values.length ≤ mostDigits →
      Writes text (Binary64.signed negative (Nat.ofDigits 10 values.reverse))

section Spelled

variable {digits : List Char} {values : List Nat}

theorem Spelled.exists_head (spelled : Spelled digits values) :
    ∃ c value rest, digits = c :: rest ∧ decimalDigit? c = some value := by
  cases spelled with
  | single digit => exact ⟨_, _, _, rfl, digit⟩
  | next digit _ => exact ⟨_, _, _, rfl, digit⟩
  | spaced digit _ => exact ⟨_, _, _, rfl, digit⟩

theorem Spelled.digit_of_mem_getLast? (spelled : Spelled digits values) :
    ∀ c ∈ digits.getLast?, ∃ value, decimalDigit? c = some value := by
  induction spelled with
  | single digit =>
      rintro c ⟨⟩
      exact ⟨_, digit⟩
  | next _ rest inductionHypothesis =>
      obtain ⟨_, _, _, rfl, _⟩ := rest.exists_head
      simpa only [List.getLast?_cons_cons] using inductionHypothesis
  | spaced _ rest inductionHypothesis =>
      obtain ⟨_, _, _, rfl, _⟩ := rest.exists_head
      simpa only [List.getLast?_cons_cons] using inductionHypothesis

theorem Spelled.values_lt (spelled : Spelled digits values) : ∀ value ∈ values, value < 10 := by
  induction spelled with
  | single digit => exact List.forall_mem_singleton.mpr (value_lt digit)
  | next digit _ inductionHypothesis =>
      exact List.forall_mem_cons.mpr ⟨value_lt digit, inductionHypothesis⟩
  | spaced digit _ inductionHypothesis =>
      exact List.forall_mem_cons.mpr ⟨value_lt digit, inductionHypothesis⟩

theorem Spelled.values_ne_nil (spelled : Spelled digits values) : values ≠ [] := by
  cases spelled <;> exact List.cons_ne_nil _ _

theorem ofDigits_asciiDigits (small : ∀ value ∈ values, value < 10) :
    ofDigits (values.map asciiDigit) = Nat.ofDigits 10 values.reverse := by
  rw [Nat.ofDigits_eq_foldr, List.foldr_reverse, ofDigits, List.foldl_map]
  refine List.foldl_ext _ _ 0 fun number value inside => ?_
  rw [toNat_asciiDigit (small value inside), Nat.add_comm]
  rfl

theorem isDigit_asciiDigits (small : ∀ value ∈ values, value < 10) :
    (values.map asciiDigit).all Char.isDigit = true := by
  rw [List.all_map, List.all_eq_true]
  exact fun value inside => isDigit_asciiDigit (small value inside)

/-! ## Underscores -/

theorem dropUnderscores_cons {before c : Char} (other : c ≠ '_') (rest : List Char) :
    dropUnderscores before (c :: rest) = (dropUnderscores c rest).map (c :: ·) := by
  rw [dropUnderscores]
  · rintro _ _ rfl
    exact absurd rfl other
  · rintro rfl
    exact absurd rfl other

theorem asciiDigit_ne_underscore {value : Nat} (small : value < 10) : asciiDigit value ≠ '_' := by
  intro same
  have isDigit := isDigit_asciiDigit small
  rw [same] at isDigit
  cases isDigit

/-- The underscores of written digits are dropped. -/
theorem Spelled.dropUnderscores (spelled : Spelled digits values) (before : Char) :
    dropUnderscores before (digits.map toAscii) = some (values.map asciiDigit) := by
  induction spelled generalizing before with
  | single digit =>
      rw [List.map_singleton, toAscii_of_digit digit,
        dropUnderscores_cons (asciiDigit_ne_underscore (value_lt digit))]
      rfl
  | next digit _ inductionHypothesis =>
      rw [List.map_cons, toAscii_of_digit digit,
        dropUnderscores_cons (asciiDigit_ne_underscore (value_lt digit)), inductionHypothesis]
      rfl
  | @spaced c value cs values digit rest inductionHypothesis =>
      obtain ⟨second, other, more, rfl, isDigit⟩ := rest.exists_head
      have goesOn := inductionHypothesis before
      have differs := asciiDigit_ne_underscore (value_lt isDigit)
      rw [List.map_cons, toAscii_of_digit isDigit, dropUnderscores_cons differs] at goesOn
      have both : ((asciiDigit value).isDigit && (asciiDigit other).isDigit) = true := by
        rw [isDigit_asciiDigit (value_lt digit), isDigit_asciiDigit (value_lt isDigit)]
        rfl
      rw [List.map_cons, List.map_cons, List.map_cons, toAscii_of_digit digit,
        toAscii_of_digit isDigit, toAscii_of_none (by decide : decimalDigit? '_' = none),
        dropUnderscores_cons (asciiDigit_ne_underscore (value_lt digit)), Numeral.dropUnderscores,
        if_pos both, goesOn]
      rfl

theorem dropUnderscores_ne_nil {before c : Char} {rest left : List Char}
    (dropped : Numeral.dropUnderscores before (c :: rest) = some left) : left ≠ [] := by
  unfold Numeral.dropUnderscores at dropped
  split at dropped
  next impossible => cases impossible
  next =>
    split at dropped
    · obtain ⟨_, _, rfl⟩ := Option.map_eq_some_iff.mp dropped
      exact List.cons_ne_nil _ _
    · cases dropped
  next => cases dropped
  next =>
    obtain ⟨_, _, rfl⟩ := Option.map_eq_some_iff.mp dropped
    exact List.cons_ne_nil _ _

/-- Where digits are all that is left without underscores, they were written with their underscores
between them, but for one that may follow a digit before the text. -/
theorem exists_spelled {before : Char} {cs left : List Char}
    (dropped : Numeral.dropUnderscores before (cs.map toAscii) = some left)
    (digits : ∀ c ∈ left, c.isDigit = true) (nonempty : left ≠ []) :
    ∃ values, left = values.map asciiDigit ∧
      (Spelled cs values ∨ ∃ rest, cs = '_' :: rest ∧ before.isDigit = true ∧
        Spelled rest values) := by
  induction cs generalizing before left with
  | nil =>
      cases dropped
      exact absurd rfl nonempty
  | cons c rest inductionHypothesis =>
      by_cases isUnderscore : c = '_'
      · subst isUnderscore
        cases rest with
        | nil => cases dropped
        | cons second more =>
            rw [List.map_cons, List.map_cons,
              toAscii_of_none (by decide : decimalDigit? '_' = none),
              Numeral.dropUnderscores] at dropped
            split at dropped
            next both =>
              obtain ⟨isDigit, isDigitToo⟩ := Bool.and_eq_true_iff.mp both
              obtain ⟨value, digit⟩ := exists_digit_iff.mp isDigitToo
              have differs : toAscii second ≠ '_' := by
                rw [toAscii_of_digit digit]
                exact asciiDigit_ne_underscore (value_lt digit)
              -- The digits after the underscore are dropped as they would be at the beginning.
              have begins : Numeral.dropUnderscores ' ' ((second :: more).map toAscii) =
                  some left := by
                rw [List.map_cons, dropUnderscores_cons differs]
                exact dropped
              obtain ⟨values, same, spelled | ⟨_, _, impossible, _⟩⟩ :=
                inductionHypothesis begins digits nonempty
              · exact ⟨values, same, .inr ⟨_, rfl, isDigit, spelled⟩⟩
              · cases impossible
            next => cases dropped
      · rw [List.map_cons, dropUnderscores_cons
          (mt (toAscii_eq_iff (by decide) (by decide)).mp isUnderscore)] at dropped
        obtain ⟨others, goesOn, rfl⟩ := Option.map_eq_some_iff.mp dropped
        obtain ⟨isDigit, digits⟩ := List.forall_mem_cons.mp digits
        obtain ⟨value, digit⟩ := exists_digit_iff.mp isDigit
        rw [toAscii_of_digit digit]
        cases rest with
        | nil =>
            cases goesOn
            exact ⟨[value], rfl, .inl (.single digit)⟩
        | cons second more =>
            obtain ⟨values, rfl, spelled | ⟨rest, same, _, spelled⟩⟩ :=
              inductionHypothesis goesOn digits (dropUnderscores_ne_nil goesOn)
            · exact ⟨value :: values, rfl, .inl (.next digit spelled)⟩
            · rw [same]
              exact ⟨value :: values, rfl, .inl (.spaced digit spelled)⟩

end Spelled

/-! ## Reading integers -/

theorem takeSign_of_ne {c : Char} (notMinus : c ≠ '-') (notPlus : c ≠ '+') (rest : List Char) :
    takeSign (c :: rest) = (false, c :: rest) := by
  rw [takeSign]
  · intro _ same
    exact notMinus (List.cons.inj same).1
  · intro _ same
    exact notPlus (List.cons.inj same).1

/-- A sign is taken off a text, if it begins with one. -/
theorem exists_takeSign (cs : List Char) :
    ∃ sign negative rest, cs = sign ++ rest ∧ SignOf sign negative ∧
      takeSign (cs.map toAscii) = (negative, rest.map toAscii) := by
  cases cs with
  | nil => exact ⟨[], false, [], rfl, .missing, rfl⟩
  | cons c rest =>
      by_cases isMinus : c = '-'
      · subst isMinus
        exact ⟨['-'], true, rest, rfl, .minus, rfl⟩
      · by_cases isPlus : c = '+'
        · subst isPlus
          exact ⟨['+'], false, rest, rfl, .plus, rfl⟩
        · refine ⟨[], false, c :: rest, rfl, .missing, ?_⟩
          have notMinus := mt (toAscii_eq_iff (by decide) (by decide)).mp isMinus
          have notPlus := mt (toAscii_eq_iff (by decide) (by decide)).mp isPlus
          exact takeSign_of_ne notMinus notPlus _

theorem takeSign_of_spelled {sign digits : List Char} {negative : Bool} {values : List Nat}
    (signs : SignOf sign negative) (spelled : Spelled digits values) :
    takeSign ((sign ++ digits).map toAscii) = (negative, digits.map toAscii) := by
  cases signs with
  | minus => rfl
  | plus => rfl
  | missing =>
      obtain ⟨c, value, rest, rfl, digit⟩ := spelled.exists_head
      have isDigit := isDigit_asciiDigit (value_lt digit)
      have notSign (other : Char) (noDigit : other.isDigit = false) : asciiDigit value ≠ other := by
        rintro rfl
        rw [noDigit] at isDigit
        cases isDigit
      rw [List.nil_append, List.map_cons, toAscii_of_digit digit]
      exact takeSign_of_ne (notSign '-' (by decide)) (notSign '+' (by decide)) _

/-- What is written between white space begins and ends without it. -/
theorem trimWhere_of_spelled {before sign digits after : List Char} {negative : Bool}
    {values : List Nat} (isBefore : ∀ c ∈ before, isSpace c = true)
    (isAfter : ∀ c ∈ after, isSpace c = true) (signs : SignOf sign negative)
    (spelled : Spelled digits values) :
    Text.trimWhere isSpace (before ++ (sign ++ digits ++ after)) = sign ++ digits := by
  obtain ⟨c, value, rest, same, digit⟩ := spelled.exists_head
  refine Text.trimWhere_eq isBefore isAfter ?_ ?_ ?_
  · cases signs with
    | minus =>
        rintro _ ⟨⟩
        decide
    | plus =>
        rintro _ ⟨⟩
        decide
    | missing =>
        rw [same]
        rintro _ ⟨⟩
        exact isSpace_eq_false digit
  · intro last isLast
    have inDigits : last ∈ digits.getLast? := by
      rwa [List.getLast?_append_of_ne_nil _ (by rw [same]; exact List.cons_ne_nil _ _)] at isLast
    obtain ⟨_, isDigit⟩ := spelled.digit_of_mem_getLast? last inDigits
    exact isSpace_eq_false isDigit
  · rw [same]
    exact List.append_ne_nil_of_right_ne_nil _ (List.cons_ne_nil _ _)

theorem integer?_of_writes {text : Text} {value : Int} (writes : Writes text value) :
    integer? text = some value := by
  cases writes with
  | @intro before sign digits after negative values same isBefore isAfter signs spelled short =>
      have nonempty : (values.map asciiDigit).isEmpty = false := by
        rw [List.isEmpty_map, List.isEmpty_eq_false_iff]
        exact spelled.values_ne_nil
      have fits : ¬ mostDigits < (values.map asciiDigit).length := by
        rw [List.length_map]
        exact Nat.not_lt.mpr short
      rw [integer?, normalized_eq, same, trimWhere_of_spelled isBefore isAfter signs spelled,
        takeSign_of_spelled signs spelled]
      simp only [spelled.dropUnderscores, Option.bind_eq_bind, Option.bind_some, nonempty,
        isDigit_asciiDigits spelled.values_lt, fits, decide_false, Bool.not_true, Bool.or_self,
        Bool.false_eq_true, if_false, ofDigits_asciiDigits spelled.values_lt]

theorem writes_of_integer? {text : Text} {value : Int} (reads : integer? text = some value) :
    Writes text value := by
  obtain ⟨before, after, same, isBefore, isAfter⟩ := Text.exists_trimWhere isSpace text.chars
  obtain ⟨sign, negative, rest, splits, signs, takes⟩ :=
    exists_takeSign (Text.trimWhere isSpace text.chars)
  rw [integer?, normalized_eq, takes] at reads
  obtain ⟨left, dropped, reads⟩ := Option.bind_eq_some_iff.mp reads
  split at reads
  next => cases reads
  next isNumber =>
    simp only [Bool.or_eq_true, Bool.not_eq_true', decide_eq_true_eq, not_or,
      Bool.not_eq_false, Bool.not_eq_true, List.isEmpty_eq_false_iff, Nat.not_lt] at isNumber
    obtain ⟨⟨nonempty, digits⟩, short⟩ := isNumber
    obtain ⟨values, rfl, spelled | ⟨_, _, impossible, _⟩⟩ :=
      exists_spelled dropped (List.all_eq_true.mp digits) nonempty
    · cases reads
      rw [List.length_map] at short
      rw [ofDigits_asciiDigits spelled.values_lt]
      refine .intro ?_ isBefore isAfter signs spelled short
      rw [← splits]
      exact same
    · cases impossible

/-- A text is read as an integer exactly if it writes this integer. -/
theorem integer?_eq_some_iff {text : Text} {value : Int} :
    integer? text = some value ↔ Writes text value :=
  ⟨writes_of_integer?, integer?_of_writes⟩

end Numeral

end LedgerBook
