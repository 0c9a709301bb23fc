import LedgerBook.Failure
import Mathlib.Logic.Function.Basic
/-!
The texts of failures that name a page. Failures to get an answer and failures of cursors are put
into words when somebody reads them, and so name the page that they carry then. A refusal that the
service reports was put into words when it was made: it names the page that was known at that time,
and no other once it is put at a page.
-/
namespace LedgerBook

namespace Text

theorem ofString_injective : Function.Injective ofString := by
  intro text other same
  have read := congrArg toString? same
  rwa [toString?_ofString, toString?_ofString, Option.some.injEq] at read

theorem toDigits_injective : Function.Injective (Nat.toDigits 10) := by
  intro number other same
  have read := congrArg (fun digits => Nat.ofDigitChars 10 digits 0) same
  simpa only [Nat.ofDigitChars_ten_toDigits] using read

/-- No number without a sign is written as one with a sign. -/
theorem toDigits_ne_minus (number : Nat) (digits : List Char) :
    Nat.toDigits 10 number ≠ '-' :: digits := by
  intro same
  have isDigit : ('-' : Char).isDigit = true :=
    Nat.isDigit_of_mem_toDigits (by decide) (by decide) (same ▸ List.mem_cons_self)
  cases isDigit

theorem decimal_injective : Function.Injective decimal := by
  intro value other same
  cases value with
  | ofNat number =>
      cases other with
      | ofNat otherNumber =>
          exact congrArg Int.ofNat (toDigits_injective (String.ofList_injective same))
      | negSucc less => exact absurd (String.ofList_injective same) (toDigits_ne_minus _ _)
  | negSucc less =>
      cases other with
      | ofNat number => exact absurd (String.ofList_injective same).symm (toDigits_ne_minus _ _)
      | negSucc otherLess =>
          have digits := (List.cons.inj (String.ofList_injective same)).2
          exact congrArg Int.negSucc (Nat.succ.inj (toDigits_injective digits))

/-- What comes after the first of some joined texts does not depend on it. -/
theorem join_cons (separator first : Text) (texts : List Text) :
    join separator (first :: texts) = first ++ join separator ([] :: texts) := by
  cases texts with
  | nil => rw [join, join, List.intercalate_singleton, List.intercalate_singleton, List.append_nil]
  | cons second rest =>
      rw [join, join, List.intercalate_cons_cons, List.intercalate_cons_cons, List.nil_append,
        List.append_assoc]

end Text

namespace Failure

/-- Whether the text of a failure has a place for a page. -/
def tellsPage : Failure → Bool
  | client .. => true
  | server .. => true
  | pagination .. => true
  | _ => false

/-- A failure as it would be, had it been made at a page. -/
def madeAt (page : Option Int) : Failure → Failure
  | server errors _ _ => server errors page page
  | other => other.setPage page

/-- The text of a failure names the page that the failure carries, and no other: it is the text of
such a failure made at a page exactly if this is its page. -/
def NamesItsPage (failure : Failure) : Prop :=
  failure.tellsPage = true →
    ∀ page, (failure.madeAt page).message = failure.message ↔ page = failure.page

theorem pageWords_injective : Function.Injective pageWords := by
  intro page other same
  cases page with
  | none =>
      cases other with
      | none => rfl
      | some number => exact absurd (String.append_eq_empty_iff.mp same.symm).1 (by decide)
  | some number =>
      cases other with
      | none => exact absurd (String.append_eq_empty_iff.mp same).1 (by decide)
      | some otherNumber =>
          have digits := (String.append_right_inj " at page ").mp same
          exact congrArg some (Text.decimal_injective digits)

/-- The words that name a page at the end of a text. -/
def pageSuffix : Option Int → Text
  | some page => " (page " ++ Text.decimal page ++ ")"
  | none => []

theorem pageSuffix_injective : Function.Injective pageSuffix := by
  intro page other same
  cases page with
  | none =>
      cases other with
      | none => rfl
      | some number => cases same
  | some number =>
      cases other with
      | none => cases same
      | some otherNumber =>
          have digits := List.append_cancel_left (List.append_cancel_right same)
          exact congrArg some (Text.decimal_injective (Text.ofString_injective digits))

theorem message_pagination (fault : CursorFault) (page : Option Int) :
    (pagination fault page).message = fault.message ++ pageSuffix page := by
  cases page with
  | none => exact (List.append_nil _).symm
  | some number =>
      rw [message, pageSuffix]
      simp only [List.append_assoc]

/-- The text of a failure tells at which page it was made. -/
theorem message_madeAt_inj {failure : Failure} (tells : failure.tellsPage = true)
    {page other : Option Int} :
    (failure.madeAt page).message = (failure.madeAt other).message ↔ page = other := by
  refine ⟨fun same => ?_, fun same => congrArg (fun page => (failure.madeAt page).message) same⟩
  cases failure with
  | client fault status own =>
      have words := List.append_cancel_left
        (List.append_cancel_right (List.append_cancel_right same))
      exact pageWords_injective (Text.ofString_injective words)
  | server errors shown own =>
      simp only [madeAt, message] at same
      rw [Text.join_cons, Text.join_cons _ (_ ++ Text.ofString (pageWords other) ++ _)] at same
      have words := List.append_cancel_left
        (List.append_cancel_right (List.append_cancel_right same))
      exact pageWords_injective (Text.ofString_injective words)
  | pagination fault own =>
      simp only [madeAt, setPage, message_pagination] at same
      exact pageSuffix_injective (List.append_cancel_left same)
  | _ => cases tells

/-- A failure names its page if it has the text that it would have, had it been made there. -/
theorem namesItsPage_of_message {failure : Failure}
    (same : (failure.madeAt failure.page).message = failure.message) : failure.NamesItsPage := by
  intro tells page
  rw [← same]
  exact message_madeAt_inj tells

theorem namesItsPage_of_not_tellsPage {failure : Failure} (silent : failure.tellsPage = false) :
    failure.NamesItsPage :=
  fun tells => absurd tells (ne_true_of_eq_false silent)

/-- A refusal names its page exactly if its text was written for it. -/
theorem namesItsPage_server_iff {errors : List Json} {shown page : Option Int} :
    (server errors shown page).NamesItsPage ↔ shown = page := by
  constructor
  · intro names
    exact (names rfl shown).mp rfl
  · rintro rfl
    exact namesItsPage_of_message rfl

/-- What is not a refusal of the service names its page, whichever this is. -/
theorem namesItsPage_setPage {failure : Failure} (page : Option Int)
    (other : ∀ errors shown own, failure ≠ server errors shown own) :
    (failure.setPage page).NamesItsPage := by
  cases failure with
  | server errors shown own => exact absurd rfl (other errors shown own)
  | client => exact namesItsPage_of_message rfl
  | pagination => exact namesItsPage_of_message rfl
  | _ => exact namesItsPage_of_not_tellsPage rfl

/-- A refusal that stands at a page which its text does not name. -/
def SilentAt (page : Int) (failure : Failure) : Prop :=
  ∃ errors, failure = server errors none (some page)

theorem SilentAt.not_namesItsPage {page : Int} {failure : Failure}
    (silent : failure.SilentAt page) : ¬ failure.NamesItsPage := by
  obtain ⟨errors, rfl⟩ := silent
  rw [namesItsPage_server_iff]
  exact Option.some_ne_none page |>.symm

/-- A failure that names its page still does once it is put at a page, unless it is a refusal whose
page was not known. -/
theorem NamesItsPage.tag {failure : Failure} (names : failure.NamesItsPage)
    (applies : Failure → Bool) (page : Int) :
    (failure.tag applies page).NamesItsPage ∨
      applies failure = true ∧ (∃ errors, failure = server errors none none) ∧
        (failure.tag applies page).SilentAt page := by
  rw [Failure.tag]
  split
  next tagged =>
    rw [Bool.and_eq_true, Option.isNone_iff_eq_none] at tagged
    cases failure with
    | server errors shown own =>
        obtain rfl : own = none := tagged.2
        obtain rfl := namesItsPage_server_iff.mp names
        exact .inr ⟨tagged.1, ⟨errors, rfl⟩, errors, rfl⟩
    | _ => exact .inl (namesItsPage_setPage _ nofun)
  next => exact .inl names

end Failure

end LedgerBook
