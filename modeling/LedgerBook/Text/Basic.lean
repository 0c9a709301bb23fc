/-!
Texts. Escapes in JSON name units of sixteen bits, and nothing keeps the two halves of a pair of
units together, so a text is a list of characters and of halves that stand alone. All that measures,
cuts, compares or orders a text does so by its code points; only words in ASCII are compared without
regard to case.
-/
namespace LedgerBook

/-- A code point: a character, or half of a pair that stands alone. Halves are counted from
U+D800. -/
inductive CodePoint
  | char (c : Char)
  | half (index : Fin 0x800)
  deriving DecidableEq, Repr

namespace CodePoint

def number : CodePoint → Nat
  | char c => c.toNat
  | half index => 0xD800 + index.val

/-- The code point that a unit of sixteen bits is on its own. -/
def ofUnit (unit : Nat) : CodePoint :=
  if inRange : 0xD800 ≤ unit ∧ unit - 0xD800 < 0x800 then half ⟨unit - 0xD800, inRange.2⟩
  else char (Char.ofNat unit)

/-- The character, or the replacement character for a half. -/
def toChar : CodePoint → Char
  | char c => c
  | half _ => '\uFFFD'

def char? : CodePoint → Option Char
  | char c => some c
  | half _ => none

/-- Whether a code point is a character of a class. -/
def isIn (belongs : Char → Bool) : CodePoint → Bool
  | char c => belongs c
  | half _ => false

end CodePoint

abbrev Text := List CodePoint

namespace Text

def ofChars (cs : List Char) : Text :=
  cs.map .char

/-- A text without halves. -/
def ofString (text : String) : Text :=
  ofChars text.toList

instance : Coe String Text := ⟨ofString⟩

/-- The characters of a text, with the replacement character for every half. This serves where a
half is as good as any other character that is neither blank, letter nor digit. -/
def chars (text : Text) : List Char :=
  text.map CodePoint.toChar

/-- The characters of a text without halves; nothing for other texts. -/
def chars? (text : Text) : Option (List Char) :=
  text.mapM CodePoint.char?

/-- A text without halves as a string; nothing for other texts. -/
def toString? (text : Text) : Option String :=
  text.chars?.map String.ofList

/-- Some texts with another between each two of them. -/
def join (separator : Text) (texts : List Text) : Text :=
  List.intercalate separator texts

/-- The order of texts: at the first difference the lower code point decides, and a text comes
before its extensions. -/
def atMost : Text → Text → Bool
  | [], _ => true
  | _ :: _, [] => false
  | first :: rest, other :: others =>
    if first.number == other.number then atMost rest others
    else first.number < other.number

/-- The first code points of a text. A negative count leaves out that many at the end instead. -/
def beginning (count : Int) (text : Text) : Text :=
  let kept := if count < 0 then (text.length : Int) + count else count
  text.take kept.toNat

/-- The most code points of a text that messages and events quote. -/
def quotedLength : Int := 500

/-- The part of a text that messages and events quote. -/
def excerpt (text : Text) : Text :=
  beginning quotedLength text

/-! ## Words in any case -/

/-- The Kelvin sign, the only character outside ASCII whose lower-case form is a single ASCII
character. -/
def kelvinSign : Char := '\u212A'

/-- The lower-case form of a character if that form is in ASCII, else the character. -/
def lowerChar (c : Char) : Char :=
  if c == kelvinSign then 'k' else c.toLower

/-- A text with all characters in lower case whose lower-case forms are in ASCII. Characters of
other scripts stay, so the text serves only for comparison with words in ASCII. -/
def lowered (text : Text) : List Char :=
  text.chars.map lowerChar

/-- Whether characters stand somewhere in a text. -/
def occursIn (word : List Char) : List Char → Bool
  | [] => word.isEmpty
  | c :: rest => word.isPrefixOf (c :: rest) || occursIn word rest

/-! ## Texts without halves -/

theorem chars?_ofChars (cs : List Char) : chars? (ofChars cs) = some cs := by
  induction cs with
  | nil => rfl
  | cons c rest hypothesis =>
    simp only [chars?, ofChars] at hypothesis
    simp [chars?, ofChars, CodePoint.char?, hypothesis]

theorem toString?_ofString (text : String) : toString? (ofString text) = some text := by
  simp [toString?, ofString, chars?_ofChars]

theorem ofChars_of_chars? {text : Text} {cs : List Char} (only : text.chars? = some cs) :
    ofChars cs = text := by
  induction text generalizing cs with
  | nil =>
      cases only
      rfl
  | cons point rest hypothesis =>
      cases point with
      | half index => simp [chars?, CodePoint.char?] at only
      | char c =>
          simp only [chars?, List.mapM_cons, CodePoint.char?, Option.bind_eq_bind,
            Option.bind_some, Option.bind_eq_some_iff] at only
          obtain ⟨others, restOnly, same⟩ := only
          cases same
          rw [← hypothesis restOnly]
          rfl

theorem ofString_of_toString? {text : Text} {string : String}
    (only : text.toString? = some string) : ofString string = text := by
  simp only [toString?, Option.map_eq_some_iff] at only
  obtain ⟨cs, isChars, rfl⟩ := only
  rw [ofString, String.toList_ofList]
  exact ofChars_of_chars? isChars

theorem chars_ofString (text : String) : chars (ofString text) = text.toList := by
  simp only [chars, ofString, ofChars, List.map_map]
  exact List.map_id _

end Text

end LedgerBook
