import LedgerBook.FieldName
import LedgerBook.Proofs.Failure
import LedgerBook.Proofs.Number.Numeral
import LedgerBook.Proofs.Text.Characters
import LedgerBook.Proofs.Text.Hexadecimal
/-!
Addresses and the names of keys. A text is accepted as an address exactly if it writes one, and what
is made of it depends on the address alone. Keys have the same name exactly if they have the same
package and the same type.
-/
namespace LedgerBook

namespace Address

open Text (Denotes IsHexDigit IsLowerDigit)

/-! ## How addresses are written -/

/-- The marker in front of digits, which may be left out. -/
inductive Mark : List Char → Prop
  | missing : Mark []
  | marked : Mark ['0', 'x']

/-- A text writes a number as an address: in one to 64 hexadecimal digits of either case, with or
without the marker, and with blanks around it. -/
inductive Writes : Text → Nat → Prop
  | intro {before mark digits after : List Char} {number : Nat} :
      (∀ c ∈ before, Text.isBlank c = true) →
      (∀ c ∈ after, Text.isBlank c = true) →
      Mark mark →
      Denotes IsHexDigit digits number →
      1 ≤ digits.length →
      digits.length ≤ 64 →
      Writes (Text.ofChars (before ++ (mark ++ digits ++ after))) number

/-- A text is the canonical one of a number: the marker and exactly 64 digits in lower case. -/
def IsCanonical (form : String) (number : Nat) : Prop :=
  ∃ digits, form.toList = '0' :: 'x' :: digits ∧ digits.length = 64 ∧
    Denotes IsLowerDigit digits number

theorem IsCanonical.writes {form : String} {number : Nat} (canonical : IsCanonical form number) :
    Writes form number := by
  obtain ⟨digits, same, length, denotes⟩ := canonical
  have writes : Writes (Text.ofChars ([] ++ (['0', 'x'] ++ digits ++ []))) number :=
    .intro (List.forall_mem_nil _) (List.forall_mem_nil _) .marked denotes.isHex
      (by omega) (by omega)
  rw [List.append_nil, List.nil_append] at writes
  rw [Text.ofString, same]
  exact writes

/-! ## Reading addresses -/

section Reading

variable {mark digits cs : List Char} {number : Nat} {address : Address} {text : Text}

/-- A hexadecimal digit or the letter of the marker. -/
def isAddressChar (c : Char) : Bool :=
  (Text.hexDigit? c).isSome || c == 'x'

theorem isAddressChar_of_isHexDigit {c : Char} {value : Nat} (digit : IsHexDigit c value) :
    isAddressChar c = true := by
  rw [isAddressChar, Text.hexDigit?_eq_some_iff.mpr digit]
  rfl

theorem isBlank_of_isAddressChar {c : Char} (belongs : isAddressChar c = true) :
    Text.isBlank c = false := by
  have ascii : c.toNat < 128 := by
    rcases Bool.or_eq_true_iff.mp belongs with isDigit | isX
    · obtain ⟨value, digit⟩ := Option.isSome_iff_exists.mp isDigit
      exact Text.toNat_lt_of_hexDigit? digit
    · rw [beq_iff_eq.mp isX]
      decide
  exact Text.of_ascii (p := fun c => isAddressChar c = true → Text.isBlank c = false)
    (by decide +kernel) ascii belongs

theorem isAddressChar_of_mem (marks : Mark mark) (denotes : Denotes IsHexDigit digits number) :
    ∀ c ∈ mark ++ digits, isAddressChar c = true := by
  intro c inside
  rcases List.mem_append.mp inside with inMark | inDigits
  · cases marks with
    | missing => cases inMark
    | marked =>
        rcases List.mem_pair.mp inMark with rfl | rfl
        · decide
        · decide
  · obtain ⟨value, digit⟩ := denotes.exists_digit inDigits
    exact isAddressChar_of_isHexDigit digit

/-- The marker is taken off, whether or not it is there: digits do not begin with one. -/
theorem digitsOf_append (marks : Mark mark) (denotes : Denotes IsHexDigit digits number) :
    digitsOf (mark ++ digits) = digits := by
  cases marks with
  | marked => rfl
  | missing =>
      rw [List.nil_append, digitsOf]
      rintro rest rfl
      have inside : 'x' ∈ '0' :: 'x' :: rest := List.mem_cons_of_mem _ List.mem_cons_self
      obtain ⟨value, digit⟩ := denotes.exists_digit inside
      have noDigit : Text.hexDigit? 'x' = none := by decide
      rw [Text.hexDigit?_eq_some_iff.mpr digit] at noDigit
      cases noDigit

theorem exists_mark (cs : List Char) : ∃ mark, Mark mark ∧ cs = mark ++ digitsOf cs := by
  unfold digitsOf
  split
  next rest => exact ⟨['0', 'x'], .marked, rfl⟩
  next => exact ⟨[], .missing, rfl⟩

theorem ofChars?_eq_some_iff :
    ofChars? cs = some address ↔
      1 ≤ (digitsOf cs).length ∧ (digitsOf cs).length ≤ 64 ∧
        Denotes IsHexDigit (digitsOf cs) address.value := by
  rw [ofChars?]
  cases outside : (digitsOf cs).isEmpty || decide (width < (digitsOf cs).length) with
  | true =>
      simp only [if_true]
      rw [Bool.or_eq_true, List.isEmpty_iff_length_eq_zero, decide_eq_true_eq] at outside
      constructor
      · intro impossible
        cases impossible
      · rintro ⟨some, few, -⟩
        have beyond : ¬ width < (digitsOf cs).length := Nat.not_lt.mpr few
        omega
  | false =>
      simp only [Bool.false_eq_true, if_false]
      rw [Bool.or_eq_false_iff, List.isEmpty_eq_false_iff, decide_eq_false_iff_not] at outside
      rw [Option.bind_eq_bind, Option.bind_eq_some_iff]
      constructor
      · rintro ⟨number, reads, inRange⟩
        obtain ⟨small, ⟨⟩⟩ := Option.dite_none_right_eq_some.mp inRange
        exact ⟨List.length_pos_of_ne_nil outside.1, Nat.not_lt.mp outside.2,
          Text.hexValue?_eq_some_iff.mp reads⟩
      · rintro ⟨-, -, denotes⟩
        exact ⟨_, Text.hexValue?_eq_some_iff.mpr denotes, dif_pos address.lt_limit⟩

theorem ofJson_str (text : Text) :
    ofJson (.str text) =
      match ofChars? (Text.strip text).chars with
      | some address => .ok address
      | none => .error (.address (.str text)) := by
  cases text <;> rfl

/-- A text with blanks around digits and their marker is stripped to these. -/
theorem strip_of_marked {before after : List Char}
    (isBefore : ∀ c ∈ before, Text.isBlank c = true)
    (isAfter : ∀ c ∈ after, Text.isBlank c = true) (nonempty : cs ≠ [])
    (belong : ∀ c ∈ cs, isAddressChar c = true) :
    Text.strip (Text.ofChars (before ++ (cs ++ after))) = Text.ofChars cs := by
  have notBlank : ∀ point ∈ Text.ofChars cs, point.isIn Text.isBlank = false := by
    intro point inside
    obtain ⟨c, isThere, rfl⟩ := List.mem_map.mp inside
    exact isBlank_of_isAddressChar (belong c isThere)
  rw [Text.ofChars, List.map_append, List.map_append]
  refine Text.trimWhere_eq (Text.isIn_of_mem_ofChars isBefore) (Text.isIn_of_mem_ofChars isAfter)
    ?_ ?_ (by simpa using nonempty)
  · exact fun point first => notBlank point (List.mem_of_mem_head? first)
  · exact fun point last => notBlank point (List.mem_of_mem_getLast? last)

/-- A text is read as an address exactly if it writes the address's number. -/
theorem ofJson_eq_ok_iff : ofJson (.str text) = .ok address ↔ Writes text address.value := by
  constructor
  · intro reads
    rw [ofJson_str] at reads
    cases found : ofChars? (Text.strip text).chars with
    | none =>
        rw [found] at reads
        cases reads
    | some other =>
        rw [found] at reads
        cases reads
        obtain ⟨some, few, denotes⟩ := ofChars?_eq_some_iff.mp found
        obtain ⟨mark, marks, splits⟩ := exists_mark (Text.strip text).chars
        have belong := isAddressChar_of_mem marks denotes
        rw [← splits] at belong
        obtain ⟨before, after, same, isBefore, isAfter⟩ :=
          Text.exists_trimWhere (·.isIn Text.isBlank) text
        have blankBefore := Text.forall_chars_of_isIn isBefore
        have blankAfter := Text.forall_chars_of_isIn isAfter
        -- None of the three parts has a half, so that each is the text of its characters.
        have whole : text = Text.ofChars
            (Text.chars before ++ (mark ++ digitsOf (Text.strip text).chars ++
              Text.chars after)) := by
          rw [← splits, Text.ofChars, List.map_append, List.map_append]
          change text = Text.ofChars (Text.chars before) ++
            (Text.ofChars (Text.strip text).chars ++ Text.ofChars (Text.chars after))
          rw [Text.ofChars_chars (by decide) blankBefore, Text.ofChars_chars (by decide) belong,
            Text.ofChars_chars (by decide) blankAfter]
          exact same
        rw [whole]
        exact .intro blankBefore blankAfter marks denotes some few
  · intro writes
    cases address with
    | mk number lt_limit =>
        cases writes with
        | @intro before mark digits after _ isBefore isAfter marks denotes some few =>
            have belong := isAddressChar_of_mem marks denotes
            have nonempty : mark ++ digits ≠ [] :=
              List.append_ne_nil_of_right_ne_nil _ (List.ne_nil_of_length_pos some)
            have takes := digitsOf_append marks denotes
            have found : ofChars? (mark ++ digits) = Option.some ⟨number, lt_limit⟩ := by
              rw [ofChars?_eq_some_iff, takes]
              exact ⟨some, few, denotes⟩
            rw [ofJson_str, strip_of_marked isBefore isAfter nonempty belong, Text.chars_ofChars,
              found]

theorem Writes.lt (writes : Writes text number) : number < Nat.pow 16 64 := by
  cases writes with
  | intro _ _ _ denotes _ few =>
      exact Nat.lt_of_lt_of_le denotes.lt (Nat.pow_le_pow_right (by decide) few)

theorem ofJson_eq_error (writesNone : ¬ ∃ number, Writes text number) :
    ofJson (.str text) = .error (.address (.str text)) := by
  cases read : ofJson (.str text) with
  | ok address => exact absurd ⟨_, ofJson_eq_ok_iff.mp read⟩ writesNone
  | error failure =>
      rw [ofJson_str] at read
      split at read <;> cases read
      rfl

theorem Writes.ofJson_eq (writes : Writes text number) :
    ofJson (.str text) = .ok ⟨number, writes.lt⟩ :=
  ofJson_eq_ok_iff.mpr writes

end Reading

/-! ## Canonical texts -/

theorem isCanonical_toText (address : Address) : IsCanonical address.toText address.value := by
  have small : address.value < 16 ^ width := address.lt_limit
  refine ⟨Text.hexDigits width address.value, ?_, Text.length_hexDigits width address.value,
    Text.denotes_hexDigits small⟩
  rw [toText, String.toList_ofList, toChars, marker, List.cons_append, List.cons_append,
    List.nil_append]

theorem toText_injective : Function.Injective toText := by
  intro address other same
  have reads := ofJson_eq_ok_iff.mpr (isCanonical_toText address).writes
  have readsOther := ofJson_eq_ok_iff.mpr (isCanonical_toText other).writes
  rw [same, readsOther] at reads
  exact (Except.ok.inj reads).symm

theorem canonical_eq_ok_iff {given : Json} {form : String} :
    canonical given = .ok form ↔ ∃ address, ofJson given = .ok address ∧ address.toText = form := by
  rw [canonical]
  cases ofJson given with
  | ok address =>
      change Except.ok address.toText = .ok form ↔ _
      rw [Except.ok.injEq]
      constructor
      · intro same
        exact ⟨address, rfl, same⟩
      · rintro ⟨found, reads, same⟩
        rwa [Except.ok.inj reads]
  | error failure =>
      constructor
      · intro impossible
        cases impossible
      · rintro ⟨_, impossible, _⟩
        cases impossible

theorem Writes.canonical_eq {text : Text} {number : Nat} (writes : Writes text number) :
    canonical (.str text) = .ok (toText ⟨number, writes.lt⟩) :=
  canonical_eq_ok_iff.mpr ⟨_, writes.ofJson_eq, rfl⟩

theorem canonical_eq_error {text : Text} (writesNone : ¬ ∃ number, Writes text number) :
    canonical (.str text) = .error (.address (.str text)) := by
  rw [canonical, ofJson_eq_error writesNone]
  rfl

theorem length_canonical {given : Json} {form : String} (accepts : canonical given = .ok form) :
    (Text.ofString form).length = 66 := by
  obtain ⟨address, -, rfl⟩ := canonical_eq_ok_iff.mp accepts
  obtain ⟨digits, same, length, -⟩ := isCanonical_toText address
  rw [Text.ofString, Text.ofChars, List.length_map, same, List.length_cons, List.length_cons,
    length]

/-- Two texts that write addresses have the same canonical text exactly if they write the same
number. -/
theorem Writes.canonical_eq_iff {text other : Text} {number otherNumber : Nat}
    (writes : Writes text number) (writesOther : Writes other otherNumber) :
    canonical (.str text) = canonical (.str other) ↔ number = otherNumber := by
  rw [writes.canonical_eq, writesOther.canonical_eq, Except.ok.injEq, toText_injective.eq_iff,
    mk.injEq]

end Address

/-! ## Keys -/

namespace FieldName

open Address (Writes canonical)

variable {package other : Json} {form otherForm : String}

/-- The parts of an order book for which a package has a type of keys. -/
inductive Part
  | orderbook
  | asks
  | bids
  deriving DecidableEq

def Part.key : Part → Json → Except Failure FieldName
  | .orderbook => FieldName.orderbook
  | .asks => asksMap
  | .bids => bidsMap

def Part.struct : Part → String
  | .orderbook => "Orderbook"
  | .asks => "AsksMap"
  | .bids => "BidsMap"

theorem Part.key_eq (part : Part) (package : Json) :
    part.key package = FieldName.key package part.struct := by
  cases part <;> rfl

theorem Part.struct_injective : Function.Injective Part.struct := by
  intro part other same
  cases part <;> cases other <;> first | rfl | exact absurd same (by decide)

theorem key_of_canonical (accepts : canonical package = .ok form) (struct : Text) :
    key package struct = .ok ⟨form ++ "::keys::" ++ struct, emptyKey⟩ := by
  rw [key, accepts]
  rfl

/-- Keys of packages that are addresses have the same name exactly if the packages are the same
address and the types have the same name. -/
theorem key_eq_iff (accepts : canonical package = .ok form)
    (acceptsOther : canonical other = .ok otherForm) (struct otherStruct : Text) :
    key package struct = key other otherStruct ↔ form = otherForm ∧ struct = otherStruct := by
  rw [key_of_canonical accepts, key_of_canonical acceptsOther]
  constructor
  · intro same
    injection same with same
    injection same with sameType _
    -- Canonical texts are of one length, so that the names are cut at the same place.
    have asLong : (Text.ofString form).length = (Text.ofString otherForm).length := by
      rw [Address.length_canonical accepts, Address.length_canonical acceptsOther]
    rw [List.append_assoc, List.append_assoc] at sameType
    obtain ⟨sameForm, rest⟩ := List.append_inj sameType asLong
    exact ⟨Text.ofString_injective sameForm, (List.append_inj rest rfl).2⟩
  · rintro ⟨rfl, rfl⟩
    rfl

theorem Part.key_eq_iff (accepts : canonical package = .ok form)
    (acceptsOther : canonical other = .ok otherForm) (part otherPart : Part) :
    part.key package = otherPart.key other ↔ part = otherPart ∧ form = otherForm := by
  rw [part.key_eq, otherPart.key_eq, FieldName.key_eq_iff accepts acceptsOther,
    Text.ofString_injective.eq_iff, Part.struct_injective.eq_iff, And.comm]

end FieldName

namespace Address

open FieldName (Part key emptyKey)

/-- A text is accepted as an address exactly if it writes one, and is refused with its own failure
otherwise. What is made of it is canonical for its number and for nothing else, and stays as it is.
So keys of accepted packages have the same name exactly if the packages are the same address and the
types have the same name; the parts of an order book never share a key. -/
theorem canonical_and_keys_apart :
    (∀ text : Text,
        ((∃ form, canonical (.str text) = .ok form) ↔ ∃ number, Writes text number) ∧
          ((¬ ∃ number, Writes text number) →
            canonical (.str text) = .error (.address (.str text)))) ∧
      (∀ (text : Text) number, Writes text number →
        ∃ form, canonical (.str text) = .ok form ∧ IsCanonical form number ∧
          canonical (.str form) = .ok form) ∧
      (∀ (text other : Text) number otherNumber, Writes text number → Writes other otherNumber →
        (canonical (.str text) = canonical (.str other) ↔ number = otherNumber)) ∧
      ∀ (package other : Text) form otherForm,
        canonical (.str package) = .ok form → canonical (.str other) = .ok otherForm →
          (∀ struct otherStruct : Text,
            key (.str package) struct = .ok ⟨form ++ "::keys::" ++ struct, emptyKey⟩ ∧
              (key (.str package) struct = key (.str other) otherStruct ↔
                form = otherForm ∧ struct = otherStruct)) ∧
            ∀ part otherPart : Part,
              part.key (.str package) = otherPart.key (.str other) ↔
                part = otherPart ∧ form = otherForm := by
  refine ⟨fun text => ⟨⟨?_, ?_⟩, canonical_eq_error⟩, ?_, ?_, ?_⟩
  · rintro ⟨form, accepts⟩
    obtain ⟨address, reads, -⟩ := canonical_eq_ok_iff.mp accepts
    exact ⟨_, ofJson_eq_ok_iff.mp reads⟩
  · rintro ⟨number, writes⟩
    exact ⟨_, writes.canonical_eq⟩
  · intro text number writes
    have isCanonical := isCanonical_toText ⟨number, writes.lt⟩
    exact ⟨_, writes.canonical_eq, isCanonical, isCanonical.writes.canonical_eq⟩
  · intro text other number otherNumber writes writesOther
    exact writes.canonical_eq_iff writesOther
  · intro package other form otherForm accepts acceptsOther
    refine ⟨fun struct otherStruct => ⟨FieldName.key_of_canonical accepts struct, ?_⟩, ?_⟩
    · exact FieldName.key_eq_iff accepts acceptsOther struct otherStruct
    · exact Part.key_eq_iff accepts acceptsOther

/-- A text with blanks, the marker, zeros in front and letters of both cases. -/
def spaced : Text := "\u2003 0x00AbC\n"

theorem canonical_and_keys_apart_of_spaced :
    (Writes spaced 0xabc ∧ Writes "abc" 0xabc) ∧
      canonical (.str spaced) = canonical (.str "abc") ∧
      Part.asks.key (.str spaced) = Part.asks.key (.str "abc") ∧
      Part.asks.key (.str spaced) ≠ Part.bids.key (.str "abc") := by
  have readsSpaced : ofJson (.str spaced) = .ok ⟨0xabc, by decide⟩ := by rfl
  have readsPlain : ofJson (.str "abc") = .ok ⟨0xabc, by decide⟩ := by rfl
  have writesSpaced : Writes spaced 0xabc := ofJson_eq_ok_iff.mp readsSpaced
  have writesPlain : Writes "abc" 0xabc := ofJson_eq_ok_iff.mp readsPlain
  obtain ⟨-, accepts, sameForms, keys⟩ := canonical_and_keys_apart
  have same := (sameForms spaced "abc" _ _ writesSpaced writesPlain).mpr rfl
  obtain ⟨form, isForm, -⟩ := accepts spaced _ writesSpaced
  have parts := (keys spaced "abc" form form isForm (same ▸ isForm)).2
  exact ⟨⟨writesSpaced, writesPlain⟩, same, (parts .asks .asks).mpr ⟨rfl, rfl⟩,
    fun sameKey => nomatch ((parts .asks .bids).mp sameKey).1⟩

end Address

end LedgerBook
