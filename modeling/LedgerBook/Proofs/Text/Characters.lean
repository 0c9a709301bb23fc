import LedgerBook.Text.Basic
/-!
Texts and their characters. The characters of a text are those of its parts, one after another, and a
text without halves is determined by them.
-/
namespace LedgerBook.Text

variable {belongs : Char → Bool} {text : Text} {c : Char} {front middle back : List Char}

theorem chars_ofChars (cs : List Char) : chars (ofChars cs) = cs := by
  simp only [chars, ofChars, List.map_map]
  exact List.map_id cs

theorem chars_append (text other : Text) : chars (text ++ other) = chars text ++ chars other :=
  List.map_append

theorem ofChars_append (front back : List Char) :
    ofChars (front ++ back) = ofChars front ++ ofChars back :=
  List.map_append

/-! ## Texts of characters of a class -/

/-- A class that does not hold the replacement character holds the characters of a text only if the
text has no halves. -/
theorem ofChars_chars (noHalf : belongs '\uFFFD' = false)
    (all : ∀ c ∈ text.chars, belongs c = true) : ofChars text.chars = text := by
  induction text with
  | nil => rfl
  | cons point rest inductionHypothesis =>
      obtain ⟨first, others⟩ := List.forall_mem_cons.mp all
      cases point with
      | half index =>
          rw [CodePoint.toChar, noHalf] at first
          cases first
      | char c => exact congrArg (CodePoint.char c :: ·) (inductionHypothesis others)

theorem forall_chars_of_isIn (all : ∀ point ∈ text, point.isIn belongs = true) :
    ∀ c ∈ text.chars, belongs c = true := by
  intro c inside
  obtain ⟨point, isThere, rfl⟩ := List.mem_map.mp inside
  have isIn := all point isThere
  cases point with
  | half index => cases isIn
  | char c => exact isIn

theorem isIn_of_mem_ofChars {cs : List Char} (all : ∀ c ∈ cs, belongs c = true) :
    ∀ point ∈ ofChars cs, point.isIn belongs = true := by
  intro point inside
  obtain ⟨c, isThere, rfl⟩ := List.mem_map.mp inside
  exact all c isThere

/-! ## Texts with halves -/

theorem eq_ofChars_of_chars (noHalf : '\uFFFD' ∉ front) (same : text.chars = front) :
    text = ofChars front := by
  subst same
  have all : ∀ c ∈ text.chars, (c != '\uFFFD') = true := by
    intro c inside
    rw [bne_iff_ne]
    rintro rfl
    exact noHalf inside
  exact (ofChars_chars (by decide) all).symm

/-- A text has the characters of three parts exactly if it has three such parts. Where no half is
possible, at its ends, these are the characters themselves. -/
theorem exists_between_of_chars (noHalfBefore : '\uFFFD' ∉ front) (noHalfAfter : '\uFFFD' ∉ back)
    (same : text.chars = front ++ (middle ++ back)) :
    ∃ between : Text, between.chars = middle ∧
      text = ofChars front ++ (between ++ ofChars back) := by
  obtain ⟨before, others, rfl, beforeSame, othersSame⟩ := List.map_eq_append_iff.mp same
  obtain ⟨between, after, rfl, betweenSame, afterSame⟩ := List.map_eq_append_iff.mp othersSame
  refine ⟨between, betweenSame, ?_⟩
  rw [eq_ofChars_of_chars noHalfBefore beforeSame, eq_ofChars_of_chars noHalfAfter afterSame]

/-- A character other than the replacement character is one of a text exactly if it is one of the
characters of the text. -/
theorem char_mem_iff (noHalf : c ≠ '\uFFFD') : CodePoint.char c ∈ text ↔ c ∈ text.chars := by
  constructor
  · intro inside
    exact List.mem_map_of_mem inside
  · intro inside
    obtain ⟨point, isThere, same⟩ := List.mem_map.mp inside
    cases point with
    | half index => exact absurd same.symm noHalf
    | char other =>
        cases same
        exact isThere

end LedgerBook.Text
