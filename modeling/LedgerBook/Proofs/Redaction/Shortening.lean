import LedgerBook.Redaction
import Mathlib.Data.List.Basic
/-!
What the log keeps of variables. The names stay as they are at every level that is told, a text
that is no secret is told whole or by its beginning, all else that is no object is told as it is, and
what is told is told in the same way again.
-/
namespace LedgerBook.Redaction

variable {length : Nat} {given : Json.Members} {name : Text} {held shown : Json}

/-! ## Where values stand and how they are told -/

/-- A value stands in an object under a name, behind the names of the objects around it. Nothing
stands in arrays. -/
inductive StandsAt : Json.Members → List Text → Text → Json → Prop
  | here {given : Json.Members} {name : Text} {held : Json} :
      (name, held) ∈ given → StandsAt given [] name held
  | inside {given inner : Json.Members} {outer name : Text} {path : List Text} {held : Json} :
      (outer, .obj inner) ∈ given → StandsAt inner path name held →
        StandsAt given (outer :: path) name held

/-- How a value may be told that stands under a name. An object is told by an object with the same
names in the same order. -/
inductive ToldAs (length : Nat) (name : Text) : Json → Json → Prop
  | secret {held : Json} :
      isSensitive name = true → ToldAs length name held (.str "[REDACTED]")
  | whole {text : Text} :
      isSensitive name = false → text.length ≤ length → ToldAs length name (.str text) (.str text)
  | cut {text : Text} :
      isSensitive name = false → length < text.length →
        ToldAs length name (.str text) (.str (text.take length ++ "..."))
  | object {inner told : Json.Members} :
      isSensitive name = false → told.map Prod.fst = inner.map Prod.fst →
        ToldAs length name (.obj inner) (.obj told)
  | other {held : Json} :
      isSensitive name = false → held.kind ≠ .str → held.kind ≠ .obj →
        ToldAs length name held held

/-! ## Texts -/

theorem shorten_of_le {text : Text} (fits : text.length ≤ length) : shorten length text = text := by
  have within : ¬ (length : Int) < text.length := by omega
  rw [shorten, if_neg within]

theorem shorten_of_lt {text : Text} (long : length < text.length) :
    shorten length text = text.take length ++ "..." := by
  have beyond : (length : Int) < text.length := by omega
  rw [shorten, if_pos beyond]
  rfl

/-- A text that has been cut is too long again, and is cut at the same place. -/
theorem shorten_shorten (length : Nat) (text : Text) :
    shorten length (shorten length text) = shorten length text := by
  rcases Nat.lt_or_ge length text.length with long | fits
  · have cutLength : (text.take length).length = length := by
      rw [List.length_take]
      omega
    have longAgain : length < (text.take length ++ Text.ofString "...").length := by
      rw [List.length_append, cutLength]
      exact Nat.lt_add_of_pos_right (by decide)
    rw [shorten_of_lt long, shorten_of_lt longAgain, List.take_left' cutLength]
  · rw [shorten_of_le fits, shorten_of_le fits]

/-! ## Objects -/

/-- A member as it is told. -/
def toldMember (length : Nat) (member : Text × Json) : Text × Json :=
  (member.1, if isSensitive member.1 then placeholder else value length member.2)

theorem members_eq_map (length : Nat) (given : Json.Members) :
    members length given = given.map (toldMember length) := by
  induction given with
  | nil => rfl
  | cons member rest inductionHypothesis =>
      rw [members, inductionHypothesis]
      rfl

theorem names_members (length : Nat) (given : Json.Members) :
    (members length given).map Prod.fst = given.map Prod.fst := by
  rw [members_eq_map, List.map_map]
  rfl

theorem mem_members_iff :
    (name, shown) ∈ members length given ↔
      ∃ held, (name, held) ∈ given ∧ toldMember length (name, held) = (name, shown) := by
  rw [members_eq_map, List.mem_map]
  constructor
  · rintro ⟨⟨found, held⟩, isThere, same⟩
    obtain rfl : found = name := congrArg Prod.fst same
    exact ⟨held, isThere, same⟩
  · rintro ⟨held, isThere, same⟩
    exact ⟨(name, held), isThere, same⟩

/-- What is told as an object is an object whose name is no secret's, told by its members. -/
theorem toldMember_eq_obj_iff {told : Json.Members} :
    toldMember length (name, held) = (name, .obj told) ↔
      isSensitive name = false ∧ ∃ inner, held = .obj inner ∧ members length inner = told := by
  unfold toldMember
  cases isSensitive name with
  | true => simp [placeholder]
  | false => cases held <;> simp [value]

theorem toldAs_toldMember : ToldAs length name held (toldMember length (name, held)).2 := by
  unfold toldMember
  cases sensitive : isSensitive name with
  | true => exact .secret sensitive
  | false =>
      cases held with
      | str text =>
          change ToldAs length name (.str text) (.str (shorten length text))
          rcases Nat.lt_or_ge length text.length with long | fits
          · rw [shorten_of_lt long]
            exact .cut sensitive long
          · rw [shorten_of_le fits]
            exact .whole sensitive fits
      | obj inner => exact .object sensitive (names_members length inner)
      | _ => exact .other sensitive nofun nofun

/-! ## Paths -/

/-- Under a path without the names of secrets everything that stands is told. -/
theorem StandsAt.told {path : List Text} (stands : StandsAt given path name held)
    (isOpen : ∀ outer ∈ path, isSensitive outer = false) :
    StandsAt (members length given) path name (toldMember length (name, held)).2 := by
  induction stands with
  | here isThere => exact .here (mem_members_iff.mpr ⟨_, isThere, rfl⟩)
  | @inside _ inner outer _ _ _ isThere _ inductionHypothesis =>
      rw [List.forall_mem_cons] at isOpen
      have toldInner : toldMember length (outer, .obj inner) =
          (outer, .obj (members length inner)) :=
        toldMember_eq_obj_iff.mpr ⟨isOpen.1, inner, rfl, rfl⟩
      exact .inside (mem_members_iff.mpr ⟨_, isThere, toldInner⟩) (inductionHypothesis isOpen.2)

/-- What is told stands for something under the same path, on which no secret has its name. -/
theorem StandsAt.exists_of_members {path : List Text}
    (stands : StandsAt (members length given) path name shown) :
    (∀ outer ∈ path, isSensitive outer = false) ∧
      ∃ held, StandsAt given path name held ∧ shown = (toldMember length (name, held)).2 := by
  induction path generalizing given with
  | nil =>
      cases stands with
      | here isTold =>
          obtain ⟨held, isThere, same⟩ := mem_members_iff.mp isTold
          exact ⟨List.forall_mem_nil _, held, .here isThere, by rw [same]⟩
  | cons outer path inductionHypothesis =>
      cases stands with
      | inside isTold within =>
          obtain ⟨_, isThere, same⟩ := mem_members_iff.mp isTold
          obtain ⟨plain, inner, rfl, rfl⟩ := toldMember_eq_obj_iff.mp same
          obtain ⟨isOpen, held, stands, told⟩ := inductionHypothesis within
          exact ⟨List.forall_mem_cons.mpr ⟨plain, isOpen⟩, held, .inside isThere stands, told⟩

/-! ## Telling twice -/

mutual

theorem value_value (length : Nat) : (held : Json) →
    value length (value length held) = value length held
  | .str text => by
      simp only [value, shorten_shorten]
  | .obj inner => by
      simp only [value, members_members length inner]
  | .null | .bool _ | .int _ | .float _ | .arr _ => rfl

theorem members_members (length : Nat) : (given : Json.Members) →
    members length (members length given) = members length given
  | [] => rfl
  | (name, held) :: rest => by
      simp only [members, members_members length rest]
      cases isSensitive name with
      | true => rfl
      | false => simp only [Bool.false_eq_true, if_false, value_value length held]

end

/-- The log keeps the shape of variables. It shows the same names in the same order at every level;
what stands under a path without the names of secrets is told, and nothing else is; what is told of
a value is the mark of a secret, a text whole or by its beginning, an object with the same names, or
the value itself; and telling again what is told changes nothing. -/
theorem shortening_keeps_shape (length : Nat) (given : Json.Members) :
    (members length given).map Prod.fst = given.map Prod.fst ∧
      (∀ path name held, StandsAt given path name held →
        (∀ outer ∈ path, isSensitive outer = false) →
          ∃ shown, StandsAt (members length given) path name shown ∧
            ToldAs length name held shown) ∧
      (∀ path name shown, StandsAt (members length given) path name shown →
        (∀ outer ∈ path, isSensitive outer = false) ∧
          ∃ held, StandsAt given path name held ∧ ToldAs length name held shown) ∧
      members length (members length given) = members length given := by
  refine ⟨names_members length given, ?_, ?_, members_members length given⟩
  · intro path name held stands isOpen
    exact ⟨_, stands.told isOpen, toldAs_toldMember⟩
  · intro path name shown stands
    obtain ⟨isOpen, held, isThere, rfl⟩ := stands.exists_of_members
    exact ⟨isOpen, held, isThere, toldAs_toldMember⟩

end LedgerBook.Redaction
