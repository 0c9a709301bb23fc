import LedgerBook.Http.Exchange
import Mathlib.Data.List.Forall2
/-!
What the log shows of secrets. Variables that differ in secrets only are told alike as long as the
arrays among them are the same: an array is told as it is, with the secrets of the objects in it.
-/
namespace LedgerBook

namespace Redaction

/-! ## Values that differ in secrets only -/

mutual

/-- Whether two values differ at most in what stands under the names of secrets, at any depth of
objects and arrays. -/
inductive Alike : Json → Json → Prop
  | same (value : Json) : Alike value value
  | arr {items others : List Json} : AlikeItems items others → Alike (.arr items) (.arr others)
  | obj {members others : Json.Members} :
      AlikeMembers members others → Alike (.obj members) (.obj others)

inductive AlikeItems : List Json → List Json → Prop
  | nil : AlikeItems [] []
  | cons {item other : Json} {items others : List Json} :
      Alike item other → AlikeItems items others → AlikeItems (item :: items) (other :: others)

inductive AlikeMembers : Json.Members → Json.Members → Prop
  | nil : AlikeMembers [] []
  | secret {name : Text} {hidden other : Json} {members others : Json.Members} :
      isSensitive name = true → AlikeMembers members others →
        AlikeMembers ((name, hidden) :: members) ((name, other) :: others)
  | member {name : Text} {inner other : Json} {members others : Json.Members} :
      Alike inner other → AlikeMembers members others →
        AlikeMembers ((name, inner) :: members) ((name, other) :: others)

end

mutual

/-- The arrays that are told of a value: those that are reached through objects only, and not under
the name of a secret. -/
def arraysOf : Json → List Json
  | .arr items => [.arr items]
  | .obj members => arraysIn members
  | _ => []

def arraysIn : Json.Members → List Json
  | [] => []
  | (name, inner) :: rest => (if isSensitive name then [] else arraysOf inner) ++ arraysIn rest

end

mutual

/-- Whether the name of a secret stands somewhere in a value. -/
def holdsSecret : Json → Bool
  | .arr items => itemsHoldSecret items
  | .obj members => membersHoldSecret members
  | _ => false

def itemsHoldSecret : List Json → Bool
  | [] => false
  | first :: rest => holdsSecret first || itemsHoldSecret rest

def membersHoldSecret : Json.Members → Bool
  | [] => false
  | (name, inner) :: rest => isSensitive name || holdsSecret inner || membersHoldSecret rest

end

mutual

/-- Values that differ in secrets only, but hold none, are the same. -/
theorem Alike.eq_of_open {first second : Json} :
    Alike first second → holdsSecret first = false → first = second
  | .same _, _ => rfl
  | .arr alike, isOpen => by
      rw [holdsSecret] at isOpen
      rw [alike.eq_of_open isOpen]
  | .obj alike, isOpen => by
      rw [holdsSecret] at isOpen
      rw [alike.eq_of_open isOpen]

theorem AlikeItems.eq_of_open {first second : List Json} :
    AlikeItems first second → itemsHoldSecret first = false → first = second
  | .nil, _ => rfl
  | .cons alike others, isOpen => by
      rw [itemsHoldSecret, Bool.or_eq_false_iff] at isOpen
      rw [alike.eq_of_open isOpen.1, others.eq_of_open isOpen.2]

theorem AlikeMembers.eq_of_open {first second : Json.Members} :
    AlikeMembers first second → membersHoldSecret first = false → first = second
  | .nil, _ => rfl
  | .secret sensitive _, isOpen => by
      simp [membersHoldSecret, sensitive] at isOpen
  | .member alike others, isOpen => by
      simp only [membersHoldSecret, Bool.or_eq_false_iff] at isOpen
      rw [alike.eq_of_open isOpen.1.2, others.eq_of_open isOpen.2]

end

/-! ## What is told of them -/

mutual

/-- They have as many arrays to tell, which differ in secrets only. -/
theorem Alike.arrays {first second : Json} :
    Alike first second → List.Forall₂ Alike (arraysOf first) (arraysOf second)
  | .same _ => List.forall₂_same.mpr fun value _ => .same value
  | .arr alike => .cons (.arr alike) .nil
  | .obj alike => alike.arrays

theorem AlikeMembers.arrays {first second : Json.Members} :
    AlikeMembers first second → List.Forall₂ Alike (arraysIn first) (arraysIn second)
  | .nil => .nil
  | .secret sensitive others => by
      simpa [arraysIn, sensitive] using others.arrays
  | @AlikeMembers.member name _ _ _ _ alike others => by
      simp only [arraysIn]
      apply List.rel_append _ others.arrays
      by_cases sensitive : isSensitive name = true
      · simp [sensitive]
      · simpa [sensitive] using alike.arrays

end

mutual

/-- They are told alike exactly if their arrays are the same. -/
theorem Alike.value_eq_iff {first second : Json} (length : Int) :
    Alike first second →
      (value length first = value length second ↔ arraysOf first = arraysOf second)
  | .same _ => by simp
  | .arr _ => by simp [value, arraysOf]
  | .obj alike => by
      simpa [value, arraysOf] using alike.members_eq_iff length

theorem AlikeMembers.members_eq_iff {first second : Json.Members} (length : Int) :
    AlikeMembers first second →
      (members length first = members length second ↔ arraysIn first = arraysIn second)
  | .nil => by simp
  | .secret sensitive others => by
      simpa [members, arraysIn, sensitive] using others.members_eq_iff length
  | @AlikeMembers.member name _ _ _ _ alike others => by
      have rest := others.members_eq_iff length
      by_cases sensitive : isSensitive name = true
      · simpa [members, arraysIn, sensitive] using rest
      · have inner := alike.value_eq_iff length
        have asMany := alike.arrays.length_eq
        simp only [members, arraysIn, sensitive, List.cons.injEq, Prod.mk.injEq, true_and, inner,
          rest, Bool.false_eq_true, if_false]
        constructor
        · intro same
          rw [same.1, same.2]
        · intro same
          exact List.append_inj same asMany

end

end Redaction

/-! ## What an exchange tells -/

namespace Http

theorem Call.given_of_members (document : Text) (members : Json.Members) (name : Json) :
    (Call.mk document (.obj members) name).given = .ok members := by
  cases members with
  | nil => rfl
  | cons first rest => rfl

/-- An exchange goes on in the same way, with the same events, for variables that are told alike. -/
theorem Call.run_congr {first second : Json.Members}
    (same : Redaction.members Redaction.usualLength first =
      Redaction.members Redaction.usualLength second)
    (document : Text) (name : Json) (outcome : Outcome) (timing : Timing) :
    (Call.mk document (.obj first) name).run outcome timing =
      (Call.mk document (.obj second) name).run outcome timing := by
  unfold Call.run
  rw [Call.given_of_members, Call.given_of_members]
  simp only [Call.lift, pure_bind, same]
  rfl

end Http

namespace Redaction

/-- Variables that differ in secrets only are told alike, however short their texts are cut, exactly
if the arrays that are told are the same. So no secret outside of arrays reaches the log, and where
the arrays hold no secrets, nothing that an exchange tells depends on a secret. -/
theorem secrets_told_in_arrays_only {first second : Json.Members}
    (alike : AlikeMembers first second) :
    (∀ length, members length first = members length second ↔
        arraysIn first = arraysIn second) ∧
      ((∀ array ∈ arraysIn first, holdsSecret array = false) →
        (∀ length, members length first = members length second) ∧
          ∀ document name outcome timing,
            (Http.Call.mk document (.obj first) name).run outcome timing =
              (Http.Call.mk document (.obj second) name).run outcome timing) := by
  have decides : ∀ length, members length first = members length second ↔
      arraysIn first = arraysIn second :=
    fun length => alike.members_eq_iff length
  refine ⟨decides, ?_⟩
  intro isOpen
  have sameArrays : arraysIn first = arraysIn second := by
    have both := (List.forall₂_and_left _ _).mpr ⟨isOpen, alike.arrays⟩
    have equal := both.imp fun _ _ facts => facts.2.eq_of_open facts.1
    rwa [List.forall₂_eq_eq_eq] at equal
  have told : ∀ length, members length first = members length second :=
    fun length => (decides length).mpr sameArrays
  exact ⟨told, Http.Call.run_congr (told usualLength)⟩

/-- Variables with a secret of their own, one in an object, and an array without secrets. -/
def nested (secret : Text) : Json.Members :=
  [("Token", .str secret), ("map", .obj [("API_KEY", .str secret), ("bcs", .str "AAAAAA")]),
    ("ids", .arr [.int 1, .obj [("id", .int 2)]])]

/-- Variables with a secret in an object of an array. -/
def listed (secret : Text) : Json.Members :=
  [("items", .arr [.obj [("token", .str secret)]])]

theorem secrets_told_in_arrays_only_of_nested :
    (AlikeMembers (nested "a") (nested "b") ∧
        (∀ array ∈ arraysIn (nested "a"), holdsSecret array = false) ∧
        members 4 (nested "a") = members 4 (nested "b")) ∧
      AlikeMembers (listed "a") (listed "b") ∧ members 4 (listed "a") ≠ members 4 (listed "b") := by
  have alikeNested : AlikeMembers (nested "a") (nested "b") := by
    apply AlikeMembers.secret (by decide)
    apply AlikeMembers.member (.obj (.secret (by decide) (.member (.same _) .nil)))
    exact .member (.same _) .nil
  have isOpen : ∀ array ∈ arraysIn (nested "a"), holdsSecret array = false := by
    intro array inside
    have plain : isSensitive "ids" = false := by decide
    have only : array = .arr [.int 1, .obj [("id", .int 2)]] := by
      simpa [nested, arraysIn, arraysOf, plain] using inside
    rw [only]
    decide
  have alikeListed : AlikeMembers (listed "a") (listed "b") := by
    apply AlikeMembers.member (.arr (.cons (.obj (.secret (by decide) .nil)) .nil))
    exact .nil
  refine ⟨⟨alikeNested, isOpen, ?_⟩, alikeListed, ?_⟩
  · exact ((secrets_told_in_arrays_only alikeNested).2 isOpen).1 4
  · rw [ne_eq, (secrets_told_in_arrays_only alikeListed).1 4]
    have plain : isSensitive "items" = false := by decide
    have different : Text.ofString "a" ≠ Text.ofString "b" := by decide
    simp [listed, arraysIn, arraysOf, plain, different]

end Redaction

end LedgerBook
