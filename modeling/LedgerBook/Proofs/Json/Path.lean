import LedgerBook.Json.Path
/-!
Required walks that arrive. Nothing is found below null, so that a walk whose end is found has found
every step on its way.
-/
namespace LedgerBook

theorem ok_bind {α β : Type} (value : α) (next : α → Except Failure β) :
    (Except.ok value >>= next) = next value :=
  rfl

theorem bind_eq_ok {α β : Type} {result : Except Failure α} {next : α → Except Failure β}
    {given : β} :
    (result >>= next) = .ok given ↔ ∃ value, result = .ok value ∧ next value = .ok given := by
  cases result with
  | error failure =>
      constructor
      · intro impossible
        cases impossible
      · rintro ⟨value, impossible, _⟩
        cases impossible
  | ok value =>
      constructor
      · intro gives
        exact ⟨value, rfl, gives⟩
      · rintro ⟨_, ⟨⟩, gives⟩
        exact gives

theorem bind_eq_error {α β : Type} {result : Except Failure α} {next : α → Except Failure β}
    {failure : Failure} :
    (result >>= next) = .error failure ↔
      result = .error failure ∨ ∃ value, result = .ok value ∧ next value = .error failure := by
  cases result with
  | error cause =>
      constructor
      · rintro ⟨⟩
        exact .inl rfl
      · rintro (⟨⟨⟩⟩ | ⟨_, impossible, _⟩)
        · rfl
        · cases impossible
  | ok value =>
      constructor
      · intro fails
        exact .inr ⟨value, rfl, fails⟩
      · rintro (impossible | ⟨_, ⟨⟩, fails⟩)
        · cases impossible
        · exact fails

/-- Another error changes no success. -/
theorem mapError_eq_ok {α : Type} {result : Except Failure α} {change : Failure → Failure}
    {value : α} : result.mapError change = .ok value ↔ result = .ok value := by
  cases result with
  | error failure =>
      constructor
      · intro impossible
        cases impossible
      · intro impossible
        cases impossible
  | ok found => exact Iff.rfl

namespace Json

theorem follow_null (step : Step) : follow null step = null := by
  cases step <;> rfl

theorem foldl_follow_null (path : List Step) : path.foldl follow null = null := by
  induction path with
  | nil => rfl
  | cons step rest inductionHypothesis =>
      rw [List.foldl_cons, follow_null]
      exact inductionHypothesis

theorem isNull_eq_false_of_foldl {value : Json} {path : List Step}
    (found : (path.foldl follow value).isNull = false) : value.isNull = false := by
  cases value with
  | null =>
      rw [foldl_follow_null] at found
      cases found
  | _ => rfl

theorem requireFrom_eq_ok {page : Option Int} {trail : Text} {value : Json} {path : List Step}
    (found : (path.foldl follow value).isNull = false) :
    requireFrom page trail value path = .ok (path.foldl follow value) := by
  induction path generalizing trail value with
  | nil => rfl
  | cons step rest inductionHypothesis =>
      have next : (value.follow step).isNull = false := isNull_eq_false_of_foldl found
      rw [requireFrom]
      simp only [next]
      exact inductionHypothesis found

/-- A required walk gives what stands at the end of its path, unless that is null. -/
theorem require_eq_ok {root : Text} {page : Option Int} {value last : Json} {path : List Step}
    (ends : path.foldl follow value = last) (found : last.isNull = false) :
    value.require path root page = .ok last := by
  subst ends
  have start := isNull_eq_false_of_foldl found
  rw [require]
  simp only [start]
  exact requireFrom_eq_ok found

theorem require_member_eq_ok {root name : Text} {page : Option Int} {value last : Json}
    (ends : value.member name = last) (found : last.isNull = false) :
    value.require [.member name] root page = .ok last :=
  require_eq_ok ends found

theorem hasType_iff {given : Json} {typename : Text} :
    given.hasType typename = true ↔ given.member typeMember = .str typename := by
  unfold hasType
  constructor
  · intro isNamed
    split at isNamed
    next name found => rw [found, beq_iff_eq.mp isNamed]
    next => cases isNamed
  · intro named
    rw [named]
    exact beq_self_eq_true typename

/-- The optional walk of one step gives what stands there, null if there is nothing. -/
theorem findD_member (given : Json) (name : Text) :
    given.findD [.member name] = given.member name := by
  change (if (given.member name).isNull then null else given.member name) = _
  cases given.member name <;> rfl

end Json

end LedgerBook
