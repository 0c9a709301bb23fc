import LedgerBook.Lookup
import LedgerBook.Proofs.Json.Path
/-!
Computations without a page. Numbers, addresses, names of fields, anchors and the values in fields
are read by computations of their own, whose failures are neither about an answer nor about its
cursors, so that none of them ever carries a page.
-/
namespace LedgerBook

variable {α β : Type}

/-- A failure that is neither about an answer nor about its cursors. -/
def Failure.Unpaged (failure : Failure) : Prop :=
  failure.isRead = false ∧ failure.isPagination = false

/-- A computation with no other failures than those that have no page. -/
class Unpaged (result : Except Failure α) : Prop where
  fails : ∀ {failure : Failure}, result = .error failure → failure.Unpaged

namespace Unpaged

theorem ok (value : α) : Unpaged (Except.ok value : Except Failure α) where
  fails := by
    intro failure impossible
    cases impossible

theorem error {failure : Failure} (unpaged : failure.Unpaged) :
    Unpaged (Except.error failure : Except Failure α) where
  fails := by
    intro other same
    cases same
    exact unpaged

instance (value : α) : Unpaged (pure value : Except Failure α) :=
  ok value

theorem bind_of {result : Except Failure α} {next : α → Except Failure β} (first : Unpaged result)
    (following : ∀ value, Unpaged (next value)) : Unpaged (result >>= next) where
  fails := by
    intro failure failed
    cases result with
    | error other =>
        cases failed
        exact first.fails rfl
    | ok value => exact (following value).fails failed

instance (result : Except Failure α) (next : α → Except Failure β) [Unpaged result]
    [∀ value, Unpaged (next value)] : Unpaged (result >>= next) :=
  bind_of inferInstance fun _ => inferInstance

instance (result : Except Failure α) (change : α → β) [Unpaged result] :
    Unpaged (change <$> result) := by
  rw [← bind_pure_comp]
  infer_instance

instance (condition : Prop) [Decidable condition] (result other : Except Failure α)
    [Unpaged result] [Unpaged other] : Unpaged (if condition then result else other) := by
  split <;> infer_instance

/-- What is done for each item of a list has no page if it has none for any of them. -/
instance (items : List α) (convert : α → Except Failure β)
    [∀ item, Unpaged (convert item)] : Unpaged (items.mapM convert) := by
  induction items with
  | nil =>
      rw [List.mapM_nil]
      infer_instance
  | cons first rest inductionHypothesis =>
      rw [List.mapM_cons]
      infer_instance

theorem not_missing {result : Except Failure α} [Unpaged result] (path : Text)
    (number : Option Int) : result ≠ .error (.missingData path number) := by
  intro failed
  have unread := (fails failed).1
  cases unread

end Unpaged

namespace Json

instance (value : Json) : Unpaged value.toInt := by
  unfold toInt
  split
  · infer_instance
  · infer_instance
  · split
    · exact .error ⟨rfl, rfl⟩
    · exact .error ⟨rfl, rfl⟩
    · infer_instance
  · split
    · infer_instance
    · exact .error ⟨rfl, rfl⟩
  · exact .error ⟨rfl, rfl⟩

instance (value : Json) : Unpaged value.isAtMostZero := by
  unfold isAtMostZero
  split
  · infer_instance
  · infer_instance
  · infer_instance
  · exact .error ⟨rfl, rfl⟩

instance (value : Json) : Unpaged value.elements := by
  unfold elements
  split
  · infer_instance
  · infer_instance
  · infer_instance
  · exact .error ⟨rfl, rfl⟩

end Json

namespace MoveValue

instance (value : Json) : Unpaged (typeText value) := by
  unfold typeText
  simp only
  split
  · infer_instance
  · exact .error ⟨rfl, rfl⟩

instance (field : Json) : Unpaged (ofJson? field) := by
  unfold ofJson?
  split
  · refine Unpaged.bind_of inferInstance ?_
    intro type
    split <;> infer_instance
  · infer_instance

end MoveValue

instance (fields : List Json) : Unpaged (Page.nodesOfJson fields) := by
  unfold Page.nodesOfJson
  infer_instance

instance (given : Json) : Unpaged (Address.canonical given) := by
  have address : Unpaged (Address.ofJson given) := by
    unfold Address.ofJson
    split
    · infer_instance
    · exact .error ⟨rfl, rfl⟩
  unfold Address.canonical
  infer_instance

instance (package : Json) (struct : Text) : Unpaged (FieldName.key package struct) := by
  unfold FieldName.key
  infer_instance

instance (package clearingHouse : Json) (asks : Bool) (anchor : Anchor) (first : Json) :
    Unpaged (ClearingHouseQuery.ofSide package clearingHouse asks anchor first) := by
  unfold ClearingHouseQuery.ofSide FieldName.orderbook FieldName.asksMap FieldName.bidsMap
  infer_instance

instance (query : Query) : Unpaged query.request := by
  unfold Query.request
  split <;> infer_instance

instance (query : Query) (map : Text) : Unpaged (query.narrowed map) := by
  unfold Query.narrowed
  split
  · infer_instance
  · exact .error ⟨rfl, rfl⟩

instance (given : Json) : Unpaged (Lookup.checkedPageSize given) := by
  unfold Lookup.checkedPageSize
  refine Unpaged.bind_of inferInstance ?_
  intro atMostZero
  split
  · exact .bind_of (.error ⟨rfl, rfl⟩) fun _ => inferInstance
  · infer_instance

instance (anchor : AnchorArgument) : Unpaged (Lookup.versionOf anchor) := by
  unfold Lookup.versionOf
  split
  · infer_instance
  · infer_instance
  · exact .error ⟨rfl, rfl⟩

instance (anchor : AnchorArgument) : Unpaged anchor.required := by
  unfold AnchorArgument.required
  split
  · infer_instance
  · exact .error ⟨rfl, rfl⟩

end LedgerBook
