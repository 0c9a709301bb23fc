import LedgerBook.Proofs.Lookup
import LedgerBook.Proofs.Unpaged
/-!
Where the failures of answers stand. What reads an answer is told its page, and fails at this page
or with a failure that has none; only the cursors are looked at without a page, and their failures
are put there afterwards.
-/
namespace LedgerBook

open Json (Step)

variable {α β : Type}

namespace Failure

/-- A failure to read the data of an answer: a required value is absent, or something that has no
page went wrong with a value. -/
inductive OfData (page : Option Int) : Failure → Prop
  | missing (path : Text) : OfData page (.missingData path page)
  | unpaged {failure : Failure} : failure.Unpaged → OfData page failure

theorem isRead_setPage (failure : Failure) (page : Option Int) :
    (failure.setPage page).isRead = failure.isRead := by
  cases failure <;> rfl

theorem isRead_of_isClient {failure : Failure} (isClient : failure.isClient = true) :
    failure.isRead = true := by
  cases failure <;> first | rfl | cases isClient

theorem page_setPage {failure : Failure} (paged : ¬ failure.Unpaged) (page : Option Int) :
    (failure.setPage page).page = page := by
  cases failure <;> first | rfl | exact False.elim (paged ⟨rfl, rfl⟩)

/-- A failure of a class, whose page is not known, is put at a page. -/
theorem tag_of_applies {applies : Failure → Bool} {failure : Failure}
    (isOne : applies failure = true) (unknown : failure.page = none) (page : Int) :
    failure.tag applies page = failure.setPage (some page) := by
  rw [tag, isOne, unknown]
  rfl

theorem tag_of_not_applies {applies : Failure → Bool} {failure : Failure}
    (isNone : applies failure = false) (page : Int) : failure.tag applies page = failure := by
  rw [tag, isNone]
  rfl

end Failure

/-- A computation that reads the data of an answer at a page. -/
class Decodes (page : Option Int) (result : Except Failure α) : Prop where
  fails : ∀ {failure : Failure}, result = .error failure → failure.OfData page

namespace Decodes

variable {page : Option Int}

theorem missing (path : Text) :
    Decodes page (Except.error (.missingData path page) : Except Failure α) where
  fails := by
    intro other same
    cases same
    exact .missing path

instance (result : Except Failure α) [Unpaged result] : Decodes page result where
  fails := fun failed => .unpaged (Unpaged.fails failed)

instance (result : Except Failure α) (next : α → Except Failure β) [first : Decodes page result]
    [following : ∀ value, Decodes page (next value)] : Decodes page (result >>= next) where
  fails := by
    intro failure failed
    rcases bind_eq_error.mp failed with fails | ⟨value, _, fails⟩
    · exact first.fails fails
    · exact (following value).fails fails

end Decodes

variable {page : Option Int}

instance (trail : Text) (value : Json) (path : List Step) :
    Decodes page (Json.requireFrom page trail value path) := by
  induction path generalizing trail value with
  | nil => exact inferInstanceAs (Decodes page (pure value))
  | cons step rest inductionHypothesis =>
      simp only [Json.requireFrom]
      split
      · exact .missing _
      · exact inductionHypothesis _ _

instance (value : Json) (path : List Step) (root : Text) :
    Decodes page (value.require path root page) := by
  unfold Json.require
  split
  · exact .missing root
  · infer_instance

instance (value : Json) (root : Text) : Decodes page (PageInfo.ofJson value root page) := by
  unfold PageInfo.ofJson
  infer_instance

namespace Page

instance (connection : Json) (root : Text) (number : Int) (mapAddress : Option Text) :
    Decodes (some number) (ofConnection connection root number mapAddress) := by
  unfold ofConnection
  infer_instance

instance (data : Json) (number : Int) : Decodes (some number) (ofMapData data number) := by
  unfold ofMapData
  infer_instance

instance (data : Json) (number : Int) :
    Decodes (some number) (ofClearingHouseData data number) := by
  unfold ofClearingHouseData
  infer_instance

end Page

instance (query : Query) (data : Json) (number : Int) :
    Decodes (some number) (query.decode data number) := by
  unfold Query.decode
  split <;> infer_instance

instance (data : Json) : Decodes none (Lookup.typeIn data) := by
  unfold Lookup.typeIn
  infer_instance

instance (type : Text) : Unpaged (Lookup.packageIn type) := by
  unfold Lookup.packageIn
  infer_instance

/-- An answer without data is refused for the errors that it reports, or else because data is
required. -/
theorem Envelope.required_fails {envelope : Envelope} {failure : Failure}
    (failed : envelope.required page = .error failure) :
    failure = .server envelope.errors page page ∨ failure = .missingData "data" page := by
  rw [required, content] at failed
  split at failed
  · cases absent : envelope.data with
    | some members =>
        rw [absent] at failed
        cases failed
    | none =>
        rw [absent] at failed
        cases failed
        exact .inr rfl
  · cases failed
    exact .inl rfl

/-! ## Cursors -/

/-- A failure that is not about an answer, and stands at a page if it is about cursors. -/
def Failure.OfCursors (page : Option Int) (failure : Failure) : Prop :=
  failure.isRead = false ∧ (failure.isPagination = true → failure.page = page)

theorem Failure.Unpaged.ofCursors {failure : Failure} (unpaged : failure.Unpaged)
    (page : Option Int) : failure.OfCursors page :=
  ⟨unpaged.1, fun isPagination => absurd isPagination (by rw [unpaged.2]; decide)⟩

namespace Query

theorem next_fails {info : PageInfo} {query : Query} {failure : Failure}
    (failed : next info query = .error failure) : failure.OfCursors none := by
  unfold next at failed
  split at failed
  · split at failed
    · cases failed
      exact ⟨rfl, fun _ => rfl⟩
    · split at failed
      · cases failed
        exact ⟨rfl, fun _ => rfl⟩
      · cases failed
  · cases failed

theorem narrowed_next_fails {info : PageInfo} {query : Query} {map : Text} {failure : Failure}
    (failed : query.narrowed map >>= next info = .error failure) : failure.OfCursors none := by
  cases narrows : query.narrowed map with
  | error other =>
      rw [narrows] at failed
      cases failed
      exact (Unpaged.fails narrows).ofCursors none
  | ok following =>
      rw [narrows] at failed
      exact next_fails failed

theorem tagged_fails {following : Except Failure (Option Query)} {index : Int} {failure : Failure}
    (fails : ∀ cause, following = .error cause → cause.OfCursors none)
    (failed : following.mapError (Failure.tag Failure.isPagination index) = .error failure) :
    failure.OfCursors (some index) := by
  cases following with
  | ok value => cases failed
  | error cause =>
      obtain ⟨unread, unknown⟩ := fails cause rfl
      cases failed
      by_cases isPagination : cause.isPagination = true
      · rw [Failure.tag_of_applies isPagination (unknown isPagination)]
        refine ⟨(Failure.isRead_setPage cause _).trans unread, fun _ => ?_⟩
        refine Failure.page_setPage (fun unpaged => ?_) _
        exact absurd isPagination (by rw [unpaged.2]; decide)
      · rw [Failure.tag_of_not_applies (Bool.not_eq_true _ ▸ isPagination)]
        exact ⟨unread, fun impossible => absurd impossible isPagination⟩

/-- Failures of the way from a page to the next one stand at the page. -/
theorem continuation_fails {page : Page} {query : Query} {index : Int} {failure : Failure}
    (failed : continuation page query index = .error failure) :
    failure.OfCursors (some index) := by
  unfold continuation at failed
  refine tagged_fails (fun cause fails => ?_) failed
  cases told : page.mapAddress with
  | none =>
      rw [told] at fails
      exact next_fails fails
  | some map =>
      rw [told] at fails
      exact narrowed_next_fails fails

end Query

end LedgerBook
