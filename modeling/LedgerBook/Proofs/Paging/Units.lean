import LedgerBook.Proofs.Paging.Advance
/-!
What pages cost and hold. Every page that is fetched is one request for a page, and every unit of a
walk lies on one of the pages, which its number tells.
-/
namespace LedgerBook

open ReadM

/-- How many of some requests are for pages. -/
def pagesAsked (requests : List Request) : Nat :=
  requests.countP fun request => request.document.isPaged

namespace Paging

variable {α β : Type} {client : Client} {view : Page → Except Failure β}
  {requests after final : List Request}

/-! ## Pages and requests -/

theorem pagesAsked_of_visit {position : Position} {seen : β × Option Position}
    (visits : outcome (visit view position) client (asked requests) = (.ok seen, after)) :
    pagesAsked after = pagesAsked requests + 1 := by
  obtain ⟨query, index⟩ := position
  rcases visit_cases visits with ⟨⟨_, impossible⟩, _⟩ | ⟨_, ⟨request, made, rfl, _⟩, _⟩
  · cases impossible
  · obtain ⟨_, _, _, document, _⟩ := Query.request_spec made
    have isPaged : request.document.isPaged = true := document ▸ query.isPaged_document
    rw [pagesAsked, List.countP_append, List.countP_singleton, if_pos isPaged]
    rfl

/-- Where the fetching of pages stands that has not failed. -/
def Ending.towards : Option Position → Ending
  | none => .complete
  | some position => .paused position

theorem fetches_nothing (client : Client) (view : Page → Except Failure β)
    (next : Option Position) (requests : List Request) :
    Fetches client view next requests [] (.towards next) requests := by
  cases next with
  | none => exact .complete
  | some position => exact .paused

namespace Fetches

variable {next following : Option Position} {seen others : List β} {ending otherEnding : Ending}

/-- Every page that is fetched is one request for a page. -/
theorem pagesAsked_eq
    (fetches : Fetches client view next requests seen (.towards following) after) :
    pagesAsked after = pagesAsked requests + seen.length := by
  generalize stands : Ending.towards following = ending at fetches
  induction fetches with
  | complete => rfl
  | paused => rfl
  | failed => cases following <;> cases stands
  | page visits _ inductionHypothesis =>
      rw [inductionHypothesis stands, pagesAsked_of_visit visits, List.length_cons]
      omega

/-- Pages are numbered by those that were fetched before. -/
theorem index_eq {position reached : Position}
    (fetches : Fetches client view (some position) requests seen (.paused reached) after) :
    reached.index = position.index + seen.length := by
  generalize begins : some position = next at fetches
  generalize stands : Ending.paused reached = ending at fetches
  induction fetches generalizing position with
  | complete => cases begins
  | paused =>
      cases begins
      cases stands
      rfl
  | failed => cases stands
  | @page _ following _ _ _ _ _ _ visits rest inductionHypothesis =>
      cases begins
      cases following with
      | none =>
          cases rest
          cases stands
      | some later =>
          rw [inductionHypothesis rfl stands, index_of_visit visits, List.length_cons]
          omega

theorem snoc {position : Position} {last : β}
    (fetches : Fetches client view next requests seen (.paused position) after)
    (visits : outcome (visit view position) client (asked after) = (.ok (last, following), final)) :
    Fetches client view next requests (seen ++ [last]) (.towards following) final :=
  fetches.trans (.page visits (fetches_nothing client view following final))

/-- There is one way to fetch the pages from a position on: of two fetchings, one has got at least
the pages of the other. -/
theorem prefix_or_prefix (fetches : Fetches client view next requests seen ending after)
    (again : Fetches client view next requests others otherEnding final) :
    seen <+: others ∨ others <+: seen := by
  induction fetches generalizing others with
  | complete => exact .inl List.nil_prefix
  | paused => exact .inl List.nil_prefix
  | failed => exact .inl List.nil_prefix
  | page visits _ inductionHypothesis =>
      cases again with
      | paused => exact .inr List.nil_prefix
      | failed => exact .inr List.nil_prefix
      | page visitsAgain rest =>
          cases visits.symm.trans visitsAgain
          exact (inductionHypothesis rest).imp (List.prefix_cons_inj _).mpr
            (List.prefix_cons_inj _).mpr

/-- What is left of all pages is fetched from where some of them lead. -/
theorem exists_rest (fetches : Fetches client view next requests seen (.towards following) after)
    (whole : Fetches client view next requests others .complete final) :
    ∃ rest, others = seen ++ rest ∧
      Fetches client view following after rest .complete final := by
  generalize stands : Ending.towards following = ending at fetches
  induction fetches generalizing others with
  | complete =>
      cases following <;> cases stands
      exact ⟨others, rfl, whole⟩
  | paused =>
      cases following <;> cases stands
      exact ⟨others, rfl, whole⟩
  | failed => cases following <;> cases stands
  | page visits _ inductionHypothesis =>
      cases whole with
      | page visitsAgain wholeRest =>
          cases visits.symm.trans visitsAgain
          obtain ⟨rest, rfl, fetchesRest⟩ := inductionHypothesis wholeRest stands
          exact ⟨rest, rfl, fetchesRest⟩

theorem ne_nil_of_complete {position : Position}
    (fetches : Fetches client view (some position) requests seen .complete after) : seen ≠ [] := by
  cases fetches
  exact List.cons_ne_nil _ _

end Fetches

/-- Whether a unit has some number, counted from zero over the units of some pages, and lies on the
page of some number. -/
def LiesOn (batches : List (List α)) (number page : Nat) (unit : α) : Prop :=
  ∃ units rank, batches[page]? = some units ∧ units[rank]? = some unit ∧
    number = (batches.take page).flatten.length + rank

namespace LiesOn

variable {batches more : List (List α)} {number page otherPage : Nat} {unit other : α}

/-- The unit that is next lies on the last page, of which some units are used up. -/
theorem of_last (older : List (List α)) (used : List α) (unit : α) (rest : List α) :
    LiesOn (older ++ [used ++ unit :: rest]) (older.flatten ++ used).length older.length unit := by
  refine ⟨used ++ unit :: rest, used.length, ?_, ?_, ?_⟩
  · rw [List.getElem?_append_right (Nat.le_refl _), Nat.sub_self]
    rfl
  · rw [List.getElem?_append_right (Nat.le_refl _), Nat.sub_self]
    rfl
  · rw [List.take_left', List.length_append]
    rfl

theorem mono (lies : LiesOn batches number page unit) (longer : batches <+: more) :
    LiesOn more number page unit := by
  obtain ⟨units, rank, onPage, atRank, counted⟩ := lies
  obtain ⟨rest, rfl⟩ := longer
  obtain ⟨within, _⟩ := List.getElem?_eq_some_iff.mp onPage
  refine ⟨units, rank, ?_, atRank, ?_⟩
  · rw [List.getElem?_append_left within, onPage]
  · rw [List.take_append_of_le_length (Nat.le_of_lt within), counted]

/-- The units of earlier pages have smaller numbers. -/
theorem page_le (lies : LiesOn batches number page unit)
    (again : LiesOn batches number otherPage other) : page ≤ otherPage := by
  obtain ⟨_, rank, _, _, counted⟩ := lies
  obtain ⟨units, otherRank, onPage, atRank, otherCounted⟩ := again
  by_contra later
  have within : otherRank < units.length := (List.getElem?_eq_some_iff.mp atRank).1
  have upTo : (batches.take (otherPage + 1)).flatten.length =
      (batches.take otherPage).flatten.length + units.length := by
    rw [List.take_add_one, onPage, List.flatten_append, List.length_append]
    simp
  obtain ⟨between, parts⟩ : batches.take (otherPage + 1) <+: batches.take page :=
    List.take_prefix_take_left (by omega)
  rw [← parts, List.flatten_append, List.length_append] at counted
  omega

theorem unique (lies : LiesOn batches number page unit)
    (again : LiesOn batches number otherPage other) : page = otherPage ∧ unit = other := by
  have same : page = otherPage := Nat.le_antisymm (lies.page_le again) (again.page_le lies)
  subst same
  obtain ⟨units, rank, onPage, atRank, counted⟩ := lies
  obtain ⟨_, otherRank, onSame, atOther, otherCounted⟩ := again
  cases onPage.symm.trans onSame
  have sameRank : rank = otherRank := by omega
  subst sameRank
  exact ⟨rfl, Option.some.inj (atRank.symm.trans atOther)⟩

end LiesOn

end Paging

end LedgerBook
