import LedgerBook.Paging
import LedgerBook.Proofs.Reading
/-!
The pages of a read, one after the other, as a relation, and the eager read as a computation of it:
it gives all pages if the fetching completes within its limit, and its failure if that fails.
-/
namespace LedgerBook.Paging

open ReadM

variable {α β : Type} {client : Client} {log : Log}

instance (view : Page → Except Failure β) (position : Position) :
    Orderly (visit view position) := by
  unfold visit
  infer_instance

/-- Once a page is fetched, what is wanted of it and what it says of the next one decide about the
visit. -/
theorem outcome_visit_view (view : Page → Except Failure β) {position : Position} {page : Page}
    {requests : List Request}
    (fetched : outcome (fetch position.query position.index) client log = (.ok page, requests)) :
    outcome (visit view position) client log =
      (view page >>= fun seen =>
        (Query.continuation page position.query position.index).map fun next =>
          (seen, next.map fun query => ⟨query, position.index + 1⟩), requests) := by
  unfold visit
  simp only [outcome_bind, fetched, follow_ok, outcome_lift, outcome_pure, asked]
  cases view page with
  | error failure => rfl
  | ok seen => cases Query.continuation page position.query position.index <;> rfl

theorem outcome_visit {position : Position} {page : Page} {requests : List Request}
    (fetched : outcome (fetch position.query position.index) client log = (.ok page, requests)) :
    outcome (visit pure position) client log =
      ((Query.continuation page position.query position.index).map fun next =>
        (page, next.map fun query => ⟨query, position.index + 1⟩), requests) :=
  outcome_visit_view pure fetched

/-- What is wanted of a page and cannot fail is found on the page. -/
theorem outcome_visit_pure (view : Page → β) (position : Position) :
    outcome (visit (fun page => pure (view page)) position) client log =
      ((outcome (visit pure position) client log).1.map fun result => (view result.1, result.2),
        (outcome (visit pure position) client log).2) := by
  unfold visit
  simp only [outcome_bind, outcome_pure, outcome_lift]
  cases outcome (fetch position.query position.index) client log with
  | mk result requests =>
      cases result with
      | error failure => rfl
      | ok page =>
          simp only [follow_ok, asked]
          cases Query.continuation page position.query position.index with
          | error failure => rfl
          | ok next => rfl

/-! ## Fetching pages -/

/-- How the fetching of some pages ends. -/
inductive Ending
  | complete
  | paused (next : Position)
  | failed (failure : Failure)

/-- Some pages are fetched one after the other, from a position on if there is one, and what is
wanted of each of them is found. Each page leads to the next; the page that fails is not among
them. -/
inductive Fetches (client : Client) (view : Page → Except Failure β) :
    Option Position → List Request → List β → Ending → List Request → Prop
  | complete {requests : List Request} :
      Fetches client view none requests [] .complete requests
  | paused {position : Position} {requests : List Request} :
      Fetches client view (some position) requests [] (.paused position) requests
  | failed {position : Position} {requests after : List Request} {failure : Failure} :
      outcome (visit view position) client (asked requests) = (.error failure, after) →
      Fetches client view (some position) requests [] (.failed failure) after
  | page {position : Position} {next : Option Position} {requests between after : List Request}
      {seen : β} {others : List β} {ending : Ending} :
      outcome (visit view position) client (asked requests) = (.ok (seen, next), between) →
      Fetches client view next between others ending after →
      Fetches client view (some position) requests (seen :: others) ending after

namespace Fetches

variable {next : Option Position} {requests after : List Request} {pages : List Page}
  {ending : Ending}

/-- What is wanted of the pages does not matter for how they are fetched. -/
theorem map (view : Page → β) (fetches : Fetches client pure next requests pages ending after) :
    Fetches client (fun page => pure (view page)) next requests (pages.map view) ending after := by
  induction fetches with
  | complete => exact .complete
  | paused => exact .paused
  | failed fails =>
      apply Fetches.failed
      rw [outcome_visit_pure, fails]
      rfl
  | page visits _ inductionHypothesis =>
      refine .page ?_ inductionHypothesis
      rw [outcome_visit_pure, visits]
      rfl

theorem of_map (view : Page → β) {seen : List β}
    (fetches : Fetches client (fun page => pure (view page)) next requests seen ending after) :
    ∃ pages, Fetches client pure next requests pages ending after ∧ seen = pages.map view := by
  induction fetches with
  | complete => exact ⟨[], .complete, rfl⟩
  | paused => exact ⟨[], .paused, rfl⟩
  | @failed position requests after failure fails =>
      refine ⟨[], .failed ?_, rfl⟩
      rw [outcome_visit_pure] at fails
      cases visits : outcome (visit pure position) client (asked requests) with
      | mk result after =>
          rw [visits] at fails
          cases result with
          | ok value => cases fails
          | error failure =>
              cases fails
              rfl
  | @page position next requests between after seen others ending visited _ inductionHypothesis =>
      obtain ⟨pages, fetchesRest, rfl⟩ := inductionHypothesis
      rw [outcome_visit_pure] at visited
      cases visits : outcome (visit pure position) client (asked requests) with
      | mk result after =>
          rw [visits] at visited
          cases result with
          | error failure => cases visited
          | ok value =>
              cases visited
              exact ⟨value.1 :: pages, .page visits fetchesRest, rfl⟩

end Fetches

/-- The pages of a read from its beginning on: its first query is found and some pages are fetched
from it, or there is no first query and nothing is fetched. -/
inductive FetchesFrom (client : Client) (log : Log) (opening : ReadM Query) :
    List Page → Ending → List Request → Prop
  | pages {query : Query} {pages : List Page} {ending : Ending} {between after : List Request} :
      outcome opening client log = (.ok query, between) →
      Fetches client pure (some ⟨query, 0⟩) between pages ending after →
      FetchesFrom client log opening pages ending after
  | unopened {failure : Failure} {after : List Request} :
      outcome opening client log = (.error failure, after) →
      FetchesFrom client log opening [] (.failed failure) after

/-! ## Reading all pages -/

/-- Tells every page but the first. -/
def tell (name : Json) (position : Position) : ReadM Unit :=
  if position.index ≠ 0 then
    emit (.note .debug "paging.page.done" .null
      [("op", .plain name), ("page", .plain (.int position.index))])
  else pure ()

theorem pagesFrom_succ (name : Json) (limit : Nat) (position : Position) :
    pagesFrom name (limit + 1) (some position) =
      visit pure position >>= fun visited => tell name position >>= fun _ =>
        pagesFrom name limit visited.2 >>= fun rest => pure (rest.map (visited.1 :: ·)) := by
  rw [pagesFrom]
  congr 1
  funext visited
  obtain ⟨page, next⟩ := visited
  by_cases first : position.index ≠ 0
  · simp only [tell, if_pos first]
  · simp only [tell, if_neg first, pure_bind]

instance (name : Json) (position : Position) : Orderly (tell name position) := by
  unfold tell
  infer_instance

theorem outcome_tell (name : Json) (position : Position) :
    outcome (tell name position) client log = (.ok (), log.requests) := by
  unfold tell
  split <;> rfl

instance orderly_pagesFrom (name : Json) (limit : Nat) (next : Option Position) :
    Orderly (pagesFrom name limit next) := by
  induction limit generalizing next with
  | zero => cases next <;> exact inferInstanceAs (Orderly (pure _))
  | succ limit inductionHypothesis =>
      cases next with
      | none => exact inferInstanceAs (Orderly (pure _))
      | some position =>
          rw [pagesFrom_succ]
          infer_instance

theorem outcome_pagesFrom_succ (name : Json) (limit : Nat) (position : Position) :
    outcome (pagesFrom name (limit + 1) (some position)) client log =
      follow (outcome (visit pure position) client log) fun visited requests =>
        follow (outcome (pagesFrom name limit visited.2) client (asked requests))
          fun rest requests => (.ok (rest.map (visited.1 :: ·)), requests) := by
  rw [pagesFrom_succ]
  simp only [outcome_bind, outcome_tell, outcome_pure, follow_ok]
  rfl

/-- What an eager read makes of its pages. -/
def Ending.result (pages : List Page) : Ending → Except Failure (Option (List Page))
  | .complete => .ok (some pages)
  | .paused _ => .ok none
  | .failed failure => .error failure

/-- Whether a limit allows as many pages as are fetched: a page that fails counts, and it stops the
fetching when it is used up. -/
def Ending.Within (count limit : Nat) : Ending → Prop
  | .complete => count ≤ limit
  | .paused _ => count = limit
  | .failed _ => count < limit

theorem Ending.Within.page {ending : Ending} {count limit : Nat}
    (within : ending.Within (count + 1) limit) :
    ∃ fewer, limit = fewer + 1 ∧ ending.Within count fewer := by
  cases limit with
  | zero => cases ending <;> simp [Ending.Within] at within
  | succ fewer =>
      refine ⟨fewer, rfl, ?_⟩
      cases ending <;> simpa [Ending.Within] using within

theorem Ending.result_cons (page : Page) (pages : List Page) (ending : Ending)
    (requests : List Request) :
    (follow (ending.result pages, requests) fun rest requests =>
        ((.ok (rest.map (page :: ·)), requests) : Outcome (Option (List Page)))) =
      (ending.result (page :: pages), requests) := by
  cases ending <;> rfl

/-- An eager read gives what the fetching of pages comes to within its limit. -/
theorem Fetches.outcome_pagesFrom {next : Option Position} {requests after : List Request}
    {pages : List Page} {ending : Ending} (name : Json)
    (fetches : Fetches client pure next requests pages ending after) {limit : Nat}
    (within : ending.Within pages.length limit) :
    outcome (pagesFrom name limit next) client (asked requests) = (ending.result pages, after) := by
  induction fetches generalizing limit with
  | complete => cases limit <;> rfl
  | paused =>
      have none : limit = 0 := within.symm
      rw [none]
      rfl
  | failed fails =>
      obtain ⟨fewer, rfl⟩ : ∃ fewer, limit = fewer + 1 := Nat.exists_eq_add_one.mpr within
      rw [outcome_pagesFrom_succ, fails]
      rfl
  | @page position next requests between after page others ending visits rest inductionHypothesis =>
      obtain ⟨fewer, rfl, withinRest⟩ := within.page
      rw [outcome_pagesFrom_succ, visits, follow_ok, inductionHypothesis withinRest]
      exact Ending.result_cons page others ending after

/-- Whatever its limit, the fetching of pages comes to something within it. -/
theorem exists_fetches (client : Client) (view : Page → Except Failure β) (limit : Nat)
    (next : Option Position) (requests : List Request) :
    ∃ seen ending after, Fetches client view next requests seen ending after ∧
      ending.Within seen.length limit := by
  induction limit generalizing next requests with
  | zero =>
      cases next with
      | none => exact ⟨[], .complete, requests, .complete, Nat.le_refl 0⟩
      | some position => exact ⟨[], .paused position, requests, .paused, rfl⟩
  | succ limit inductionHypothesis =>
      cases next with
      | none => exact ⟨[], .complete, requests, .complete, Nat.zero_le _⟩
      | some position =>
          cases visits : outcome (visit view position) client (asked requests) with
          | mk result between =>
              cases result with
              | error failure =>
                  exact ⟨[], .failed failure, between, .failed visits, Nat.succ_pos limit⟩
              | ok visited =>
                  obtain ⟨others, ending, after, fetches, within⟩ :=
                    inductionHypothesis visited.2 between
                  refine ⟨visited.1 :: others, ending, after, .page visits fetches, ?_⟩
                  cases ending <;> simpa [Ending.Within] using within

/-- What is told of the end of an eager read. -/
def concluded (name : Json) :
    Except Failure (Option (List Page)) → ReadM (Option (List Page))
  | .error failure => do
    emit (.note .error "paging.failed" .null
      [("op", .plain name), ("page", .plain (Json.ofOption .int failure.page)),
        ("error", .failed failure)])
    throw failure
  | .ok none => return none
  | .ok (some pages) => do
    emit (.note .info "paging.done" .null
      [("op", .plain name), ("pages", .plain (.int pages.length))])
    return some pages

instance (name : Json) (result : Except Failure (Option (List Page))) :
    Orderly (concluded name result) := by
  unfold concluded
  split <;> infer_instance

theorem outcome_concluded (name : Json) (result : Except Failure (Option (List Page))) :
    outcome (concluded name result) client log = (result, log.requests) := by
  rcases result with failure | _ | pages <;> rfl

theorem readAll_eq (limit : Nat) (query : Query) :
    readAll limit query =
      emit (.note .debug "paging.start" .null [("op", .plain query.nameJson)]) >>= fun _ =>
        attempt (pagesFrom query.nameJson limit (some ⟨query, 0⟩)) >>=
          concluded query.nameJson :=
  rfl

instance (limit : Nat) (query : Query) : Orderly (readAll limit query) := by
  rw [readAll_eq]
  infer_instance

/-- Only the pages decide about an eager read. -/
theorem outcome_readAll (limit : Nat) (query : Query) :
    outcome (readAll limit query) client log =
      outcome (pagesFrom query.nameJson limit (some ⟨query, 0⟩)) client (asked log.requests) := by
  rw [readAll_eq, outcome_bind, outcome_emit, follow_ok, outcome_bind, outcome_attempt, follow_ok,
    outcome_concluded]
  rfl

end LedgerBook.Paging
