import LedgerBook.Proofs.Page
import LedgerBook.Proofs.Paging
/-!
The requests that the answers make due, one after the other, as relations that speak of the answers
only. A page that is fetched leads to the next request, to the end, or nowhere. Reads along the
pages keep to the requests that are due.
-/
namespace LedgerBook.Paging

open ReadM

variable {client : Client} {initial query other : Query}
  {before earlier requests after : List Request} {index count : Nat} {page : Page}
  {pages : List Page} {ending : Ending}

/-! ## Answers -/

/-- What the answer to a request for a query comes to, where the request is the last of some: the
page that it holds, or the failure to get or to read it. -/
def answerTo (client : Client) (requests : List Request) (query : Query) (index : Nat) :
    Except Failure Page := do
  let envelope ← (client.answer requests).mapError (Failure.tag Failure.isClient index)
  let data ← envelope.required (some (index : Int))
  query.decode data index

/-- A query is sent after some requests, and its answer comes to a result. -/
def Exchanges (client : Client) (query : Query) (index : Nat) (earlier : List Request)
    (result : Except Failure Page) (requests : List Request) : Prop :=
  ∃ request, query.request = .ok request ∧ requests = earlier ++ [request] ∧
    answerTo client requests query index = result

/-- What a page leads to: the end, the next query, or no way to go on although another page is
promised. The next query differs from the one before in its cursor only, but from a clearing house
it goes to the map that the page tells. -/
inductive Turns (page : Page) : Query → Except CursorFault (Option Query) → Prop
  | last {query : Query} : page.info.hasNext = false → Turns page query (.ok none)
  | onward {query : MapQuery} {cursor : Text} :
      page.info.hasNext = true → page.info.endCursor = some cursor → query.after ≠ .str cursor →
      Turns page (.ofMap query) (.ok (some (.ofMap { query with after := .str cursor })))
  | narrowed {query : ClearingHouseQuery} {map cursor : Text} :
      page.mapAddress = some map →
      page.info.hasNext = true → page.info.endCursor = some cursor → query.after ≠ .str cursor →
      Turns page (.ofClearingHouse query)
        (.ok (some (.ofMap ⟨.str map, query.version, query.first, .str cursor⟩)))
  | missing {query : Query} :
      page.info.hasNext = true → page.info.endCursor = none → Turns page query (.error .missing)
  | repeated {query : Query} {cursor : Text} :
      page.info.hasNext = true → page.info.endCursor = some cursor → query.after = .str cursor →
      Turns page query (.error .repeated)

theorem follows_iff {query : Query} {cursor : Text} :
    query.follows cursor = true ↔ query.after = .str cursor := by
  unfold Query.follows
  cases query.after <;> simp

theorem next_of_last {info : PageInfo} (query : Query) (last : info.hasNext = false) :
    Query.next info query = .ok none := by
  rw [Query.next, if_neg (by rw [last]; exact Bool.false_ne_true)]
  rfl

theorem next_of_cursor {info : PageInfo} {query : Query} {cursor : Text}
    (more : info.hasNext = true) (leads : info.endCursor = some cursor)
    (fresh : query.after ≠ .str cursor) :
    Query.next info query = .ok (some (query.withAfter (.str cursor))) := by
  have advances : query.follows cursor = false :=
    Bool.eq_false_iff.mpr (mt follows_iff.mp fresh)
  rw [Query.next, if_pos more, leads]
  simp only [advances]
  rfl

theorem next_of_repeated {info : PageInfo} {query : Query} {cursor : Text}
    (more : info.hasNext = true) (leads : info.endCursor = some cursor)
    (repeated : query.after = .str cursor) :
    Query.next info query = .error (.pagination .repeated none) := by
  rw [Query.next, if_pos more, leads]
  simp only [follows_iff.mpr repeated]
  rfl

theorem next_of_missing {info : PageInfo} (query : Query) (more : info.hasNext = true)
    (missing : info.endCursor = none) :
    Query.next info query = .error (.pagination .missing none) := by
  rw [Query.next, if_pos more, missing]
  rfl

/-- The query that asks for what follows the page of a query. -/
theorem continuation_eq {data : Json} {index : Int}
    (decodes : query.decode data index = .ok page) :
    ∃ target : Query, target.after = query.after ∧
      (∀ cursor : Text, page.info.hasNext = true → page.info.endCursor = some cursor →
        query.after ≠ .str cursor →
          Turns page query (.ok (some (target.withAfter (.str cursor))))) ∧
      Query.continuation page query index =
        (Query.next page.info target).mapError (Failure.tag Failure.isPagination index) := by
  cases query with
  | ofMap query =>
      have none : page.mapAddress = none := Page.mapAddress_ofMapData decodes
      refine ⟨.ofMap query, rfl, fun cursor => .onward, ?_⟩
      rw [Query.continuation, none]
  | ofClearingHouse query =>
      obtain ⟨map, told⟩ := Page.mapAddress_ofClearingHouseData decodes
      refine ⟨.ofMap ⟨.str map, query.version, query.first, query.after⟩, rfl,
        fun cursor => .narrowed told, ?_⟩
      rw [Query.continuation, told]
      rfl

/-- A page that was read for a query leads somewhere, and what comes after it is found there. -/
theorem exists_turn {data : Json} {index : Int}
    (decodes : query.decode data index = .ok page) :
    ∃ turn, Turns page query turn ∧
      Query.continuation page query index =
        turn.mapError fun fault => .pagination fault (some index) := by
  obtain ⟨target, sameAfter, leads, continues⟩ := continuation_eq decodes
  cases more : page.info.hasNext with
  | false =>
      refine ⟨_, .last more, ?_⟩
      rw [continues, next_of_last target more]
      rfl
  | true =>
      cases cursor : page.info.endCursor with
      | none =>
          refine ⟨_, .missing more cursor, ?_⟩
          rw [continues, next_of_missing target more cursor]
          rfl
      | some text =>
          by_cases same : query.after = .str text
          · refine ⟨_, .repeated more cursor same, ?_⟩
            rw [continues, next_of_repeated more cursor (sameAfter.trans same)]
            rfl
          · refine ⟨_, leads text more cursor same, ?_⟩
            rw [continues, next_of_cursor more cursor (sameAfter ▸ same)]
            rfl

theorem Turns.unique {turn other : Except CursorFault (Option Query)}
    (turns : Turns page query turn) (otherTurns : Turns page query other) : turn = other := by
  cases turns <;> cases otherTurns <;> simp_all [Query.after]

/-- A query to which a page leads follows the cursor of the page. -/
theorem Turns.exists_cursor {following : Query}
    (turns : Turns page query (.ok (some following))) :
    ∃ cursor, page.info.hasNext = true ∧ page.info.endCursor = some cursor ∧
      query.after ≠ .str cursor ∧ following.after = .str cursor := by
  cases turns with
  | onward more leads fresh => exact ⟨_, more, leads, fresh, rfl⟩
  | narrowed _ more leads fresh => exact ⟨_, more, leads, fresh, rfl⟩

theorem Turns.exists_following {turn : Except CursorFault (Option Query)} {cursor : Text}
    (turns : Turns page query turn) (more : page.info.hasNext = true)
    (leads : page.info.endCursor = some cursor) (fresh : query.after ≠ .str cursor) :
    ∃ following, turn = .ok (some following) := by
  cases turns with
  | last ends => cases more.symm.trans ends
  | missing _ none => cases leads.symm.trans none
  | repeated _ leadsBack same =>
      cases leads.symm.trans leadsBack
      exact absurd same fresh
  | onward => exact ⟨_, rfl⟩
  | narrowed => exact ⟨_, rfl⟩

theorem continuation_of_turns {data : Json} {index : Int}
    {turn : Except CursorFault (Option Query)} (decodes : query.decode data index = .ok page)
    (turns : Turns page query turn) :
    Query.continuation page query index =
      turn.mapError fun fault => .pagination fault (some index) := by
  obtain ⟨found, turnsFound, continues⟩ := exists_turn decodes
  rw [turns.unique turnsFound, continues]

theorem Exchanges.outcome_fetch {result : Except Failure Page}
    (exchange : Exchanges client query index earlier result requests) :
    outcome (fetch query index) client (asked earlier) = (result, requests) := by
  obtain ⟨request, made, rfl, rfl⟩ := exchange
  unfold fetch
  simp only [outcome_bind, outcome_lift, made, follow_ok, outcome_mapFailure, outcome_ask, asked,
    answerTo]
  cases client.answer (earlier ++ [request]) with
  | error failure => rfl
  | ok envelope =>
      simp only [Except.mapError, follow_ok, ok_bind]
      cases envelope.required (some (index : Int)) <;> rfl

theorem Exchanges.decodes (exchange : Exchanges client query index earlier (.ok page) requests) :
    ∃ data, query.decode data index = .ok page := by
  obtain ⟨request, made, rfl, answered⟩ := exchange
  obtain ⟨envelope, _, reads⟩ := bind_eq_ok.mp answered
  obtain ⟨data, _, decodes⟩ := bind_eq_ok.mp reads
  exact ⟨data, decodes⟩

theorem Exchanges.unique {result otherResult : Except Failure Page}
    {otherRequests : List Request} (exchange : Exchanges client query index earlier result requests)
    (again : Exchanges client query index earlier otherResult otherRequests) :
    result = otherResult ∧ requests = otherRequests := by
  obtain ⟨request, made, rfl, rfl⟩ := exchange
  obtain ⟨same, madeAgain, rfl, rfl⟩ := again
  cases made.symm.trans madeAgain
  exact ⟨rfl, rfl⟩

/-- What a visit comes to is what the page leads to. -/
theorem Exchanges.outcome_visit
    (exchange : Exchanges client query index earlier (.ok page) requests)
    {turn : Except CursorFault (Option Query)} (turns : Turns page query turn) :
    outcome (visit pure ⟨query, index⟩) client (asked earlier) =
      ((turn.mapError fun fault => .pagination fault (some (index : Int))).map fun next =>
        (page, next.map fun query => ⟨query, index + 1⟩), requests) := by
  obtain ⟨data, decodes⟩ := exchange.decodes
  rw [Paging.outcome_visit exchange.outcome_fetch, continuation_of_turns decodes turns]

theorem Exchanges.exists_turn
    (exchange : Exchanges client query index earlier (.ok page) requests) :
    ∃ turn, Turns page query turn := by
  obtain ⟨data, decodes⟩ := exchange.decodes
  obtain ⟨turn, turns, _⟩ := Paging.exists_turn decodes
  exact ⟨turn, turns⟩

theorem Exchanges.outcome_visit_error {β : Type} {view : Page → Except Failure β}
    {failure : Failure}
    (exchange : Exchanges client query index earlier (.error failure) requests) :
    outcome (visit view ⟨query, index⟩) client (asked earlier) = (.error failure, requests) := by
  unfold visit
  rw [outcome_bind, exchange.outcome_fetch]
  rfl

/-! ## Due requests -/

/-- The request of some number is due: its query, and all requests before it. The first is due at
once, and every other when the page of the one before leads to it. -/
inductive Due (client : Client) (initial : Query) (before : List Request) :
    Nat → Query → List Request → Prop
  | first : Due client initial before 0 initial before
  | next {index : Nat} {query following : Query} {earlier requests : List Request} {page : Page} :
      Due client initial before index query earlier →
      Exchanges client query index earlier (.ok page) requests →
      Turns page query (.ok (some following)) →
      Due client initial before (index + 1) following requests

/-- The page of some number is fetched for a query. -/
def Fetched (client : Client) (initial : Query) (before : List Request) (index : Nat)
    (query : Query) (page : Page) : Prop :=
  ∃ earlier requests, Due client initial before index query earlier ∧
    Exchanges client query index earlier (.ok page) requests

/-- A read fails at the page of some number, after all requests that it makes: the page is not got,
or it leads nowhere although it promises another one. -/
inductive FailsAt (client : Client) (initial : Query) (before : List Request) :
    Nat → Failure → List Request → Prop
  | unanswered {index : Nat} {query : Query} {earlier requests : List Request}
      {failure : Failure} :
      Due client initial before index query earlier →
      Exchanges client query index earlier (.error failure) requests →
      FailsAt client initial before index failure requests
  | stuck {index : Nat} {query : Query} {earlier requests : List Request} {page : Page}
      {fault : CursorFault} :
      Due client initial before index query earlier →
      Exchanges client query index earlier (.ok page) requests →
      Turns page query (.error fault) →
      FailsAt client initial before index (.pagination fault (some (index : Int))) requests

theorem Due.unique {otherEarlier : List Request}
    (due : Due client initial before index query earlier)
    (again : Due client initial before index other otherEarlier) :
    query = other ∧ earlier = otherEarlier := by
  induction due generalizing other otherEarlier with
  | first =>
      cases again
      exact ⟨rfl, rfl⟩
  | next _ exchange turns inductionHypothesis =>
      cases again with
      | next dueAgain exchangeAgain turnsAgain =>
          obtain ⟨rfl, rfl⟩ := inductionHypothesis dueAgain
          obtain ⟨samePage, sameRequests⟩ := exchange.unique exchangeAgain
          cases samePage
          cases turns.unique turnsAgain
          exact ⟨rfl, sameRequests⟩

theorem Fetched.unique {otherPage : Page} (fetched : Fetched client initial before index query page)
    (again : Fetched client initial before index other otherPage) : page = otherPage := by
  obtain ⟨earlier, requests, due, exchange⟩ := fetched
  obtain ⟨otherEarlier, otherRequests, dueAgain, exchangeAgain⟩ := again
  obtain ⟨rfl, rfl⟩ := due.unique dueAgain
  cases (exchange.unique exchangeAgain).1
  rfl

theorem Due.grows (due : Due client initial before index query earlier) :
    ∃ made, earlier = before ++ made ∧ made.length = index := by
  induction due with
  | first => exact ⟨[], (List.append_nil before).symm, rfl⟩
  | next _ exchange _ inductionHypothesis =>
      obtain ⟨made, rfl, many⟩ := inductionHypothesis
      obtain ⟨request, _, rfl, _⟩ := exchange
      exact ⟨made ++ [request], List.append_assoc .., by rw [List.length_append, many]; rfl⟩

/-- Every exchange is one more request. -/
theorem Exchanges.grows {result : Except Failure Page}
    (exchange : Exchanges client query index earlier result requests)
    (due : Due client initial before index query earlier) :
    ∃ made, requests = before ++ made ∧ made.length = index + 1 := by
  obtain ⟨made, rfl, many⟩ := due.grows
  obtain ⟨request, _, rfl, _⟩ := exchange
  exact ⟨made ++ [request], List.append_assoc .., by rw [List.length_append, many]; rfl⟩

/-- Nothing is due after the last page. -/
theorem Due.le_of_last {last : Nat} {asked : Query}
    (fetched : Fetched client initial before last asked page) (ends : page.info.hasNext = false)
    (due : Due client initial before index query earlier) : index ≤ last := by
  induction due with
  | first => exact Nat.zero_le last
  | @next index query following earlier requests found due exchange turns inductionHypothesis =>
      refine Nat.lt_of_le_of_ne inductionHypothesis fun same => ?_
      subst same
      obtain ⟨otherEarlier, otherRequests, dueAgain, exchangeAgain⟩ := fetched
      obtain ⟨rfl, rfl⟩ := due.unique dueAgain
      cases (exchange.unique exchangeAgain).1
      cases turns.unique (.last ends)

/-! ## Reads and due requests -/

/-- Every request, by its number, was due. -/
def AllDue (client : Client) (initial : Query) (before requests : List Request) : Prop :=
  ∀ index request, requests[before.length + index]? = some request →
    ∃ query earlier, Due client initial before index query earlier ∧ query.request = .ok request

theorem AllDue.exchange (allDue : AllDue client initial before earlier)
    (due : Due client initial before index query earlier) {result : Except Failure Page}
    (exchange : Exchanges client query index earlier result requests) :
    AllDue client initial before requests := by
  obtain ⟨last, made, rfl, _⟩ := exchange
  intro number request found
  have many : earlier.length = before.length + index := by
    obtain ⟨made, rfl, many⟩ := due.grows
    rw [List.length_append, many]
  by_cases old : before.length + number < earlier.length
  · rw [List.getElem?_append_left old] at found
    exact allDue number request found
  · rw [List.getElem?_append_right (Nat.le_of_not_lt old)] at found
    obtain ⟨bound, rfl⟩ := List.getElem?_eq_some_iff.mp found
    have same : number = index := by
      rw [List.length_singleton] at bound
      omega
    subst same
    exact ⟨query, earlier, due, by simpa using made⟩

theorem Due.allDue (due : Due client initial before index query earlier) :
    AllDue client initial before earlier := by
  induction due with
  | first =>
      intro number request found
      rw [List.getElem?_eq_none (Nat.le_add_right _ number)] at found
      cases found
  | next due exchange _ inductionHypothesis => exact inductionHypothesis.exchange due exchange

/-- Where a read stands after some number of pages: before its next page, if there is one. -/
inductive Reaches (client : Client) (initial : Query) (before : List Request) :
    Nat → Option Position → List Request → Prop
  | due {index : Nat} {query : Query} {earlier : List Request} :
      Due client initial before index query earlier →
      Reaches client initial before index (some ⟨query, index⟩) earlier
  | done {index : Nat} {query : Query} {earlier requests : List Request} {page : Page} :
      Due client initial before index query earlier →
      Exchanges client query index earlier (.ok page) requests →
      page.info.hasNext = false →
      Reaches client initial before (index + 1) none requests

/-- The answers bring a read to an ending after some number of pages. -/
def Ending.Meets (client : Client) (initial : Query) (before : List Request) (count : Nat)
    (after : List Request) : Ending → Prop
  | .complete => Reaches client initial before count none after
  | .paused next => Reaches client initial before count (some next) after
  | .failed failure => FailsAt client initial before count failure after

theorem Reaches.exists_last (reaches : Reaches client initial before count none after) :
    ∃ index query page, count = index + 1 ∧ Fetched client initial before index query page ∧
      page.info.hasNext = false ∧ ∃ made, after = before ++ made ∧ made.length = index + 1 := by
  cases reaches with
  | done due exchange ends =>
      exact ⟨_, _, _, rfl, ⟨_, _, due, exchange⟩, ends, exchange.grows due⟩

theorem FailsAt.grows {failure : Failure}
    (fails : FailsAt client initial before index failure after) :
    ∃ made, after = before ++ made ∧ made.length = index + 1 := by
  cases fails with
  | unanswered due exchange => exact exchange.grows due
  | stuck due exchange _ => exact exchange.grows due

theorem Ending.Meets.allDue (meets : ending.Meets client initial before count after) :
    AllDue client initial before after := by
  cases ending with
  | complete =>
      cases meets with
      | done due exchange _ => exact due.allDue.exchange due exchange
  | paused next =>
      cases meets with
      | due due => exact due.allDue
  | failed failure =>
      cases meets with
      | unanswered due exchange => exact due.allDue.exchange due exchange
      | stuck due exchange _ => exact due.allDue.exchange due exchange

/-- One visit: a read that stands before a page fails there, or fetches it and stands where the page
leads. -/
theorem Exchanges.visits {result : Except Failure Page}
    (exchange : Exchanges client query index earlier result requests)
    (due : Due client initial before index query earlier) :
    (∃ failure, FailsAt client initial before index failure requests ∧
        outcome (visit pure ⟨query, index⟩) client (asked earlier) =
          (.error failure, requests)) ∨
      ∃ page next, Fetched client initial before index query page ∧
        Reaches client initial before (index + 1) next requests ∧
        outcome (visit pure ⟨query, index⟩) client (asked earlier) =
          (.ok (page, next), requests) := by
  cases result with
  | error failure => exact .inl ⟨_, .unanswered due exchange, exchange.outcome_visit_error⟩
  | ok page =>
      obtain ⟨turn, turns⟩ := exchange.exists_turn
      have visited := exchange.outcome_visit turns
      cases turn with
      | error fault => exact .inl ⟨_, .stuck due exchange turns, visited⟩
      | ok next =>
          refine .inr ⟨page, _, ⟨earlier, requests, due, exchange⟩, ?_, visited⟩
          cases next with
          | none =>
              cases turns with
              | last ends => exact .done due exchange ends
          | some following => exact .due (due.next exchange turns)

/-- A read that is allowed one more page comes to an ending with it. -/
theorem Exchanges.exists_meets {result : Except Failure Page}
    (exchange : Exchanges client query index earlier result requests)
    (due : Due client initial before index query earlier) :
    ∃ count, ∃ ending : Ending, ending.Meets client initial before count requests ∧
      ending.Within count (index + 1) := by
  rcases exchange.visits due with ⟨failure, fails, _⟩ | ⟨page, next, _, stands, _⟩
  · exact ⟨index, .failed failure, fails, Nat.lt_succ_self index⟩
  · cases next with
    | none => exact ⟨index + 1, .complete, stands, Nat.le_refl _⟩
    | some position => exact ⟨index + 1, .paused position, stands, rfl⟩

/-- Every request that is due can be sent. -/
def Sendable (client : Client) (initial : Query) (before : List Request) : Prop :=
  ∀ {index : Nat} {query : Query} {earlier : List Request},
    Due client initial before index query earlier → ∃ request, query.request = .ok request

theorem Sendable.exists_exchange (sendable : Sendable client initial before)
    (due : Due client initial before index query earlier) :
    ∃ result requests, Exchanges client query index earlier result requests := by
  obtain ⟨request, made⟩ := sendable due
  exact ⟨_, _, request, made, rfl, rfl⟩

/-- A read along the pages keeps to the requests that are due, and ends as the answers have it. -/
theorem Fetches.meets (sendable : Sendable client initial before) {next : Option Position}
    (fetches : Fetches client pure next requests pages ending after)
    (reaches : Reaches client initial before index next requests) :
    (∀ offset page, pages[offset]? = some page →
        ∃ query, Fetched client initial before (index + offset) query page) ∧
      ending.Meets client initial before (index + pages.length) after := by
  induction fetches generalizing index with
  | complete => exact ⟨by simp, reaches⟩
  | paused => exact ⟨by simp, reaches⟩
  | failed fails =>
      refine ⟨by simp, ?_⟩
      cases reaches with
      | due due =>
          obtain ⟨result, made, exchange⟩ := sendable.exists_exchange due
          rcases exchange.visits due with ⟨failure, failsAt, visited⟩ | ⟨_, _, _, _, visited⟩
          · cases visited.symm.trans fails
            exact failsAt
          · cases visited.symm.trans fails
  | @page position next requests between after seen others ending visits rest
      inductionHypothesis =>
      cases reaches with
      | due due =>
          -- The visit that was seen is the one that the answer decides.
          obtain ⟨result, made, exchange⟩ := sendable.exists_exchange due
          rcases exchange.visits due with ⟨_, _, visited⟩ | ⟨page, next, fetched, stands, visited⟩
          · cases visited.symm.trans visits
          · cases visited.symm.trans visits
            obtain ⟨fetchedOthers, meets⟩ := inductionHypothesis stands
            refine ⟨fun offset found present => ?_, ?_⟩
            · cases offset with
              | zero =>
                  cases present
                  exact ⟨_, fetched⟩
              | succ offset =>
                  have there := fetchedOthers offset found present
                  rwa [Nat.add_right_comm, Nat.add_assoc] at there
            · rwa [List.length_cons, Nat.add_comm others.length, ← Nat.add_assoc]

/-- Fetching goes on where it paused. -/
theorem Fetches.trans {β : Type} {view : Page → Except Failure β} {next : Option Position}
    {position : Position} {between : List Request} {seen others : List β}
    (fetches : Fetches client view next requests seen (.paused position) between)
    (rest : Fetches client view (some position) between others ending after) :
    Fetches client view next requests (seen ++ others) ending after := by
  generalize pauses : Ending.paused position = first at fetches
  induction fetches with
  | complete => cases pauses
  | paused =>
      cases pauses
      exact rest
  | failed _ => cases pauses
  | page visits _ inductionHypothesis => exact .page visits (inductionHypothesis rest pauses)

theorem Due.fetches (due : Due client initial before index query earlier) :
    ∃ pages, pages.length = index ∧
      Fetches client pure (some ⟨initial, 0⟩) before pages (.paused ⟨query, index⟩) earlier := by
  induction due with
  | first => exact ⟨[], rfl, .paused⟩
  | next _ exchange turns inductionHypothesis =>
      obtain ⟨pages, many, fetches⟩ := inductionHypothesis
      exact ⟨pages ++ [_], by rw [List.length_append, many]; rfl,
        fetches.trans (.page (exchange.outcome_visit turns) .paused)⟩

/-- What the answers bring a read to is found by fetching the pages. -/
theorem Ending.Meets.fetches (meets : ending.Meets client initial before count after) :
    ∃ pages, pages.length = count ∧
      Fetches client pure (some ⟨initial, 0⟩) before pages ending after := by
  cases ending with
  | complete =>
      cases meets with
      | done due exchange ends =>
          obtain ⟨pages, many, fetches⟩ := due.fetches
          exact ⟨pages ++ [_], by rw [List.length_append, many]; rfl,
            fetches.trans (.page (exchange.outcome_visit (.last ends)) .complete)⟩
  | paused next =>
      cases meets with
      | due due => exact due.fetches
  | failed failure =>
      cases meets with
      | unanswered due exchange =>
          obtain ⟨pages, many, fetches⟩ := due.fetches
          exact ⟨pages ++ [], by rw [List.append_nil, many],
            fetches.trans (.failed exchange.outcome_visit_error)⟩
      | stuck due exchange turns =>
          obtain ⟨pages, many, fetches⟩ := due.fetches
          exact ⟨pages ++ [], by rw [List.append_nil, many],
            fetches.trans (.failed (exchange.outcome_visit turns))⟩

end LedgerBook.Paging
