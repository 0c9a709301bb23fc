import LedgerBook.Proofs.Paging.Due
import LedgerBook.Proofs.Telling
/-!
Eager reads follow the cursors. A read sends the requests that are due and no others, gives all
pages if one of them is the last, and otherwise fails as the answers have it, without any page. What
it tells on the way is how many pages it has got.
-/
namespace LedgerBook

/-- Whether a value gives an address. -/
def Address.Valid (given : Json) : Prop :=
  ∃ text, Address.canonical given = .ok text

/-- The address that a query is about. -/
def Query.address : Query → Json
  | ofMap query => query.map
  | ofClearingHouse query => query.clearingHouse

theorem Query.exists_request {query : Query} (valid : Address.Valid query.address) :
    ∃ request, query.request = .ok request := by
  obtain ⟨text, canonical⟩ := valid
  cases query with
  | ofMap query => exact ⟨_, bind_eq_ok.mpr ⟨text, canonical, rfl⟩⟩
  | ofClearingHouse query => exact ⟨_, bind_eq_ok.mpr ⟨text, canonical, rfl⟩⟩

namespace Paging

open ReadM

variable {client : Client} {log later : Log} {initial query : Query}
  {before earlier requests after : List Request} {index limit : Nat} {pages : List Page}
  {ending : Ending}

theorem Turns.address {page : Page} {following : Query}
    (turns : Turns page query (.ok (some following))) :
    following.address = query.address ∨
      ∃ map, page.mapAddress = some map ∧ following.address = .str map := by
  cases turns with
  | onward => exact .inl rfl
  | narrowed told => exact .inr ⟨_, told, rfl⟩

/-- Requests can be sent as long as the addresses are valid: the one that the read starts at, and
those that pages tell. -/
theorem sendable_of_valid (valid : Address.Valid initial.address)
    (reported : ∀ index query page map, Fetched client initial before index query page →
      page.mapAddress = some map → Address.Valid (.str map)) :
    Sendable client initial before := by
  intro index query earlier due
  apply Query.exists_request
  induction due with
  | first => exact valid
  | next due exchange turns inductionHypothesis =>
      rcases turns.address with same | ⟨map, told, narrowed⟩
      · rw [same]
        exact inductionHypothesis
      · rw [narrowed]
        exact reported _ _ _ map ⟨_, _, due, exchange⟩ told

/-! ## Events -/

def started (name : Json) : Event :=
  .note .debug "paging.start" .null [("op", .plain name)]

def pageDone (name : Json) (index : Nat) : Event :=
  .note .debug "paging.page.done" .null [("op", .plain name), ("page", .plain (.int index))]

def allDone (name : Json) (count : Nat) : Event :=
  .note .info "paging.done" .null [("op", .plain name), ("pages", .plain (.int count))]

/-- The failure, and the page it is put at. -/
def gaveUp (name : Json) (failure : Failure) : Event :=
  .note .error "paging.failed" .null
    [("op", .plain name), ("page", .plain (Json.ofOption .int failure.page)),
      ("error", .failed failure)]

/-- What is told at the end of an eager read. -/
def conclusion (name : Json) : Except Failure (Option (List Page)) → List Event
  | .error failure => [gaveUp name failure]
  | .ok none => []
  | .ok (some pages) => [allDone name pages.length]

/-- What is told of some pages, from an index on. The very first page is not told. -/
def pagesDone (name : Json) (index count : Nat) : List Event :=
  ((List.range' index count).filter (· ≠ 0)).map (pageDone name)

theorem pagesDone_succ (name : Json) (index count : Nat) :
    pagesDone name index (count + 1) =
      pagesDone name index 1 ++ pagesDone name (index + 1) count := by
  rw [pagesDone, List.range'_succ, ← List.singleton_append, List.filter_append, List.map_append]
  rfl

/-- From the start on, every page but the first is told. -/
theorem pagesDone_zero (name : Json) (count : Nat) :
    pagesDone name 0 count = (List.range' 1 (count - 1)).map (pageDone name) := by
  cases count with
  | zero => rfl
  | succ others =>
      have others_ne_zero : ∀ index ∈ List.range' 1 others, decide (index ≠ 0) = true := by
        intro index inside
        have bounds := List.mem_range'_1.mp inside
        exact decide_eq_true (by omega)
      have all : (List.range' 1 others).filter (· ≠ 0) = List.range' 1 others :=
        List.filter_eq_self.mpr others_ne_zero
      rw [pagesDone_succ, pagesDone, pagesDone, Nat.zero_add, all]
      rfl

instance {β : Type} (view : Page → Except Failure β) (position : Position) :
    Quiet (visit view position) := by
  unfold visit
  infer_instance

theorem told_tell (name : Json) (position : Position) :
    told (tell name position) client log = log.events ++ pagesDone name position.index 1 := by
  unfold tell pagesDone
  rw [List.range'_one, List.filter_singleton]
  by_cases first : position.index = 0
  · simp [first, told_pure]
  · simp [first, told_emit, pageDone]

theorem told_concluded (name : Json) (result : Except Failure (Option (List Page))) :
    told (concluded name result) client log = log.events ++ conclusion name result := by
  rcases result with failure | _ | pages
  · rfl
  · exact (List.append_nil _).symm
  · rfl

/-- A visit that finds a next page counts on, whatever is wanted of the page. -/
theorem index_of_visit {β : Type} {view : Page → Except Failure β} {position next : Position}
    {seen : β}
    (visits : outcome (visit view position) client (asked requests) =
      (.ok (seen, some next), after)) : next.index = position.index + 1 := by
  rcases fetched : outcome (fetch position.query position.index) client (asked requests) with
    ⟨failure | found, between⟩
  · unfold visit at visits
    rw [outcome_bind, fetched] at visits
    cases visits
  · rw [outcome_visit_view view fetched] at visits
    rcases shows : view found with failure | shown
    · rw [shows] at visits
      cases visits
    · rw [shows] at visits
      rcases continues : Query.continuation found position.query position.index with
        failure | none | following
      all_goals
        simp only [continues, ok_bind] at visits
        cases visits
      rfl

/-- What an eager read tells of the pages that it fetches, however the fetching ends. -/
theorem Fetches.told_pagesFrom (name : Json) {next : Option Position}
    (fetches : Fetches client pure next requests pages ending after)
    (within : ending.Within pages.length limit) (events : List Event)
    (counts : ∀ position, next = some position → position.index = index) :
    told (pagesFrom name limit next) client ⟨requests, events⟩ =
      events ++ pagesDone name index pages.length := by
  induction fetches generalizing limit events index with
  | complete => cases limit <;> exact (List.append_nil events).symm
  | paused =>
      have none : limit = 0 := within.symm
      rw [none]
      exact (List.append_nil events).symm
  | @failed position requests after failure fails =>
      obtain ⟨fewer, rfl⟩ : ∃ fewer, limit = fewer + 1 := Nat.exists_eq_add_one.mpr within
      have failed : outcome (visit pure position) client ⟨requests, events⟩ =
          (.error failure, after) := (outcome_asked _).trans fails
      rw [pagesFrom_succ, told_bind_of_error _ failed, told_quiet]
      exact (List.append_nil events).symm
  | @page position next requests between after page others ending visits rest inductionHypothesis =>
      obtain ⟨fewer, rfl, withinRest⟩ := within.page
      have here : position.index = index := counts position rfl
      have visited : outcome (visit pure position) client ⟨requests, events⟩ =
          (.ok (page, next), between) := (outcome_asked _).trans visits
      have countsOn : ∀ following, next = some following → following.index = index + 1 := by
        rintro following rfl
        rw [index_of_visit visits, here]
      have quiet : told (visit pure position) client ⟨requests, events⟩ = events := told_quiet _
      rw [pagesFrom_succ, told_bind_of_ok _ visited, quiet,
        told_bind_of_ok _ (outcome_tell name position), told_tell, here, told_bind_pure,
        inductionHypothesis withinRest _ countsOn, List.append_assoc, ← pagesDone_succ]
      rfl

/-- All that there is of an eager read, from the fetching of its pages. -/
theorem Fetches.outcome_told_readAll
    (fetches : Fetches client pure (some ⟨query, 0⟩) log.requests pages ending after)
    (within : ending.Within pages.length limit) :
    outcome (readAll limit query) client log = (ending.result pages, after) ∧
      told (readAll limit query) client log =
        log.events ++ (started query.nameJson ::
          (List.range' 1 (pages.length - 1)).map (pageDone query.nameJson) ++
            conclusion query.nameJson (ending.result pages)) := by
  have found : outcome (pagesFrom query.nameJson limit (some ⟨query, 0⟩)) client
      ⟨log.requests, log.events ++ [started query.nameJson]⟩ = (ending.result pages, after) :=
    (outcome_asked _).trans (fetches.outcome_pagesFrom query.nameJson within)
  have counts : ∀ position, some (Position.mk query 0) = some position → position.index = 0 := by
    rintro _ ⟨⟩
    rfl
  refine ⟨(outcome_readAll limit query).trans (fetches.outcome_pagesFrom query.nameJson within), ?_⟩
  rw [readAll_eq, told_bind_of_ok _ (outcome_emit _), told_emit,
    told_bind_of_ok _ (outcome_attempt _), told_concluded, told_attempt]
  change told (pagesFrom query.nameJson limit (some ⟨query, 0⟩)) client
      ⟨log.requests, log.events ++ [started query.nameJson]⟩ ++ conclusion query.nameJson
        (outcome (pagesFrom query.nameJson limit (some ⟨query, 0⟩)) client
          ⟨log.requests, log.events ++ [started query.nameJson]⟩).1 = _
  rw [found, fetches.told_pagesFrom query.nameJson within _ counts, pagesDone_zero]
  simp only [List.append_assoc, List.nil_append, List.cons_append]

/-- Every eager read is one of some fetched pages. -/
theorem exists_outcome_told_readAll (client : Client) (log : Log) (limit : Nat) (query : Query) :
    ∃ (pages : List Page) (ending : Ending) (after : List Request),
      Fetches client pure (some ⟨query, 0⟩) log.requests pages ending after ∧
        ending.Within pages.length limit ∧
        outcome (readAll limit query) client log = (ending.result pages, after) ∧
        told (readAll limit query) client log =
          log.events ++ (started query.nameJson ::
            (List.range' 1 (pages.length - 1)).map (pageDone query.nameJson) ++
              conclusion query.nameJson (ending.result pages)) := by
  obtain ⟨pages, ending, after, fetches, within⟩ :=
    exists_fetches client pure limit (some ⟨query, 0⟩) log.requests
  exact ⟨pages, ending, after, fetches, within, fetches.outcome_told_readAll within⟩

theorem readAll_eq_ok_iff :
    readAll limit query client log = .ok (some pages) later ↔
      pages.length ≤ limit ∧
        Fetches client pure (some ⟨query, 0⟩) log.requests pages .complete later.requests ∧
        later.events = log.events ++ (started query.nameJson ::
          (List.range' 1 (pages.length - 1)).map (pageDone query.nameJson) ++
            [allDone query.nameJson pages.length]) := by
  rw [run_eq_ok]
  constructor
  · rintro ⟨gives, tells⟩
    obtain ⟨found, ending, after, fetches, within, result, events⟩ :=
      exists_outcome_told_readAll client log limit query
    rw [result] at gives
    cases ending with
    | complete =>
        cases gives
        exact ⟨within, fetches, tells.symm.trans events⟩
    | paused next => cases gives
    | failed failure => cases gives
  · rintro ⟨within, fetches, events⟩
    obtain ⟨result, tells⟩ := fetches.outcome_told_readAll within
    exact ⟨result, tells.trans events.symm⟩

theorem readAll_eq_error_iff {failure : Failure} :
    readAll limit query client log = .error failure later ↔
      ∃ pages, pages.length < limit ∧
        Fetches client pure (some ⟨query, 0⟩) log.requests pages (.failed failure)
          later.requests ∧
        later.events = log.events ++ (started query.nameJson ::
          (List.range' 1 (pages.length - 1)).map (pageDone query.nameJson) ++
            [gaveUp query.nameJson failure]) := by
  rw [run_eq_error]
  constructor
  · rintro ⟨fails, tells⟩
    obtain ⟨found, ending, after, fetches, within, result, events⟩ :=
      exists_outcome_told_readAll client log limit query
    rw [result] at fails
    cases ending with
    | complete => cases fails
    | paused next => cases fails
    | failed failure =>
        cases fails
        exact ⟨found, within, fetches, tells.symm.trans events⟩
  · rintro ⟨pages, within, fetches, events⟩
    obtain ⟨result, tells⟩ := fetches.outcome_told_readAll within
    exact ⟨result, tells.trans events.symm⟩

/-! ## Following the cursors -/

/-- An eager read comes to send a request, of some number among its own, if its limit allows. -/
def Issues (client : Client) (log : Log) (query : Query) (index : Nat) (request : Request) : Prop :=
  ∃ limit, (outcome (readAll limit query) client log).2[log.requests.length + index]? = some request

/-- An eager read sends the requests that are due and no others. -/
theorem issues_iff (sendable : Sendable client query log.requests) {request : Request} :
    Issues client log query index request ↔
      ∃ asked earlier, Due client query log.requests index asked earlier ∧
        asked.request = .ok request := by
  constructor
  · rintro ⟨limit, sent⟩
    obtain ⟨pages, ending, after, fetches, _, result, _⟩ :=
      exists_outcome_told_readAll client log limit query
    obtain ⟨_, meets⟩ := fetches.meets sendable (.due .first)
    rw [result] at sent
    exact meets.allDue index request sent
  · rintro ⟨asked, earlier, due, made⟩
    obtain ⟨sentBefore, rfl, many⟩ := due.grows
    have exchange : Exchanges client asked index (log.requests ++ sentBefore) _ _ :=
      ⟨request, made, rfl, rfl⟩
    obtain ⟨count, ending, meets, within⟩ := exchange.exists_meets due
    obtain ⟨pages, rfl, fetches⟩ := meets.fetches
    refine ⟨index + 1, ?_⟩
    rw [(fetches.outcome_told_readAll within).1, List.append_assoc,
      List.getElem?_append_right (Nat.le_add_right _ index), Nat.add_sub_cancel_left, ← many]
    exact List.getElem?_concat_length

/-- How an eager read follows the cursors: which requests it sends, when and what it gives, when and
how it fails, and what it tells. -/
structure FollowsCursors (client : Client) (log : Log) (query : Query) : Prop where
  sends : ∀ index request, Issues client log query index request ↔
    ∃ asked earlier, Due client query log.requests index asked earlier ∧
      asked.request = .ok request
  /-- The first request has the variables of the query. -/
  first : ∀ request, Issues client log query 0 request ↔ query.request = .ok request
  /-- There is another request exactly if the page before it is fetched, promises another one, and
  has a cursor other than the one after which it was asked for. -/
  onward : ∀ index, (∃ request, Issues client log query (index + 1) request) ↔
    ∃ asked page cursor, Fetched client query log.requests index asked page ∧
      page.info.hasNext = true ∧ page.info.endCursor = some cursor ∧ asked.after ≠ .str cursor
  /-- Its variables are those of the query to which the page leads. -/
  carried : ∀ index request, Issues client log query (index + 1) request →
    ∃ asked page following, Fetched client query log.requests index asked page ∧
      Turns page asked (.ok (some following)) ∧ following.request = .ok request
  /-- The read gives something exactly if one of the pages that its limit allows is the last. -/
  returns : ∀ limit, (∃ pages later, readAll limit query client log = .ok (some pages) later) ↔
    ∃ index < limit, ∃ asked page, Fetched client query log.requests index asked page ∧
      page.info.hasNext = false
  /-- It gives all pages in the order in which they came, after one request for each. -/
  given : ∀ limit pages later, readAll limit query client log = .ok (some pages) later →
    (∀ index page, pages[index]? = some page ↔
        ∃ asked, Fetched client query log.requests index asked page) ∧
      (∃ made, later.requests = log.requests ++ made ∧ made.length = pages.length) ∧
      later.events = log.events ++ (started query.nameJson ::
        (List.range' 1 (pages.length - 1)).map (pageDone query.nameJson) ++
          [allDone query.nameJson pages.length])
  /-- The read fails exactly if one of the pages that its limit allows does. -/
  fails : ∀ limit failure, (∃ later, readAll limit query client log = .error failure later) ↔
    ∃ index < limit, ∃ requests, FailsAt client query log.requests index failure requests
  /-- The request for the page that fails is the last. -/
  failed : ∀ limit failure later, readAll limit query client log = .error failure later →
    ∃ index, FailsAt client query log.requests index failure later.requests ∧
      (∃ made, later.requests = log.requests ++ made ∧ made.length = index + 1) ∧
      later.events = log.events ++ (started query.nameJson ::
        (List.range' 1 (index - 1)).map (pageDone query.nameJson) ++
          [gaveUp query.nameJson failure])

section Sendable

variable (sendable : Sendable client query log.requests)

include sendable

theorem issues_zero_iff {request : Request} :
    Issues client log query 0 request ↔ query.request = .ok request := by
  rw [issues_iff sendable]
  constructor
  · rintro ⟨asked, earlier, due, made⟩
    cases due
    exact made
  · intro made
    exact ⟨query, log.requests, .first, made⟩

theorem issues_succ {request : Request} (issues : Issues client log query (index + 1) request) :
    ∃ asked page following, Fetched client query log.requests index asked page ∧
      Turns page asked (.ok (some following)) ∧ following.request = .ok request := by
  obtain ⟨following, earlier, due, made⟩ := (issues_iff sendable).mp issues
  cases due with
  | next due exchange turns => exact ⟨_, _, following, ⟨_, _, due, exchange⟩, turns, made⟩

theorem exists_issues_succ_iff :
    (∃ request, Issues client log query (index + 1) request) ↔
      ∃ asked page cursor, Fetched client query log.requests index asked page ∧
        page.info.hasNext = true ∧ page.info.endCursor = some cursor ∧
        asked.after ≠ .str cursor := by
  constructor
  · rintro ⟨request, issues⟩
    obtain ⟨asked, page, following, fetched, turns, _⟩ := issues_succ sendable issues
    obtain ⟨cursor, more, leads, fresh, _⟩ := turns.exists_cursor
    exact ⟨asked, page, cursor, fetched, more, leads, fresh⟩
  · rintro ⟨asked, page, cursor, ⟨earlier, requests, due, exchange⟩, more, leads, fresh⟩
    obtain ⟨turn, turns⟩ := exchange.exists_turn
    obtain ⟨following, rfl⟩ := turns.exists_following more leads fresh
    have dueNext := due.next exchange turns
    obtain ⟨request, made⟩ := sendable dueNext
    exact ⟨request, (issues_iff sendable).mpr ⟨following, requests, dueNext, made⟩⟩

theorem exists_readAll_eq_ok_iff :
    (∃ pages later, readAll limit query client log = .ok (some pages) later) ↔
      ∃ index < limit, ∃ asked page, Fetched client query log.requests index asked page ∧
        page.info.hasNext = false := by
  constructor
  · rintro ⟨pages, later, gives⟩
    obtain ⟨within, fetches, _⟩ := readAll_eq_ok_iff.mp gives
    obtain ⟨_, reaches⟩ := fetches.meets sendable (.due .first)
    obtain ⟨last, asked, page, many, fetched, ends, _⟩ := reaches.exists_last
    exact ⟨last, by omega, asked, page, fetched, ends⟩
  · rintro ⟨index, within, asked, page, ⟨earlier, requests, due, exchange⟩, ends⟩
    have meets : Ending.complete.Meets client query log.requests (index + 1) requests :=
      .done due exchange ends
    obtain ⟨pages, many, fetches⟩ := meets.fetches
    exact ⟨pages, ⟨requests, _⟩, readAll_eq_ok_iff.mpr ⟨by omega, fetches, rfl⟩⟩

theorem getElem?_eq_some_iff_fetched {page : Page}
    (fetches : Fetches client pure (some ⟨query, 0⟩) log.requests pages .complete after) :
    pages[index]? = some page ↔ ∃ asked, Fetched client query log.requests index asked page := by
  obtain ⟨fetchedAll, reaches⟩ := fetches.meets sendable (.due .first)
  simp only [Nat.zero_add] at fetchedAll
  constructor
  · exact fetchedAll index page
  · rintro ⟨asked, fetched⟩
    obtain ⟨last, _, _, many, fetchedLast, ends, _⟩ := reaches.exists_last
    obtain ⟨earlier, requests, due, exchange⟩ := fetched
    have within : index < pages.length := by
      have upTo : index ≤ last := due.le_of_last fetchedLast ends
      omega
    obtain ⟨other, fetchedOther⟩ :=
      fetchedAll index pages[index] (List.getElem?_eq_getElem within)
    rw [List.getElem?_eq_getElem within,
      fetchedOther.unique ⟨earlier, requests, due, exchange⟩]

theorem exists_readAll_eq_error_iff {failure : Failure} :
    (∃ later, readAll limit query client log = .error failure later) ↔
      ∃ index < limit, ∃ requests,
        FailsAt client query log.requests index failure requests := by
  constructor
  · rintro ⟨later, gives⟩
    obtain ⟨pages, within, fetches, _⟩ := readAll_eq_error_iff.mp gives
    obtain ⟨_, failsAt⟩ := fetches.meets sendable (.due .first)
    exact ⟨_, by omega, later.requests, failsAt⟩
  · rintro ⟨index, within, requests, failsAt⟩
    have meets : (Ending.failed failure).Meets client query log.requests index requests := failsAt
    obtain ⟨pages, many, fetches⟩ := meets.fetches
    exact ⟨⟨requests, _⟩, readAll_eq_error_iff.mpr ⟨pages, by omega, fetches, rfl⟩⟩

end Sendable

/-- Eager reads follow the cursors, for every service, from every query whose address is valid, as
long as the addresses of maps that pages tell are valid. -/
theorem readAll_follows_cursors (valid : Address.Valid query.address)
    (reported : ∀ index asked page map, Fetched client query log.requests index asked page →
      page.mapAddress = some map → Address.Valid (.str map)) :
    FollowsCursors client log query := by
  have sendable : Sendable client query log.requests := sendable_of_valid valid reported
  constructor
  case sends => exact fun _ _ => issues_iff sendable
  case first => exact fun _ => issues_zero_iff sendable
  case onward => exact fun _ => exists_issues_succ_iff sendable
  case carried => exact fun _ _ => issues_succ sendable
  case returns => exact fun _ => exists_readAll_eq_ok_iff sendable
  case given =>
    intro limit pages later gives
    obtain ⟨_, fetches, events⟩ := readAll_eq_ok_iff.mp gives
    obtain ⟨_, reaches⟩ := fetches.meets sendable (.due .first)
    obtain ⟨last, _, _, many, _, _, made, grows, length⟩ := reaches.exists_last
    refine ⟨fun _ _ => getElem?_eq_some_iff_fetched sendable fetches, ⟨made, grows, ?_⟩, events⟩
    omega
  case fails => exact fun _ _ => exists_readAll_eq_error_iff sendable
  case failed =>
    intro limit failure later gives
    obtain ⟨pages, _, fetches, events⟩ := readAll_eq_error_iff.mp gives
    obtain ⟨_, failsAt⟩ := fetches.meets sendable (.due .first)
    rw [Nat.zero_add] at failsAt
    exact ⟨pages.length, failsAt, failsAt.grows, events⟩

/-- A page without fields, as a service shows it. -/
def emptyConnection (hasNext : Bool) (cursor : Json) : Json :=
  .obj [("nodes", .arr []),
    ("pageInfo", .obj [("hasNextPage", .bool hasNext), ("endCursor", cursor)])]

/-- A service with two pages: one that the clearing house shows, and the last one of its map. -/
def twoPages : Client where
  answer _ := .ok ⟨some
    [("map", .obj [("map_dfs", emptyConnection false .null)]),
      ("clearing_house", .obj [("orderbook_dof", .obj [("orderbook", .obj
        [("__typename", .str MoveValue.objectType), ("map_dof", .obj [("map", .obj
          [("__typename", .str MoveValue.objectType), ("address", .str "0x5"),
            ("map_dfs", emptyConnection true (.str "more"))])])])])])], []⟩
  pageSize := .null

/-- The query of the first of two pages. -/
def firstOfTwo : Query :=
  .ofClearingHouse ⟨.str "0x2", ⟨"Orderbook", FieldName.emptyKey⟩,
    ⟨"AsksMap", FieldName.emptyKey⟩, .int 3, .int 50, .null⟩

/-- The query of the second of two pages. -/
def secondOfTwo : Query :=
  .ofMap ⟨.str "0x5", .int 3, .int 50, .str "more"⟩

/-- Two pages are read with two requests, the first for the clearing house and the second for its
map, if both are allowed. -/
theorem readAll_follows_cursors_of_two_pages :
    (∀ request, Issues twoPages Log.empty firstOfTwo 1 request →
        secondOfTwo.request = .ok request) ∧
      (¬ ∃ request, Issues twoPages Log.empty firstOfTwo 2 request) ∧
      ∀ limit, (∃ pages later,
          readAll limit firstOfTwo twoPages Log.empty = .ok (some pages) later) ↔ 2 ≤ limit := by
  have valid : Address.Valid firstOfTwo.address := ⟨_, rfl⟩
  have reported : ∀ index asked page map, Fetched twoPages firstOfTwo [] index asked page →
      page.mapAddress = some map → Address.Valid (.str map) := by
    rintro index asked page map ⟨earlier, requests, due, exchange⟩ told
    cases asked with
    | ofMap asked =>
        obtain ⟨data, decodes⟩ := exchange.decodes
        cases told.symm.trans (Page.mapAddress_ofMapData decodes)
    | ofClearingHouse asked =>
        obtain ⟨request, made, rfl, answered⟩ := exchange
        have shown : answerTo twoPages (earlier ++ [request]) (.ofClearingHouse asked) index =
            .ok ⟨[], ⟨true, some "more"⟩, some "0x5"⟩ := rfl
        cases shown.symm.trans answered
        cases told
        exact ⟨_, rfl⟩
  have follows : FollowsCursors twoPages Log.empty firstOfTwo :=
    readAll_follows_cursors valid reported
  obtain ⟨request, made⟩ := Query.exists_request valid
  have exchange : Exchanges twoPages firstOfTwo 0 []
      (.ok ⟨[], ⟨true, some "more"⟩, some "0x5"⟩) [request] := ⟨request, made, rfl, rfl⟩
  have fetched : Fetched twoPages firstOfTwo [] 0 firstOfTwo _ := ⟨_, _, .first, exchange⟩
  have due : Due twoPages firstOfTwo [] 1 secondOfTwo [request] :=
    Due.first.next exchange (.narrowed rfl rfl rfl Json.noConfusion)
  have validMap : Address.Valid secondOfTwo.address := ⟨_, rfl⟩
  obtain ⟨last, madeLast⟩ := Query.exists_request validMap
  have exchangeLast : Exchanges twoPages secondOfTwo 1 [request]
      (.ok ⟨[], ⟨false, none⟩, none⟩) [request, last] := ⟨last, madeLast, rfl, rfl⟩
  have fetchedLast : Fetched twoPages firstOfTwo [] 1 secondOfTwo _ := ⟨_, _, due, exchangeLast⟩
  refine ⟨?_, ?_, fun limit => (follows.returns limit).trans ⟨?_, ?_⟩⟩
  · intro request issues
    obtain ⟨asked, earlier, dueAgain, made⟩ := (follows.sends 1 request).mp issues
    rw [(due.unique dueAgain).1]
    exact made
  · intro issues
    obtain ⟨asked, page, cursor, fetchedAgain, more, _⟩ := (follows.onward 1).mp issues
    cases fetchedLast.unique fetchedAgain
    cases more
  · rintro ⟨index, within, asked, page, fetchedAgain, ends⟩
    cases index with
    | zero =>
        cases fetched.unique fetchedAgain
        cases ends
    | succ index => omega
  · intro enough
    exact ⟨1, enough, _, _, fetchedLast, rfl⟩

end Paging

end LedgerBook
