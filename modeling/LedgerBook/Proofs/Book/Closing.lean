import LedgerBook.Proofs.Book.Merging
import LedgerBook.Proofs.Merge.Closing
import LedgerBook.Proofs.Paging.Advance
/-!
Leaving a book. The workers look for the sign to leave between two units only, and a unit may take
many pages. So a side that is left goes on with the unit that it is at: past all pages without a
unit, to the next page that has one.
-/
namespace LedgerBook

open ReadM Paging

variable {α : Type} {client : Client}

namespace Traversal

variable {walk : Traversal α} {view : Page → Except Failure (List α)}

/-! ## What a step of a walk costs -/

/-- How many requests a walk may send before it gets another page: one, unless it has units or
knows that there is no other page. -/
def due (walk : Traversal α) : Nat :=
  match walk.phase with
  | .fresh => 1
  | .reading _ [] (some _) => 1
  | _ => 0

theorem due_le_one (walk : Traversal α) : walk.due ≤ 1 := by
  unfold due
  split <;> decide

/-- How many pages without units a walk has got, if it now stands at another page: one or none. -/
def passed (walk later : Traversal α) : Nat :=
  match later.phase with
  | .reading _ [] _ => later.pages - walk.pages
  | _ => 0

/-- How many requests are due after an answer: none, if it is what was asked for. -/
def dueAfter : Progress α → Traversal α → Nat
  | .working, walk => walk.due
  | _, _ => 0

theorem passed_of_pages {walk later : Traversal α} (same : later.pages = walk.pages) :
    walk.passed later = 0 := by
  unfold passed
  split
  · rw [same, Nat.sub_self]
  · rfl

/-- Whether a service shows a page on which a view of the pages finds nothing. -/
def ShowsNothing (client : Client) (view : Page → Except Failure (List α)) : Prop :=
  ∃ requests query index page,
    answerTo client requests query index = .ok page ∧ view page = .ok []

/-- A walk along the units that a view finds on the pages. It finds its first query without a
request. -/
structure Along (view : Page → Except Failure (List α)) (walk : Traversal α) : Prop where
  same : walk.units = view
  silent : walk.phase = .fresh → ∀ client log, (outcome walk.opening client log).2 = log.requests

theorem Along.close (along : walk.Along view) : walk.close.Along view where
  same := along.same
  silent fresh := nomatch fresh

theorem Along.of_reading {later : Traversal α} {name : Json} {units : List α}
    {next : Option Position} (along : walk.Along view) (same : later.units = walk.units)
    (phase : later.phase = .reading name units next) : later.Along view where
  same := same.trans along.same
  silent fresh := nomatch phase.symm.trans fresh

theorem exists_requests_of_visit {position : Position} {log : Log}
    {result : Except Failure (List α × Option Position)} {after : List Request}
    (visits : outcome (visit view position) client log = (result, after)) :
    ∃ made, after = log.requests ++ made ∧ made.length ≤ 1 ∧
      ∀ next, result = .ok ([], next) → ShowsNothing client view := by
  obtain ⟨query, index⟩ := position
  rw [outcome_asked] at visits
  rcases visit_cases visits with ⟨⟨_, fails⟩, same⟩ | ⟨_, ⟨request, _, sent, answered⟩, leads⟩
  · refine ⟨[], by rw [same, List.append_nil], Nat.zero_le 1, fun next gives => ?_⟩
    cases fails.symm.trans gives
  · refine ⟨[request], sent, Nat.le_refl 1, fun next gives => ?_⟩
    obtain ⟨page, _, rfl, sees, _⟩ := leads [] next gives
    exact ⟨_, query, index, page, answered, sees⟩

/-- A step of a walk sends what is due. A page that it gets is then paid for, and unless it has no
units, nothing more is due for it. -/
theorem Along.step (along : walk.Along view) (client : Client) (log : Log) :
    ∃ answer later made,
      outcome walk.step client log = (.ok (answer, later), log.requests ++ made) ∧
        later.Along view ∧
        made.length + dueAfter answer later ≤ walk.passed later + walk.due ∧
        (walk.passed later = 0 ∨ ShowsNothing client view) := by
  cases phase : walk.phase with
  | fresh =>
      have sends := along.silent phase client log
      rw [step_of_fresh walk phase, outcome_bind, outcome_attempt, follow_ok, sends]
      have due : walk.due = 1 := by rw [Traversal.due, phase]
      cases (outcome walk.opening client log).1 with
      | error failure =>
          refine ⟨.failed failure, walk.close, [], ?_, along.close, Nat.zero_le _,
            .inl (passed_of_pages rfl)⟩
          rw [List.append_nil]
          rfl
      | ok query =>
          refine ⟨.working, { walk with phase := .reading query.nameJson [] (some ⟨query, 0⟩) }, [],
            ?_, along.of_reading rfl rfl, ?_, .inl (passed_of_pages rfl)⟩
          · rw [List.append_nil]
            rfl
          · rw [due]
            exact Nat.le_add_left 1 _
  | finished =>
      rw [step_of_finished walk phase]
      exact ⟨.ended, walk, [], by rw [List.append_nil, outcome_pure], along, Nat.zero_le _,
        .inl (passed_of_pages rfl)⟩
  | reading name units next =>
      match units, next with
      | unit :: rest, next =>
          rw [step_of_unit walk phase]
          refine ⟨.item unit, { walk with
            phase := .reading name rest next, handed := walk.handed + 1 }, [], ?_,
            along.of_reading rfl rfl, Nat.zero_le _, .inl (passed_of_pages rfl)⟩
          rw [List.append_nil, outcome_pure]
      | [], none =>
          refine ⟨.ended, walk.close, [], ?_, along.close, Nat.zero_le _,
            .inl (passed_of_pages rfl)⟩
          rw [List.append_nil, outcome_step_of_end walk phase]
      | [], some position =>
          have due : walk.due = 1 := by rw [Traversal.due, phase]
          obtain rfl := along.same
          rw [outcome_step_of_page walk phase, due]
          rcases visits : outcome (visit walk.units position) client log with
            ⟨failure | ⟨units, next⟩, after⟩
          · obtain ⟨made, rfl, few, _⟩ := exists_requests_of_visit visits
            refine ⟨.failed failure, walk.close, made, rfl, along.close, ?_,
              .inl (passed_of_pages rfl)⟩
            exact Nat.le_add_left_of_le few
          · obtain ⟨made, rfl, few, shows⟩ := exists_requests_of_visit visits
            refine ⟨.working, _, made, rfl, along.of_reading rfl rfl, ?_⟩
            cases units with
            | cons unit rest => exact ⟨Nat.le_add_left_of_le few, .inl rfl⟩
            | nil =>
                refine ⟨?_, .inr (shows next rfl)⟩
                have more := due_le_one { walk with
                  phase := .reading name ([] : List α) next, pages := walk.pages + 1 }
                simp only [dueAfter, passed]
                omega

end Traversal

namespace Book

open Merge (State Step Run Passage)
open Traversal (ShowsNothing passed_of_pages)

variable {view : Page → Except Failure (List α)}

/-- How many requests a side may send before it gets another page, if it gets no other demand. -/
def sideDue (stopped : Bool) (side : Merge.Side (Traversal α) α) : Nat :=
  match side.worker with
  | .waiting => if stopped = true ∨ side.demand = 0 then 0 else 1
  | .called => if stopped = true then 0 else 1
  | .pulling => side.source.due
  | _ => 0

theorem sideDue_le_one (stopped : Bool) (side : Merge.Side (Traversal α) α) :
    sideDue stopped side ≤ 1 := by
  unfold sideDue
  split
  · split <;> decide
  · split <;> decide
  · exact side.source.due_le_one
  · decide

/-- A step of a side that has at most the demand that it is at. -/
theorem sideDue_step {before after : Merge.Side (Traversal α) α} {stopped : Bool}
    {message : Option (Merge.Message α)} {log later : Log}
    (along : before.source.Along view)
    (few : stopped = false → before.demand + before.worker.token ≤ 1)
    (stepped : before.step (source client) stopped log = some (message, after, later)) :
    after.source.Along view ∧
      (before.source.passed after.source = 0 ∨ ShowsNothing client view) ∧
      ∃ made, later.requests = log.requests ++ made ∧
        made.length + sideDue stopped after ≤
          before.source.passed after.source + sideDue stopped before := by
  obtain ⟨label, walk, worker, demand⟩ := before
  cases worker with
  | waiting =>
      simp only [Merge.Side.step] at stepped
      split at stepped
      · cases stepped
      next some =>
        cases stepped
        refine ⟨along, .inl (passed_of_pages rfl), [], (List.append_nil _).symm, ?_⟩
        cases stopped with
        | true => exact Nat.zero_le _
        | false =>
            simp only [sideDue, some]
            exact Nat.le_add_left _ _
  | called =>
      cases stepped
      cases stopped with
      | true =>
          exact ⟨along.close, .inl (passed_of_pages rfl), [], (List.append_nil _).symm,
            Nat.zero_le _⟩
      | false =>
          refine ⟨along, .inl (passed_of_pages rfl), [], (List.append_nil _).symm, ?_⟩
          have atMost := walk.due_le_one
          simp only [sideDue]
          exact Nat.le_add_left_of_le (by simpa using atMost)
  | pulling =>
      obtain ⟨answer, left, made, steps, alongLeft, cost, shows⟩ := along.step client log
      obtain ⟨between, advanced, asks⟩ := advance_of_step steps
      simp only [Merge.Side.step, advanced] at stepped
      cases stepped
      refine ⟨alongLeft, shows, made, (Merge.requests_tellFailure _ _ _).trans asks, ?_⟩
      refine Nat.le_trans (Nat.add_le_add_left ?_ _) cost
      -- An answer is put into the queue, and without one the worker goes on with its source.
      cases answer <;> exact Nat.le_refl _
  | putting message =>
      cases stepped
      cases message with
      | item value =>
          refine ⟨along, .inl (passed_of_pages rfl), [], (List.append_nil _).symm, ?_⟩
          cases stopped with
          | true => exact Nat.zero_le _
          | false =>
              have none : demand = 0 := by
                have atMost : demand + 1 ≤ 1 := few rfl
                omega
              simp only [sideDue, none]
              exact Nat.zero_le _
      | last outcome =>
          exact ⟨along.close, .inl (passed_of_pages rfl), [], (List.append_nil _).symm,
            Nat.zero_le _⟩
  | gone => cases stepped

/-! ## Runs after leaving -/

/-- A run as one side sees it: the requests that its worker sends, and how many of the pages that
its walk gets have no units. -/
inductive SideRun (client : Client) (index : Nat) (first : State (Traversal α) α) :
    List LedgerBook.Request → Nat → List (Passage α) → State (Traversal α) α → Prop
  | start : SideRun client index first [] 0 [] first
  | own {sent made : List LedgerBook.Request} {empty : Nat} {passages : List (Passage α)}
      {passage : Passage α} {state next : State (Traversal α) α}
      {before after : Merge.Side (Traversal α) α} :
      SideRun client index first sent empty passages state →
      Merge.workerStep (source client) index state = some (passage, next) →
      state.sides[index]? = some before → next.sides[index]? = some after →
      next.log.requests = state.log.requests ++ made →
      SideRun client index first (sent ++ made) (empty + before.source.passed after.source)
        (passages ++ [passage]) next
  | worker {sent : List LedgerBook.Request} {empty other : Nat} {passages : List (Passage α)}
      {passage : Passage α} {state next : State (Traversal α) α} :
      SideRun client index first sent empty passages state → other ≠ index →
      Merge.workerStep (source client) other state = some (passage, next) →
      SideRun client index first sent empty (passages ++ [passage]) next
  | other {sent : List LedgerBook.Request} {empty : Nat} {passages : List (Passage α)}
      {passage : Passage α} {state next : State (Traversal α) α} :
      SideRun client index first sent empty passages state →
      Merge.OtherStep state passage next →
      SideRun client index first sent empty (passages ++ [passage]) next

section Runs

variable {index empty : Nat} {first state next last : State (Traversal α) α}
  {sent : List LedgerBook.Request} {passages more : List (Passage α)} {passage : Passage α}

theorem SideRun.run (sees : SideRun client index first sent empty passages state) :
    Run (source client) first passages state := by
  induction sees with
  | start => exact .start
  | own _ taken _ _ _ inductionHypothesis => exact inductionHypothesis.step (.worker index taken)
  | worker _ _ taken inductionHypothesis => exact inductionHypothesis.step (.worker _ taken)
  | other _ other inductionHypothesis => exact inductionHypothesis.step other.step

/-- As sources, walks along a view of the pages stay so. -/
theorem along_source (client : Client) (view : Page → Except Failure (List α)) :
    (source client).Confined (fun _ => True) (Traversal.Along view) where
  advances := by
    intro walk log along
    obtain ⟨answer, left, made, steps, alongLeft, _⟩ := along.step client log
    obtain ⟨between, advanced, asks⟩ := advance_of_step steps
    rw [advanced]
    exact ⟨alongLeft, made, asks, fun _ _ => trivial⟩
  closes _ along := along.close

/-- How many requests a side of a merge may send before it gets another page. -/
def dueAt (index : Nat) (state : State (Traversal α) α) : Nat :=
  (state.sides[index]?.map (sideDue state.stopped)).getD 0

theorem dueAt_of_getElem? {side : Merge.Side (Traversal α) α}
    (present : state.sides[index]? = some side) :
    dueAt index state = sideDue state.stopped side := by
  rw [dueAt, present]
  rfl

theorem dueAt_le_one (index : Nat) (state : State (Traversal α) α) : dueAt index state ≤ 1 := by
  unfold dueAt
  cases state.sides[index]? with
  | none => exact Nat.zero_le 1
  | some side => exact sideDue_le_one _ side

theorem dueAt_other (closing : Merge.Closing state) (other : Merge.OtherStep state passage next) :
    dueAt index next ≤ dueAt index state := by
  cases found : next.sides[index]? with
  | none =>
      rw [dueAt, found]
      exact Nat.zero_le _
  | some after =>
      obtain ⟨before, present, sameWorker, sameSource⟩ := other.side found
      rw [dueAt_of_getElem? found, dueAt_of_getElem? present, closing.stopped_of_other other,
        sideDue, sideDue, sameWorker, sameSource]
      cases before.worker with
      | waiting => exact Nat.zero_le _
      | called => exact Nat.zero_le _
      | _ => exact Nat.le_refl _

variable (alongAll : ∀ side ∈ first.sides, side.source.Along view)

include alongAll

/-- Every run is seen by each side. -/
theorem exists_sideRun (index : Nat) (goesOn : Run (source client) first more last) :
    ∃ sent empty, SideRun client index first sent empty more last := by
  induction goesOn with
  | start => exact ⟨[], 0, .start⟩
  | @step passages passage state next earlier step inductionHypothesis =>
      obtain ⟨sent, empty, sees⟩ := inductionHypothesis
      rcases step.cases_worker with ⟨other, taken⟩ | other
      · by_cases same : other = index
        · subst same
          obtain ⟨side, message, after, present, stepped, moved, _⟩ := Merge.exists_sideStep taken
          have along := (earlier.confined (along_source client view) alongAll).1 side
            (List.mem_of_getElem? present)
          obtain ⟨_, made, sends, _⟩ := (along_source client view).sideStep along stepped
          have within := (List.getElem?_eq_some_iff.mp present).1
          have found : next.sides[other]? = some after := by
            rw [moved, List.getElem?_set_self within]
          exact ⟨_, _, .own sees taken present found sends⟩
        · exact ⟨sent, empty, .worker sees same taken⟩
      · exact ⟨sent, empty, .other sees other⟩

/-- Whoever is left sends one request more, at most, than there are pages without units, and there
are such pages only if the service shows them. -/
theorem SideRun.length_add_dueAt_le (closing : Merge.Closing first)
    (sees : SideRun client index first sent empty passages state) :
    sent.length + dueAt index state ≤ empty + 1 ∧ (empty = 0 ∨ ShowsNothing client view) := by
  induction sees with
  | start => exact ⟨Nat.add_le_add_left (dueAt_le_one index first) 0, .inl rfl⟩
  | @own sent made empty passages passage state next before after earlier taken present found sends
      inductionHypothesis =>
      obtain ⟨bound, shows⟩ := inductionHypothesis
      obtain ⟨side, message, changed, presentSide, stepped, moved, same, _⟩ :=
        Merge.exists_sideStep taken
      cases present.symm.trans presentSide
      have within := (List.getElem?_eq_some_iff.mp present).1
      rw [moved, List.getElem?_set_self within] at found
      cases found
      have along := (earlier.run.confined (along_source client view) alongAll).1 before
        (List.mem_of_getElem? present)
      obtain ⟨_, showsNow, more, sendsMore, cost⟩ := sideDue_step along
        (fun going => (closing.run earlier.run).1.few going index before present) stepped
      cases List.append_cancel_left (sends.symm.trans sendsMore)
      have dueAfter : dueAt index next = sideDue state.stopped after := by
        rw [← same]
        exact dueAt_of_getElem? (by rw [moved, List.getElem?_set_self within])
      rw [dueAt_of_getElem? present] at bound
      rw [dueAfter, List.length_append]
      refine ⟨by omega, ?_⟩
      rcases shows with none | shows
      · exact showsNow.imp_left fun noneNow => by rw [none, noneNow]
      · exact .inr shows
  | @worker sent empty other passages passage state next earlier different taken
      inductionHypothesis =>
      obtain ⟨side, message, after, present, stepped, moved, same, _⟩ := Merge.exists_sideStep taken
      have stays : dueAt index next = dueAt index state := by
        rw [dueAt, dueAt, moved, List.getElem?_set_ne different, same]
      rw [stays]
      exact inductionHypothesis
  | other earlier other inductionHypothesis =>
      obtain ⟨bound, shows⟩ := inductionHypothesis
      have less : dueAt index _ ≤ dueAt index _ := dueAt_other (closing.run earlier.run).1 other
      exact ⟨by omega, shows⟩

end Runs

namespace Request

theorem along_walks (request : Request) (package : Json) (number : Int)
    {walk : Traversal (Entry Order)} (isOne : walk ∈ request.walks package (.int number)) :
    walk.Along fun page => pure (page.entries Order.read) := by
  obtain ⟨asks, rfl⟩ := request.exists_sideWalk_of_mem isOne
  refine ⟨rfl, fun _ client log => ?_⟩
  -- The page size is known, so that the read of the query is confined to no requests at all.
  have confined : Confined (fun _ => False)
      (sideQuery package request.clearingHouse request.anchor asks (.int number)) _ :=
    (opens_sideQuery package request.clearingHouse request.anchor asks (.int number)).confined rfl
  obtain ⟨made, sends, none⟩ := confined.sends client log
  rw [List.eq_nil_iff_forall_not_mem.mpr none, List.append_nil] at sends
  exact sends

end Request

/-- A book that is left stops at the next page with a unit. From the moment at which the consumer
leaves or sees a failure, nothing more is received, and each side sends at most one request more
than it gets pages without entries: one request, unless the service shows such a page. -/
theorem closing_stops_requests {request : Request} {client : Client} {log later : Log}
    {first state last : State (Traversal (Entry Order)) (Entry Order)}
    {passages more : List (Passage (Entry Order))}
    (opened : request.merge client log = .ok first later)
    (run : Run (source client) first passages state) (left : state.Left)
    (goesOn : Run (source client) state more last) :
    Merge.received more = [] ∧ ∀ index,
      (∃ sent empty, SideRun client index state sent empty more last) ∧
        ∀ sent empty, SideRun client index state sent empty more last →
          sent.length ≤ empty + 1 ∧ (empty = 0 ∨ ∃ requests query number page,
            answerTo client requests query number = .ok page ∧ page.entries Order.read = []) := by
  obtain ⟨walks, looked, fresh⟩ := request.fresh_of_merge opened
  obtain ⟨_, _, _, _, _, launched⟩ := request.sides_spec client log
  rw [looked] at launched
  obtain ⟨package, number, rfl⟩ := launched walks rfl
  have alongAll : ∀ side ∈ first.sides,
      side.source.Along fun page => pure (page.entries Order.read) :=
    fun _ inside => request.along_walks package number (request.mem_walks_of_fresh fresh inside)
  have alongLeft := (run.confined (along_source client _) alongAll).1
  have closing := run.closing fresh left
  refine ⟨(closing.run goesOn).2, fun index => ⟨exists_sideRun alongLeft index goesOn,
    fun sent empty sees => ?_⟩⟩
  obtain ⟨bound, shows⟩ := sees.length_add_dueAt_le alongLeft closing
  refine ⟨Nat.le_of_add_right_le bound, shows.imp_right ?_⟩
  rintro ⟨requests, query, number, page, answered, nothing⟩
  exact ⟨requests, query, number, page, answered, Except.ok.inj nothing⟩

/-! ## Endless pages without units -/

/-- A cursor that differs from the one for the number before. -/
def cursorFor (number : Nat) : Text :=
  if number % 2 = 0 then "a" else "b"

theorem cursorFor_succ (number : Nat) : cursorFor number ≠ cursorFor (number + 1) := by
  unfold cursorFor
  by_cases even : number % 2 = 0
  · rw [if_pos even, if_neg (by omega)]
    decide
  · rw [if_neg even, if_pos (by omega)]
    decide

/-- What it shows of a map and of a clearing house: a page without fields that promises another
one. -/
def endlessData (cursor : Text) : Json.Members :=
  [("map", .obj [("map_dfs", emptyConnection true (.str cursor))]),
    ("clearing_house", .obj [("orderbook_dof", .obj [("orderbook", .obj
      [("__typename", .str MoveValue.objectType), ("map_dof", .obj [("map", .obj
        [("__typename", .str MoveValue.objectType), ("address", .str "0x5"),
          ("map_dfs", emptyConnection true (.str cursor))])])])])])]

/-- A service that refuses the first request and answers all others with such pages. -/
def endless : Client where
  answer requests :=
    if requests.length = 1 then
      .error (.client (.session "ConnectionError" "refused") none none)
    else .ok ⟨some (endlessData (cursorFor requests.length)), []⟩
  pageSize := .null

def endlessBook : Request :=
  ⟨.str "0x2", ⟨none⟩, .str "0x9", .int 50⟩

/-- Whether a query goes on after a number of requests: it can be sent, and does not follow the next
cursor. -/
structure GoesOn (query : Query) (asked : Nat) : Prop where
  valid : Address.Valid query.address
  new : query.after = .null ∨ query.after = .str (cursorFor asked)

theorem GoesOn.exists_exchange {query : Query} {requests : List LedgerBook.Request}
    (goesOn : GoesOn query requests.length) (refused : requests ≠ []) (index : Nat) :
    ∃ request page following, GoesOn following (requests.length + 1) ∧
      page.entries Order.read = [] ∧ Turns page query (.ok (some following)) ∧
      Exchanges endless query index requests (.ok page) (requests ++ [request]) := by
  obtain ⟨request, made⟩ := Query.exists_request goesOn.valid
  have many : (requests ++ [request]).length = requests.length + 1 := by
    rw [List.length_append, List.length_singleton]
  have some_before := List.length_pos_iff.mpr refused
  have answered : endless.answer (requests ++ [request]) =
      .ok ⟨some (endlessData (cursorFor (requests.length + 1))), []⟩ := by
    simp only [endless, many]
    rw [if_neg (by omega)]
  have new : query.after ≠ .str (cursorFor (requests.length + 1)) := by
    rcases goesOn.new with none | last
    · rw [none]
      exact Json.noConfusion
    · rw [last]
      exact fun same => cursorFor_succ _ (Json.str.inj same)
  cases query with
  | ofMap query =>
      refine ⟨request, ⟨[], ⟨true, some (cursorFor (requests.length + 1))⟩, none⟩,
        .ofMap { query with after := .str (cursorFor (requests.length + 1)) },
        ⟨goesOn.valid, .inr rfl⟩, rfl, .onward rfl rfl new, request, made, rfl, ?_⟩
      rw [answerTo, answered]
      rfl
  | ofClearingHouse query =>
      refine ⟨request, ⟨[], ⟨true, some (cursorFor (requests.length + 1))⟩, some "0x5"⟩,
        .ofMap ⟨.str "0x5", query.version, query.first, .str (cursorFor (requests.length + 1))⟩,
        ⟨⟨_, rfl⟩, .inr rfl⟩, rfl, .narrowed rfl rfl rfl new, request, made, rfl, ?_⟩
      rw [answerTo, answered]
      rfl

theorem GoesOn.exists_visit {query : Query} {requests : List LedgerBook.Request}
    (goesOn : GoesOn query requests.length) (refused : requests ≠ []) (index : Nat) :
    ∃ request following, GoesOn following (requests.length + 1) ∧
      outcome (visit (fun page => pure (page.entries Order.read)) ⟨query, index⟩) endless
          (ReadM.asked requests) =
        (.ok (([] : List (Entry Order)), some ⟨following, index + 1⟩), requests ++ [request]) := by
  obtain ⟨request, page, following, goesOnAfter, noEntries, turns, exchange⟩ :=
    goesOn.exists_exchange refused index
  refine ⟨request, following, goesOnAfter, ?_⟩
  rw [outcome_visit_pure, exchange.outcome_visit turns]
  exact congrArg (fun entries => (Except.ok (entries, _), _)) noEntries

/-- Whether a side of a book asks for one page after the other, all of them without units. -/
structure Circles (state : State (Traversal (Entry Order)) (Entry Order)) (index : Nat) : Prop where
  refused : state.log.requests ≠ []
  side : ∃ side name query number, state.sides[index]? = some side ∧ side.worker = .pulling ∧
    side.source.units = (fun page => pure (page.entries Order.read)) ∧
    side.source.phase = .reading name [] (some ⟨query, number⟩) ∧
    GoesOn query state.log.requests.length

theorem exists_workerStep_of_working {state : State (Traversal α) α} {index : Nat}
    {side : Merge.Side (Traversal α) α} {later : Traversal α}
    {requests : List LedgerBook.Request} (present : state.sides[index]? = some side)
    (pulling : side.worker = .pulling)
    (steps : outcome side.source.step client state.log = (.ok (.working, later), requests)) :
    ∃ next, Merge.workerStep (source client) index state = some (.nothing, next) ∧
      next.sides = state.sides.set index { side with source := later } ∧
      next.log.requests = requests := by
  obtain ⟨log, advanced, asks⟩ := advance_of_step steps
  refine ⟨{ state with sides := state.sides.set index { side with source := later }, log }, ?_,
    rfl, asks⟩
  have stepped : side.step (source client) state.stopped state.log =
      some (none, { side with source := later }, log) := by
    simp only [Merge.Side.step, pulling, advanced]
    rfl
  simp only [Merge.workerStep, present, stepped, Option.bind_eq_bind, Option.bind_some]
  rfl

/-- Such a side sends another request and gets another page without units. -/
theorem Circles.exists_next {state : State (Traversal (Entry Order)) (Entry Order)} {index : Nat}
    (circles : Circles state index) :
    ∃ passage next before after request,
      Merge.workerStep (source endless) index state = some (passage, next) ∧
        state.sides[index]? = some before ∧ next.sides[index]? = some after ∧
        next.log.requests = state.log.requests ++ [request] ∧
        before.source.passed after.source = 1 ∧ Circles next index := by
  obtain ⟨side, name, query, number, present, pulling, units, phase, goesOn⟩ := circles.side
  obtain ⟨request, following, goesOnAfter, visits⟩ := goesOn.exists_visit circles.refused number
  have steps : outcome side.source.step endless state.log =
      (.ok (.working, { side.source with
        phase := .reading name [] (some ⟨following, number + 1⟩),
        pages := side.source.pages + 1 }), state.log.requests ++ [request]) := by
    rw [← units] at visits
    rw [side.source.outcome_step_of_page phase, outcome_asked, visits]
  obtain ⟨next, taken, moved, sends⟩ := exists_workerStep_of_working present pulling steps
  have within := (List.getElem?_eq_some_iff.mp present).1
  have found := moved ▸ List.getElem?_set_self within
  refine ⟨.nothing, next, side, _, request, taken, present, found, sends, ?_, ?_, ?_⟩
  · exact Nat.add_sub_cancel_left side.source.pages 1
  · rw [sends]
    exact List.append_ne_nil_of_right_ne_nil _ (List.cons_ne_nil _ _)
  · refine ⟨_, name, following, number + 1, found, pulling, units, rfl, ?_⟩
    rwa [sends, List.length_append]

/-- And so on, as often as one likes. -/
theorem Circles.exists_sideRun {state : State (Traversal (Entry Order)) (Entry Order)} {index : Nat}
    (circles : Circles state index) (count : Nat) :
    ∃ sent more last, SideRun endless index state sent count more last ∧ sent.length = count ∧
      Circles last index := by
  induction count with
  | zero => exact ⟨[], [], state, .start, rfl, circles⟩
  | succ count inductionHypothesis =>
      obtain ⟨sent, more, last, sees, many, still⟩ := inductionHypothesis
      obtain ⟨passage, next, before, after, request, taken, present, found, sends, passed,
        goesOn⟩ := still.exists_next
      have seesMore := sees.own taken present found sends
      rw [passed] at seesMore
      refine ⟨sent ++ [request], more ++ [passage], next, seesMore, ?_, goesOn⟩
      rw [List.length_append, many]
      rfl

/-- The book that such a service shows, after its first side was refused: the consumer has seen the
failure, and the other side is at its first page. -/
theorem exists_left_endless :
    ∃ first later passages state, endlessBook.merge endless Log.empty = .ok first later ∧
      Run (source endless) first passages state ∧
      (∃ failure, state.consumer = .leaving (.failed failure)) ∧ Circles state 1 := by
  -- Both sides are begun with; the worker of the first one fails and leaves; that of the second one
  -- takes its demand, looks whether it is told to leave, and finds its query; and the consumer
  -- takes the failure from the queue.
  refine ⟨_, _, _, _, rfl, ((((((((((Run.start.step (.consumer rfl)).step (.consumer rfl)).step
    (.worker 0 rfl)).step (.worker 0 rfl)).step (.worker 0 rfl)).step (.worker 0 rfl)).step
    (.worker 0 rfl)).step (.worker 1 rfl)).step (.worker 1 rfl)).step (.worker 1 rfl)).step
    (.consumer rfl), ⟨_, rfl⟩, ?_⟩
  constructor
  case refused => exact List.cons_ne_nil _ _
  case side => exact ⟨_, _, _, _, rfl, rfl, rfl, rfl, ⟨_, rfl⟩, .inl rfl⟩

/-- A side that is left among endless pages without units sends as many requests as one likes, each
for such a page, while the consumer receives nothing more. -/
theorem closing_stops_requests_of_endless :
    ∃ first later passages state, endlessBook.merge endless Log.empty = .ok first later ∧
      Run (source endless) first passages state ∧ state.Left ∧
      ∀ count, ∃ sent more last, SideRun endless 1 state sent count more last ∧
        sent.length = count ∧ Merge.received more = [] := by
  obtain ⟨first, later, passages, state, opened, run, ⟨failure, leaving⟩, circles⟩ :=
    exists_left_endless
  have left : state.Left := .inr ⟨_, leaving⟩
  refine ⟨first, later, passages, state, opened, run, left, fun count => ?_⟩
  obtain ⟨sent, more, last, sees, many, _⟩ := circles.exists_sideRun count
  exact ⟨sent, more, last, sees, many, (closing_stops_requests opened run left sees.run).1⟩

end Book

end LedgerBook
