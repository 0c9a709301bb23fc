import LedgerBook.Proofs.Paging.Cursors
import LedgerBook.Proofs.Query
import LedgerBook.Proofs.Traversal
import Mathlib.Data.List.Nodup
import Mathlib.Data.List.Perm.Subperm
/-!
Reads along the pages advance. No two requests of a read carry the same variables as long as the
service does not lead back behind the request that it answers: a read compares the cursor of a page
with the one that it has just followed, and with no earlier one. A service that leads further back
is read without end.
-/
namespace LedgerBook

namespace Paging

open ReadM

variable {β : Type} {client : Client} {log : Log} {initial query other : Query}
  {before earlier otherEarlier requests after : List Request} {index number count : Nat}
  {view : Page → Except Failure β}

/-! ## Visits with any view of the pages -/

/-- A visit sends nothing and fails, or it sends the request that is due. If it then gives
something, that is what is wanted of the page, and it leads where the page leads. -/
theorem visit_cases {result : Except Failure (β × Option Position)}
    (visits : outcome (visit view ⟨query, index⟩) client (asked earlier) = (result, after)) :
    ((∃ failure, result = .error failure) ∧ after = earlier) ∨
      ∃ fetched, Exchanges client query index earlier fetched after ∧
        ∀ seen next, result = .ok (seen, next) → ∃ page following, fetched = .ok page ∧
          view page = .ok seen ∧ Turns page query (.ok following) ∧
          next = following.map fun query => ⟨query, index + 1⟩ := by
  cases made : query.request with
  | error failure =>
      left
      have stops : outcome (visit view ⟨query, index⟩) client (asked earlier) =
          (.error failure, earlier) := by
        unfold visit fetch
        simp only [outcome_bind, outcome_lift, made]
        rfl
      cases stops.symm.trans visits
      exact ⟨⟨failure, rfl⟩, rfl⟩
  | ok request =>
      right
      have exchange : Exchanges client query index earlier _ (earlier ++ [request]) :=
        ⟨request, made, rfl, rfl⟩
      cases answered : answerTo client (earlier ++ [request]) query index with
      | error failure =>
          rw [answered] at exchange
          cases exchange.outcome_visit_error.symm.trans visits
          exact ⟨_, exchange, fun _ _ impossible => nomatch impossible⟩
      | ok page =>
          rw [answered] at exchange
          cases (outcome_visit_view view exchange.outcome_fetch).symm.trans visits
          refine ⟨_, exchange, fun seen next gives => ?_⟩
          obtain ⟨found, sees, continues⟩ := bind_eq_ok.mp gives
          obtain ⟨data, decodes⟩ := exchange.decodes
          obtain ⟨turn, turns, same⟩ := Paging.exists_turn decodes
          rw [same] at continues
          cases turn with
          | error fault => cases continues
          | ok following =>
              cases continues
              exact ⟨page, following, rfl, sees, turns, rfl⟩

/-- Where a fetching of pages stands: what it has sent was due, and so is what comes next. -/
structure Stands (client : Client) (initial : Query) (before : List Request) (count : Nat)
    (next : Option Position) (requests : List Request) : Prop where
  allDue : AllDue client initial before requests
  due : ∀ position, next = some position →
    position.index = count ∧ Due client initial before count position.query requests

/-- Whatever is wanted of its pages, a fetching keeps to the requests that are due. -/
theorem Fetches.stands {next : Option Position} {seen : List β} {ending : Ending}
    (fetches : Fetches client view next requests seen ending after)
    (stands : Stands client initial before count next requests) :
    AllDue client initial before after ∧
      ∀ position, ending = .paused position →
        Due client initial before (count + seen.length) position.query after := by
  induction fetches generalizing count with
  | complete => exact ⟨stands.allDue, fun _ impossible => nomatch impossible⟩
  | paused =>
      refine ⟨stands.allDue, ?_⟩
      rintro _ ⟨⟩
      exact (stands.due _ rfl).2
  | @failed position requests after failure fails =>
      refine ⟨?_, fun _ impossible => nomatch impossible⟩
      obtain ⟨query, index⟩ := position
      obtain ⟨rfl, due⟩ := stands.due _ rfl
      rcases visit_cases fails with ⟨_, rfl⟩ | ⟨fetched, exchange, _⟩
      · exact stands.allDue
      · exact stands.allDue.exchange due exchange
  | @page position next requests between after seen others ending visits _ inductionHypothesis =>
      obtain ⟨query, index⟩ := position
      obtain ⟨rfl, due⟩ := stands.due _ rfl
      rcases visit_cases visits with ⟨⟨_, impossible⟩, _⟩ | ⟨fetched, exchange, leads⟩
      · cases impossible
      obtain ⟨page, following, rfl, _, turns, rfl⟩ := leads seen next rfl
      have standsNext : Stands client initial before (index + 1)
          (following.map fun query => ⟨query, index + 1⟩) between := by
        refine ⟨stands.allDue.exchange due exchange, fun position there => ?_⟩
        cases following with
        | none => cases there
        | some following =>
            cases there
            exact ⟨rfl, due.next exchange turns⟩
      have rest := inductionHypothesis standsNext
      rwa [List.length_cons, Nat.add_comm others.length, ← Nat.add_assoc]

theorem stands_first (client : Client) (query : Query) (requests : List Request) :
    Stands client query requests 0 (some ⟨query, 0⟩) requests := by
  constructor
  case allDue => exact Due.first.allDue
  case due =>
    rintro _ ⟨⟩
    exact ⟨rfl, .first⟩

/-! ## Cursors that lead on -/

/-- The service never leads back behind the request that it answers: the cursor of a page that
promises another one was not followed by any request before the one for this page. -/
def NeverReturns (client : Client) (initial : Query) (before : List Request) : Prop :=
  ∀ {index : Nat} {query : Query} {page : Page} {cursor : Text},
    Fetched client initial before index query page → page.info.hasNext = true →
    page.info.endCursor = some cursor →
    ∀ {number : Nat} {other : Query} {earlier : List Request}, number < index →
      Due client initial before number other earlier → other.after ≠ .str cursor

/-- All cursors of pages that promise another one are among some. -/
def CursorsAmong (client : Client) (initial : Query) (before : List Request)
    (cursors : List Text) : Prop :=
  ∀ {index : Nat} {query : Query} {page : Page} {cursor : Text},
    Fetched client initial before index query page → page.info.hasNext = true →
    page.info.endCursor = some cursor → cursor ∈ cursors

section Advancing

variable (advancing : NeverReturns client initial before)

include advancing

theorem Due.after_ne (due : Due client initial before index query earlier)
    (later : Due client initial before number other otherEarlier) (less : index < number) :
    query.after ≠ other.after := by
  cases later with
  | first => exact absurd less (Nat.not_lt_zero index)
  | @next last asked _ lastEarlier _ page dueLast exchange turns =>
      obtain ⟨cursor, more, leads, fresh, follows⟩ := turns.exists_cursor
      rw [follows]
      rcases Nat.lt_or_eq_of_le (Nat.le_of_lt_succ less) with before | rfl
      · exact advancing ⟨_, _, dueLast, exchange⟩ more leads before due
      · rw [(due.unique dueLast).1]
        exact fresh

/-- No two requests of a read carry the same variables. -/
theorem AllDue.nodup_arguments {made : List Request}
    (allDue : AllDue client initial before (before ++ made)) :
    (made.map Request.arguments).Nodup := by
  have each (number : Nat) (bound : number < made.length) :
      ∃ query earlier, Due client initial before number query earlier ∧
        (made[number]).after = query.after := by
    have found : (before ++ made)[before.length + number]? = some made[number] := by
      rw [List.getElem?_append_right (Nat.le_add_right _ _), Nat.add_sub_cancel_left,
        List.getElem?_eq_getElem bound]
    obtain ⟨query, earlier, due, sent⟩ := allDue number _ found
    exact ⟨query, earlier, due, Query.after_request sent⟩
  -- The cursor is one of the variables, so that requests with different cursors differ.
  have different : (made.map Request.after).Nodup := by
    rw [List.Nodup, List.pairwise_map, List.pairwise_iff_getElem]
    intro first second inFirst inSecond less
    obtain ⟨query, earlier, due, same⟩ := each first inFirst
    obtain ⟨other, otherEarlier, dueOther, sameOther⟩ := each second inSecond
    rw [same, sameOther]
    exact due.after_ne advancing dueOther less
  apply List.Nodup.of_map fun arguments : Json.Members => Json.Members.get arguments "after"
  rwa [List.map_map]

/-- The requests before one that is due, but for the first, followed different cursors of pages. -/
theorem Due.exists_followed (due : Due client initial before index query earlier)
    {cursors : List Text} (among : CursorsAmong client initial before cursors) :
    ∃ followed : List Text, followed.length = index ∧ followed.Nodup ∧ followed ⊆ cursors ∧
      ∀ cursor ∈ followed, ∃ number other otherEarlier, number ≤ index ∧
        Due client initial before number other otherEarlier ∧ other.after = .str cursor := by
  induction due with
  | first => exact ⟨[], rfl, List.nodup_nil, List.nil_subset _, fun _ inside => nomatch inside⟩
  | @next index query following earlier requests page due exchange turns inductionHypothesis =>
      obtain ⟨followed, many, nodup, within, each⟩ := inductionHypothesis
      obtain ⟨cursor, more, leads, fresh, follows⟩ := turns.exists_cursor
      have dueNext := due.next exchange turns
      -- A cursor that was followed before would be that of an earlier request.
      have isNew : cursor ∉ followed := by
        intro inside
        obtain ⟨number, other, otherEarlier, notAfter, dueOther, same⟩ := each cursor inside
        exact dueOther.after_ne advancing dueNext (Nat.lt_succ_of_le notAfter)
          (same.trans follows.symm)
      refine ⟨cursor :: followed, by rw [List.length_cons, many],
        List.nodup_cons.mpr ⟨isNew, nodup⟩,
        List.cons_subset.mpr ⟨among ⟨_, _, due, exchange⟩ more leads, within⟩, ?_⟩
      intro found inside
      rcases List.mem_cons.mp inside with rfl | old
      · exact ⟨_, _, _, Nat.le_refl _, dueNext, follows⟩
      · obtain ⟨number, other, otherEarlier, notAfter, rest⟩ := each found old
        exact ⟨number, other, otherEarlier, Nat.le_succ_of_le notAfter, rest⟩

/-- There are at most as many requests after the first as there are cursors. -/
theorem Due.le_length (due : Due client initial before index query earlier)
    {cursors : List Text} (among : CursorsAmong client initial before cursors) :
    index ≤ cursors.length := by
  obtain ⟨followed, many, nodup, within, _⟩ := due.exists_followed advancing among
  rw [← many]
  exact (nodup.subperm within).length_le

theorem AllDue.length_le {made : List Request}
    (allDue : AllDue client initial before (before ++ made)) {cursors : List Text}
    (among : CursorsAmong client initial before cursors) :
    made.length ≤ cursors.length + 1 := by
  cases many : made.length with
  | zero => exact Nat.zero_le _
  | succ last =>
      have bound : last < made.length := by omega
      have found : (before ++ made)[before.length + last]? = some made[last] := by
        rw [List.getElem?_append_right (Nat.le_add_right _ _), Nat.add_sub_cancel_left,
          List.getElem?_eq_getElem bound]
      obtain ⟨query, earlier, due, _⟩ := allDue last _ found
      exact Nat.succ_le_succ (due.le_length advancing among)

end Advancing

/-! ## Eager reads and walks -/

theorem allDue_readAll (client : Client) (log : Log) (query : Query) (limit : Nat) :
    AllDue client query log.requests (outcome (readAll limit query) client log).2 := by
  obtain ⟨pages, ending, after, fetches, _, result, _⟩ :=
    exists_outcome_told_readAll client log limit query
  rw [result]
  exact (fetches.stands (stands_first client query log.requests)).1

theorem allDue_drain {α : Type} (client : Client) (log : Log) (query : Query)
    (view : Page → Except Failure (List α)) (stream : Json) (steps : Nat) :
    AllDue client query log.requests
      (outcome (Traversal.drain steps (Traversal.new (pure query) view stream)) client log).2 := by
  cases steps with
  | zero => exact Due.first.allDue
  | succ steps =>
      rw [outcome_drain_new, outcome_pure]
      obtain ⟨batches, ending, after, got, progress, left, fetches, drains, _⟩ :=
        exists_fetches_of_drain client query.nameJson steps (Traversal.new (pure query) view stream)
          [] (some ⟨query, 0⟩) log.requests
      simp only [drains]
      exact (fetches.stands (stands_first client query log.requests)).1

/-- How reads along the pages of a query advance, whether they are eager or walks. -/
structure Advances (client : Client) (log : Log) (query : Query) : Prop where
  /-- No two requests of an eager read carry the same variables. -/
  read : ∀ limit made, (outcome (readAll limit query) client log).2 = log.requests ++ made →
    (made.map Request.arguments).Nodup
  /-- No two requests of a walk do, whatever its units are and wherever it is left. -/
  walk : ∀ {α : Type} (view : Page → Except Failure (List α)) (stream : Json) steps made,
    (outcome (Traversal.drain steps (Traversal.new (pure query) view stream)) client log).2 =
        log.requests ++ made →
      (made.map Request.arguments).Nodup
  /-- A cursor that was followed before stops the read at its page, without another request. -/
  stops : ∀ {index number : Nat} {asked followed : Query} {page : Page} {cursor : Text}
      {earlier : List Request}, Fetched client query log.requests index asked page →
    page.info.hasNext = true → page.info.endCursor = some cursor → number ≤ index →
    Due client query log.requests number followed earlier → followed.after = .str cursor →
      ∃ made, made.length = index + 1 ∧
        (∀ limit, index < limit → outcome (readAll limit query) client log =
          (.error (.pagination .repeated (some (index : Int))), log.requests ++ made)) ∧
        ∀ {α : Type} (view : Page → List α) (stream : Json), ∃ bound, ∀ steps, bound ≤ steps →
          ∃ units left,
            outcome
                (Traversal.drain steps
                  (Traversal.new (pure query) (fun page => pure (view page)) stream))
                client log =
              (.ok (units, .failed (.pagination .repeated (some (index : Int))), left),
                log.requests ++ made)
  /-- If the service has only so many cursors, there are at most as many requests after the first,
  and the read ends. -/
  ends : ∀ cursors, CursorsAmong client query log.requests cursors →
    (∀ limit made, (outcome (readAll limit query) client log).2 = log.requests ++ made →
        made.length ≤ cursors.length + 1) ∧
      (∀ limit, cursors.length < limit →
        (outcome (readAll limit query) client log).1 ≠ .ok none) ∧
      ∀ {α : Type} (view : Page → Except Failure (List α)) (stream : Json),
        (∀ steps made,
          (outcome (Traversal.drain steps (Traversal.new (pure query) view stream)) client log).2 =
              log.requests ++ made →
            made.length ≤ cursors.length + 1) ∧
          ∃ bound, ∀ steps, bound ≤ steps → ∃ units progress left requests,
            outcome (Traversal.drain steps (Traversal.new (pure query) view stream)) client log =
                (.ok (units, progress, left), requests) ∧
              (progress = .ended ∨ ∃ failure, progress = .failed failure)

/-- A read whose limit is above the number of cursors does not come to it. -/
theorem isFinal_of_cursors (advancing : NeverReturns client query before) {cursors : List Text}
    (among : CursorsAmong client query before cursors) {seen : List β} {ending : Ending}
    {limit : Nat} (enough : cursors.length < limit)
    (fetches : Fetches client view (some ⟨query, 0⟩) before seen ending after)
    (within : ending.Within seen.length limit) : ending.IsFinal := by
  cases ending with
  | complete => exact trivial
  | failed failure => exact trivial
  | paused position =>
      have due := (fetches.stands (stands_first client query before)).2 position rfl
      have few := due.le_length advancing among
      have many : seen.length = limit := within
      omega

/-- What fails at a page fails every eager read whose limit is above its number, and every walk
whose units do not fail before, with the same requests. -/
theorem FailsAt.reads {failure : Failure}
    (fails : FailsAt client query log.requests index failure after) :
    (∀ limit, index < limit →
        outcome (readAll limit query) client log = (.error failure, after)) ∧
      ∀ {α : Type} (view : Page → List α) (stream : Json), ∃ bound, ∀ steps, bound ≤ steps →
        ∃ units left,
          outcome
              (Traversal.drain steps
                (Traversal.new (pure query) (fun page => pure (view page)) stream))
              client log =
            (.ok (units, .failed failure, left), after) := by
  have meets : (Ending.failed failure).Meets client query log.requests index after := fails
  obtain ⟨pages, count, fetches⟩ := meets.fetches
  constructor
  · intro limit enough
    have within : (Ending.failed failure).Within pages.length limit := by
      rw [count]
      exact enough
    rw [outcome_readAll]
    exact fetches.outcome_pagesFrom query.nameJson within
  · intro α view stream
    obtain ⟨bound, drains⟩ := (fetches.map view).outcome_drain_new stream
      (outcome_pure query : outcome (pure query) client log = (.ok query, log.requests))
    refine ⟨bound, fun steps enough => ?_⟩
    obtain ⟨left, result⟩ := drains steps enough (.inl trivial)
    exact ⟨_, left, result⟩

theorem readAll_ne_paused (advancing : NeverReturns client query log.requests)
    {cursors : List Text} (among : CursorsAmong client query log.requests cursors) {limit : Nat}
    (enough : cursors.length < limit) :
    (outcome (readAll limit query) client log).1 ≠ .ok none := by
  intro none
  obtain ⟨pages, ending, after, fetches, within, result, _⟩ :=
    exists_outcome_told_readAll client log limit query
  have final := isFinal_of_cursors advancing among enough fetches within
  rw [result] at none
  cases ending with
  | complete => cases none
  | failed failure => cases none
  | paused position => exact final

/-- A walk comes to its end, or fails, if there are only so many cursors. -/
theorem exists_end_of_cursors {α : Type} (advancing : NeverReturns client query log.requests)
    {cursors : List Text} (among : CursorsAmong client query log.requests cursors)
    (view : Page → Except Failure (List α)) (stream : Json) :
    ∃ bound, ∀ steps, bound ≤ steps → ∃ units progress left requests,
      outcome (Traversal.drain steps (Traversal.new (pure query) view stream)) client log =
          (.ok (units, progress, left), requests) ∧
        (progress = .ended ∨ ∃ failure, progress = .failed failure) := by
  obtain ⟨batches, ending, after, fetches, within⟩ :=
    exists_fetches client view (cursors.length + 1) (some ⟨query, 0⟩) log.requests
  have final := isFinal_of_cursors advancing among (Nat.lt_succ_self _) fetches within
  obtain ⟨bound, drains⟩ := fetches.outcome_drain_new stream
    (outcome_pure query : outcome (pure query) client log = (.ok query, log.requests))
  refine ⟨bound, fun steps enough => ?_⟩
  obtain ⟨left, result⟩ := drains steps enough (.inl final)
  refine ⟨_, _, left, _, result, ?_⟩
  cases ending with
  | complete => exact .inl rfl
  | failed failure => exact .inr ⟨failure, rfl⟩
  | paused position => exact False.elim final

/-- Reads along the pages advance, for every query and every service that does not lead back behind
the request that it answers. -/
theorem reads_advance (advancing : NeverReturns client query log.requests) :
    Advances client log query := by
  constructor
  case read =>
    intro limit made sent
    exact (sent ▸ allDue_readAll client log query limit).nodup_arguments advancing
  case walk =>
    intro α view stream steps made sent
    exact (sent ▸ allDue_drain client log query view stream steps).nodup_arguments advancing
  case stops =>
    intro index number asked followed page cursor earlier fetched more leads notAfter due same
    -- A cursor from before the last request is excluded, so that it is the one just followed.
    rcases Nat.lt_or_eq_of_le notAfter with before | rfl
    · exact absurd same (advancing fetched more leads before due)
    obtain ⟨askedEarlier, requests, dueAsked, exchange⟩ := fetched
    obtain ⟨rfl, rfl⟩ := due.unique dueAsked
    have fails := FailsAt.stuck due exchange (.repeated more leads same)
    obtain ⟨made, rfl, many⟩ := fails.grows
    exact ⟨made, many, fails.reads⟩
  case ends =>
    intro cursors among
    refine ⟨fun limit made sent => ?_, fun limit => readAll_ne_paused advancing among,
      fun view stream => ⟨fun steps made sent => ?_,
        exists_end_of_cursors advancing among view stream⟩⟩
    · exact (sent ▸ allDue_readAll client log query limit).length_le advancing among
    · exact (sent ▸ allDue_drain client log query view stream steps).length_le advancing among

/-- Two pages are read with at most two requests, which differ in their variables. -/
theorem reads_advance_over_two_pages :
    NeverReturns twoPages firstOfTwo [] ∧ CursorsAmong twoPages firstOfTwo [] ["more"] ∧
      (∀ limit made, (outcome (readAll limit firstOfTwo) twoPages Log.empty).2 = [] ++ made →
        (made.map Request.arguments).Nodup ∧ made.length ≤ 2) ∧
      ∀ limit, 1 < limit →
        (outcome (readAll limit firstOfTwo) twoPages Log.empty).1 ≠ .ok none := by
  -- Only the first page promises another one.
  have leading {index : Nat} {query : Query} {page : Page} {cursor : Text}
      (fetched : Fetched twoPages firstOfTwo [] index query page)
      (more : page.info.hasNext = true) (leads : page.info.endCursor = some cursor) :
      index = 0 ∧ cursor = "more" := by
    obtain ⟨earlier, requests, due, request, made, rfl, answered⟩ := fetched
    cases due with
    | first =>
        have shown : answerTo twoPages ([] ++ [request]) firstOfTwo 0 =
            .ok ⟨[], ⟨true, some "more"⟩, some "0x5"⟩ := rfl
        cases shown.symm.trans answered
        cases leads
        exact ⟨rfl, rfl⟩
    | @next index asked _ _ _ _ due exchange turns =>
        have last (map : MapQuery) :
            answerTo twoPages (earlier ++ [request]) (.ofMap map) (index + 1) =
              .ok ⟨[], ⟨false, none⟩, none⟩ := rfl
        cases turns with
        | onward =>
            cases (last _).symm.trans answered
            cases more
        | narrowed =>
            cases (last _).symm.trans answered
            cases more
  have advancing : NeverReturns twoPages firstOfTwo [] := by
    intro index query page cursor fetched more leads number other earlier less
    rw [(leading fetched more leads).1] at less
    exact absurd less (Nat.not_lt_zero number)
  have among : CursorsAmong twoPages firstOfTwo [] ["more"] := by
    intro index query page cursor fetched more leads
    rw [(leading fetched more leads).2]
    exact List.mem_cons_self
  have advances : Advances twoPages Log.empty firstOfTwo := reads_advance advancing
  have ends := advances.ends ["more"] among
  exact ⟨advancing, among,
    fun limit made sent => ⟨advances.read limit made sent, ends.1 limit made sent⟩, ends.2.1⟩

/-! ## A service that leads back -/

/-- The cursor of the page after a cursor, where each of two cursors leads to the other. -/
def circlingCursor : Json → Text
  | .str cursor => if cursor == "a" then "b" else "a"
  | _ => "a"

/-- A service with these two cursors. -/
def circling : Client where
  answer requests :=
    let cursor := circlingCursor ((requests.getLast?.map Request.after).getD .null)
    .ok ⟨some [("map", .obj [("map_dfs", emptyConnection true (.str cursor))])], []⟩
  pageSize := .null

/-- The query of a page of its map. -/
def circlingQuery (after : Json) : Query :=
  .ofMap ⟨.str "0x5", .null, .int 50, after⟩

/-- The cursor after which the page of some number is asked for. -/
def circlingAfter : Nat → Json
  | 0 => .null
  | index + 1 => .str (circlingCursor (circlingAfter index))

theorem circlingAfter_succ (index : Nat) :
    circlingAfter (index + 1) = .str "a" ∨ circlingAfter (index + 1) = .str "b" := by
  induction index with
  | zero => exact .inl rfl
  | succ index inductionHypothesis =>
      rw [circlingAfter]
      rcases inductionHypothesis with same | same
      · rw [same]
        exact .inr rfl
      · rw [same]
        exact .inl rfl

theorem circlingAfter_ne (index : Nat) :
    circlingAfter index ≠ .str (circlingCursor (circlingAfter index)) := by
  have different : ("a" : Text) ≠ "b" := by decide
  cases index with
  | zero => exact Json.noConfusion
  | succ index =>
      rcases circlingAfter_succ index with same | same
      · rw [same]
        exact fun equal => different (Json.str.inj equal)
      · rw [same]
        exact fun equal => different (Json.str.inj equal).symm

theorem due_circling (index : Nat) :
    ∃ earlier, Due circling (circlingQuery .null) [] index (circlingQuery (circlingAfter index))
      earlier := by
  induction index with
  | zero => exact ⟨[], .first⟩
  | succ index inductionHypothesis =>
      obtain ⟨earlier, due⟩ := inductionHypothesis
      obtain ⟨request, made⟩ :
          ∃ request, (circlingQuery (circlingAfter index)).request = .ok request :=
        Query.exists_request ⟨_, rfl⟩
      have follows : request.after = circlingAfter index := Query.after_request made
      have answered : circling.answer (earlier ++ [request]) =
          .ok ⟨some [("map", .obj [("map_dfs",
            emptyConnection true (.str (circlingCursor (circlingAfter index))))])], []⟩ := by
        rw [← follows]
        simp only [circling, List.getLast?_append, List.getLast?_singleton]
        rfl
      have exchange : Exchanges circling (circlingQuery (circlingAfter index)) index earlier
          (.ok ⟨[], ⟨true, some (circlingCursor (circlingAfter index))⟩, none⟩)
          (earlier ++ [request]) := by
        refine ⟨request, made, rfl, ?_⟩
        rw [answerTo, answered]
        rfl
      exact ⟨_, due.next exchange (.onward rfl rfl (circlingAfter_ne index))⟩

/-- A service that leads back behind the last cursor is read without end: no limit is enough, and
requests are repeated. -/
theorem readAll_circling :
    (∀ limit, (outcome (readAll limit (circlingQuery .null)) circling Log.empty).1 = .ok none) ∧
      ∃ request, Issues circling Log.empty (circlingQuery .null) 1 request ∧
        Issues circling Log.empty (circlingQuery .null) 3 request := by
  constructor
  · intro limit
    obtain ⟨earlier, due⟩ := due_circling limit
    obtain ⟨pages, many, fetches⟩ := due.fetches
    rw [outcome_readAll]
    exact congrArg Prod.fst (fetches.outcome_pagesFrom _ many)
  · have sendable : Sendable circling (circlingQuery .null) Log.empty.requests := by
      intro index query earlier due
      obtain ⟨same, dueSame⟩ := due_circling index
      rw [(due.unique dueSame).1]
      exact Query.exists_request ⟨_, rfl⟩
    -- The second and the fourth request follow the same cursor.
    obtain ⟨second, dueSecond⟩ := due_circling 1
    obtain ⟨fourth, dueFourth⟩ := due_circling 3
    obtain ⟨request, made⟩ : ∃ request, (circlingQuery (circlingAfter 1)).request = .ok request :=
      Query.exists_request ⟨_, rfl⟩
    exact ⟨request, (issues_iff sendable).mpr ⟨_, _, dueSecond, made⟩,
      (issues_iff sendable).mpr ⟨_, _, dueFourth, made⟩⟩

end Paging

end LedgerBook
