import LedgerBook.Proofs.Book.Agreement
import LedgerBook.Proofs.Book.Merging
import LedgerBook.Proofs.Merge.Causes
import LedgerBook.Proofs.Paging.Failing
/-!
Every failure names its page. If the transport does not name pages itself, then whatever goes wrong
in a read stands at the page that comes after those that were fetched and followed: of the read, or
of the side that fails, if both sides of a book are read at once. What the look-ups at the beginning
of a read come to stands at the first page.
-/
namespace LedgerBook.Book

open ReadM Paging Traversal

variable {α : Type} {client : Client} {log : Log}

/-! ## Reads of one map -/

/-- A read of the pages of one map fails: by how its first query is found, its failure and the
requests that were made by then. -/
inductive Fails (client : Client) (log : Log) :
    ReadM Query → Failure → List LedgerBook.Request → Prop
  | readAll (limit : Nat) (query : Query) {failure : Failure}
      {requests : List LedgerBook.Request} :
      outcome (Paging.readAll limit query) client log = (.error failure, requests) →
      Fails client log (pure query) failure requests
  | readMap {α : Type} (limit : Nat) (map : Json) (anchor : AnchorArgument)
      (value : Bcs.Reader α) (pageSize : Json) {failure : Failure}
      {requests : List LedgerBook.Request} :
      outcome (readMap limit map anchor value pageSize) client log = (.error failure, requests) →
      Fails client log (firstQuery map anchor pageSize) failure requests
  | walkMap {α : Type} (steps : Nat) (map : Json) (anchor : AnchorArgument)
      (value : Bcs.Reader α) (pageSize stream : Json) {handed : List (Entry α)}
      {failure : Failure} {requests : List LedgerBook.Request} :
      outcome (consume steps (walkMap map anchor value pageSize stream)) client log =
        (.ok (handed, .failed failure), requests) →
      Fails client log (firstQuery map anchor pageSize) failure requests
  | walkSide (steps : Nat) (package clearingHouse : Json) (anchor : AnchorArgument) (asks : Bool)
      (pageSize : Json) {handed : List (Entry Order)} {failure : Failure}
      {requests : List LedgerBook.Request} :
      outcome (consume steps (walkSide package clearingHouse anchor asks pageSize)) client log =
        (.ok (handed, .failed failure), requests) →
      Fails client log
        (openingAt anchor fun strong => sideQuery package clearingHouse strong asks pageSize)
        failure requests

/-- An eager read of pages fails only as their fetching does. -/
theorem ending_of_result {pages : List Page} {ending : Ending} {failure : Failure}
    (fails : ending.result pages = .error failure) : ending = .failed failure := by
  cases ending with
  | failed other =>
      cases fails
      rfl
  | complete => cases fails
  | paused position => cases fails

/-- A read that fails has fetched some pages and then failed at the next one, or before there was a
query. -/
theorem Fails.exists_fetchesFrom {opening : ReadM Query} {failure : Failure}
    {requests : List LedgerBook.Request} (fails : Fails client log opening failure requests) :
    ∃ pages, FetchesFrom client log opening pages (.failed failure) requests := by
  cases fails with
  | readAll limit query fails =>
      obtain ⟨pages, ending, after, fetches, within⟩ :=
        exists_fetches client pure limit (some ⟨query, 0⟩) log.requests
      rw [outcome_readAll, fetches.outcome_pagesFrom query.nameJson within] at fails
      obtain ⟨result, rfl⟩ := Prod.mk.inj fails
      rw [ending_of_result result] at fetches
      exact ⟨pages, .pages rfl fetches⟩
  | readMap limit map anchor value pageSize fails =>
      obtain ⟨pages, ending, after, reads, gives⟩ :=
        exists_reads_of_readOutcome client log map anchor value pageSize limit
      obtain ⟨result, rfl⟩ := Prod.mk.inj (gives.symm.trans fails)
      have failed : ending.result pages = .error failure := by
        rcases given : ending.result pages with cause | found
        · rw [given] at result
          cases result
          rfl
        · rw [given] at result
          cases result
      rw [ending_of_result failed] at reads
      exact ⟨pages, (reads_iff ..).mp reads⟩
  | walkMap steps map anchor value pageSize stream fails =>
      obtain ⟨pages, ending, reads, rfl, -⟩ := exists_reads_of_walked fails nofun
      exact ⟨pages, (reads_iff ..).mp reads⟩
  | walkSide steps package clearingHouse anchor asks pageSize fails =>
      obtain ⟨pages, ending, fetches, rfl, -⟩ := exists_fetchesFrom_of_told fails nofun
      exact ⟨pages, fetches⟩

/-- What goes wrong before a read has its first query is of a kind that covers it. -/
theorem Fails.covered {kind : Failure → Prop} (covers : CoversOpening client kind)
    {opening : ReadM Query} {failure : Failure} {requests : List LedgerBook.Request}
    (fails : Fails client log opening failure requests) : Blames client kind opening := by
  have required {anchor : AnchorArgument} {opening : Anchor → ReadM Query}
      (blames : ∀ strong, Blames client kind (opening strong)) :
      Blames client kind (openingAt anchor opening) :=
    (covers.of_lift _).bind blames
  cases fails with
  | readAll limit query fails => exact .of_pure query
  | readMap limit map anchor value pageSize fails =>
      exact required fun strong => covers.mapQuery map strong pageSize
  | walkMap steps map anchor value pageSize stream fails =>
      exact required fun strong => covers.mapQuery map strong pageSize
  | walkSide steps package clearingHouse anchor asks pageSize fails =>
      exact required fun strong => covers.sideQuery package clearingHouse strong asks pageSize

/-- What goes wrong before there is a query stands at the first page. -/
theorem Fails.blames_opening (unpaged : client.Unpaged) {opening : ReadM Query} {failure : Failure}
    {requests : List LedgerBook.Request} (fails : Fails client log opening failure requests) :
    Blames client (Failure.StandsAt client 0) opening :=
  fails.covered unpaged.coversOpening

/-! ## Reads of both sides -/

/-- What is known of a walk that began after some requests, by the failure that it came to, if it
has failed: which pages it has followed. -/
inductive Reached (client : Client) (before : List LedgerBook.Request) (opening : ReadM Query)
    (view : Page → Except Failure (List α)) :
    Option Failure → Traversal α → List LedgerBook.Request → Prop
  | fresh {stream : Json} {requests : List LedgerBook.Request} :
      before <+: requests →
      Reached client before opening view none (.new opening view stream) requests
  | reading {walk : Traversal α} {name : Json} {units : List α} {next : Option Position}
      {requests : List LedgerBook.Request} :
      walk.units = view →
      walk.phase = .reading name units next →
      Followed client before opening view walk.pages next requests →
      Reached client before opening view none walk requests
  | finished {walk : Traversal α} {requests : List LedgerBook.Request} :
      walk.phase = .finished →
      Reached client before opening view none walk requests
  | failed {walk : Traversal α} {failure : Failure} {requests : List LedgerBook.Request} :
      FailsAfter client before opening view walk.pages failure requests →
      Reached client before opening view (some failure) walk requests

/-- A step of a walk goes on with what is known of it. -/
theorem Reached.step {before : List LedgerBook.Request} {opening : ReadM Query}
    {view : Page → Except Failure (List α)} {walk : Traversal α}
    (reached : Reached client before opening view none walk log.requests) :
    ∃ answer later requests, outcome walk.step client log = (.ok (answer, later), requests) ∧
      Reached client before opening view (Merge.Worker.ofProgress answer).failure? later
        requests := by
  generalize made : log.requests = requests at reached
  cases reached with
  | @fresh stream _ began =>
      rw [outcome_step_of_fresh _ rfl]
      rw [← made] at began
      rcases found : outcome (Traversal.new opening view stream).opening client log with
        ⟨failure | query, after⟩
      · exact ⟨_, _, _, rfl, .failed (.unopened began found)⟩
      · exact ⟨_, _, _, rfl, .reading rfl rfl (.opened began found)⟩
  | @reading _ name units next _ same phase followed =>
      subst same
      cases units with
      | cons unit rest =>
          rw [step_of_unit walk phase, outcome_pure, made]
          exact ⟨_, _, _, rfl, .reading rfl rfl followed⟩
      | nil =>
          cases next with
          | none =>
              rw [outcome_step_of_end walk phase]
              exact ⟨_, _, _, rfl, .finished rfl⟩
          | some position =>
              rw [outcome_step_of_page walk phase, outcome_asked, made]
              rcases visits : outcome (visit walk.units position) client (asked requests) with
                ⟨failure | ⟨seen, next⟩, after⟩
              · exact ⟨_, _, _, rfl, .failed (.page followed visits)⟩
              · exact ⟨_, _, _, rfl, .reading rfl rfl (.page followed visits)⟩
  | finished phase =>
      rw [step_of_finished walk phase, outcome_pure]
      exact ⟨_, _, _, rfl, .finished phase⟩

/-- As a source, a walk goes on with what is known of it, whatever others request. -/
theorem recalls_source (client : Client) (before : List LedgerBook.Request)
    (opening : ReadM Query) (view : Page → Except Failure (List α)) :
    (source client : Merge.Source (Traversal α) α).Recalls
      (Reached client before opening view) where
  advances := by
    intro walk log reached
    obtain ⟨answer, later, requests, steps, goesOn⟩ := reached.step
    obtain ⟨between, advances, same⟩ := advance_of_step steps
    rw [advances, same]
    exact goesOn
  closes := by
    intro failure walk requests reached
    cases reached with
    | failed fails => exact .failed fails
  others := by
    intro cause walk requests more reached grows
    cases reached with
    | fresh began => exact .fresh (began.trans grows)
    | reading same phase followed => exact .reading same phase (.others followed grows)
    | finished phase => exact .finished phase
    | failed fails => exact .failed (.others fails grows)

section Request

variable {request : Request} {before : List LedgerBook.Request}

/-- A walk over a side of a book begins with its look-ups behind it, if it has any. -/
theorem Request.reached_walks {package size : Json} {walk : Traversal (Entry Order)}
    (isOne : walk ∈ request.walks package size) :
    Reached client before walk.opening walk.units none walk before := by
  obtain ⟨asks, rfl⟩ := request.exists_sideWalk_of_mem isOne
  exact .fresh List.prefix_rfl

/-- What goes wrong with a side of a book stands at the page after those that it has followed. -/
theorem Request.standsAt_walks (unpaged : client.Unpaged) {package size : Json}
    {walk : Traversal (Entry Order)} (isOne : walk ∈ request.walks package size) {count : Nat}
    {failure : Failure} {requests : List LedgerBook.Request}
    (fails : FailsAfter client before walk.opening walk.units count failure requests) :
    failure.StandsAt client count := by
  obtain ⟨asks, rfl⟩ := request.exists_sideWalk_of_mem isOne
  change FailsAfter client before
    (sideQuery package request.clearingHouse request.anchor asks size)
    (fun page => pure (page.entries Order.read)) count failure requests at fails
  exact fails.standsAt unpaged
    (blames_sideQuery unpaged package request.clearingHouse request.anchor asks size)

/-- What goes wrong when a book is opened is of a kind that covers the look-ups. -/
theorem covered_merge {kind : Failure → Prop} (covers : CoversOpening client kind)
    (request : Request) : Blames client kind request.merge where
  fails := by
    intro log failure failed
    have sides : Blames client kind request.sides := by
      rw [request.sides_eq]
      refine (covers.keyPackage request).bind fun package => ?_
      refine (covers.firstVariable request.pageSize).bind fun first => ⟨?_⟩
      intro log failure impossible
      rw [request.outcome_launch] at impossible
      cases impossible
    exact sides.fails ((request.fails_iff client log failure).mp failed)

theorem blames_merge (unpaged : client.Unpaged) (request : Request) :
    Blames client (Failure.StandsAt client 0) request.merge :=
  covered_merge unpaged.coversOpening request

/-- A book that fails does so with what it received from one of its sides, which failed after the
pages that it had followed. -/
theorem Request.exists_failsAfter {log later : Log}
    {first state : Merge.State (Traversal (Entry Order)) (Entry Order)}
    {passages : List (Merge.Passage (Entry Order))} {failure : Failure}
    (opened : request.merge client log = .ok first later)
    (run : Merge.Run (source client) first passages state)
    (ends : state.consumer = .finished (some (.failed failure))) :
    ∃ package number index walk side,
      outcome request.sides client log =
          (.ok (request.walks package (.int number)), first.log.requests) ∧
        (index, .last (.failed failure)) ∈ Merge.received passages ∧
        (request.walks package (.int number))[index]? = some walk ∧
        state.sides[index]? = some side ∧
        FailsAfter client first.log.requests walk.opening walk.units side.source.pages failure
          state.log.requests := by
  obtain ⟨walks, looked, fresh⟩ := request.fresh_of_merge opened
  obtain ⟨_, _, _, _, _, launched⟩ := request.sides_spec client log
  rw [looked] at launched
  obtain ⟨package, number, rfl⟩ := launched walks rfl
  obtain ⟨index, walk, side, seen, begins, found, reached⟩ :=
    run.exists_known_of_failed (fun walk _ => recalls_source client _ walk.opening walk.units)
      (fun walk isOne => request.reached_walks isOne)
      (confined_source (closed_pinned _ _) client) (request.keeps_sides fresh) fresh ends
  cases reached with
  | failed fails => exact ⟨package, number, index, walk, side, looked, seen, begins, found, fails⟩

end Request

/-! ## Every failure names its page -/

/-- Whatever goes wrong in a read with a client names its page. -/
structure NamesPages (client : Client) : Prop where
  /-- A read of one map fails at the page after all that it has fetched and followed. -/
  reads : ∀ {log opening failure requests}, Fails client log opening failure requests →
    ∃ pages, FetchesFrom client log opening pages (.failed failure) requests ∧
      failure.StandsAt client pages.length
  pageSizes : ∀ pageSize, Blames client (Failure.StandsAt client 0) (firstVariable pageSize)
  packages : ∀ request : Request, Blames client (Failure.StandsAt client 0) request.keyPackage
  requests : ∀ {clearingHouse anchor package pageSize failure},
    Book.request clearingHouse anchor package pageSize = .error failure →
      failure.StandsAt client 0
  openings : ∀ request : Request, Blames client (Failure.StandsAt client 0) request.merge
  /-- A read of both sides fails with what it received from one of them, and at the page after all
  that this side has fetched and followed. -/
  books : ∀ {request : Request} {log later first passages state failure},
    request.merge client log = .ok first later →
    Merge.Run (source client) first passages state →
    state.consumer = .finished (some (.failed failure)) →
    ∃ walks index walk side, outcome request.sides client log = (.ok walks, first.log.requests) ∧
      (index, .last (.failed failure)) ∈ Merge.received passages ∧
      walks[index]? = some walk ∧ state.sides[index]? = some side ∧
      FailsAfter client first.log.requests walk.opening walk.units side.source.pages failure
        state.log.requests ∧
      failure.StandsAt client side.source.pages

/-- Every failure of a read names its page, if the transport fails only in ways of its own or
because the service gave no usable answer, and then names none. The page is the number of those that
the read had fetched and followed by then, or that the failing side had, if both sides of a book are
read; and the first one for the look-ups. -/
theorem failures_name_their_page (unpaged : client.Unpaged) : NamesPages client where
  reads := by
    intro log opening failure requests fails
    obtain ⟨pages, fetches⟩ := fails.exists_fetchesFrom
    exact ⟨pages, fetches, fetches.failsAfter.standsAt unpaged (fails.blames_opening unpaged)⟩
  pageSizes := blames_firstVariable unpaged
  packages := blames_keyPackage unpaged
  requests := by
    intro clearingHouse anchor package pageSize failure failed
    unfold Book.request at failed
    exact standsAt_of_unpaged failed
  openings := blames_merge unpaged
  books := by
    intro request log later first passages state failure opened run ends
    obtain ⟨package, number, index, walk, side, looked, seen, begins, found, fails⟩ :=
      request.exists_failsAfter opened run ends
    exact ⟨_, index, walk, side, looked, seen, begins, found, fails,
      request.standsAt_walks unpaged (List.mem_of_getElem? begins) fails⟩

/-- A service that loses all requests but the first. -/
def losing : Client where
  answer requests :=
    if requests.length = 1 then twoPages.answer requests
    else .error (.client (.session "ConnectionError" "lost") none none)
  pageSize := .null

def losingBook : Request :=
  ⟨.str "0x2", ⟨none⟩, .str "0x9", .int 50⟩

/-- The failure of its transport, put at the second page. -/
def lostSecondPage : Failure :=
  .client (.session "ConnectionError" "lost") none (some 1)

/-- Both a read of all pages and a read of both sides fail at the second page, with the first one
fetched and followed. -/
theorem failures_name_their_page_of_losing :
    losing.Unpaged ∧
      (∃ pages requests, FetchesFrom losing Log.empty (pure firstOfTwo) pages
        (.failed lostSecondPage) requests ∧ pages.length = 1) ∧
      ∃ first later passages state index side,
        losingBook.merge losing Log.empty = .ok first later ∧
          Merge.Run (source losing) first passages state ∧
          state.consumer = .finished (some (.failed lostSecondPage)) ∧
          (index, .last (.failed lostSecondPage)) ∈ Merge.received passages ∧
          state.sides[index]? = some side ∧ side.source.pages = 1 := by
  have unpaged : losing.Unpaged := by
    intro requests failure failed isRead
    by_cases first : requests.length = 1
    · simp only [losing, if_pos first] at failed
      cases failed
    · simp only [losing, if_neg first] at failed
      cases failed
      exact ⟨rfl, rfl⟩
  have names := failures_name_their_page unpaged
  have single (count : Int) (stands : lostSecondPage.StandsAt losing count) : count = 1 :=
    (Option.some.inj (stands.1 rfl)).symm
  have reads : Fails losing Log.empty (pure firstOfTwo) lostSecondPage _ :=
    .readAll 2 firstOfTwo rfl
  obtain ⟨pages, fetches, stands⟩ := names.reads reads
  have count := single _ stands
  obtain ⟨first, later, opened, ends⟩ : ∃ first later,
      losingBook.merge losing Log.empty = .ok first later ∧
        (Merge.take (source losing) 40 1 first).2.2.consumer =
          .finished (some (.failed lostSecondPage)) :=
    ⟨_, _, rfl, rfl⟩
  obtain ⟨passages, run⟩ := Merge.run_take (source losing) 40 1 first
  obtain ⟨walks, index, walk, side, -, seen, -, found, -, standsSide⟩ :=
    names.books opened run ends
  have countSide := single _ standsSide
  exact ⟨unpaged, ⟨pages, _, fetches, by omega⟩, first, later, passages, _, index, side, opened,
    run, ends, seen, found, by omega⟩

end LedgerBook.Book
