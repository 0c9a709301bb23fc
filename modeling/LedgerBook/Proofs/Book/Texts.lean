import LedgerBook.Proofs.Book.Failing
import LedgerBook.Proofs.Failure
/-!
The texts of failed reads. Whatever a read fails with names the page that it carries, with one
exception: a refusal of a look-up is put into words before it is put at the first page, and so names
none. A book that is being read and a read of given pages never fail with such a refusal.
-/
namespace LedgerBook

open ReadM Paging

variable {α : Type} {client : Client} {log : Log}

namespace Failure

theorem namesItsPage_of_not_isRead {failure : Failure} (other : failure.isRead = false) :
    failure.NamesItsPage := by
  cases failure with
  | pagination => exact namesItsPage_of_message rfl
  | general | client | server | missingData => cases other
  | _ => exact namesItsPage_of_not_tellsPage rfl

theorem Unpaged.namesItsPage {failure : Failure} (unpaged : failure.Unpaged) :
    failure.NamesItsPage :=
  namesItsPage_of_not_isRead unpaged.1

end Failure

/-- A refusal that the transport of a client made up itself, with a text that does not name the page
that it carried. -/
def Client.Misstates (client : Client) (failure : Failure) : Prop :=
  ∃ requests errors shown own page,
    client.answer requests = .error (.server errors shown own) ∧ shown ≠ own ∧
      failure = .server errors shown page

/-- A failure whose text names its page, unless the transport itself makes up a refusal whose text
does not. -/
def Failure.Worded (client : Client) (failure : Failure) : Prop :=
  failure.NamesItsPage ∨ client.Misstates failure

/-- What the transport fails with is still worded once it is put at a page, unless it is a refusal
whose page was not known. -/
theorem Failure.worded_tag {requests : List Request} {failure : Failure}
    (failed : client.answer requests = .error failure) (applies : Failure → Bool) (page : Int) :
    (failure.tag applies page).Worded client ∨
      applies failure = true ∧ (∃ errors, failure = server errors none none) ∧
        (failure.tag applies page).SilentAt page := by
  by_cases names : failure.NamesItsPage
  · exact (names.tag applies page).imp_left .inl
  · cases failure with
    | server errors shown own =>
        have different : shown ≠ own := fun same => names (namesItsPage_server_iff.mpr same)
        refine .inl (.inr ?_)
        rw [Failure.tag]
        split
        · exact ⟨requests, errors, shown, own, some page, failed, different, rfl⟩
        · exact ⟨requests, errors, shown, own, own, failed, different, rfl⟩
    | client | pagination => exact absurd (namesItsPage_of_message rfl) names
    | _ => exact absurd (namesItsPage_of_not_tellsPage rfl) names

/-- Before there is a query, only a refusal of a look-up does not name its page. -/
theorem Client.coversOpening_worded (client : Client) :
    CoversOpening client fun failure => failure.Worded client ∨ failure.SilentAt 0 where
  answers _ _ failed :=
    (Failure.worded_tag failed Failure.isRead 0).imp_right fun silent => silent.2.2
  refused errors := .inr ⟨errors, rfl⟩
  missing _ := .inl (.inl (Failure.namesItsPage_of_not_tellsPage rfl))
  unpaged _ unpaged := .inl (.inl unpaged.namesItsPage)

/-- Whatever goes wrong with a page names it. -/
theorem Client.coversPage_worded (client : Client) (index : Int) :
    CoversPage client index (Failure.Worded client) where
  answers requests failure failed := by
    rcases Failure.worded_tag failed Failure.isClient index with
      worded | ⟨isClient, ⟨errors, rfl⟩, _⟩
    · exact worded
    · cases isClient
  refused _ := .inl (Failure.namesItsPage_server_iff.mpr rfl)
  missing _ := .inl (Failure.namesItsPage_of_not_tellsPage rfl)
  cursors _ ofCursors := .inl (Failure.namesItsPage_of_not_isRead ofCursors.1)

/-- Once there is a query, whatever a fetching fails with names its page. -/
theorem Paging.Fetches.worded {next : Option Position} {requests after : List Request}
    {pages : List Page} {ending : Ending} {failure : Failure}
    (fetches : Fetches client pure next requests pages ending after)
    (fails : ending = .failed failure) : failure.Worded client := by
  induction fetches with
  | complete => cases fails
  | paused => cases fails
  | @failed position _ _ _ visits =>
      cases fails
      exact (client.coversPage_worded position.index).visit.fails (congrArg Prod.fst visits)
  | page _ _ inductionHypothesis => exact inductionHypothesis fails

namespace Book

/-- A page size that is given needs no look-up, so that no refusal can come of it. -/
theorem worded_sideQuery (package house : Json) (anchor : Anchor) (asks : Bool) {given : Json}
    (isGiven : given.isNull = false) :
    Blames client (Failure.Worded client) (sideQuery package house anchor asks given) := by
  have sized : Blames client Failure.Unpaged (Lookup.pageSize given) := by
    constructor
    intro log failure failed
    rw [outcome_pageSize_of_given isGiven] at failed
    exact LedgerBook.Unpaged.fails failed
  have first : Blames client (Failure.Worded client) (duringFirstPage (Lookup.pageSize given)) := by
    refine sized.of_mapFailure fun failure unpaged => ?_
    rw [Failure.tag_of_not_applies unpaged.1]
    exact .inl unpaged.namesItsPage
  refine (first.map _).bind fun first => ?_
  refine Blames.bind (.of_lift fun failure failed => ?_) fun _ => .of_pure _
  exact .inl (LedgerBook.Unpaged.fails failed).namesItsPage

/-- A read of the pages of one map names its page in what it fails with, unless that is a refusal of
its look-up. -/
theorem Fails.worded_or_silent {opening : ReadM Query} {failure : Failure}
    {requests : List LedgerBook.Request} (fails : Fails client log opening failure requests) :
    failure.Worded client ∨
      failure.SilentAt 0 ∧ outcome opening client log = (.error failure, requests) := by
  obtain ⟨pages, fetches⟩ := fails.exists_fetchesFrom
  cases fetches with
  | pages finds fetches => exact .inl (fetches.worded rfl)
  | unopened finds =>
      have opens := fails.covered client.coversOpening_worded
      exact (opens.fails (congrArg Prod.fst finds)).imp_right fun silent => ⟨silent, finds⟩

/-- What goes wrong with a side of a book names its page, since its page size is given. -/
theorem Request.worded_of_failsAfter {request : Request} {package : Json} {number : Int}
    {before requests : List LedgerBook.Request} {walk : Traversal (Entry Order)}
    (isOne : walk ∈ request.walks package (.int number)) {count : Nat} {failure : Failure}
    (fails : FailsAfter client before walk.opening walk.units count failure requests) :
    failure.Worded client := by
  obtain ⟨asks, rfl⟩ := request.exists_sideWalk_of_mem isOne
  change FailsAfter client before
    (sideQuery package request.clearingHouse request.anchor asks (.int number))
    (fun page => pure (page.entries Order.read)) count failure requests at fails
  exact fails.isOfKind (fun _ => Failure.Worded client)
    (worded_sideQuery package request.clearingHouse request.anchor asks rfl)
    fun number => client.coversPage_worded number

/-- A look-up that is part of the first page and is refused fails there, with a text that was
written before. -/
theorem outcome_duringFirstPage_of_refused {document : Document} {arguments : Json.Members}
    {envelope : Envelope}
    (answered : client.answer (log.requests ++ [⟨document, arguments⟩]) = .ok envelope)
    (refused : envelope.errors.isEmpty = false) :
    (outcome (duringFirstPage (Lookup.content document arguments)) client log).1 =
      .error (.server envelope.errors none (some 0)) := by
  have required : envelope.required none = .error (.server envelope.errors none none) := by
    rw [Envelope.required, Envelope.content, refused]
    rfl
  rw [duringFirstPage, outcome_mapFailure, Lookup.outcome_content, answered, ok_bind, required]
  rfl

/-! ## The texts of all failures -/

/-- The texts of whatever goes wrong in a read with a client name the pages of the failures, but for
those of refused look-ups. -/
structure TextsNamePages (client : Client) : Prop where
  given : ∀ {log limit query failure requests},
    outcome (Paging.readAll limit query) client log = (.error failure, requests) →
      failure.Worded client
  /-- A read that finds its page size is worded like any other once it has a query. -/
  reads : ∀ {log opening failure requests}, Fails client log opening failure requests →
    failure.Worded client ∨
      failure.SilentAt 0 ∧ outcome opening client log = (.error failure, requests)
  /-- Every refusal of a look-up that is part of the first page is silent. -/
  refusals : ∀ {log document arguments envelope},
    client.answer (log.requests ++ [⟨document, arguments⟩]) = .ok envelope →
    envelope.errors.isEmpty = false →
      ∃ failure, (outcome (duringFirstPage (Lookup.content document arguments)) client log).1 =
        .error failure ∧ failure.SilentAt 0 ∧ ¬ failure.NamesItsPage
  openings : ∀ {request : Request} {log failure requests},
    outcome request.merge client log = (.error failure, requests) →
      failure.Worded client ∨ failure.SilentAt 0
  books : ∀ {request : Request} {log later first passages state failure},
    request.merge client log = .ok first later →
    Merge.Run (source client) first passages state →
    state.consumer = .finished (some (.failed failure)) →
      failure.Worded client

/-- Every failure that has a place for its page in its text names this page there and no other,
unless the transport itself makes up a refusal that does not. But a refusal of a look-up was put
into words before it was put at the first page, and names none. -/
theorem texts_name_pages (client : Client) : TextsNamePages client where
  given := by
    intro log limit query failure requests fails
    rcases (Fails.readAll limit query fails).worded_or_silent with worded | ⟨_, finds⟩
    · exact worded
    · cases finds
  reads fails := fails.worded_or_silent
  refusals := by
    intro log document arguments envelope answered refused
    have silent : (Failure.server envelope.errors none (some 0)).SilentAt 0 := ⟨_, rfl⟩
    exact ⟨_, outcome_duringFirstPage_of_refused answered refused, silent,
      silent.not_namesItsPage⟩
  openings fails := (covered_merge client.coversOpening_worded _).fails (congrArg Prod.fst fails)
  books := by
    intro request log later first passages state failure opened run ends
    obtain ⟨package, number, index, walk, side, _, _, begins, _, fails⟩ :=
      request.exists_failsAfter opened run ends
    exact request.worded_of_failsAfter (List.mem_of_getElem? begins) fails

/-- What a service reports that refuses everything. -/
def reported : List Json :=
  [.obj [("message", .str "boom")]]

def refusing : Client where
  answer _ := .ok ⟨none, reported⟩
  pageSize := .null

/-- A refused page and a refused look-up both fail at the first page, but only the text of the first
one says so. -/
theorem texts_name_pages_of_refusing :
    (∃ requests, Fails refusing Log.empty (firstQuery (.str "0xa5") (.given ⟨some 8⟩) (.int 1))
        (.server reported (some 0) (some 0)) requests) ∧
      (Failure.server reported (some 0) (some 0)).NamesItsPage ∧
      (Failure.server reported (some 0) (some 0)).message =
        "Query execution produced the following errors at page 0:\nboom" ∧
      (∃ requests, Fails refusing Log.empty (firstQuery (.str "0xa5") (.given ⟨some 8⟩) .null)
        (.server reported none (some 0)) requests) ∧
      (Failure.server reported none (some 0)).message =
        "Query execution produced the following errors:\nboom" := by
  have page : Fails refusing Log.empty (firstQuery (.str "0xa5") (.given ⟨some 8⟩) (.int 1))
      (.server reported (some 0) (some 0)) _ :=
    .readMap 1 (.str "0xa5") (.given ⟨some 8⟩) Order.read (.int 1) rfl
  have lookup : Fails refusing Log.empty (firstQuery (.str "0xa5") (.given ⟨some 8⟩) .null)
      (.server reported none (some 0)) _ :=
    .readMap 1 (.str "0xa5") (.given ⟨some 8⟩) Order.read .null rfl
  have names : (Failure.server reported (some 0) (some 0)).NamesItsPage := by
    rcases (texts_name_pages refusing).reads page with (names | misstated) | ⟨⟨_, never⟩, _⟩
    · exact names
    · obtain ⟨_, _, _, _, _, never, _⟩ := misstated
      cases never
    · cases never
  exact ⟨⟨_, page⟩, names, by decide +kernel, ⟨_, lookup⟩, by decide +kernel⟩

end Book

end LedgerBook
