import LedgerBook.Proofs.Blame
import LedgerBook.Proofs.Paging.Cursors
/-!
Reads that fail at a page. A read counts the pages that it has fetched and followed, and whatever
goes wrong afterwards stands at the page with this number. Other reads may use the same service in
the meantime, so that requests of theirs stand between its own.
-/
namespace LedgerBook.Paging

open ReadM

variable {β : Type} {client : Client} {before requests after more : List Request}
  {opening : ReadM Query} {view : Page → Except Failure β} {count : Nat} {next : Option Position}
  {failure : Failure}

/-- What a read has behind it that began after some requests: how many pages it has fetched and
followed, the page to which the last of them leads, and all requests so far, also those of
others. -/
inductive Followed (client : Client) (before : List Request) (opening : ReadM Query)
    (view : Page → Except Failure β) : Nat → Option Position → List Request → Prop
  | opened {log : Log} {query : Query} {requests : List Request} :
      before <+: log.requests →
      outcome opening client log = (.ok query, requests) →
      Followed client before opening view 0 (some ⟨query, 0⟩) requests
  | others {count : Nat} {next : Option Position} {requests more : List Request} :
      Followed client before opening view count next requests →
      requests <+: more →
      Followed client before opening view count next more
  | page {count : Nat} {position : Position} {next : Option Position}
      {requests after : List Request} {seen : β} :
      Followed client before opening view count (some position) requests →
      outcome (visit view position) client (asked requests) = (.ok (seen, next), after) →
      Followed client before opening view (count + 1) next after

/-- A read that began after some requests fails: how many pages it had fetched and followed by then,
and all requests so far. -/
inductive FailsAfter (client : Client) (before : List Request) (opening : ReadM Query)
    (view : Page → Except Failure β) : Nat → Failure → List Request → Prop
  | unopened {log : Log} {failure : Failure} {requests : List Request} :
      before <+: log.requests →
      outcome opening client log = (.error failure, requests) →
      FailsAfter client before opening view 0 failure requests
  | page {count : Nat} {position : Position} {requests after : List Request} {failure : Failure} :
      Followed client before opening view count (some position) requests →
      outcome (visit view position) client (asked requests) = (.error failure, after) →
      FailsAfter client before opening view count failure after
  | others {count : Nat} {failure : Failure} {requests more : List Request} :
      FailsAfter client before opening view count failure requests →
      requests <+: more →
      FailsAfter client before opening view count failure more

/-- The pages of a read are numbered by those that were followed before. -/
theorem Followed.index_eq {position : Position}
    (followed : Followed client before opening view count next requests)
    (goesOn : next = some position) : position.index = count := by
  induction followed generalizing position with
  | opened _ _ =>
      cases goesOn
      rfl
  | others _ _ inductionHypothesis => exact inductionHypothesis goesOn
  | page _ visits inductionHypothesis =>
      subst goesOn
      rw [index_of_visit visits, inductionHypothesis rfl]

/-- Whatever goes wrong is of a kind that covers the page after those that were followed, and what
goes wrong before there is a query. -/
theorem FailsAfter.isOfKind [∀ page, Unpaged (view page)]
    (fails : FailsAfter client before opening view count failure requests)
    (kind : Nat → Failure → Prop) (opens : Blames client (kind 0) opening)
    (covers : ∀ number : Nat, CoversPage client number (kind number)) : kind count failure := by
  induction fails with
  | @unopened log failure requests _ finds => exact opens.fails (congrArg Prod.fst finds)
  | @page count position requests after failure followed visits =>
      rw [← followed.index_eq rfl]
      exact (covers position.index).visit.fails (congrArg Prod.fst visits)
  | others _ _ inductionHypothesis => exact inductionHypothesis

/-- Whatever goes wrong stands at the page after those that were followed; what goes wrong before
there is a query stands at the first page. -/
theorem FailsAfter.standsAt (unpaged : client.Unpaged) [∀ page, Unpaged (view page)]
    (opens : Blames client (Failure.StandsAt client 0) opening)
    (fails : FailsAfter client before opening view count failure requests) :
    failure.StandsAt client count :=
  fails.isOfKind (fun number => Failure.StandsAt client number) opens fun number =>
    unpaged.coversPage number

/-! ## Reads without others -/

/-- A fetching that fails has followed the pages that it gives. -/
theorem Fetches.failsAfter {seen : List β} {ending : Ending}
    (fetches : Fetches client view next requests seen ending after)
    (followed : Followed client before opening view count next requests)
    (fails : ending = .failed failure) :
    FailsAfter client before opening view (count + seen.length) failure after := by
  induction fetches generalizing count with
  | complete => cases fails
  | paused => cases fails
  | failed visits =>
      cases fails
      exact .page followed visits
  | @page position next requests between after seen others ending visits _ inductionHypothesis =>
      have rest := inductionHypothesis (followed.page visits) fails
      rwa [Nat.add_right_comm] at rest

theorem FetchesFrom.failsAfter {log : Log} {pages : List Page}
    (fetches : FetchesFrom client log opening pages (.failed failure) after) :
    FailsAfter client log.requests opening pure pages.length failure after := by
  cases fetches with
  | unopened finds => exact .unopened List.prefix_rfl finds
  | pages finds fetches =>
      have fails := fetches.failsAfter (.opened List.prefix_rfl finds) rfl
      rwa [Nat.zero_add] at fails

end LedgerBook.Paging
