import LedgerBook.Book
import LedgerBook.Proofs.Lookup
import LedgerBook.Proofs.Traversal
/-!
How the reads of a book begin: the anchor is announced, the page size is found, and the first query
is made. From there on the pages decide.
-/
namespace LedgerBook.Book

open ReadM Paging

variable {α : Type} {client : Client} {log : Log}

instance (lookup : ReadM α) [Orderly lookup] : Orderly (duringFirstPage lookup) := by
  unfold duringFirstPage
  infer_instance

theorem firstVariable_eq (pageSize : Json) :
    firstVariable pageSize =
      duringFirstPage (Lookup.pageSize pageSize) >>= fun size => pure (.int size) :=
  rfl

instance (pageSize : Json) : Orderly (firstVariable pageSize) := by
  rw [firstVariable_eq]
  infer_instance

/-- A positive page size that is given needs no look-up. -/
theorem outcome_firstVariable_of_pos {size : Int} (positive : 0 < size) :
    outcome (firstVariable (.int size)) client log = (.ok (.int size), log.requests) := by
  have checked : Lookup.checkedPageSize (.int size) = .ok size := by
    have above : decide (size ≤ 0) = false := decide_eq_false (by omega)
    rw [Lookup.checkedPageSize, Json.isAtMostZero, above]
    rfl
  have sized : outcome (Lookup.pageSize (.int size)) client log = (.ok size, log.requests) := by
    rw [Lookup.pageSize_eq, outcome_bind]
    change outcome (liftM (Lookup.checkedPageSize (.int size))) client (asked log.requests) = _
    rw [outcome_lift, checked]
    rfl
  rw [firstVariable_eq, outcome_bind, duringFirstPage, outcome_mapFailure, sized]
  rfl

instance (anchor : AnchorArgument) (stream : Json) : Orderly (announce anchor stream) := by
  unfold announce
  infer_instance

theorem outcome_announce (anchor : AnchorArgument) (stream : Json) :
    outcome (announce anchor stream) client log = (anchor.required, log.requests) := by
  unfold announce
  rw [outcome_bind, outcome_lift]
  cases anchor.required with
  | error failure => rfl
  | ok anchor => rfl

/-- A walk is made without a request, if it has an anchor. -/
theorem outcome_announced (anchor : AnchorArgument) (stream : Json)
    (walk : Anchor → Traversal α) :
    outcome (announce anchor stream >>= fun strong => pure (walk strong)) client log =
      (anchor.required.map walk, log.requests) := by
  rw [outcome_bind, outcome_announce]
  cases anchor.required <;> rfl

instance (map : Json) (anchor : Anchor) (pageSize : Json) :
    Orderly (mapQuery map anchor pageSize) := by
  unfold mapQuery
  infer_instance

instance (package clearingHouse : Json) (anchor : Anchor) (asks : Bool) (pageSize : Json) :
    Orderly (sideQuery package clearingHouse anchor asks pageSize) := by
  unfold sideQuery
  infer_instance

/-! ## What a consumer sees -/

/-- A walk without what is left of it. -/
def seenOf (found : List α × Progress α × Traversal α) : List α × Progress α :=
  (found.1, found.2.1)

/-- What a consumer sees of a walk after some steps: the units that were handed out, and what the
last step came to. A walk that cannot be made has failed. -/
def consume (steps : Nat) (walk : ReadM (Traversal α)) : ReadM (List α × Progress α) := do
  match ← attempt walk with
  | .error failure => return ([], .failed failure)
  | .ok walk => return seenOf (← walk.drain steps)

/-- A walk that requires an anchor fails at once without one, and otherwise shows what its steps
come to. -/
theorem outcome_consume (steps : Nat) (anchor : AnchorArgument) (stream : Json)
    (opening : Anchor → ReadM Query) [∀ strong, Orderly (opening strong)]
    (view : Page → Except Failure (List α)) :
    outcome
        (consume steps do
          let strong ← announce anchor stream
          return Traversal.new (opening strong) view stream) client log =
      match anchor.required with
      | .error failure => (.ok ([], .failed failure), log.requests)
      | .ok strong =>
        follow
          (outcome (Traversal.drain steps (Traversal.new (opening strong) view stream)) client
            (asked log.requests))
          fun found requests => (.ok (seenOf found), requests) := by
  have made :
      outcome (announce anchor stream >>= fun strong =>
          pure (Traversal.new (opening strong) view stream)) client log =
        (anchor.required.map fun strong => Traversal.new (opening strong) view stream,
          log.requests) :=
    outcome_announced anchor stream _
  unfold consume
  rw [outcome_bind_of, outcome_attempt, made]
  · cases anchor.required with
    | error failure => rfl
    | ok strong =>
        change outcome (Traversal.drain steps _ >>= fun found => pure (seenOf found)) client
          (asked log.requests) = _
        rw [outcome_bind]
        rfl
  · intro walk gives
    rw [outcome_attempt, made] at gives
    cases required : anchor.required with
    | error failure =>
        rw [required] at gives
        cases gives
        exact inferInstanceAs (Orderly (pure _))
    | ok strong =>
        rw [required] at gives
        cases gives
        change Orderly (Traversal.drain steps _ >>= fun found => pure (seenOf found))
        infer_instance

/-- The first query of a read at an anchor, if that is one. -/
def openingAt (anchor : AnchorArgument) (opening : Anchor → ReadM Query) : ReadM Query := do
  opening (← anchor.required)

theorem outcome_openingAt (anchor : AnchorArgument) (opening : Anchor → ReadM Query)
    [∀ strong, Orderly (opening strong)] :
    outcome (openingAt anchor opening) client log =
      match anchor.required with
      | .error failure => (.error failure, log.requests)
      | .ok strong => outcome (opening strong) client (asked log.requests) := by
  unfold openingAt
  rw [outcome_bind, outcome_lift]
  cases anchor.required <;> rfl

/-- A walk that requires an anchor, and hands out what each page shows. -/
def walkAt (anchor : AnchorArgument) (stream : Json) (opening : Anchor → ReadM Query)
    (view : Page → List α) : ReadM (Traversal α) := do
  let strong ← announce anchor stream
  return Traversal.new (opening strong) (fun page => pure (view page)) stream

/-- A walk that requires an anchor shows the pages of a read from its beginning on, unless nobody
has asked it. -/
theorem exists_fetchesFrom_of_consume (client : Client) (log : Log) (steps : Nat)
    (anchor : AnchorArgument) (stream : Json) (opening : Anchor → ReadM Query)
    [∀ strong, Orderly (opening strong)] (view : Page → List α) :
    outcome (consume steps (walkAt anchor stream opening view)) client log =
        (.ok ([], .working), log.requests) ∨
      ∃ pages ending after got progress,
        FetchesFrom client log (openingAt anchor opening) pages ending after ∧
          outcome (consume steps (walkAt anchor stream opening view)) client log =
            (.ok (got, progress), after) ∧
          ending.Shows (pages.flatMap view) got progress := by
  unfold walkAt
  rw [outcome_consume]
  cases required : anchor.required with
  | error failure =>
      have fails : outcome (openingAt anchor opening) client log =
          (.error failure, log.requests) := by
        rw [outcome_openingAt, required]
      exact Or.inr ⟨[], _, _, [], .failed failure, .unopened fails, rfl, rfl, rfl⟩
  | ok strong =>
      have opens : outcome (openingAt anchor opening) client log =
          outcome (opening strong) client (asked log.requests) := by
        rw [outcome_openingAt, required]
      cases steps with
      | zero => exact Or.inl rfl
      | succ steps =>
          right
          simp only [outcome_drain_new]
          rcases found : outcome (opening strong) client (asked log.requests) with
            ⟨failure | query, between⟩
          · exact ⟨[], _, _, [], .failed failure, .unopened (opens.trans found), rfl, rfl, rfl⟩
          · obtain ⟨batches, ending, after, got, progress, left, fetches, drained, shows⟩ :=
              exists_fetches_of_drain client query.nameJson steps
                (Traversal.new (opening strong) (fun page => pure (view page)) stream) []
                (some ⟨query, 0⟩) between
            obtain ⟨pages, fetchesPages, rfl⟩ := fetches.of_map view
            refine ⟨pages, ending, after, got, progress, .pages (opens.trans found) fetchesPages,
              ?_, shows⟩
            simp only [drained]
            rfl

/-- What a walk that requires an anchor shows when it is no longer working. -/
theorem exists_fetchesFrom_of_told {steps : Nat} {anchor : AnchorArgument} {stream : Json}
    {opening : Anchor → ReadM Query} [∀ strong, Orderly (opening strong)] {view : Page → List α}
    {got : List α} {progress : Progress α} {requests : List LedgerBook.Request}
    (shown : outcome (consume steps (walkAt anchor stream opening view)) client log =
      (.ok (got, progress), requests))
    (told : progress ≠ .working) :
    ∃ pages ending, FetchesFrom client log (openingAt anchor opening) pages ending requests ∧
      ending.Shows (pages.flatMap view) got progress := by
  rcases exists_fetchesFrom_of_consume client log steps anchor stream opening view with
    begins | ⟨pages, ending, after, seen, progressSeen, fetches, same, shows⟩
  · rw [begins] at shown
    cases shown
    exact absurd rfl told
  · rw [shown] at same
    cases same
    exact ⟨pages, ending, fetches, shows⟩

instance (limit : Nat) (map : Json) (anchor : AnchorArgument) (value : Bcs.Reader α)
    (pageSize : Json) : Orderly (readMap limit map anchor value pageSize) := by
  unfold readMap
  infer_instance

end LedgerBook.Book
