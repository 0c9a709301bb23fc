import LedgerBook.Proofs.Book.Queries
/-!
The lazy walk over a map and the eager read of it agree: they make the same requests, give the same
entries and fail with the same failures.
-/
namespace LedgerBook.Book

open ReadM Paging

variable {α : Type}

/-- The first query of a map at an anchor, if that is one. -/
def firstQuery (map : Json) (anchor : AnchorArgument) (pageSize : Json) : ReadM Query := do
  mapQuery map (← anchor.required) pageSize

instance (map : Json) (anchor : AnchorArgument) (pageSize : Json) :
    Orderly (firstQuery map anchor pageSize) := by
  unfold firstQuery
  infer_instance

section Agreement

variable (client : Client) (log : Log) (map : Json) (anchor : AnchorArgument)
  (value : Bcs.Reader α) (pageSize stream : Json)

/-- The outcome of an eager read of a map. -/
def readOutcome (limit : Nat) : Outcome (Option (List (Entry α))) :=
  outcome (readMap limit map anchor value pageSize) client log

/-- The outcome of a walk over a map. -/
def walkOutcome (steps : Nat) : Outcome (List (Entry α) × Progress (Entry α)) :=
  outcome (consume steps (walkMap map anchor value pageSize stream)) client log

/-- The pages of a map are read: its first query is found and some pages are fetched from it, or
there is no first query and nothing is fetched. -/
inductive Reads : List Page → Ending → List LedgerBook.Request → Prop
  | pages {query : Query} {pages : List Page} {ending : Ending}
      {between after : List LedgerBook.Request} :
      outcome (firstQuery map anchor pageSize) client log = (.ok query, between) →
      Fetches client pure (some ⟨query, 0⟩) between pages ending after →
      Reads pages ending after
  | unopened {failure : Failure} {after : List LedgerBook.Request} :
      outcome (firstQuery map anchor pageSize) client log = (.error failure, after) →
      Reads [] (.failed failure) after

/-- The pages of a map are those of a read that begins with its first query. -/
theorem reads_iff {pages : List Page} {ending : Ending} {after : List LedgerBook.Request} :
    Reads client log map anchor pageSize pages ending after ↔
      FetchesFrom client log (firstQuery map anchor pageSize) pages ending after := by
  constructor
  · intro reads
    cases reads with
    | pages found fetches => exact .pages found fetches
    | unopened fails => exact .unopened fails
  · intro fetches
    cases fetches with
    | pages found fetches => exact .pages found fetches
    | unopened fails => exact .unopened fails

/-! ## The eager read -/

/-- What an eager read gives of some pages. -/
def entriesOf (found : Option (List Page)) : Option (List (Entry α)) :=
  found.map fun pages => pages.flatMap (Page.entries value)

theorem readOutcome_eq (limit : Nat) :
    readOutcome client log map anchor value pageSize limit =
      follow (outcome (firstQuery map anchor pageSize) client log) fun query requests =>
        follow (outcome (pagesFrom query.nameJson limit (some ⟨query, 0⟩)) client (asked requests))
          fun pages requests => (.ok (entriesOf value pages), requests) := by
  unfold readOutcome readMap firstQuery
  rw [outcome_bind, outcome_bind, outcome_announce, outcome_lift]
  cases anchor.required with
  | error failure => rfl
  | ok anchor =>
      simp only [follow_ok, outcome_bind]
      rcases outcome (mapQuery map anchor pageSize) client (asked log.requests) with
        ⟨failure | query, between⟩
      · rfl
      · simp only [follow_ok, outcome_readAll]
        rfl

variable {client log map anchor pageSize}

theorem Reads.readOutcome {pages : List Page} {ending : Ending}
    {after : List LedgerBook.Request}
    (reads : Reads client log map anchor pageSize pages ending after) :
    ∃ limit, readOutcome client log map anchor value pageSize limit =
      ((ending.result pages).map (entriesOf value), after) := by
  cases reads with
  | unopened fails =>
      refine ⟨0, ?_⟩
      rw [readOutcome_eq, fails]
      rfl
  | @pages query pages ending between after found fetches =>
      obtain ⟨limit, within⟩ : ∃ limit, ending.Within pages.length limit := by
        cases ending with
        | complete => exact ⟨pages.length, Nat.le_refl _⟩
        | paused next => exact ⟨pages.length, rfl⟩
        | failed failure => exact ⟨pages.length + 1, Nat.lt_succ_self _⟩
      refine ⟨limit, ?_⟩
      rw [readOutcome_eq, found, follow_ok, fetches.outcome_pagesFrom query.nameJson within]
      cases ending <;> rfl

variable (client log map anchor pageSize)

theorem exists_reads_of_readOutcome (limit : Nat) :
    ∃ pages ending after, Reads client log map anchor pageSize pages ending after ∧
      readOutcome client log map anchor value pageSize limit =
        ((ending.result pages).map (entriesOf value), after) := by
  rcases found : outcome (firstQuery map anchor pageSize) client log with
    ⟨failure | query, between⟩
  · refine ⟨[], .failed failure, between, .unopened found, ?_⟩
    rw [readOutcome_eq, found]
    rfl
  · obtain ⟨pages, ending, after, fetches, within⟩ :=
      exists_fetches client pure limit (some ⟨query, 0⟩) between
    refine ⟨pages, ending, after, .pages found fetches, ?_⟩
    rw [readOutcome_eq, found, follow_ok, fetches.outcome_pagesFrom query.nameJson within]
    cases ending <;> rfl

/-! ## The walk -/

theorem walkOutcome_eq (steps : Nat) :
    walkOutcome client log map anchor value pageSize stream steps =
      match anchor.required with
      | .error failure => (.ok ([], .failed failure), log.requests)
      | .ok strong =>
        follow
          (outcome
            (Traversal.drain steps
              (Traversal.new (mapQuery map strong pageSize)
                (fun page => pure (page.entries value)) stream)) client (asked log.requests))
          fun found requests => (.ok (seenOf found), requests) :=
  outcome_consume steps anchor stream (fun strong => mapQuery map strong pageSize)
    fun page => pure (page.entries value)

theorem outcome_firstQuery :
    outcome (firstQuery map anchor pageSize) client log =
      match anchor.required with
      | .error failure => (.error failure, log.requests)
      | .ok strong => outcome (mapQuery map strong pageSize) client (asked log.requests) :=
  outcome_openingAt anchor fun strong => mapQuery map strong pageSize

variable {client log map anchor pageSize}

theorem Reads.walkOutcome {pages : List Page} {ending : Ending}
    {after : List LedgerBook.Request}
    (reads : Reads client log map anchor pageSize pages ending after) :
    ∃ steps, walkOutcome client log map anchor value pageSize stream steps =
      (.ok (pages.flatMap (Page.entries value), ending.progress), after) := by
  cases required : anchor.required with
  | error failure =>
      refine ⟨0, ?_⟩
      rw [walkOutcome_eq, required]
      cases reads with
      | unopened fails =>
          rw [outcome_firstQuery, required] at fails
          cases fails
          rfl
      | pages found fetches =>
          rw [outcome_firstQuery, required] at found
          cases found
  | ok strong =>
      simp only [walkOutcome_eq, required]
      cases reads with
      | unopened fails =>
          rw [outcome_firstQuery, required] at fails
          refine ⟨1, ?_⟩
          rw [outcome_drain_new]
          simp only [fails]
          rfl
      | pages found fetches =>
          rw [outcome_firstQuery, required] at found
          obtain ⟨bound, drains⟩ :=
            (fetches.map (Page.entries value)).outcome_drain_new stream found
          obtain ⟨left, drained⟩ := drains bound (Nat.le_refl bound) (Or.inr rfl)
          refine ⟨bound, ?_⟩
          rw [drained]
          rfl

variable (client log map anchor pageSize)

theorem exists_reads_of_walkOutcome (steps : Nat) :
    walkOutcome client log map anchor value pageSize stream steps =
        (.ok ([], .working), log.requests) ∨
      ∃ pages ending after got progress,
        Reads client log map anchor pageSize pages ending after ∧
          walkOutcome client log map anchor value pageSize stream steps =
            (.ok (got, progress), after) ∧
          ending.Shows (pages.flatMap (Page.entries value)) got progress := by
  rcases exists_fetchesFrom_of_consume client log steps anchor stream
      (fun strong => mapQuery map strong pageSize) (Page.entries value) with
    begins | ⟨pages, ending, after, got, progress, fetches, shown, shows⟩
  · exact Or.inl begins
  · exact Or.inr ⟨pages, ending, after, got, progress, (reads_iff _ _ _ _ _).mpr fetches, shown, shows⟩

variable {client log map anchor value pageSize stream}

/-- What a walk shows that is no longer working. -/
theorem exists_reads_of_walked {steps : Nat} {got : List (Entry α)} {progress : Progress (Entry α)}
    {requests : List LedgerBook.Request}
    (walks : walkOutcome client log map anchor value pageSize stream steps =
      (.ok (got, progress), requests))
    (told : progress ≠ .working) :
    ∃ pages ending, Reads client log map anchor pageSize pages ending requests ∧
      ending.Shows (pages.flatMap (Page.entries value)) got progress := by
  obtain ⟨pages, ending, fetches, shows⟩ := exists_fetchesFrom_of_told walks told
  exact ⟨pages, ending, (reads_iff _ _ _ _ _).mpr fetches, shows⟩

variable (client log map anchor value pageSize stream)

/-- The lazy walk over a map and the eager read of it agree, whatever the service answers. The walk
makes the requests of the read, in their order, and no others. The read gives some entries exactly
if the walk hands out the same and ends, after the same requests; it fails exactly if the walk fails
with the same failure, after the same requests. What the walk has handed out by then are the entries
of the pages that were fetched before the one that failed. -/
theorem walk_agrees_with_read :
    (∀ limit, ∃ steps,
        (walkOutcome client log map anchor value pageSize stream steps).2 =
          (readOutcome client log map anchor value pageSize limit).2) ∧
      (∀ steps, ∃ limit,
        (walkOutcome client log map anchor value pageSize stream steps).2 <+:
          (readOutcome client log map anchor value pageSize limit).2) ∧
      (∀ found requests,
        (∃ limit, readOutcome client log map anchor value pageSize limit =
            (.ok (some found), requests)) ↔
          ∃ steps, walkOutcome client log map anchor value pageSize stream steps =
            (.ok (found, .ended), requests)) ∧
      (∀ failure requests,
        (∃ limit, readOutcome client log map anchor value pageSize limit =
            (.error failure, requests)) ↔
          ∃ steps handed, walkOutcome client log map anchor value pageSize stream steps =
            (.ok (handed, .failed failure), requests)) ∧
      ∀ steps handed failure requests,
        walkOutcome client log map anchor value pageSize stream steps =
            (.ok (handed, .failed failure), requests) →
          ∃ pages, Reads client log map anchor pageSize pages (.failed failure) requests ∧
            handed = pages.flatMap (Page.entries value) := by
  refine ⟨?_, ?_, ?_, ?_, ?_⟩
  · intro limit
    obtain ⟨pages, ending, after, reads, gives⟩ :=
      exists_reads_of_readOutcome client log map anchor value pageSize limit
    obtain ⟨steps, walks⟩ := reads.walkOutcome value stream
    exact ⟨steps, by rw [gives, walks]⟩
  · intro steps
    rcases exists_reads_of_walkOutcome client log map anchor value pageSize stream steps with
      begins | ⟨pages, ending, after, got, progress, reads, walks, -⟩
    · refine ⟨0, ?_⟩
      rw [begins]
      exact outcome_grows (readMap 0 map anchor value pageSize)
    · obtain ⟨limit, gives⟩ := reads.readOutcome value
      refine ⟨limit, ?_⟩
      have same : (walkOutcome client log map anchor value pageSize stream steps).2 =
          (readOutcome client log map anchor value pageSize limit).2 := by rw [gives, walks]
      exact same ▸ List.prefix_rfl
  · intro found requests
    constructor
    · intro facts
      obtain ⟨limit, gives⟩ := facts
      obtain ⟨pages, ending, after, reads, same⟩ :=
        exists_reads_of_readOutcome client log map anchor value pageSize limit
      rw [gives] at same
      cases ending with
      | complete =>
          cases same
          exact reads.walkOutcome value stream
      | paused next => cases same
      | failed failure => cases same
    · intro facts
      obtain ⟨steps, walks⟩ := facts
      obtain ⟨pages, ending, reads, rfl, rfl⟩ := exists_reads_of_walked walks nofun
      exact reads.readOutcome value
  · intro failure requests
    constructor
    · intro facts
      obtain ⟨limit, fails⟩ := facts
      obtain ⟨pages, ending, after, reads, same⟩ :=
        exists_reads_of_readOutcome client log map anchor value pageSize limit
      rw [fails] at same
      cases ending with
      | complete => cases same
      | paused next => cases same
      | failed other =>
          cases same
          obtain ⟨steps, walks⟩ := reads.walkOutcome value stream
          exact ⟨steps, _, walks⟩
    · intro facts
      obtain ⟨steps, handed, walks⟩ := facts
      obtain ⟨pages, ending, reads, rfl, rfl⟩ := exists_reads_of_walked walks nofun
      exact reads.readOutcome value
  · intro steps handed failure requests walks
    obtain ⟨pages, ending, reads, rfl, rfl⟩ := exists_reads_of_walked walks nofun
    exact ⟨pages, reads, rfl⟩

end Agreement

end LedgerBook.Book
