import LedgerBook.Paging
/-!
Lazy walks over the pages of a query. Each time the consumer asks, a unit of the current page is
handed out; only when there is none left is the next page fetched. A walk takes small steps, each
with at most one request for a page, so that a consumer may stop between any two of them.
-/
namespace LedgerBook

open ReadM

/-- Where a walk stands. -/
inductive Phase (α : Type)
  /-- Nobody has asked yet. -/
  | fresh
  /-- The units of the current page that are left, and the next page, if there is one. -/
  | reading (name : Json) (units : List α) (next : Option Paging.Position)
  | finished
  deriving Repr

/-- A walk: how its first query is found, what the units of a page are, the stream that its events
name, null if none, where it stands, and how many pages it has fetched and units handed out. -/
structure Traversal (α : Type) where
  opening : ReadM Query
  units : Page → Except Failure (List α)
  stream : Json
  phase : Phase α
  pages : Nat
  handed : Nat

namespace Traversal

variable {α : Type}

/-- A walk that nobody has asked anything yet. -/
def new (opening : ReadM Query) (units : Page → Except Failure (List α))
    (stream : Json) : Traversal α :=
  ⟨opening, units, stream, .fresh, 0, 0⟩

/-- A walk over the entries of a query's leaves. -/
def ofQuery (query : Query) (value : Bcs.Reader α) (stream : Json) :
    Traversal (Entry α) :=
  new (pure query) (fun page => return page.entries value) stream

/-- A walk that the consumer has left, or that has failed or ended. -/
def close (walk : Traversal α) : Traversal α :=
  { walk with phase := .finished }

/-- How often progress is told: at the first page and at every page whose count is a multiple. -/
def progressInterval : Nat := 25

/-- Whether progress is told at a page, counted from one. -/
def tellsProgress (pages : Nat) : Bool :=
  pages == 1 || pages % progressInterval == 0

/-- The details of an event: the name of the query and some counts. -/
def details (name : Json) (counts : List (Text × Nat)) : Details :=
  ("op", .plain name) :: counts.map fun count => (count.1, .plain (.int count.2))

def turnPage (walk : Traversal α) (name : Json) (position : Paging.Position) :
    ReadM (Progress α × Traversal α) := do
  match ← attempt (Paging.visit walk.units position) with
  | .error failure => do
    emit (.note .error "traversal.failed" walk.stream
      (details name [("page", position.index), ("units", walk.handed)]
        ++ ([("error", .failed failure)] : Details)))
    return (.failed failure, walk.close)
  | .ok (units, next) => do
    let pages := walk.pages + 1
    if tellsProgress pages then
      emit (.note .debug "traversal.progress" walk.stream
        (details name
          [("page", position.index), ("page_units", units.length), ("units", walk.handed)]))
    return (.working, { walk with phase := .reading name units next, pages })

def step (walk : Traversal α) : ReadM (Progress α × Traversal α) :=
  match walk.phase with
  | .finished => return (.ended, walk)
  | .fresh => do
    match ← attempt walk.opening with
    | .error failure => return (.failed failure, walk.close)
    | .ok query => do
      let name := query.nameJson
      emit (.note .info "traversal.start" walk.stream (details name []))
      return (.working, { walk with phase := .reading name [] (some ⟨query, 0⟩) })
  | .reading name (unit :: rest) next =>
    return (.item unit, { walk with phase := .reading name rest next, handed := walk.handed + 1 })
  | .reading name [] (some position) => turnPage walk name position
  | .reading name [] none => do
    emit (.counting "traversal.units" (.int walk.handed) walk.stream (details name []))
    emit (.note .info "traversal.done" walk.stream
      (details name [("pages", walk.pages), ("units", walk.handed)]))
    return (.ended, walk.close)

/-- Steps until the consumer has an answer, at most as many as allowed. A walk that is still working
then goes on when asked again. -/
def poll : Nat → Traversal α → ReadM (Progress α × Traversal α)
  | 0, walk => return (.working, walk)
  | limit + 1, walk => do
    match ← step walk with
    | (.working, walk) => poll limit walk
    | answer => return answer

/-- Steps to the end of a walk, at most as many as allowed: the units handed out, how the walk
ended, and what is left of it. -/
def drain : Nat → Traversal α → ReadM (List α × Progress α × Traversal α)
  | 0, walk => return ([], .working, walk)
  | limit + 1, walk => do
    match ← step walk with
    | (.working, walk) => drain limit walk
    | (.item unit, walk) => do
      let (units, rest) ← drain limit walk
      return (unit :: units, rest)
    | answer => return ([], answer)

end Traversal

/-- A walk that can be iterated only once. -/
structure SinglePass (α : Type) where
  walk : Traversal α
  iterated : Bool

/-- Begins to iterate; no second time. Nothing is requested by it. -/
def SinglePass.iterate {α : Type} (pass : SinglePass α) : Except Failure (SinglePass α) :=
  if pass.iterated then throw .alreadyIterated else return { pass with iterated := true }

end LedgerBook
