import LedgerBook.Reading
/-!
Reading all pages of a query before anything is handed out: all of them, or a failure.
-/
namespace LedgerBook.Paging

open ReadM

/-- The next page of a read: the query for it and its number, counted from zero. -/
structure Position where
  query : Query
  index : Nat
  deriving Repr

/-- Fetches the page at a position, takes what is wanted from it, and finds the position after
it. -/
def visit {β : Type} (view : Page → Except Failure β) (position : Position) :
    ReadM (β × Option Position) := do
  let page ← fetch position.query position.index
  let seen ← view page
  let next ← Query.continuation page position.query position.index
  return (seen, next.map fun query => ⟨query, position.index + 1⟩)

/-- Fetches the pages from a position to the last. Nothing comes of it if they are more than
allowed. Every page but the very first is told, when it and the way to the next are known. -/
def pagesFrom (name : Json) : Nat → Option Position → ReadM (Option (List Page))
  | _, none => return some []
  | 0, some _ => return none
  | limit + 1, some position => do
    let (page, next) ← visit pure position
    if position.index ≠ 0 then
      emit (.note .debug "paging.page.done" .null
        [("op", .plain name), ("page", .plain (.int position.index))])
    let rest ← pagesFrom name limit next
    return rest.map (page :: ·)

/-- Reads all pages of a query; nothing if they are more than allowed. -/
def readAll (limit : Nat) (query : Query) : ReadM (Option (List Page)) := do
  let name := query.nameJson
  emit (.note .debug "paging.start" .null [("op", .plain name)])
  match ← attempt (pagesFrom name limit (some ⟨query, 0⟩)) with
  | .error failure => do
    emit (.note .error "paging.failed" .null
      [("op", .plain name), ("page", .plain (Json.ofOption .int failure.page)),
        ("error", .failed failure)])
    throw failure
  | .ok none => return none
  | .ok (some pages) => do
    emit (.note .info "paging.done" .null
      [("op", .plain name), ("pages", .plain (.int pages.length))])
    return some pages

end LedgerBook.Paging
