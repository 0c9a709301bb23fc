import LedgerBook.Anchor
import LedgerBook.Document
import LedgerBook.FieldName
import LedgerBook.Page
/-!
Queries of pages. The first query of a read may start at a clearing house; the queries that follow
go straight to the map.
-/
namespace LedgerBook

/-- What is sent to the service: the name of the query, its text, and its variables. -/
structure Request where
  document : Document
  arguments : Json.Members
  deriving Repr

/-- A query of the fields of a map. Null stands for what is not asked for. -/
structure MapQuery where
  map : Json
  version : Json
  first : Json
  after : Json
  deriving Repr

/-- A query of the fields of the map of one side, found from its clearing house. -/
structure ClearingHouseQuery where
  clearingHouse : Json
  orderbook : FieldName
  map : FieldName
  version : Json
  first : Json
  after : Json
  deriving Repr

/-- A query of a page. -/
inductive Query
  | ofMap (query : MapQuery)
  | ofClearingHouse (query : ClearingHouseQuery)
  deriving Repr

/-- The query of one side of a clearing house from its first page on. -/
def ClearingHouseQuery.ofSide (package clearingHouse : Json) (asks : Bool) (anchor : Anchor)
    (first : Json) : Except Failure ClearingHouseQuery := do
  let orderbook ← FieldName.orderbook package
  let map ← if asks then FieldName.asksMap package else FieldName.bidsMap package
  return ⟨clearingHouse, orderbook, map, anchor.versionJson, first, .null⟩

namespace Query

def document : Query → Document
  | ofMap _ => .mapOrders
  | ofClearingHouse _ => .clearingHouseOrders

def nameJson (query : Query) : Json :=
  .str query.document.name

/-- The cursor after which a query asks, null if it asks for the first page. -/
def after : Query → Json
  | ofMap query => query.after
  | ofClearingHouse query => query.after

/-- The same query after another cursor. -/
def withAfter (query : Query) (after : Json) : Query :=
  match query with
  | ofMap query => ofMap { query with after }
  | ofClearingHouse query => ofClearingHouse { query with after }

/-- What is sent for a query. Variables that are null are left out. -/
def request : Query → Except Failure Request
  | ofMap query => do
    let map ← Address.canonical query.map
    return ⟨.mapOrders, Json.Members.present
      [("map", .str map), ("chVersion", query.version), ("first", query.first),
        ("after", query.after)]⟩
  | ofClearingHouse query => do
    let clearingHouse ← Address.canonical query.clearingHouse
    return ⟨.clearingHouseOrders, Json.Members.present
      [("ch", .str clearingHouse), ("version", query.version),
        ("orderbook", query.orderbook.toJson), ("mapName", query.map.toJson),
        ("first", query.first), ("after", query.after)]⟩

def decode (query : Query) (data : Json) (page : Int) : Except Failure Page :=
  match query with
  | ofMap _ => Page.ofMapData data page
  | ofClearingHouse _ => Page.ofClearingHouseData data page

def follows (query : Query) (cursor : Text) : Bool :=
  match query.after with
  | .str after => after == cursor
  | _ => false

/-- The query after a page: the same query after the page's cursor. A cursor that is missing, or
that the query followed itself, would not lead on. -/
def next (info : PageInfo) (query : Query) : Except Failure (Option Query) :=
  if info.hasNext then
    match info.endCursor with
    | none => throw (.pagination .missing none)
    | some cursor =>
      if query.follows cursor then throw (.pagination .repeated none)
      else return some (query.withAfter (.str cursor))
  else return none

/-- The query of the map whose address a page tells, with the rest of the query that led to the
page. -/
def narrowed (query : Query) (map : Text) : Except Failure Query :=
  match query with
  | ofClearingHouse query => return ofMap ⟨.str map, query.version, query.first, query.after⟩
  | ofMap _ => throw .noMembers

/-- The query after a page, narrowed to the map if the page tells its address. Failures of the
cursors are put at the page. -/
def continuation (page : Page) (query : Query) (index : Int) : Except Failure (Option Query) :=
  let following := match page.mapAddress with
    | some map => query.narrowed map >>= next page.info
    | none => next page.info query
  following.mapError (Failure.tag Failure.isPagination index)

end Query

end LedgerBook
