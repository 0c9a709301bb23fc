import LedgerBook.Lookup
import LedgerBook.Merge
import LedgerBook.OrderId
import LedgerBook.Traversal
/-!
Reading the order book of a clearing house: one map, one side, or both sides at once.
-/
namespace LedgerBook.Book

open ReadM

/-- A look-up that is part of the first page of a read: its failures are put at that page. -/
def duringFirstPage {α : Type} (lookup : ReadM α) : ReadM α :=
  mapFailure (Failure.tag Failure.isRead 0) lookup

/-- The page size of a read, as a variable of its queries. -/
def firstVariable (pageSize : Json) : ReadM Json :=
  Json.int <$> duringFirstPage (Lookup.pageSize pageSize)

def announce (anchor : AnchorArgument) (stream : Json) : ReadM Anchor := do
  let anchor ← anchor.required
  emit (anchor.event stream)
  return anchor

/-- The query of a map at an anchor, from its first page on. -/
def mapQuery (map : Json) (anchor : Anchor) (pageSize : Json) : ReadM Query := do
  return .ofMap ⟨map, anchor.versionJson, ← firstVariable pageSize, .null⟩

/-- A walk over the entries of a map. Nothing is requested before the consumer asks, the page size
included. -/
def walkMap {α : Type} (map : Json) (anchor : AnchorArgument) (value : Bcs.Reader α)
    (pageSize : Json) (stream : Json) : ReadM (Traversal (Entry α)) := do
  let anchor ← announce anchor stream
  return Traversal.new (mapQuery map anchor pageSize) (fun page => return page.entries value) stream

def walkOrders (map : Json) (anchor : AnchorArgument) (pageSize : Json) (stream : Json) :
    ReadM (Traversal (Entry Order)) :=
  walkMap map anchor Order.read pageSize stream

/-- The stream of a side in events. -/
def streamName (asks : Bool) : Json :=
  .str (if asks then "asks" else "bids")

/-- The query of one side of a clearing house at an anchor, from its first page on. -/
def sideQuery (package clearingHouse : Json) (anchor : Anchor) (asks : Bool) (pageSize : Json) :
    ReadM Query := do
  let first ← firstVariable pageSize
  return .ofClearingHouse (← ClearingHouseQuery.ofSide package clearingHouse asks anchor first)

/-- A walk over the orders of one side of a clearing house. -/
def walkSide (package clearingHouse : Json) (anchor : AnchorArgument) (asks : Bool)
    (pageSize : Json) : ReadM (Traversal (Entry Order)) := do
  let stream := streamName asks
  let anchor ← announce anchor stream
  return Traversal.new (sideQuery package clearingHouse anchor asks pageSize)
    (fun page => return page.entries Order.read) stream

/-- All entries of a map, read before any is handed out; nothing if there are more pages than
allowed. -/
def readMap {α : Type} (limit : Nat) (map : Json) (anchor : AnchorArgument)
    (value : Bcs.Reader α) (pageSize : Json) : ReadM (Option (List (Entry α))) := do
  let anchor ← announce anchor .null
  let pages ← Paging.readAll limit (← mapQuery map anchor pageSize)
  return pages.map fun pages => pages.flatMap (Page.entries value)

/-! ## Both sides -/

/-- What is needed to read both sides of a clearing house. -/
structure Request where
  clearingHouse : Json
  anchor : Anchor
  package : Json
  pageSize : Json

/-- A read of both sides, which requires an anchor. Nothing is requested before the consumer
asks. -/
def request (clearingHouse : Json) (anchor : AnchorArgument) (package pageSize : Json) :
    Except Failure Request := do
  return ⟨clearingHouse, ← anchor.required, package, pageSize⟩

namespace Request

/-- The package of the order book's key types: the one given, else the one that defines the type of
the clearing house. -/
def keyPackage (request : Request) : ReadM Json :=
  if request.package.isNull then
    Json.str <$> duringFirstPage
      (Lookup.packageOf request.clearingHouse (.given request.anchor))
  else return request.package

/-- What happens when the consumer first asks: the look-ups, and the walks over both sides. -/
def sides (request : Request) : ReadM (List (Traversal (Entry Order))) := do
  let package ← request.keyPackage
  let first ← firstVariable request.pageSize
  emit (.note .info "book.traverse.start" .null
    [("ch", .plain request.clearingHouse), ("version", .plain request.anchor.versionJson),
      ("strong", .plain (.bool request.anchor.isStrong))])
  let walk (asks : Bool) :=
    walkSide package request.clearingHouse (.given request.anchor) asks first
  return [← walk true, ← walk false]

/-- The merge of both sides, with the log so far. -/
def merge (request : Request) : ReadM (Merge.State (Traversal (Entry Order)) (Entry Order)) := do
  let sides ← request.sides
  Merge.start sides (some [streamName true, streamName false]) (← get)

end Request

/-- A walk as the source of a merge. -/
def source {α : Type} (client : Client) : Merge.Source (Traversal α) α where
  advance walk log :=
    match walk.step client log with
    | .ok (progress, walk) log => (progress, walk, log)
    | .error failure log => (.failed failure, walk.close, log)
  close := Traversal.close

/-! ## The folded book -/

/-- Sizes by order, in the order in which the orders first came. -/
abbrev Sizes := List (OrderId × Int)

def Sizes.add (sizes : Sizes) (id : OrderId) (size : Int) : Sizes :=
  if sizes.any (·.1 == id) then
    sizes.map fun entry => if entry.1 == id then (id, entry.2 + size) else entry
  else sizes ++ [(id, size)]

structure Folded where
  asks : Sizes
  bids : Sizes
  deriving DecidableEq, Repr

def Folded.add (folded : Folded) (entry : OrderId × Order) : Folded :=
  match OrderId.side entry.1 with
  | .ask => { folded with asks := folded.asks.add entry.1 entry.2.size }
  | .bid => { folded with bids := folded.bids.add entry.1 entry.2.size }

/-- The sizes of all orders of a list, by side. -/
def fold (entries : List (OrderId × Order)) : Folded :=
  entries.foldl Folded.add ⟨[], []⟩

end LedgerBook.Book
