import LedgerBook.Reading
/-!
Reads of a single answer: limits of the service, versions and types of objects, and the addresses of
the parts of an order book.
-/
namespace LedgerBook.Lookup

open ReadM
open Json (Step)

/-- The page size where neither the client nor the service names one. -/
def fallbackPageSize : Int := 50

def content (document : Document) (arguments : Json.Members) : ReadM Json := do
  let envelope ← ask ⟨document, arguments⟩
  envelope.required none

/-- The most entries of a page that the service gives. -/
def serviceLimit : ReadM Int := do
  let data ← content .maxPageSize []
  match data.findD [.member "serviceConfig", .member "maxPageSize"] with
  | .null => do
    emit (.note .debug "page_size.fallback" .null [("page_size", .plain (.int fallbackPageSize))])
    return fallbackPageSize
  | limit => limit.toInt

/-- A page size that was given, which must be above zero before it loses its fraction. -/
def checkedPageSize (given : Json) : Except Failure Int := do
  if ← given.isAtMostZero then throw (.pageSize given)
  given.toInt

/-- The page size of a read: the one given, else the client's, else the service's. -/
def pageSize (given : Json) : ReadM Int := do
  let client ← read
  match if given.isNull then client.pageSize else given with
  | .null => serviceLimit
  | size => checkedPageSize size

/-- The version at which an object stands. -/
def currentVersion (object : Json) : ReadM Int := do
  let address ← Address.canonical object
  let data ← content .objectVersion [("object", .str address)]
  let version ← data.require [.member "object", .member "version"]
  version.toInt

/-- The anchor at the version at which an object stands. -/
def currentAnchor (object : Json) : ReadM Anchor := do
  Anchor.ofJson (.int (← currentVersion object))

/-- The version of an anchor that may be absent, null if there is none. -/
def versionOf : AnchorArgument → Except Failure Json
  | .absent => return .null
  | .given anchor => return anchor.versionJson
  | .notAnchor => throw .noMembers

/-- The type of an object, and the version at which it was read. -/
def typeOf (object : Json) (anchor : AnchorArgument) : ReadM (Text × Int) := do
  let address ← Address.canonical object
  let version ← versionOf anchor
  let data ← content .objectType
    (Json.Members.present [("object", .str address), ("version", version)])
  let found ← data.require [.member "object"]
  let type ← found.require
    [.member "asMoveObject", .variant MoveValue.objectType, .member "contents", .member "type",
      .member "repr"] "data.object"
  let version ← found.require [.member "version"] "data.object"
  return (type.text, ← version.toInt)

/-- What stands before the first separator of the parts of a type. -/
def beforeSeparator : Text → Text
  | .char ':' :: .char ':' :: _ => []
  | first :: rest => first :: beforeSeparator rest
  | [] => []

/-- The package that defines the type of an object. -/
def packageOf (object : Json) (anchor : AnchorArgument) : ReadM Text := do
  let (type, _) ← typeOf object anchor
  Address.canonical (.str (beforeSeparator type))

/-- The addresses of an order book and of its two maps. -/
structure BookParts where
  orderbook : Text
  asks : Text
  bids : Text
  deriving DecidableEq, Repr

/-- The path from the order book of an answer to the address of the map of one side. -/
def sideAddress (side : Text) : List Step :=
  [.member side, .member "value", .variant MoveValue.objectType, .member "address"]

/-- The addresses of the parts of a clearing house's order book. -/
def bookParts (package clearingHouse : Json) (anchor : AnchorArgument) : ReadM BookParts := do
  let address ← Address.canonical clearingHouse
  let version ← versionOf anchor
  let orderbook ← FieldName.orderbook package
  let asks ← FieldName.asksMap package
  let bids ← FieldName.bidsMap package
  let data ← content .orderMaps (Json.Members.present
    [("ch", .str address), ("version", version), ("orderbook", orderbook.toJson),
      ("asks", asks.toJson), ("bids", bids.toJson)])
  let path : List Step :=
    [.member "ch", .member "orderbook", .member "value", .variant MoveValue.objectType]
  let root := Json.pathText "data" path
  let book ← data.require path
  let orderbook ← book.require [.member "address"] root
  let asks ← book.require (sideAddress "asks") root
  let bids ← book.require (sideAddress "bids") root
  return ⟨orderbook.text, asks.text, bids.text⟩

end LedgerBook.Lookup
