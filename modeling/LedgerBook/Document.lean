/-!
The queries that the readers send, and their texts.
-/
namespace LedgerBook

/-- A line of a query: a field or fragment with what it selects, or selections that are laid out at
a depth of their own because several queries share them. -/
inductive Selection
  | field (line : String) (inner : List Selection)
  | shared (depth : Nat) (inner : List Selection)

namespace Selection

/-- The start of a line at a depth of two spaces each. -/
def indent (depth : Nat) : String :=
  String.ofList (List.replicate (2 * depth) ' ')

mutual

def lines (depth : Nat) : Selection → List String
  | field line [] => [indent depth ++ line]
  | field line inner =>
    (indent depth ++ line ++ " \x7b") :: allLines (depth + 1) inner ++ [indent depth ++ "\x7d"]
  | shared own inner => allLines own inner

def allLines (depth : Nat) : List Selection → List String
  | [] => []
  | first :: rest => lines depth first ++ allLines depth rest

end

def leaf (line : String) : Selection :=
  field line []

/-- The name of a value's type. -/
def typename : Selection :=
  leaf "__typename"

/-- The part of a value that only objects have. -/
def ofObject (inner : List Selection) : Selection :=
  field "... on MoveObject" inner

/-- The part of a page that tells whether and how to go on. -/
def pageInfo : Selection :=
  shared 5 [field "pageInfo" [leaf "hasNextPage", leaf "endCursor"]]

/-- The part of a field's value that holds its type and payload. -/
def fieldValue : Selection :=
  shared 7 [typename, field "... on MoveValue" [field "type" [leaf "repr"], leaf "bcs"]]

def fieldPage : Selection :=
  field "map_dfs: dynamicFields(first: $first, after: $after)"
    [field "nodes" [field "map_df: value" [fieldValue]], pageInfo]

end Selection

inductive Document
  | maxPageSize
  | objectVersion
  | objectType
  | mapOrders
  | clearingHouseOrders
  | orderMaps
  deriving DecidableEq, Repr

namespace Document

open Selection

/-- The name under which a query is sent. -/
def name : Document → String
  | maxPageSize => "max_page_size"
  | objectVersion => "object_version"
  | objectType => "object_type"
  | mapOrders => "map_orders"
  | clearingHouseOrders => "clearing_house_orders"
  | orderMaps => "order_maps"

def all : List Document :=
  [maxPageSize, objectVersion, objectType, mapOrders, clearingHouseOrders, orderMaps]

/-- The first line of a query: its name with its parameters. Many parameters stand on lines of their
own, without commas. -/
def heading : Document → List String
  | maxPageSize => ["query Limits"]
  | objectVersion => ["query ObjectVersion($object: SuiAddress!)"]
  | objectType => ["query ObjectType($object: SuiAddress!, $version: UInt53)"]
  | mapOrders =>
    ["query MapOrders($map: SuiAddress!, $chVersion: UInt53, $first: Int, $after: String)"]
  | clearingHouseOrders =>
    ["query ClearingHouseOrders(", "  $ch: SuiAddress!", "  $version: UInt53",
      "  $orderbook: DynamicFieldName!", "  $mapName: DynamicFieldName!", "  $first: Int",
      "  $after: String", ")"]
  | orderMaps =>
    ["query OrderMaps(", "  $ch: SuiAddress!", "  $version: UInt53",
      "  $orderbook: DynamicFieldName!", "  $asks: DynamicFieldName!",
      "  $bids: DynamicFieldName!", ")"]

/-- The address of the map of one side, as a field of the order book. -/
def sideAddress (side : String) : Selection :=
  field (side ++ ": dynamicObjectField(name: $" ++ side ++ ")")
    [field "value" [typename, ofObject [leaf "address"]]]

def selection : Document → Selection
  | maxPageSize => field "serviceConfig" [leaf "maxPageSize"]
  | objectVersion => field "object(address: $object)" [leaf "version"]
  | objectType =>
    field "object(address: $object, version: $version)"
      [leaf "version",
        field "asMoveObject" [typename, field "contents" [field "type" [leaf "repr"]]]]
  | mapOrders => field "map: owner(address: $map, rootVersion: $chVersion)" [fieldPage]
  | clearingHouseOrders =>
    field "clearing_house: object(address: $ch, version: $version)"
      [field "orderbook_dof: dynamicObjectField(name: $orderbook)"
        [field "orderbook: value"
          [typename, ofObject
            [field "map_dof: dynamicObjectField(name: $mapName)"
              [field "map: value" [typename, ofObject [leaf "address", fieldPage]]]]]]]
  | orderMaps =>
    field "ch: object(address: $ch, version: $version)"
      [field "orderbook: dynamicObjectField(name: $orderbook)"
        [field "value"
          [typename, ofObject [leaf "address", sideAddress "asks", sideAddress "bids"]]]]

/-- The lines of a query. The braces of the whole query open behind the last line of its heading. -/
def lines (document : Document) : List String :=
  let heading := document.heading
  heading.dropLast ++ [heading.getLast?.getD "" ++ " \x7b"]
    ++ Selection.lines 1 document.selection ++ ["\x7d"]

/-- The text of a query, an empty line and then its lines. -/
def text (document : Document) : String :=
  "\n" ++ String.join (document.lines.map (· ++ "\n"))

end Document

end LedgerBook
