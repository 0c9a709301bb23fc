import LedgerBook.Json.Number
import LedgerBook.Leaf
/-!
Pages of the fields of a map: the values in the fields, and whether and how to go on.
-/
namespace LedgerBook

open Json (Step)

/-- What a page tells about the next one. -/
structure PageInfo where
  hasNext : Bool
  endCursor : Option Text
  deriving DecidableEq, Repr

/-- Reads what a page tells about the next one. Any value that counts as given promises a page, and
any value but null is a cursor by its text. -/
def PageInfo.ofJson (value : Json) (root : Text := "pageInfo") (page : Option Int := none) :
    Except Failure PageInfo := do
  let hasNext ← value.require [.member "hasNextPage"] root page
  let cursor := value.member "endCursor"
  return ⟨hasNext.isTruthy, if cursor.isNull then none else some cursor.text⟩

/-- A page of the fields of a map. The first page of a read that starts at a clearing house also
tells the map's address. -/
structure Page where
  nodes : List MoveValue
  info : PageInfo
  mapAddress : Option Text
  deriving DecidableEq, Repr

namespace Page

/-- The entries of all leaves of a page, in the order of the page. -/
def entries {α : Type} (value : Bcs.Reader α) (page : Page) : List (Entry α) :=
  page.nodes.flatMap (Leaf.entries value)

/-- The values in the fields of a page. Fields with other values are passed over. -/
def nodesOfJson (fields : List Json) : Except Failure (List MoveValue) := do
  let nodes ← fields.mapM fun field => MoveValue.ofJson? (field.findD [.member "map_df"])
  return nodes.filterMap id

/-- Reads a page that stands at a known path. -/
def ofConnection (connection : Json) (root : Text) (page : Int) (mapAddress : Option Text) :
    Except Failure Page := do
  let nodes ← connection.require [.member "nodes"] root (some page)
  let info ← connection.require [.member "pageInfo"] root (some page)
  let info ← PageInfo.ofJson info (root ++ ".pageInfo") (some page)
  return ⟨← nodesOfJson (← nodes.elements), info, mapAddress⟩

/-- The path from an answer's data to the page of a map. -/
def mapPath : List Step :=
  [.member "map", .member "map_dfs"]

/-- Reads the answer to a query of a map. -/
def ofMapData (data : Json) (page : Int) : Except Failure Page := do
  let connection ← data.require mapPath "data" (some page)
  ofConnection connection (Json.pathText "data" mapPath) page none

/-- The path from an answer's data to the map of one side of a clearing house. -/
def sidePath : List Step :=
  [.member "clearing_house", .member "orderbook_dof", .member "orderbook",
    .variant MoveValue.objectType, .member "map_dof", .member "map",
    .variant MoveValue.objectType]

/-- Reads the answer to a query of a clearing house. -/
def ofClearingHouseData (data : Json) (page : Int) : Except Failure Page := do
  let root := Json.pathText "data" sidePath
  let map ← data.require sidePath "data" (some page)
  let address ← map.require [.member "address"] root (some page)
  let connection ← map.require [.member "map_dfs"] root (some page)
  ofConnection connection (root ++ ".map_dfs") page (some address.text)

end Page

end LedgerBook
