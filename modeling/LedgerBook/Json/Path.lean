import LedgerBook.Failure
/-!
Walks into a value: the required walk, which reports the first step that leads nowhere, and the
optional walk, which falls back to another value.
-/
namespace LedgerBook.Json

/-- A step into a value. -/
inductive Step
  /-- To a member of an object. -/
  | member (name : Text)
  /-- To an item of an array. -/
  | item (index : Int)
  /-- To one of the first two items: a truth value counts as zero or one. -/
  | flag (second : Bool)
  /-- To the value itself, if it is an object of the named type. -/
  | variant (typename : Text)
  /-- Into nothing: a value of another kind, by its text, leads nowhere. -/
  | nowhere (text : Text)
  deriving DecidableEq, Repr

/-- A step as it stands in the text of a path. -/
def Step.text : Step → Text
  | .member name => name
  | .item index => Text.decimal index
  | .flag second => boolName second
  | .variant typename => "as_variant(" ++ typename ++ ")"
  | .nowhere text => text

/-- The name of the member that names the type of an object. -/
def typeMember : Text := "__typename"

/-- Whether a value is an object of the named type. -/
def hasType (value : Json) (typename : Text) : Bool :=
  match value.member typeMember with
  | str name => name == typename
  | _ => false

/-- The item of an array at an index counted from zero, null for everything else. -/
def item (value : Json) (index : Int) : Json :=
  match value, index with
  | arr items, .ofNat index => items[index]?.getD null
  | _, _ => null

/-- The value that a step leads to, null if it leads nowhere. -/
def follow (value : Json) : Step → Json
  | .member name => value.member name
  | .item index => value.item index
  | .flag second => value.item (if second then 1 else 0)
  | .variant typename => if value.hasType typename then value else null
  | .nowhere _ => null

/-- The text of a path that starts at a named root. -/
def pathText (root : Text) (path : List Step) : Text :=
  Text.join "." (root :: path.map Step.text)

/-- The required walk from a value at a known path: every step must lead to a value, and a failure
carries the path up to the step that did not. -/
def requireFrom (page : Option Int) : Text → Json → List Step → Except Failure Json
  | _, value, [] => return value
  | trail, value, step :: rest =>
    let trail := trail ++ "." ++ step.text
    let next := value.follow step
    if next.isNull then throw (.missingData trail page) else requireFrom page trail next rest

/-- The required walk: the value at the end of a path, which must exist at the root already. -/
def require (value : Json) (path : List Step) (root : Text := "data") (page : Option Int := none) :
    Except Failure Json :=
  if value.isNull then throw (.missingData root page) else requireFrom page root value path

/-- The optional walk: the value at the end of a path, or the fallback if there is none. -/
def findD (value : Json) (path : List Step) (fallback : Json := null) : Json :=
  let last := path.foldl follow value
  if last.isNull then fallback else last

end LedgerBook.Json
