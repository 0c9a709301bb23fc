import LedgerBook.Json.Basic
/-!
Variables of a query as they may be told: secrets are replaced and long texts are shortened, in an
object and in the objects inside it. What stands in arrays is told as it is.
-/
namespace LedgerBook.Redaction

/-- The names under which secrets stand, in lower case. -/
def sensitiveNames : List String :=
  ["api_key", "token", "authorization", "auth", "bearer", "apikey"]

/-- Whether a name is that of a secret, in either case. -/
def isSensitive (name : Text) : Bool :=
  sensitiveNames.any (·.toList == Text.lowered name)

/-- What is told instead of a secret. -/
def placeholder : Json := .str "[REDACTED]"

def ellipsis : Text := "..."

/-- A text of more code points than allowed is cut and marked. -/
def shorten (length : Int) (text : Text) : Text :=
  if length < text.length then Text.beginning length text ++ ellipsis else text

/-- The length of texts that are told whole. -/
def usualLength : Int := 80

mutual

/-- A value that is no secret, as it may be told. -/
def value (length : Int) : Json → Json
  | .str text => .str (shorten length text)
  | .obj inner => .obj (members length inner)
  | other => other

/-- The members of an object, as they may be told. -/
def members (length : Int) : Json.Members → Json.Members
  | [] => []
  | (name, inner) :: rest =>
    (name, if isSensitive name then placeholder else value length inner) :: members length rest

end

end LedgerBook.Redaction
