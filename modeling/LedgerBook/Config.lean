import LedgerBook.Json.Pairs
import LedgerBook.Text.Blank
/-!
The settings of a client, from the environment and from values given in its place.
-/
namespace LedgerBook

/-- The settings of a client. Times are in seconds. Without a page size the service is asked for its
limit. -/
structure Config where
  endpoint : Text
  pageSize : Option Int
  requestTimeout : Binary64
  connectTimeout : Binary64
  retries : Int
  deriving DecidableEq, Repr

/-- The variables of the environment, by name. -/
abbrev Environment := Text → Option Text

namespace Environment

/-- Whether a text can be kept as bytes: of all halves only those can, from U+DC80 to U+DCFF, that
stand for bytes themselves. -/
def isStorable (text : Text) : Bool :=
  text.all fun point => point.char?.isSome || (0xDC80 ≤ point.number && point.number < 0xDD00)

/-- The text of a variable, nothing for null. A text with the character zero cannot be kept. -/
def text? : Json → Except Failure (Option Text)
  | .null => return none
  | .str text =>
    if !isStorable text then throw .notUtf8
    else if text.any (·.number == 0) then throw .holdsZero
    else return some text
  | _ => throw .wrongKind

/-- The environment in which the members of an object are set and no other variables are. -/
def ofJson (given : Json) : Except Failure Environment :=
  match given.orElse (.obj []) with
  | .obj members => do
    let texts ← members.mapM fun member => return (member.1, ← text? member.2)
    return fun name => (texts.lookup name).join
  | _ => throw .noMembers

/-- The positive integer that a variable denotes, if it denotes one. -/
def positive? (environment : Environment) (name : Text) : Option Int :=
  match Numeral.integer? (Text.strip ((environment name).getD [])) with
  | some value => if 0 < value then some value else none
  | none => none

/-- The positive integer that a variable denotes, else the default. -/
def positive (environment : Environment) (name : Text) (default : Int) : Json :=
  .int ((environment.positive? name).getD default)

end Environment

namespace Config

/-- The address of the service where no other is given. -/
def defaultEndpoint : Text := "https://sui-mainnet.mystenlabs.com/graphql"

/-- The address of the service: the first one given, without blanks around it, unless it is
blank. -/
def endpointOf (overrides : Json.Members) (environment : Environment) : Text :=
  let given := (((overrides.get "endpoint").orElse (overrides.get "url")).orElse
    (Json.ofOption .str (environment "SUI_GQL_URL"))).orElse (.str defaultEndpoint)
  let endpoint := Text.strip given.text
  if endpoint.isEmpty then defaultEndpoint else endpoint

/-- The page size: the one given, else that of the environment, if there is one. -/
def pageSizeOf (overrides : Json.Members) (environment : Environment) :
    Except Failure (Option Int) := do
  match overrides.get "page_size" with
  | .null => return environment.positive? "SUI_GQL_PAGE_SIZE"
  | given => return some (← given.toInt)

/-- A number given under a name, else the positive integer of a variable, else the default. -/
def setting (overrides : Json.Members) (environment : Environment) (name source : Text)
    (default : Int) : Json :=
  (overrides.get name).orElse (environment.positive source default)

/-- The settings from the environment and from members, which come first. -/
def load (environment : Environment) (overrides : Json) : Except Failure Config := do
  let overrides ← overrides.toMembers
  let setting := setting overrides environment
  let pageSize ← pageSizeOf overrides environment
  let requestTimeout ←
    (setting "request_timeout_s" "SUI_GQL_REQUEST_TIMEOUT_S" 60).toBinary64
  let connectTimeout ←
    (setting "request_connect_timeout_s" "SUI_GQL_CONNECT_TIMEOUT_S" 10).toBinary64
  let retries ← (setting "request_retries" "SUI_GQL_HTTP_RETRIES" 0).toInt
  return ⟨endpointOf overrides environment, pageSize, requestTimeout, connectTimeout, retries⟩

end Config

end LedgerBook
