import LedgerBook.Failure
/-!
Events: small records of what a read does.
-/
namespace LedgerBook

/-- How much an event matters. Senders may use names of their own. -/
inductive Level
  | debug | info | warn | error
  | other (name : Text)
  deriving DecidableEq, Repr

namespace Level

def ofName (name : Text) : Level :=
  if name == "debug" then debug
  else if name == "info" then info
  else if name == "warn" then warn
  else if name == "error" then error
  else other name

def name : Level → Text
  | debug => "debug"
  | info => "info"
  | warn => "warn"
  | error => "error"
  | other name => name

/-- The rank of a level among the levels of a log. A level of another name ranks as information. -/
def rank : Level → Int
  | debug => 10
  | info => 20
  | warn => 30
  | error => 40
  | other _ => 20

end Level

/-- A detail of an event: a value, or a failure, of which an excerpt of its text is shown. -/
inductive Detail
  | plain (value : Json)
  | failed (failure : Failure)
  deriving Repr

def Detail.toJson : Detail → Json
  | plain value => value
  | failed failure => .str (Text.excerpt failure.message)

/-- The details of an event, by name. -/
abbrev Details := List (Text × Detail)

/-- An event. Senders may put any values into it; null stands for a part that is not there. -/
structure Event where
  type : Text
  message : Text
  client : Json
  stream : Json
  count : Json
  level : Level
  details : Details
  deriving Repr

namespace Event

/-- The name under which the readers send events. -/
def readerName : Text := "sui-gql"

def note (level : Level) (message : Text) (stream : Json) (details : Details) : Event :=
  ⟨"message", message, .str readerName, stream, .null, level, details⟩

def counting (message : Text) (count stream : Json) (details : Details) : Event :=
  ⟨"count", message, .str readerName, stream, count, .info, details⟩

end Event

end LedgerBook
