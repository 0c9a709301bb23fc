import LedgerBook.Json.Number
/-!
Answers of the service: the data, which may be missing, and the errors that the answer reports.
-/
namespace LedgerBook

structure Envelope where
  data : Option Json.Members
  errors : List Json
  deriving Repr

namespace Envelope

/-- The envelope of a decoded body, which must be an object whose data is an object or missing.
Whatever a loop can go through counts as a list of errors. -/
def ofJson : Json → Except Failure Envelope
  | .obj members => do
    let data ← match Json.Members.get members "data" with
      | .null => pure none
      | .obj data => pure (some data)
      | other => throw (.client (.dataKind other.kind) none none)
    let errors ← ((Json.Members.get members "errors").orElse (.arr [])).elements
    return ⟨data, errors⟩
  | other => throw (.client (.envelopeKind other.kind) none none)

/-- The data of an answer that reports no errors. -/
def content (envelope : Envelope) (page : Option Int) : Except Failure (Option Json.Members) :=
  if envelope.errors.isEmpty then return envelope.data
  else throw (.server envelope.errors page page)

/-- The data of an answer that reports no errors and has data. -/
def required (envelope : Envelope) (page : Option Int) : Except Failure Json := do
  match ← envelope.content page with
  | some data => return .obj data
  | none => throw (.missingData "data" page)

end Envelope

end LedgerBook
