import LedgerBook.Config
import LedgerBook.Envelope
import LedgerBook.Event.Basic
import LedgerBook.Redaction
/-!
Sending a query over HTTP: the request, and what becomes of the session's answer to it.
-/
namespace LedgerBook.Http

/-- A query with its variables, and the name it has in events, null if none. -/
structure Call where
  document : Text
  arguments : Json
  name : Json

/-- A request of a session. Times are in seconds. -/
structure Post where
  url : Text
  document : Text
  arguments : Json.Members
  headers : Json.Members
  connectTimeout : Binary64
  readTimeout : Binary64

structure Response where
  status : Int
  contentType : Option Text
  body : String

/-- How far into a plain text an HTML page is looked for. -/
def inspectedLength : Nat := 200

/-- Whether an answer is an HTML page: by its content type, or as a plain text that starts like
one. -/
def isHtml (contentType : Option Text) (body : Text) : Bool :=
  let type := Text.lowered (contentType.getD [])
  let start := (Text.lowered body).take inspectedLength
  Text.occursIn "text/html".toList type
    || (Text.occursIn "text/plain".toList type && Text.occursIn "<html".toList start)

/-- What a session makes of a request. -/
inductive Outcome
  | answered (response : Response)
  /-- A failure of the session itself, by its name and text. -/
  | broken (name text : Text)
  /-- A failure that is none of the session's, and passes through. -/
  | interrupted (failure : Failure)

/-- The readings of the clock before and after a request, in seconds. -/
structure Timing where
  start : Binary64
  stop : Binary64

/-- The headers of every request, before those of the caller. -/
def standardHeaders : Json.Members :=
  [("Content-Type", .str "application/json"), ("Accept", .str "application/json")]

/-- The variables of a call, none if they do not count as given. -/
def Call.given (call : Call) : Except Failure Json.Members :=
  match call.arguments.orElse (.obj []) with
  | .obj members => return members
  | _ => throw .noMembers

/-- The request for a call, if its variables can be told. Headers of the caller replace standard
ones of the same name. -/
def Call.post (call : Call) (config : Config) (headers : Json.Members) : Except Failure Post := do
  return {
    url := config.endpoint
    document := call.document
    arguments := ← call.given
    headers := headers.foldl (fun all header => all.put header.1 header.2) standardHeaders
    connectTimeout := config.connectTimeout
    readTimeout := config.requestTimeout }

/-- A step of an exchange: it may tell events and fail. -/
abbrev ExchangeM := EStateM Failure (List Event)

/-- How long an answer may take before it is told to be slow, in milliseconds. -/
def slowAfter : Int := 5000

/-- The whole milliseconds between two readings. -/
def Timing.milliseconds (timing : Timing) : Except Failure Int :=
  (Json.float ((timing.stop.sub timing.start).scale 1000)).toInt

def isSuccess (status : Int) : Bool :=
  200 ≤ status && status < 300

/-- Whether a body is an envelope, by the names of its members. -/
def isEnvelope : Json → Bool
  | .obj members => members.any fun member => member.1 == "errors" || member.1 == "data"
  | _ => false

namespace Call

def tell (call : Call) (level : Level) (message : Text) (details : Json.Members) :
    ExchangeM Unit :=
  let all : Json.Members := ("op", call.name) :: details
  let details : Details := all.map fun detail => (detail.1, .plain detail.2)
  modify (· ++ [.note level message .null details])

/-- What a computation without events gives. -/
def lift {α : Type} : Except Failure α → ExchangeM α
  | .ok value => pure value
  | .error failure => throw failure

def body (call : Call) (response : Response) : ExchangeM Json := do
  match Json.read response.body with
  | .ok payload => return payload
  | .error .tooDeep => throw .tooDeep
  | .error fault =>
    call.tell .error "graphql.bad_body"
      [("status_code", .int response.status), ("body", .str (Text.excerpt response.body))]
    let cause := if isSuccess response.status then ClientFault.unreadable fault
      else .refusedText response.status response.body fault
    throw (.client cause (some response.status) none)

/-- Tells the first error that an answer reports. -/
def tellErrors (call : Call) : List Json → ExchangeM Unit
  | [] => return
  | first :: rest =>
    let message := match first with
      | .obj _ => first.member "message"
      | other => other
    call.tell .warn "graphql.error"
      [("error", .str (Text.excerpt message.text)), ("error_count", .int (rest.length + 1))]

/-- The envelope of an answer. An envelope counts whatever its status is. -/
def envelope (call : Call) (response : Response) (milliseconds : Int) : ExchangeM Envelope := do
  let status : Text × Json := ("status_code", .int response.status)
  let duration : Text × Json := ("duration_ms", .int milliseconds)
  if slowAfter < milliseconds then
    call.tell .warn "graphql.slow_response" [duration, status]
  call.tell .debug "graphql.response" [status, duration]
  if isHtml response.contentType response.body then
    call.tell .error "graphql.html_response" [status]
    throw (.client .htmlPage (some response.status) none)
  let payload ← call.body response
  if !isSuccess response.status && !isEnvelope payload then
    throw (.client (.refused response.status payload) (some response.status) none)
  let envelope ← lift (Envelope.ofJson payload)
  call.tellErrors envelope.errors
  return envelope

def run (call : Call) (outcome : Outcome) (timing : Timing) : ExchangeM Envelope := do
  let arguments ← lift call.given
  call.tell .debug "graphql.request.start"
    [("variables", .obj (Redaction.members Redaction.usualLength arguments))]
  match outcome with
  | .interrupted failure => throw failure
  | .broken name text =>
    call.tell .error "graphql.request.failed" [("error", .str (Text.excerpt text))]
    throw (.client (.session name text) none none)
  | .answered response => call.envelope response (← lift timing.milliseconds)

end Call

end LedgerBook.Http
