import LedgerBook.Envelope
import LedgerBook.Query
/-!
Reads: programs that send requests one after the other, each after the answer to the one before, and
tell what they do. A read leaves a log of its requests and events, also when it fails. A sequence
that is read lazily comes out step by step.
-/
namespace LedgerBook

/-- The other side of a read. The answer to a request may depend on all requests so far, of which it
is the last. The page size is the one that the client was set up with, null if none. -/
structure Client where
  answer : List Request → Except Failure Envelope
  pageSize : Json

/-- What reads have done: their requests and events, in order. -/
structure Log where
  requests : List Request
  events : List Event
  deriving Repr

def Log.empty : Log := ⟨[], []⟩

/-- A read, with the client it talks to and the log it writes. -/
abbrev ReadM := ReaderT Client (EStateM Failure Log)

namespace ReadM

/-- What a computation without requests gives. -/
def ofExcept {α : Type} : Except Failure α → ReadM α
  | .ok value => pure value
  | .error failure => throw failure

instance : MonadLift (Except Failure) ReadM := ⟨ofExcept⟩

def emit (event : Event) : ReadM Unit :=
  modify fun log => { log with events := log.events ++ [event] }

/-- Sends a request. It is in the log even if no answer comes. -/
def ask (request : Request) : ReadM Envelope := do
  modify fun log => { log with requests := log.requests ++ [request] }
  (← read).answer (← get).requests

def mapFailure {α : Type} (change : Failure → Failure) (program : ReadM α) : ReadM α :=
  fun client log =>
    match program client log with
    | .ok value log => .ok value log
    | .error failure log => .error (change failure) log

/-- A read as a value: its failure becomes a result. -/
def attempt {α : Type} (program : ReadM α) : ReadM (Except Failure α) :=
  fun client log =>
    match program client log with
    | .ok value log => .ok (.ok value) log
    | .error failure log => .ok (.error failure) log

/-- The page of a query. Failures to get an answer are put at the page. -/
def fetch (query : Query) (index : Int) : ReadM Page := do
  let request ← query.request
  let envelope ← mapFailure (Failure.tag Failure.isClient index) (ask request)
  let data ← envelope.required (some index)
  query.decode data index

end ReadM

/-- What one step of a lazy sequence comes to. -/
inductive Progress (α : Type)
  /-- Nothing yet: another step is needed. -/
  | working
  | item (value : α)
  | ended
  | failed (failure : Failure)
  deriving Repr

end LedgerBook
