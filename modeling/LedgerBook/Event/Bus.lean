import LedgerBook.Event.Basic
/-!
The bus that carries events to one sink. A block may put another sink in its place for a while; when
the block ends, the sink before it is back. A sink that fails disturbs nobody.
-/
namespace LedgerBook

namespace Event

/-- The details that a line of a log shows: those of the event, its stream if it names one, and its
count if it has one. -/
def lineDetails (event : Event) : Json.Members :=
  let details : Json.Members := event.details.map fun detail => (detail.1, detail.2.toJson)
  let details :=
    if event.stream.isTruthy then details.put "stream" event.stream else details
  if event.count.isNull then details else details.put "count" event.count

def line (event : Event) : Text :=
  event.message ++ " "
    ++ Text.join " "
      (event.lineDetails.map fun detail => detail.1 ++ "=" ++ detail.2.text)

end Event

/-- What a sink keeps of an event: the event itself, or a line of a log with its rank. -/
inductive Record
  | event (event : Event)
  | line (rank : Int) (text : Text)

/-- A sink, by its name and what it does with an event after the events that it was handed before:
it keeps something, or it fails. -/
structure Sink where
  name : Text
  receive : List Event → Event → Except Failure (List Record)

namespace Sink

/-- A sink that keeps every event. -/
def keeping (name : Text) : Sink :=
  ⟨name, fun _ event => return [.event event]⟩

/-- A sink that writes events to a log, which drops lower ranks than the given one. -/
def writing (name : Text) (least : Int) : Sink :=
  ⟨name, fun _ event =>
    return if least ≤ event.level.rank then [.line event.level.rank event.line] else []⟩

/-- A sink that fails at every event. -/
def broken (name : Text) (failure : Failure) : Sink :=
  ⟨name, fun _ _ => throw failure⟩

end Sink

/-- The bus: the sink in place, the sinks that are back when the blocks around end, the events that
were handed to sinks, and what the sinks have kept, each with the name of the sink. -/
structure Bus where
  sink : Option Sink
  outer : List (Option Sink)
  handed : List (Text × Event)
  kept : List (Text × Record)

namespace Bus

def empty : Bus := ⟨none, [], [], []⟩

/-- The part of a list that belongs to a name. -/
def select {α : Type} (name : Text) (all : List (Text × α)) : List α :=
  (all.filter (·.1 == name)).map (·.2)

/-- Puts a sink in place of the one before it. -/
def install (bus : Bus) (sink : Option Sink) : Bus :=
  { bus with sink }

/-- Begins a block with a sink of its own. -/
def enter (bus : Bus) (sink : Option Sink) : Bus :=
  { bus with sink, outer := bus.sink :: bus.outer }

/-- Ends the innermost block, if there is one. -/
def leave (bus : Bus) : Except Failure Bus :=
  match bus.outer with
  | [] => throw .noBlock
  | sink :: outer => return { bus with sink, outer }

/-- Runs a body in a block with a sink of its own. The block ends however the body ends. -/
def within {α : Type} (bus : Bus) (sink : Option Sink) (body : Bus → Except Failure α × Bus) :
    Except Failure α × Bus :=
  let (result, after) := body (bus.enter sink)
  match after.leave with
  | .ok left => (result, left)
  | .error failure => (.error failure, after)

/-- Hands an event to a sink. Without a sink it is dropped, and if the sink fails nobody learns of
it: a broken sink must not fail the read that reports to it. -/
def hand (bus : Bus) (sink : Option Sink) (event : Event) : Bus :=
  match sink with
  | none => bus
  | some sink =>
    let after := { bus with handed := bus.handed ++ [(sink.name, event)] }
    match sink.receive (select sink.name bus.handed) event with
    | .ok records => { after with kept := bus.kept ++ records.map (sink.name, ·) }
    | .error _ => after

/-- Sends an event to the sink in place. -/
def emit (bus : Bus) (event : Event) : Bus :=
  bus.hand bus.sink event

end Bus

end LedgerBook
