import LedgerBook.Reading
/-!
Merging lazy sequences. Each side has a worker of its own, which takes one item of its source for
every demand of the consumer and puts it into a queue that all sides share. Workers and consumer
take steps in any order; this module says what each step does, and runs them in one order. No step
touches more than one of the things that workers and consumer share: a side's demands, the queue,
and the sign to leave.
-/
namespace LedgerBook.Merge

/-- How a lazy sequence is read: one step, which may add to the log, and what closing does. -/
structure Source (σ α : Type) where
  advance : σ → Log → Progress α × σ × Log
  close : σ → σ

/-- How a sequence comes out, if it ever does. -/
inductive Outcome
  | exhausted
  | failed (failure : Failure)
  deriving Repr

/-- What a worker puts into the queue: an item of its source, or how its source came out. -/
inductive Message (α : Type)
  | item (value : α)
  | last (outcome : Outcome)
  deriving Repr

/-- What a worker is doing. -/
inductive Worker (α : Type)
  /-- It waits for a demand. -/
  | waiting
  /-- It has taken a demand and has not looked yet whether it is told to leave. -/
  | called
  /-- It waits for its source. -/
  | pulling
  /-- It has an answer of its source for the queue. -/
  | putting (message : Message α)
  /-- It has closed its source and left for good. -/
  | gone
  deriving Repr

/-- One side: its name in events, its source, its worker, and the demands not taken yet. -/
structure Side (σ α : Type) where
  label : Json
  source : σ
  worker : Worker α
  demand : Nat

/-- What the consumer is doing. -/
inductive Consumer (α : Type)
  /-- It gives the sides their first demands, the given side next. -/
  | starting (side : Nat)
  /-- It waits for the queue. -/
  | waiting
  /-- It has an item of a side and has not come back for the next. -/
  | holding (side : Nat) (value : α)
  /-- It knows how the merged sequence comes out, and has not told the workers to leave yet. -/
  | leaving (outcome : Outcome)
  /-- It wakes the workers so that they leave, the worker of the given side next, and then waits
  until all are gone. There is no outcome if it left early. -/
  | waking (side : Nat) (outcome : Option Outcome)
  | finished (outcome : Option Outcome)
  deriving Repr

/-- A merge: its sides, the queue, oldest message first, the consumer, the number of sides whose end
the consumer has not seen, whether workers are told to leave, and the log. -/
structure State (σ α : Type) where
  sides : List (Side σ α)
  queue : List (Nat × Message α)
  consumer : Consumer α
  live : Nat
  stopped : Bool
  log : Log

/-- What a step does to the queue. -/
inductive Passage (α : Type)
  | nothing
  | put (entry : Nat × Message α)
  | taken (entry : Nat × Message α)

variable {σ α : Type}

def tell (log : Log) (event : Event) : Log :=
  { log with events := log.events ++ [event] }

def defaultLabels (count : Nat) : List Json :=
  (List.range count).map fun index : Nat => .str ("side-" ++ Text.decimal index)

/-- A merge whose consumer has asked for the first item. There must be a name for every side. -/
def start (sources : List σ) (names : Option (List Json)) (log : Log) :
    Except Failure (State σ α) :=
  let labels := names.getD (defaultLabels sources.length)
  if labels.length = sources.length then
    return {
      sides := (labels.zip sources).map fun side => ⟨side.1, side.2, .waiting, 0⟩
      queue := []
      consumer := if sources.isEmpty then .finished (some .exhausted) else .starting 0
      live := sources.length
      stopped := false
      log }
  else throw .streamNames

/-! ## The workers -/

/-- The message that the answer of a source becomes, if it is one. -/
def Message.ofProgress? : Progress α → Option (Message α)
  | .working => none
  | .item value => some (.item value)
  | .ended => some (.last .exhausted)
  | .failed failure => some (.last (.failed failure))

/-- What a worker does after an answer of its source. -/
def Worker.ofProgress (progress : Progress α) : Worker α :=
  match Message.ofProgress? progress with
  | some message => .putting message
  | none => .pulling

/-- Adds to a log what a worker tells after an answer of its source: failures only. -/
def tellFailure (label : Json) (progress : Progress α) (log : Log) : Log :=
  match progress with
  | .failed failure =>
    tell log (.note .error "merge.side.failed" label [("error", .failed failure)])
  | _ => log

namespace Side

/-- The worker closes its source and leaves. -/
def leave (source : Source σ α) (side : Side σ α) : Side σ α :=
  { side with source := source.close side.source, worker := .gone }

/-- What the worker does after it has put a message into the queue. -/
def afterPut (source : Source σ α) (side : Side σ α) : Message α → Side σ α
  | .item _ => { side with worker := .waiting }
  | .last _ => side.leave source

def isGone (side : Side σ α) : Bool :=
  match side.worker with
  | .gone => true
  | _ => false

/-- One step of the worker, if it can take one: the message that it puts into the queue, the side
after it, and the log. -/
def step (source : Source σ α) (stopped : Bool) (log : Log) (side : Side σ α) :
    Option (Option (Message α) × Side σ α × Log) :=
  match side.worker with
  | .waiting =>
    if side.demand = 0 then none
    else some (none, { side with worker := .called, demand := side.demand - 1 }, log)
  | .called =>
    some (none, if stopped then side.leave source else { side with worker := .pulling }, log)
  | .pulling =>
    match source.advance side.source log with
    | (progress, left, log) =>
      some (none, { side with source := left, worker := .ofProgress progress },
        tellFailure side.label progress log)
  | .putting message => some (some message, side.afterPut source message, log)
  | .gone => none

end Side

/-- One step of a side's worker, if it can take one. -/
def workerStep (source : Source σ α) (index : Nat) (state : State σ α) :
    Option (Passage α × State σ α) := do
  let side ← state.sides[index]?
  match ← side.step source state.stopped state.log with
  | (none, side, log) =>
    return (.nothing, { state with sides := state.sides.set index side, log })
  | (some message, side, log) =>
    return (.put (index, message),
      { state with
        sides := state.sides.set index side
        queue := state.queue ++ [(index, message)]
        log })

/-! ## The consumer -/

namespace State

/-- Gives a side a demand. -/
def release (state : State σ α) (index : Nat) : State σ α :=
  { state with
    sides := state.sides.modify index fun side => { side with demand := side.demand + 1 } }

/-- What the consumer does with a message. The last end and the first failure end its part. -/
def receive (state : State σ α) : Nat × Message α → State σ α
  | (index, .item value) => { state with consumer := .holding index value }
  | (_, .last (.failed failure)) => { state with consumer := .leaving (.failed failure) }
  | (index, .last .exhausted) =>
    let label := (state.sides[index]?.map Side.label).getD .null
    { state with
      log := tell state.log (.note .debug "merge.side.done" label [])
      live := state.live - 1
      consumer := if state.live - 1 = 0 then .leaving .exhausted else .waiting }

end State

/-- One step that the consumer takes by itself, if it can take one. -/
def consumerStep (state : State σ α) : Option (Passage α × State σ α) :=
  match state.consumer with
  | .starting side =>
    let next := if side + 1 < state.sides.length then .starting (side + 1) else .waiting
    some (.nothing, { state.release side with consumer := next })
  | .waiting =>
    match state.queue with
    | [] => none
    | entry :: rest => some (.taken entry, { state with queue := rest }.receive entry)
  | .leaving outcome =>
    some (.nothing, { state with stopped := true, consumer := .waking 0 (some outcome) })
  | .waking side outcome =>
    if side < state.sides.length then
      some (.nothing, { state.release side with consumer := .waking (side + 1) outcome })
    else if state.sides.all Side.isGone then
      some (.nothing, { state with consumer := .finished outcome })
    else none
  | .holding _ _ => none
  | .finished _ => none

/-- The consumer asks for the next item: the side of its last item gets a demand. -/
def request (state : State σ α) : State σ α :=
  match state.consumer with
  | .holding index _ => { state.release index with consumer := .waiting }
  | _ => state

/-- The consumer leaves early, as it can while it has an item. -/
def close (state : State σ α) : State σ α :=
  match state.consumer with
  | .holding _ _ => { state with stopped := true, consumer := .waking 0 none }
  | _ => state

/-! ## Running a merge in one order -/

/-- A step of the first of some workers that can take one. -/
def firstWorkerStep (source : Source σ α) (state : State σ α) :
    List Nat → Option (Passage α × State σ α)
  | [] => none
  | index :: rest => workerStep source index state <|> firstWorkerStep source state rest

/-- A step of the consumer, or of any worker if the consumer can take none. -/
def anyStep (source : Source σ α) (state : State σ α) : Option (Passage α × State σ α) :=
  consumerStep state <|> firstWorkerStep source state (List.range state.sides.length)

/-- Runs workers and consumer until none can take a step, at most as many steps as allowed. -/
def settle (source : Source σ α) : Nat → State σ α → State σ α
  | 0, state => state
  | limit + 1, state =>
    match anyStep source state with
    | some (_, next) => settle source limit next
    | none => state

/-- What the consumer has to show for its request, if it has an answer. -/
def Consumer.answer? : Consumer α → Option (Progress α)
  | .holding _ value => some (.item value)
  | .finished (some (.failed failure)) => some (.failed failure)
  | .finished _ => some .ended
  | _ => none

/-- Runs the merge until the consumer has an answer, at most as many steps as allowed. -/
def await (source : Source σ α) : Nat → State σ α → Progress α × State σ α
  | 0, state => (.working, state)
  | limit + 1, state =>
    match state.consumer.answer? with
    | some answer => (answer, state)
    | none =>
      match anyStep source state with
      | some (_, next) => await source limit next
      | none => (.working, state)

/-- The consumer asks for the next item and waits for it, at most as many steps as allowed. A merge
that is over only ends. -/
def poll (source : Source σ α) (limit : Nat) (state : State σ α) : Progress α × State σ α :=
  match state.consumer with
  | .finished _ => (.ended, state)
  | _ => await source limit (request state)

/-- Asks for a number of items: those that came, and how the last request was answered if it brought
none. -/
def take (source : Source σ α) (limit : Nat) :
    Nat → State σ α → List α × Option (Progress α) × State σ α
  | 0, state => ([], none, state)
  | count + 1, state =>
    match poll source limit state with
    | (.item value, next) =>
      let (values, rest) := take source limit count next
      (value :: values, rest)
    | (answer, next) => ([], some answer, next)

/-- Leaves the merge and lets its workers leave, in at most as many steps as allowed. -/
def shutDown (source : Source σ α) (limit : Nat) (state : State σ α) : State σ α :=
  settle source limit (close state)

end LedgerBook.Merge
