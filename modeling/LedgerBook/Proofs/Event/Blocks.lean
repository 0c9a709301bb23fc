import LedgerBook.Event.Bus
import Mathlib.Data.List.Basic
/-!
Programs that send events from blocks with sinks of their own. The bus has one place for a sink,
which blocks fill and restore; the text of a program alone says which block is the innermost around
each event. Both agree on every run, however it ends, and no run depends on what the sinks do.
-/
namespace LedgerBook

namespace Event

/-! ## Programs -/

/-- A program that sends events. A value may decide how a sequence goes on, and a failure how a
program recovers. -/
inductive Program
  | give (value : Json)
  | raise (failure : Failure)
  | emit (event : Event)
  | block (sink : Option Sink) (body : Program)
  | andThen (first : Program) (rest : Json → Program)
  | recover (body : Program) (handler : Failure → Program)

/-- Events with the sinks that they are meant for, if there is a sink. -/
abbrev Sendings := List (Option Sink × Event)

namespace Program

/-- Runs a program on a bus. Emitting an event gives null. -/
def run : Program → Bus → Except Failure Json × Bus
  | give value, bus => (.ok value, bus)
  | raise failure, bus => (.error failure, bus)
  | emit event, bus => (.ok .null, bus.emit event)
  | block sink body, bus => bus.within sink body.run
  | andThen first rest, bus =>
    match first.run bus with
    | (.ok value, after) => (rest value).run after
    | (.error failure, after) => (.error failure, after)
  | recover body handler, bus =>
    match body.run bus with
    | (.ok value, after) => (.ok value, after)
    | (.error failure, after) => (handler failure).run after

/-- How a program ends. No sink has a part in it. -/
def result : Program → Except Failure Json
  | give value => .ok value
  | raise failure => .error failure
  | emit _ => .ok .null
  | block _ body => body.result
  | andThen first rest =>
    match first.result with
    | .ok value => (rest value).result
    | .error failure => .error failure
  | recover body handler =>
    match body.result with
    | .ok value => .ok value
    | .error failure => (handler failure).result

/-- What a program sends, in order: each event that it comes to, with the sink of the innermost
block around it. Outside of all blocks that is the sink around the program. -/
def sends (around : Option Sink) : Program → Sendings
  | give _ => []
  | raise _ => []
  | emit event => [(around, event)]
  | block sink body => body.sends sink
  | andThen first rest =>
    first.sends around ++
      match first.result with
      | .ok value => (rest value).sends around
      | .error _ => []
  | recover body handler =>
    body.sends around ++
      match body.result with
      | .ok _ => []
      | .error failure => (handler failure).sends around

/-- The same program with other sinks in its blocks. -/
def mapSinks (change : Sink → Sink) : Program → Program
  | give value => give value
  | raise failure => raise failure
  | emit event => emit event
  | block sink body => block (sink.map change) (body.mapSinks change)
  | andThen first rest => andThen (first.mapSinks change) fun value => (rest value).mapSinks change
  | recover body handler =>
    recover (body.mapSinks change) fun failure => (handler failure).mapSinks change

end Program

/-- The events that are handed to sinks, with the names of the sinks. -/
def handings (sendings : Sendings) : List (Text × Event) :=
  sendings.filterMap fun sending => sending.1.map fun sink => (sink.name, sending.2)

end Event

open Event (Program Sendings handings)

namespace Sink

variable {name : Text} {fails : List Event → Event → Option Failure}

/-- A sink of the given name fails at some of its events, which may depend on those before; at
others it does what it did. The other sinks are left alone. -/
def failing (name : Text) (fails : List Event → Event → Option Failure) (sink : Sink) : Sink :=
  if sink.name = name then
    { sink with receive := fun before event =>
        match fails before event with
        | some failure => .error failure
        | none => sink.receive before event }
  else sink

theorem name_failing (sink : Sink) : (sink.failing name fails).name = sink.name := by
  unfold failing
  split <;> rfl

theorem failing_of_ne {sink : Sink} (different : sink.name ≠ name) :
    sink.failing name fails = sink :=
  if_neg different

end Sink

namespace Bus

variable {bus other : Bus} {sink : Option Sink} {outer : List (Option Sink)} {event : Event}
  {sendings : Sendings} {name : Text}

/-! ## Handing events to sinks -/

/-- What a sink keeps of the next event. -/
def keeps (bus : Bus) (receiver : Sink) (event : Event) : List Record :=
  match receiver.receive (select receiver.name bus.handed) event with
  | .ok records => records
  | .error _ => []

/-- An event that is handed to a sink is noted, and what the sink keeps of it is added. -/
theorem hand_some (receiver : Sink) :
    bus.hand (some receiver) event =
      { bus with
        handed := bus.handed ++ [(receiver.name, event)]
        kept := bus.kept ++ (bus.keeps receiver event).map (receiver.name, ·) } := by
  cases received : receiver.receive (select receiver.name bus.handed) event with
  | ok records => simp only [hand, keeps, received]
  | error failure => simp only [hand, keeps, received, List.map_nil, List.append_nil]

/-- Hands events to the sinks that they are meant for. -/
def handAll (bus : Bus) (sendings : Sendings) : Bus :=
  sendings.foldl (fun bus sending => bus.hand sending.1 sending.2) bus

/-- The bus with the sinks in place of another one. -/
def placed (bus : Bus) (sink : Option Sink) (outer : List (Option Sink)) : Bus :=
  { bus with sink, outer }

theorem hand_placed (receiver : Option Sink) :
    (bus.placed sink outer).hand receiver event = (bus.hand receiver event).placed sink outer := by
  cases receiver with
  | none => rfl
  | some receiver =>
      rw [hand_some, hand_some]
      rfl

theorem handAll_placed (sendings : Sendings) :
    (bus.placed sink outer).handAll sendings = (bus.handAll sendings).placed sink outer := by
  induction sendings generalizing bus with
  | nil => rfl
  | cons sending rest inductionHypothesis =>
      simp only [handAll, List.foldl_cons, hand_placed]
      exact inductionHypothesis

theorem placed_self (bus : Bus) : bus.placed bus.sink bus.outer = bus :=
  rfl

theorem sink_handAll (bus : Bus) (sendings : Sendings) :
    (bus.handAll sendings).sink = bus.sink := by
  rw [← placed_self bus, handAll_placed]
  rfl

theorem outer_handAll (bus : Bus) (sendings : Sendings) :
    (bus.handAll sendings).outer = bus.outer := by
  rw [← placed_self bus, handAll_placed]
  rfl

theorem handAll_append (bus : Bus) (sendings others : Sendings) :
    bus.handAll (sendings ++ others) = (bus.handAll sendings).handAll others :=
  List.foldl_append

theorem handed_hand (receiver : Option Sink) :
    (bus.hand receiver event).handed = bus.handed ++ handings [(receiver, event)] := by
  cases receiver with
  | none => exact (List.append_nil _).symm
  | some receiver =>
      rw [hand_some]
      rfl

theorem handings_cons (sending : Option Sink × Event) (rest : Sendings) :
    handings (sending :: rest) = handings [sending] ++ handings rest := by
  rw [handings, ← List.singleton_append, List.filterMap_append]
  rfl

theorem handed_handAll (bus : Bus) (sendings : Sendings) :
    (bus.handAll sendings).handed = bus.handed ++ handings sendings := by
  induction sendings generalizing bus with
  | nil => exact (List.append_nil _).symm
  | cons sending rest inductionHypothesis =>
      rw [handings_cons, ← List.append_assoc, ← handed_hand]
      exact inductionHypothesis (bus.hand sending.1 sending.2)

/-! ## What sinks keep -/

theorem select_append {α : Type} (name : Text) (all others : List (Text × α)) :
    select name (all ++ others) = select name all ++ select name others := by
  rw [select, List.filter_append, List.map_append]
  rfl

theorem select_own {α : Type} (name : Text) (items : List α) :
    select name (items.map (name, ·)) = items := by
  simp [select, List.filter_map, Function.comp_def]

theorem select_other {α : Type} {owner : Text} (different : owner ≠ name) (items : List α) :
    select name (items.map (owner, ·)) = [] := by
  simp [select, List.filter_map, Function.comp_def, different]

theorem select_kept_hand_self (receiver : Sink) :
    select receiver.name (bus.hand (some receiver) event).kept =
      select receiver.name bus.kept ++ bus.keeps receiver event := by
  rw [hand_some, select_append, select_own]

theorem select_kept_hand_of_ne {receiver : Sink} (different : receiver.name ≠ name) :
    select name (bus.hand (some receiver) event).kept = select name bus.kept := by
  rw [hand_some, select_append, select_other different, List.append_nil]

/-- A sink that keeps every event has kept what it was handed. -/
theorem kept_handAll_of_keeping (bus : Bus)
    (keeping : ∀ sending ∈ sendings, ∀ sink ∈ sending.1, sink.name = name →
      sink = .keeping name) :
    select name (bus.handAll sendings).kept =
      select name bus.kept ++ (select name (handings sendings)).map .event := by
  induction sendings generalizing bus with
  | nil => exact (List.append_nil _).symm
  | cons sending rest inductionHypothesis =>
      obtain ⟨first, others⟩ := List.forall_mem_cons.mp keeping
      obtain ⟨receiver, event⟩ := sending
      have one : select name (bus.hand receiver event).kept =
          select name bus.kept ++ (select name (handings [(receiver, event)])).map .event := by
        cases receiver with
        | none => exact (List.append_nil _).symm
        | some receiver =>
            by_cases own : receiver.name = name
            · obtain rfl := first receiver rfl own
              have handed : select name (handings [(some (.keeping name), event)]) = [event] :=
                select_own name [event]
              rw [handed]
              exact select_kept_hand_self (.keeping name)
            · have handed : select name (handings [(some receiver, event)]) = [] :=
                select_other own [event]
              rw [handed, select_kept_hand_of_ne own]
              exact (List.append_nil _).symm
      rw [handings_cons, select_append, List.map_append, ← List.append_assoc, ← one]
      exact inductionHypothesis (bus.hand receiver event) others

/-! ## Another sink of one name -/

/-- Two buses have handed out the same events, and what sinks have kept is the same but for those of
one name. -/
structure AgreeBeside (name : Text) (bus other : Bus) : Prop where
  handed : bus.handed = other.handed
  kept : ∀ owner ≠ name, select owner bus.kept = select owner other.kept

/-- They still do when an event has been handed to a sink that may fail in one of them. -/
theorem AgreeBeside.hand (agree : AgreeBeside name bus other)
    (fails : List Event → Event → Option Failure) (receiver : Option Sink) :
    AgreeBeside name (bus.hand (receiver.map (Sink.failing name fails)) event)
      (other.hand receiver event) := by
  cases receiver with
  | none => exact agree
  | some receiver =>
      constructor
      · have sameHanding : handings [(some (receiver.failing name fails), event)] =
            handings [(some receiver, event)] :=
          congrArg (fun owner => [(owner, event)]) receiver.name_failing
        rw [Option.map_some, handed_hand, handed_hand, agree.handed, sameHanding]
      · intro owner different
        rw [Option.map_some]
        by_cases own : receiver.name = owner
        · subst own
          -- This sink is left alone, and it was handed the same events before.
          have same : bus.keeps receiver event = other.keeps receiver event := by
            rw [keeps, keeps, agree.handed]
          rw [Sink.failing_of_ne different, select_kept_hand_self, select_kept_hand_self,
            agree.kept _ different, same]
        · have apart : (receiver.failing name fails).name ≠ owner := by
            rwa [receiver.name_failing]
          rw [select_kept_hand_of_ne apart, select_kept_hand_of_ne own]
          exact agree.kept owner different

theorem AgreeBeside.handAll (agree : AgreeBeside name bus other)
    (fails : List Event → Event → Option Failure) (sendings : Sendings) :
    AgreeBeside name
      (bus.handAll (sendings.map fun sending =>
        (sending.1.map (Sink.failing name fails), sending.2)))
      (other.handAll sendings) := by
  induction sendings generalizing bus other with
  | nil => exact agree
  | cons sending rest inductionHypothesis => exact inductionHypothesis (agree.hand fails sending.1)

end Bus

namespace Event.Program

variable {bus : Bus}

/-! ## Runs -/

/-- A run ends as the text of the program says, and comes to the same as handing each event that the
program sends to its sink: the sinks in place are back. -/
theorem run_eq (program : Program) (bus : Bus) :
    program.run bus = (program.result, bus.handAll (program.sends bus.sink)) := by
  induction program generalizing bus with
  | give value => rfl
  | raise failure => rfl
  | emit event => rfl
  | block sink body inductionHypothesis =>
      -- The body leaves the sinks around as it found them: the end of the block restores them.
      have entered : bus.enter sink = bus.placed sink (bus.sink :: bus.outer) := rfl
      rw [run, Bus.within, inductionHypothesis, entered, Bus.handAll_placed]
      change (body.result, (bus.handAll (body.sends sink)).placed bus.sink bus.outer) = _
      rw [← Bus.handAll_placed]
      rfl
  | andThen first rest firstHypothesis restHypothesis =>
      rw [run, firstHypothesis, result, sends]
      cases first.result with
      | ok value =>
          simp only [restHypothesis, Bus.sink_handAll, Bus.handAll_append]
      | error failure => rw [List.append_nil]
  | recover body handler bodyHypothesis handlerHypothesis =>
      rw [run, bodyHypothesis, result, sends]
      cases body.result with
      | ok value => rw [List.append_nil]
      | error failure =>
          simp only [handlerHypothesis, Bus.sink_handAll, Bus.handAll_append]

theorem result_mapSinks (change : Sink → Sink) (program : Program) :
    (program.mapSinks change).result = program.result := by
  induction program with
  | give value => rfl
  | raise failure => rfl
  | emit event => rfl
  | block sink body inductionHypothesis => exact inductionHypothesis
  | andThen first rest firstHypothesis restHypothesis =>
      rw [mapSinks, result, result, firstHypothesis]
      cases first.result with
      | ok value => exact restHypothesis value
      | error failure => rfl
  | recover body handler bodyHypothesis handlerHypothesis =>
      rw [mapSinks, result, result, bodyHypothesis]
      cases body.result with
      | ok value => rfl
      | error failure => exact handlerHypothesis failure

/-- With other sinks in its blocks a program sends the same events to those. -/
theorem sends_mapSinks (change : Sink → Sink) (program : Program) (around : Option Sink) :
    (program.mapSinks change).sends (around.map change) =
      (program.sends around).map fun sending => (sending.1.map change, sending.2) := by
  induction program generalizing around with
  | give value => rfl
  | raise failure => rfl
  | emit event => rfl
  | block sink body inductionHypothesis => exact inductionHypothesis sink
  | andThen first rest firstHypothesis restHypothesis =>
      rw [mapSinks, sends, sends, result_mapSinks, firstHypothesis, List.map_append]
      cases first.result with
      | ok value => exact congrArg (_ ++ ·) (restHypothesis value around)
      | error failure => rfl
  | recover body handler bodyHypothesis handlerHypothesis =>
      rw [mapSinks, sends, sends, result_mapSinks, bodyHypothesis, List.map_append]
      cases body.result with
      | ok value => rfl
      | error failure => exact congrArg (_ ++ ·) (handlerHypothesis failure around)

/-- However a program ends, the sinks in place are those before it, and it has come to the same as
handing each event that it sends, once and in order, to the sink of the innermost block around the
event and to no other; a sink that keeps every event has these then. If the sinks of one name fail
at any of their events, also depending on those before, the program ends in the same way, the same
events are handed to every sink, and all other sinks have kept the same. -/
theorem blocks_scoped_and_isolated (program : Program) (bus : Bus) :
    ((program.run bus).2.sink = bus.sink ∧ (program.run bus).2.outer = bus.outer) ∧
      program.run bus = (program.result, bus.handAll (program.sends bus.sink)) ∧
      (program.run bus).2.handed = bus.handed ++ handings (program.sends bus.sink) ∧
      (∀ name, (∀ sending ∈ program.sends bus.sink, ∀ sink ∈ sending.1, sink.name = name →
          sink = .keeping name) →
        Bus.select name (program.run bus).2.kept =
          Bus.select name bus.kept ++
            (Bus.select name (handings (program.sends bus.sink))).map .event) ∧
      ∀ (name : Text) (fails : List Event → Event → Option Failure),
        let other := (program.mapSinks (Sink.failing name fails)).run
          { bus with sink := bus.sink.map (Sink.failing name fails) }
        other.1 = (program.run bus).1 ∧
          other.2.handed = (program.run bus).2.handed ∧
          ∀ owner ≠ name,
            Bus.select owner other.2.kept = Bus.select owner (program.run bus).2.kept := by
  rw [run_eq]
  refine ⟨⟨Bus.sink_handAll _ _, Bus.outer_handAll _ _⟩, rfl, Bus.handed_handAll _ _, ?_, ?_⟩
  · intro name keeping
    exact Bus.kept_handAll_of_keeping bus keeping
  · intro name fails
    have start : Bus.AgreeBeside name { bus with sink := bus.sink.map (Sink.failing name fails) }
        bus := ⟨rfl, fun _ _ => rfl⟩
    have agree := start.handAll fails (program.sends bus.sink)
    simp only [run_eq, result_mapSinks, sends_mapSinks]
    exact ⟨trivial, agree.handed, agree.kept⟩

/-- A block with a broken sink, in which an event is emitted before the block is left by a failure,
and an event after it. -/
def interrupted (inside after : Event) : Program :=
  .andThen
    (.recover
      (.block (some (.broken "broken" .noBlock))
        (.andThen (.emit inside) fun _ => .raise .noBlock))
      fun _ => .give .null)
    fun _ => .emit after

example (inside after : Event) :
    Bus.select "a"
        ((interrupted inside after).run (Bus.empty.install (some (.keeping "a")))).2.kept =
      [.event after] := by
  rfl

end Event.Program

end LedgerBook
