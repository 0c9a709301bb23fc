import LedgerBook.Proofs.Merge.Sequence
/-!
What the sides of a merge have put into the queue. Every worker tells what its source hands out, in
order and as a whole, whatever the other workers and the consumer do in the meantime.
-/
namespace LedgerBook.Merge

variable {σ α : Type}

/-- What a worker has put into the queue so far agrees with what it does, and with what its source
has handed out since it began. -/
inductive Story (source : Source σ α) (first : σ) (stopped : Bool) :
    List (Message α) → Worker α → σ → Prop
  | waiting {units : List α} {state : σ} :
      source.Hands first units state →
      Story source first stopped (units.map .item) .waiting state
  | called {units : List α} {state : σ} :
      source.Hands first units state →
      Story source first stopped (units.map .item) .called state
  | pulling {units : List α} {state : σ} :
      source.Hands first units state →
      Story source first stopped (units.map .item) .pulling state
  | puttingUnit {units : List α} {unit : α} {state : σ} :
      source.Hands first (units ++ [unit]) state →
      Story source first stopped (units.map .item) (.putting (.item unit)) state
  | puttingOutcome {units : List α} {outcome : Outcome} {state : σ} :
      source.Finishes first units outcome →
      Story source first stopped (units.map .item) (.putting (.last outcome)) state
  | dismissed {units : List α} {before state : σ} :
      stopped = true →
      source.Hands first units before →
      Story source first stopped (units.map .item) .gone state
  | finished {units : List α} {outcome : Outcome} {state : σ} :
      source.Finishes first units outcome →
      Story source first stopped (units.map .item ++ [.last outcome]) .gone state

namespace Story

variable {source : Source σ α} {first : σ} {stopped : Bool} {sent : List (Message α)}

theorem tells {worker : Worker α} {state : σ}
    (story : Story source first stopped sent worker state) : source.Tells first sent := by
  have ofHands {units : List α} {state : σ} (hands : source.Hands first units state) :
      source.Tells first (units.map .item) :=
    ⟨units, Or.inl ⟨rfl, [], state, by simpa using hands⟩⟩
  cases story with
  | waiting hands => exact ofHands hands
  | called hands => exact ofHands hands
  | pulling hands => exact ofHands hands
  | @puttingUnit units unit state hands =>
      exact ⟨units, Or.inl ⟨rfl, [unit], state, hands⟩⟩
  | puttingOutcome finishes =>
      obtain ⟨state, log, hands, _⟩ := finishes
      exact ofHands hands
  | dismissed _ hands => exact ofHands hands
  | @finished units outcome _ finishes =>
      exact ⟨units, Or.inr ⟨outcome, rfl, finishes⟩⟩

/-- The sign to leave takes nothing back. -/
theorem stop {worker : Worker α} {state : σ}
    (story : Story source first stopped sent worker state) :
    Story source first true sent worker state := by
  cases story with
  | waiting hands => exact .waiting hands
  | called hands => exact .called hands
  | pulling hands => exact .pulling hands
  | puttingUnit hands => exact .puttingUnit hands
  | puttingOutcome finishes => exact .puttingOutcome finishes
  | dismissed _ hands => exact .dismissed rfl hands
  | finished finishes => exact .finished finishes

/-- The answer of a source, of whatever kind, goes on with the story. -/
theorem pull {units : List α} {state : σ} (hands : source.Hands first units state) (log : Log) :
    Story source first stopped (units.map .item)
      (.ofProgress (source.advance state log).1) (source.advance state log).2.1 := by
  cases answer : (source.advance state log).1 with
  | working => exact .pulling (.working log hands answer)
  | item unit => exact .puttingUnit (.unit log hands answer)
  | ended =>
      exact .puttingOutcome ⟨state, log, hands, by rw [answer]; rfl⟩
  | failed failure =>
      exact .puttingOutcome ⟨state, log, hands, by rw [answer]; rfl⟩

/-- A step of the worker goes on with the story. -/
theorem step {side after : Side σ α} {message : Option (Message α)} {log later : Log}
    (story : Story source first stopped sent side.worker side.source)
    (stepped : side.step source stopped log = some (message, after, later)) :
    Story source first stopped (sent ++ message.toList) after.worker after.source := by
  obtain ⟨label, state, worker, demand⟩ := side
  cases story with
  | waiting hands =>
      simp only [Side.step] at stepped
      split at stepped
      · cases stepped
      · cases stepped
        simpa using Story.called hands
  | called hands =>
      simp only [Side.step] at stepped
      cases stepped
      split
      next told => simpa [Side.leave] using Story.dismissed told hands
      next => simpa using Story.pulling hands
  | pulling hands =>
      simp only [Side.step] at stepped
      cases stepped
      simpa using Story.pull hands log
  | puttingUnit hands =>
      simp only [Side.step] at stepped
      cases stepped
      simpa [Side.afterPut] using Story.waiting hands
  | puttingOutcome finishes =>
      simp only [Side.step] at stepped
      cases stepped
      exact Story.finished finishes
  | dismissed told hands =>
      simp [Side.step] at stepped
  | finished finishes =>
      simp [Side.step] at stepped

end Story

/-- The stories of all sides, which began with the given sources. -/
def Stories (source : Source σ α) (sources : List σ) (passages : List (Passage α))
    (state : State σ α) : Prop :=
  ∀ (index : Nat) (first : σ) (side : Side σ α),
    sources[index]? = some first →
    state.sides[index]? = some side →
    Story source first state.stopped (messagesOf index (arrived passages))
      side.worker side.source

section Steps

variable {source : Source σ α} {sources : List σ} {passages : List (Passage α)}
  {passage : Passage α} {state next : State σ α}

theorem Stories.step (stories : Stories source sources passages state)
    (step : Step source state passage next) :
    Stories source sources (passages ++ [passage]) next := by
  intro index first side begins found
  rw [arrived_snoc, messagesOf_append]
  obtain ⟨before, present, ⟨message, log, stepped, put, same⟩ | ⟨sameWorker, sameSource, silent⟩⟩ :=
    step.side found
  · rw [put, same]
    exact (stories index first before begins present).step stepped
  · rw [sameWorker, sameSource, silent, List.append_nil]
    have told := stories index first before begins present
    cases leaving : next.stopped with
    | true => exact told.stop
    | false =>
        have staying : state.stopped = false :=
          Bool.eq_false_iff.mpr fun stopped => by cases leaving.symm.trans (step.stopped stopped)
        rwa [staying] at told

/-- Only sides that exist put messages into the queue. -/
theorem Step.index_lt (step : Step source state passage next) {entry : Nat × Message α}
    (put : passage.put? = some entry) :
    entry.1 < state.sides.length := by
  cases step.change with
  | @worker _ index side after message log present stepped puts taken =>
      rw [puts] at put
      obtain ⟨told, _, rfl⟩ := Option.map_eq_some_iff.mp put
      exact (List.getElem?_eq_some_iff.mp present).1
  | _ => cases put

end Steps

/-- Nothing has been told when a merge starts. -/
theorem Fresh.stories {source : Source σ α} {sources : List σ} {first : State σ α}
    (fresh : Fresh sources first) :
    Stories source sources [] first := by
  intro index begin side begins found
  have same : begin = side.source := by
    rw [← fresh.sources_eq, List.getElem?_map, found] at begins
    exact (Option.some.inj begins).symm
  have waits := (fresh.idle side (List.mem_of_getElem? found)).1
  rw [same, waits]
  have told : Story source side.source first.stopped (([] : List α).map .item) .waiting
      side.source :=
    .waiting .nothing
  exact told

theorem Run.stories {source : Source σ α} {sources : List σ} {first state : State σ α}
    {passages : List (Passage α)} (fresh : Fresh sources first)
    (run : Run source first passages state) :
    Stories source sources passages state := by
  induction run with
  | start => exact fresh.stories
  | step _ step inductionHypothesis => exact inductionHypothesis.step step

end LedgerBook.Merge
