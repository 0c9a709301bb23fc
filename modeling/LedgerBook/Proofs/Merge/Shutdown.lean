import LedgerBook.Proofs.Merge.Demand
/-!
How the workers of a merge go on and leave. While the consumer waits there is always a worker that
can take a step; once the workers are told to leave, each of them can, or is woken soon, and closes
its source when it does.
-/
namespace LedgerBook.Merge

variable {σ α : Type}

/-! ## Steps that can be taken -/

/-- The worker of a side can take a step. -/
def Enabled (source : Source σ α) (index : Nat) (state : State σ α) : Prop :=
  ∃ passage next, workerStep source index state = some (passage, next)

/-- A worker that is not gone, and has a demand if it waits for one. -/
def Side.Ready (side : Side σ α) : Prop :=
  match side.worker with
  | .waiting => 0 < side.demand
  | .gone => False
  | _ => True

section Enabled

variable {source : Source σ α} {sources : List σ} {first state : State σ α}
  {passages : List (Passage α)}

theorem Side.Ready.exists_step {side : Side σ α} (ready : side.Ready) (stopped : Bool) (log : Log) :
    ∃ result, side.step source stopped log = some result := by
  obtain ⟨label, origin, worker, demand⟩ := side
  cases worker with
  | waiting =>
      have some : demand ≠ 0 := Nat.ne_of_gt ready
      exact ⟨_, by rw [Side.step, if_neg some]⟩
  | called => exact ⟨_, rfl⟩
  | pulling => exact ⟨_, rfl⟩
  | putting message => exact ⟨_, rfl⟩
  | gone => exact False.elim ready

theorem Side.Ready.enabled {index : Nat} {side : Side σ α} (ready : side.Ready)
    (found : state.sides[index]? = some side) : Enabled source index state := by
  obtain ⟨⟨message, after, log⟩, stepped⟩ :
      ∃ result, side.step source state.stopped state.log = some result :=
    ready.exists_step state.stopped state.log
  unfold Enabled workerStep
  simp only [found, stepped, Option.bind_eq_bind, Option.bind_some]
  cases message with
  | none => exact ⟨_, _, rfl⟩
  | some message => exact ⟨_, _, rfl⟩

/-- A worker that left of its own accord has told how its source came out. -/
theorem Story.last_mem_of_gone {begin : σ} {sent : List (Message α)} {state : σ}
    (story : Story source begin false sent .gone state) : ∃ outcome, .last outcome ∈ sent := by
  cases story with
  | dismissed told => cases told
  | @finished units outcome _ finishes =>
      exact ⟨outcome, List.mem_append_right _ (List.mem_singleton_self _)⟩

/-- Fewer ends than sides leave a side without an end. -/
theorem exists_not_mem_endedSides {count : Nat} {entries : List (Nat × Message α)}
    (fewer : (endedSides entries).length < count) :
    ∃ index < count, index ∉ endedSides entries := by
  by_contra all
  push Not at all
  have within : List.range count ⊆ endedSides entries := fun index member =>
    all index (List.mem_range.mp member)
  have bound := (List.nodup_range.subperm within).length_le
  rw [List.length_range] at bound
  omega

/-- While the consumer waits for an empty queue, some worker can take a step. -/
theorem Run.exists_enabled (fresh : Fresh sources first) (run : Run source first passages state)
    (waits : state.consumer = .waiting) (empty : state.queue = []) :
    ∃ index, Enabled source index state := by
  have going : state.stopped = false := by
    have agrees := run.agrees fresh
    rw [waits] at agrees
    exact agrees
  have knows := run.knows fresh
  rw [waits] at knows
  obtain ⟨noFailure, counted, alive⟩ := knows
  obtain ⟨index, within, goesOn⟩ :
      ∃ index < sources.length, index ∉ endedSides (received passages) :=
    exists_not_mem_endedSides (by omega)
  have unseen : ∀ outcome, (index, .last outcome) ∉ received passages := by
    intro outcome seen
    cases outcome with
    | exhausted => exact goesOn (mem_endedSides_iff.mpr seen)
    | failed failure =>
        have member := mem_failures_iff.mpr seen
        rw [noFailure] at member
        cases member
  have present : index < state.sides.length := by
    rw [run.length_sides, fresh.length_sides]
    exact within
  obtain ⟨side, found⟩ : ∃ side, state.sides[index]? = some side :=
    ⟨_, List.getElem?_eq_getElem present⟩
  -- With an empty queue and a consumer that waits, the token of the side is with its worker.
  have token := run.tokens_eq_one fresh going (by simp [waits]) found unseen
  rw [State.tokens, waits, empty] at token
  refine ⟨index, Side.Ready.enabled ?_ found⟩
  unfold Side.Ready
  cases doing : side.worker with
  | waiting =>
      rw [doing] at token
      simp only [Worker.token, messagesOf, Consumer.token, List.filter_nil, List.map_nil,
        List.length_nil] at token
      change 0 < side.demand
      omega
  | gone =>
      have story := run.stories fresh index sources[index] side (List.getElem?_eq_getElem within)
        found
      rw [going, doing] at story
      obtain ⟨outcome, told⟩ := story.last_mem_of_gone
      rw [run.messagesOf_arrived fresh, empty] at told
      exact unseen outcome (mem_messagesOf_iff.mp (by simpa [messagesOf] using told))
  | _ => trivial

end Enabled

/-! ## Workers that are told to leave -/

/-- A worker that finds a demand whenever it waits for one again. -/
def Side.Roused (side : Side σ α) : Prop :=
  match side.worker with
  | .called => True
  | .gone => True
  | _ => 0 < side.demand

/-- The sides that the consumer has woken. -/
def Consumer.HasWoken (index : Nat) : Consumer α → Prop
  | .waking next _ => index < next
  | .finished _ => True
  | _ => False

/-- Whom the consumer has woken, after the workers were told to leave, finds a demand. -/
def Rousing (state : State σ α) : Prop :=
  state.stopped = true → ∀ (index : Nat) (side : Side σ α), state.sides[index]? = some side →
    state.consumer.HasWoken index → side.Roused

section Leaving

variable {source : Source σ α} {sources : List σ} {first state next : State σ α}
  {passages : List (Passage α)} {passage : Passage α}

theorem Side.Roused.of_pos {side : Side σ α} (demanded : 0 < side.demand) : side.Roused := by
  unfold Side.Roused
  cases side.worker with
  | called => trivial
  | gone => trivial
  | _ => exact demanded

theorem Side.Roused.step {side after : Side σ α} {message : Option (Message α)} {log later : Log}
    (roused : side.Roused) (stepped : side.step source true log = some (message, after, later)) :
    after.Roused := by
  obtain ⟨label, origin, worker, demand⟩ := side
  cases worker with
  | waiting =>
      simp only [Side.step] at stepped
      split at stepped
      · cases stepped
      · cases stepped
        trivial
  | called =>
      cases stepped
      trivial
  | pulling =>
      cases stepped
      simp only [Side.Roused, Worker.ofProgress]
      cases Message.ofProgress? (source.advance origin log).1 <;> exact roused
  | putting message =>
      cases stepped
      cases message with
      | item value => exact roused
      | last outcome => trivial
  | gone => cases stepped

theorem Side.Roused.of_demand {side after : Side σ α} (roused : side.Roused)
    (same : after.worker = side.worker) (more : side.demand ≤ after.demand) : after.Roused := by
  unfold Side.Roused at roused ⊢
  rw [same]
  cases doing : side.worker <;> simp only [doing] at roused ⊢ <;> omega

theorem Rousing.step (rousing : Rousing state) (step : Step source state passage next) :
    Rousing next := by
  intro stopped index side found woken
  cases step.change with
  | @worker _ moved before after message log present stepped =>
      rcases getElem?_set_cases present found with ⟨rfl, rfl⟩ | ⟨-, found⟩
      · have told : state.stopped = true := stopped
        rw [told] at stepped
        exact (rousing stopped moved before present woken).step stepped
      · exact rousing stopped index side found woken
  | begin =>
      simp only at woken
      split at woken <;> exact False.elim woken
  | item | failure | request => exact False.elim woken
  | ended =>
      simp only at woken
      split at woken <;> exact False.elim woken
  | stop | close => exact absurd woken (Nat.not_lt_zero index)
  | @wake called outcome waking within =>
      obtain ⟨before, present, sameWorker, -, oneMore⟩ := getElem?_release found
      by_cases now : called = index
      · rw [if_pos now] at oneMore
        exact Side.Roused.of_pos (by omega)
      · have earlier : state.consumer.HasWoken index := by
          rw [waking]
          have bound : index < called + 1 := woken
          exact Nat.lt_of_le_of_ne (Nat.le_of_lt_succ bound) (Ne.symm now)
        exact (rousing stopped index before present earlier).of_demand sameWorker (by omega)
  | @finish called outcome waking beyond allGone =>
      have present : index < state.sides.length := (List.getElem?_eq_some_iff.mp found).1
      have earlier : state.consumer.HasWoken index := by
        rw [waking]
        exact Nat.lt_of_lt_of_le present (Nat.le_of_not_lt beyond)
      exact rousing stopped index side found earlier

theorem Run.rousing (fresh : Fresh sources first) (run : Run source first passages state) :
    Rousing state := by
  induction run with
  | start =>
      intro stopped
      rw [fresh.going] at stopped
      cases stopped
  | step _ step inductionHypothesis => exact inductionHypothesis.step step

/-- When the workers are told to leave, a worker that is not gone can take a step or will be
woken. -/
theorem Run.enabled_or_woken (fresh : Fresh sources first)
    (run : Run source first passages state) (stopped : state.stopped = true) {index : Nat}
    {side : Side σ α} (found : state.sides[index]? = some side) (stays : side.isGone = false) :
    Enabled source index state ∨
      ∃ next outcome, state.consumer = .waking next outcome ∧ next ≤ index := by
  have agrees := run.agrees fresh
  by_cases woken : state.consumer.HasWoken index
  · left
    have roused := run.rousing fresh stopped index side found woken
    apply Side.Ready.enabled _ found
    unfold Side.Roused at roused
    unfold Side.Ready
    cases doing : side.worker with
    | gone =>
        rw [Side.isGone, doing] at stays
        cases stays
    | waiting =>
        rw [doing] at roused
        exact roused
    | _ => trivial
  · right
    cases doing : state.consumer with
    | waking next outcome =>
        rw [doing] at woken
        exact ⟨next, outcome, rfl, Nat.le_of_not_lt woken⟩
    | finished outcome =>
        rw [doing] at woken
        exact False.elim (woken trivial)
    | _ =>
        rw [doing, stopped] at agrees
        cases agrees

/-- A merge that is over has no worker any more. -/
theorem Run.gone_of_finished (fresh : Fresh sources first)
    (run : Run source first passages state) {outcome : Option Outcome}
    (ends : state.consumer = .finished outcome) : state.sides.all Side.isGone = true := by
  induction run generalizing outcome with
  | start =>
      rw [fresh.consumer_eq] at ends
      cases sources with
      | nil =>
          have none : first.sides = [] := List.length_eq_zero_iff.mp fresh.length_sides
          rw [none]
          rfl
      | cons source rest => cases ends
  | @step passages passage state next earlier step inductionHypothesis =>
      cases step.change with
      | @worker _ index before after message log present stepped =>
          -- A worker that is gone takes no step.
          have allGone := List.all_eq_true.mp (inductionHypothesis ends)
          have isGone := allGone before (List.mem_of_getElem? present)
          obtain ⟨label, origin, worker, demand⟩ := before
          cases worker <;> cases isGone
          cases stepped
      | finish waking beyond allGone => exact allGone
      | begin =>
          simp only at ends
          split at ends <;> cases ends
      | ended =>
          simp only at ends
          split at ends <;> cases ends
      | _ => cases ends

end Leaving

/-! ## Calls that return -/

namespace Source

/-- What a source comes to by being read, from its beginning on. -/
inductive Reaches (source : Source σ α) (begin : σ) : σ → Prop
  | start : Reaches source begin begin
  | advance {state : σ} (log : Log) :
      Reaches source begin state → Reaches source begin (source.advance state log).2.1

/-- One state of a source follows another within a call that goes on. -/
def Stalls (source : Source σ α) (later state : σ) : Prop :=
  ∃ log, (source.advance state log).1 = .working ∧ (source.advance state log).2.1 = later

/-- Every call of a source returns, whatever was handed out before: no call goes on for ever. -/
def Responds (source : Source σ α) (begin : σ) : Prop :=
  ∀ state, source.Reaches begin state → Acc source.Stalls state

theorem Reaches.trans {source : Source σ α} {begin state later : σ}
    (first : source.Reaches begin state) (goesOn : source.Reaches state later) :
    source.Reaches begin later := by
  induction goesOn with
  | start => exact first
  | advance log _ inductionHypothesis => exact .advance log inductionHypothesis

theorem Responds.of_reaches {source : Source σ α} {begin state : σ}
    (responds : source.Responds begin) (reaches : source.Reaches begin state) :
    source.Responds state :=
  fun later goesOn => responds later (reaches.trans goesOn)

end Source

/-- A side's source has only been read so far, and it is closed once its worker is gone. -/
def Side.ReadFrom (source : Source σ α) (begin : σ) (side : Side σ α) : Prop :=
  match side.worker with
  | .gone => ∃ last, source.Reaches begin last ∧ side.source = source.close last
  | _ => source.Reaches begin side.source

section Sources

variable {source : Source σ α} {sources : List σ} {first state next : State σ α}
  {passages : List (Passage α)} {passage : Passage α}

theorem Side.ReadFrom.step {begin : σ} {side after : Side σ α} {message : Option (Message α)}
    {stopped : Bool} {log later : Log} (reads : side.ReadFrom source begin)
    (stepped : side.step source stopped log = some (message, after, later)) :
    after.ReadFrom source begin := by
  obtain ⟨label, origin, worker, demand⟩ := side
  cases worker with
  | waiting =>
      simp only [Side.step] at stepped
      split at stepped
      · cases stepped
      · cases stepped
        exact reads
  | called =>
      cases stepped
      split
      · exact ⟨origin, reads, rfl⟩
      · exact reads
  | pulling =>
      cases stepped
      have further : source.Reaches begin (source.advance origin log).2.1 := .advance log reads
      simp only [Side.ReadFrom, Worker.ofProgress]
      cases Message.ofProgress? (source.advance origin log).1 <;> exact further
  | putting message =>
      cases stepped
      cases message with
      | item value => exact reads
      | last outcome => exact ⟨origin, reads, rfl⟩
  | gone => cases stepped

theorem Run.readFrom (fresh : Fresh sources first) (run : Run source first passages state)
    {index : Nat} {begin : σ} {side : Side σ α} (begins : sources[index]? = some begin)
    (found : state.sides[index]? = some side) : side.ReadFrom source begin := by
  induction run generalizing side with
  | start =>
      have waits := (fresh.idle side (List.mem_of_getElem? found)).1
      have same : begin = side.source := by
        rw [← fresh.sources_eq, List.getElem?_map, found] at begins
        exact (Option.some.inj begins).symm
      rw [Side.ReadFrom, waits, same]
      exact .start
  | step _ step inductionHypothesis =>
      obtain ⟨before, present, ⟨message, log, stepped, -⟩ | ⟨sameWorker, sameSource, -⟩⟩ :=
        step.side found
      · exact (inductionHypothesis present).step stepped
      · have reads := inductionHypothesis present
        rw [Side.ReadFrom] at reads ⊢
        rw [sameWorker, sameSource]
        exact reads

theorem Side.ReadFrom.closed {begin : σ} {side : Side σ α} (reads : side.ReadFrom source begin)
    (gone : side.isGone = true) :
    ∃ last, source.Reaches begin last ∧ side.source = source.close last := by
  obtain ⟨label, origin, worker, demand⟩ := side
  cases worker <;> first | exact reads | cases gone

theorem Side.ReadFrom.reaches {begin : σ} {side : Side σ α} (reads : side.ReadFrom source begin)
    (stays : side.isGone = false) : source.Reaches begin side.source := by
  obtain ⟨label, origin, worker, demand⟩ := side
  cases worker <;> first | exact reads | cases stays

end Sources

end LedgerBook.Merge
