import LedgerBook.Proofs.Merge.Shutdown
/-!
Why a merge never hangs. If every call of a source returns, then whatever order the steps are taken
in, the consumer gets an answer to each request, and once the workers are told to leave all of them
do.
-/
namespace LedgerBook.Merge

variable {σ α : Type}

/-! ## Steps without end -/

/-- One side follows another by a step of its worker. -/
def Side.Works (source : Source σ α) (after side : Side σ α) : Prop :=
  ∃ stopped message log later, side.step source stopped log = some (message, after, later)

/-- One list follows another by a change of one of its elements. -/
inductive ChangesOne {β : Type} (changes : β → β → Prop) : List β → List β → Prop
  | head {after before : β} (rest : List β) :
      changes after before → ChangesOne changes (after :: rest) (before :: rest)
  | tail (head : β) {after before : List β} :
      ChangesOne changes after before → ChangesOne changes (head :: after) (head :: before)

theorem ChangesOne.set {β : Type} {changes : β → β → Prop} {items : List β} {index : Nat}
    {before after : β} (present : items[index]? = some before) (changed : changes after before) :
    ChangesOne changes (items.set index after) items := by
  induction items generalizing index with
  | nil => cases present
  | cons first rest inductionHypothesis =>
      cases index with
      | zero =>
          cases present
          exact .head rest changed
      | succ index => exact .tail first (inductionHypothesis present)

/-- Either the first element changes or one of the others does, and both come to an end. -/
private theorem acc_changesOne_cons {β : Type} {changes : β → β → Prop} {first : β} {rest : List β}
    (accFirst : Acc changes first) (accRest : Acc (ChangesOne changes) rest) :
    Acc (ChangesOne changes) (first :: rest) := by
  induction accFirst generalizing rest with
  | intro first _ ofFirst =>
      induction accRest with
      | intro rest accRest ofRest =>
          refine Acc.intro _ fun after step => ?_
          cases step with
          | head _ changed => exact ofFirst _ changed (Acc.intro rest accRest)
          | tail _ changed => exact ofRest _ changed

theorem acc_changesOne {β : Type} {changes : β → β → Prop} {items : List β}
    (each : ∀ item ∈ items, Acc changes item) : Acc (ChangesOne changes) items := by
  induction items with
  | nil => exact Acc.intro [] fun _ impossible => nomatch impossible
  | cons first rest inductionHypothesis =>
      rw [List.forall_mem_cons] at each
      exact acc_changesOne_cons each.1 (inductionHypothesis each.2)

section Termination

variable {source : Source σ α}

private theorem acc_gone (label : Json) (origin : σ) (demand : Nat) :
    Acc (Side.Works source) ⟨label, origin, .gone, demand⟩ := by
  refine Acc.intro _ fun after works => ?_
  obtain ⟨stopped, message, log, later, stepped⟩ := works
  cases stepped

/-- If a worker comes to an end from when it waits, it does from whatever it does. -/
private theorem acc_of_waiting {label : Json} {demand : Nat}
    (waits : ∀ origin, source.Responds origin →
      Acc (Side.Works source) ⟨label, origin, .waiting, demand⟩)
    {origin : σ} (responds : source.Responds origin) (worker : Worker α) :
    Acc (Side.Works source) ⟨label, origin, worker, demand⟩ := by
  have putting (message : Message α) {origin : σ} (responds : source.Responds origin) :
      Acc (Side.Works source) ⟨label, origin, .putting message, demand⟩ := by
    refine Acc.intro _ fun after works => ?_
    obtain ⟨stopped, message, log, later, stepped⟩ := works
    cases stepped
    cases message with
    | item value => exact waits origin responds
    | last outcome => exact acc_gone label _ demand
  have pulling {origin : σ} (responds : source.Responds origin) :
      Acc (Side.Works source) ⟨label, origin, .pulling, demand⟩ := by
    induction responds origin .start with
    | intro origin _ ofStalled =>
        refine Acc.intro _ fun after works => ?_
        obtain ⟨stopped, message, log, later, stepped⟩ := works
        cases stepped
        have further : source.Responds (source.advance origin log).2.1 :=
          responds.of_reaches (.advance log .start)
        cases answer : (source.advance origin log).1 with
        | working => exact ofStalled _ ⟨log, answer, rfl⟩ further
        | _ => exact putting _ further
  cases worker with
  | waiting => exact waits origin responds
  | called =>
      refine Acc.intro _ fun after works => ?_
      obtain ⟨stopped, message, log, later, stepped⟩ := works
      cases stepped
      cases stopped with
      | true => exact acc_gone label _ demand
      | false => exact pulling responds
  | pulling => exact pulling responds
  | putting message => exact putting message responds
  | gone => exact acc_gone label origin demand

/-- By itself a worker comes to an end: it has only so many demands, and its calls return. -/
theorem Side.acc_works {side : Side σ α}
    (responds : side.isGone = false → source.Responds side.source) :
    Acc (Side.Works source) side := by
  have waits (label : Json) (demand : Nat) : ∀ origin, source.Responds origin →
      Acc (Side.Works source) ⟨label, origin, .waiting, demand⟩ := by
    induction demand with
    | zero =>
        intro origin _
        refine Acc.intro _ fun after works => ?_
        obtain ⟨stopped, message, log, later, stepped⟩ := works
        cases stepped
    | succ demand inductionHypothesis =>
        intro origin responds
        refine Acc.intro _ fun after works => ?_
        obtain ⟨stopped, message, log, later, stepped⟩ := works
        cases stepped
        exact acc_of_waiting inductionHypothesis responds .called
  cases gone : side.isGone with
  | false => exact acc_of_waiting (waits side.label side.demand) (responds gone) side.worker
  | true =>
      obtain ⟨label, origin, worker, demand⟩ := side
      cases worker <;> cases gone
      exact acc_gone label origin demand

/-! ## Answers to the consumer -/

/-- How much the consumer has to do itself until it has an answer, at most. -/
def State.toDo (state : State σ α) : Nat :=
  match state.consumer with
  | .starting side => state.sides.length - side + state.live + state.sides.length + 4
  | .waiting => state.live + state.sides.length + 3
  | .leaving _ => state.sides.length + 2
  | .waking side _ => state.sides.length - side + 1
  | _ => 0

/-- A step while the consumer has no answer. -/
def Awaits (source : Source σ α) (next state : State σ α) : Prop :=
  state.consumer.answer? = none ∧ ∃ passage, Step source state passage next

/-- Until the consumer has an answer, each step is one of a worker, or the consumer has less to
do. -/
theorem Awaits.cases {state next : State σ α} (awaits : Awaits source next state) :
    (next.consumer = state.consumer ∧ next.live = state.live ∧
        ChangesOne (Side.Works source) next.sides state.sides) ∨
      next.consumer.answer?.isSome ∨ next.toDo < state.toDo := by
  obtain ⟨none, passage, step⟩ := awaits
  cases step.change with
  | worker index present stepped =>
      left
      exact ⟨rfl, rfl, .set present ⟨_, _, _, _, stepped⟩⟩
  | @begin side starting =>
      right; right
      by_cases more : side + 1 < state.sides.length
      · simp only [State.toDo, State.release, starting, if_pos more, List.length_modify]
        omega
      · simp only [State.toDo, State.release, starting, if_neg more, List.length_modify]
        omega
  | item => exact Or.inr (Or.inl rfl)
  | @finish side outcome =>
      right; left
      rcases outcome with _ | _ | failure <;> rfl
  | failure waiting =>
      right; right
      simp only [State.toDo, waiting]
      omega
  | ended waiting =>
      right; right
      by_cases last : state.live - 1 = 0
      · simp only [State.toDo, waiting, if_pos last]
        omega
      · simp only [State.toDo, waiting, if_neg last]
        omega
  | stop leaving =>
      right; right
      simp only [State.toDo, leaving]
      omega
  | wake waking within =>
      right; right
      simp only [State.toDo, State.release, waking, List.length_modify]
      omega
  | request holds | close holds =>
      rw [holds] at none
      cases none

end Termination

/-- On every schedule a merge comes to a state of some kind: it is in one, or it can take a step,
and after each step that it can take it will come to one. -/
inductive Inevitably (source : Source σ α) (goal : State σ α → Prop) : State σ α → Prop
  | now {state : State σ α} : goal state → Inevitably source goal state
  | later {state : State σ α} :
      (∃ passage next, Step source state passage next) →
      (∀ passage next, Step source state passage next → Inevitably source goal next) →
      Inevitably source goal state

section Runs

variable {source : Source σ α} {sources : List σ} {first state : State σ α}
  {passages : List (Passage α)}

theorem Run.responds (fresh : Fresh sources first)
    (responds : ∀ begin ∈ sources, source.Responds begin)
    (run : Run source first passages state) {side : Side σ α} (member : side ∈ state.sides)
    (stays : side.isGone = false) : source.Responds side.source := by
  obtain ⟨index, found⟩ := List.mem_iff_getElem?.mp member
  have within : index < sources.length := by
    rw [← fresh.length_sides, ← run.length_sides]
    exact (List.getElem?_eq_some_iff.mp found).1
  have begins : sources[index]? = some sources[index] := List.getElem?_eq_getElem within
  exact (responds _ (List.mem_of_getElem? begins)).of_reaches
    ((run.readFrom fresh begins found).reaches stays)

/-- The steps after a request come to an end. -/
theorem Run.acc_awaits (fresh : Fresh sources first)
    (responds : ∀ begin ∈ sources, source.Responds begin)
    (run : Run source first passages state) : Acc (Awaits source) state := by
  -- First by what the consumer has left to do, then by the steps that workers can still take.
  obtain ⟨bound, least⟩ : ∃ bound, state.toDo = bound := ⟨_, rfl⟩
  induction bound using Nat.strong_induction_on generalizing state passages with
  | _ bound ofLess =>
      have accSides : Acc (ChangesOne (Side.Works source)) state.sides :=
        acc_changesOne fun side member =>
          Side.acc_works fun stays => run.responds fresh responds member stays
      obtain ⟨sides, same⟩ : ∃ sides, sides = state.sides := ⟨_, rfl⟩
      rw [← same] at accSides
      induction accSides generalizing state passages with
      | intro sides _ ofChanged =>
          refine Acc.intro _ fun next awaits => ?_
          obtain ⟨-, passage, step⟩ := id awaits
          have goesOn : Run source first (passages ++ [passage]) next := run.step step
          rcases awaits.cases with ⟨sameConsumer, sameLive, changed⟩ | answered | less
          · have sameToDo : next.toDo = bound := by
              rw [← least, State.toDo, State.toDo, sameConsumer, sameLive, step.length_sides]
            exact ofChanged next.sides (same ▸ changed) goesOn sameToDo rfl
          · refine Acc.intro _ fun further again => ?_
            rw [again.1] at answered
            cases answered
          · exact ofLess next.toDo (least ▸ less) goesOn rfl

/-- The consumer goes on waking workers, and is done when all are gone. -/
theorem exists_consumerStep_of_waking {side : Nat} {outcome : Option Outcome}
    (waking : state.consumer = .waking side outcome)
    (free : side < state.sides.length ∨ state.sides.all Side.isGone = true) :
    ∃ passage next, consumerStep state = some (passage, next) := by
  simp only [consumerStep, waking]
  by_cases within : side < state.sides.length
  · rw [if_pos within]
    exact ⟨_, _, rfl⟩
  · rw [if_neg within, if_pos (free.resolve_left within)]
    exact ⟨_, _, rfl⟩

theorem exists_stays {sides : List (Side σ α)} (notAll : ¬ sides.all Side.isGone = true) :
    ∃ (index : Nat) (side : Side σ α), sides[index]? = some side ∧ side.isGone = false := by
  rw [List.all_eq_true] at notAll
  push Not at notAll
  obtain ⟨side, member, stays⟩ := notAll
  obtain ⟨index, found⟩ := List.mem_iff_getElem?.mp member
  exact ⟨index, side, found, Bool.eq_false_of_not_eq_true stays⟩

/-- Until the consumer has an answer, some step can be taken. -/
theorem Run.exists_step (fresh : Fresh sources first) (run : Run source first passages state)
    (unanswered : state.consumer.answer? = none) :
    ∃ passage next, Step source state passage next := by
  have byConsumer (taken : ∃ passage next, consumerStep state = some (passage, next)) :
      ∃ passage next, Step source state passage next := by
    obtain ⟨passage, next, taken⟩ := taken
    exact ⟨passage, next, .consumer taken⟩
  have byWorker {index : Nat} (enabled : Enabled source index state) :
      ∃ passage next, Step source state passage next := by
    obtain ⟨passage, next, taken⟩ := enabled
    exact ⟨passage, next, .worker index taken⟩
  cases doing : state.consumer with
  | starting side => exact byConsumer ⟨_, _, by rw [consumerStep, doing]⟩
  | waiting =>
      cases queued : state.queue with
      | nil =>
          obtain ⟨index, enabled⟩ := run.exists_enabled fresh doing queued
          exact byWorker enabled
      | cons entry rest =>
          exact byConsumer ⟨_, _, by rw [consumerStep, doing]; simp only [queued]; rfl⟩
  | leaving outcome => exact byConsumer ⟨_, _, by rw [consumerStep, doing]⟩
  | waking side outcome =>
      have stopped : state.stopped = true := by
        have agrees := run.agrees fresh
        rw [doing] at agrees
        exact agrees
      by_cases within : side < state.sides.length
      · exact byConsumer (exists_consumerStep_of_waking doing (Or.inl within))
      by_cases allGone : state.sides.all Side.isGone = true
      · exact byConsumer (exists_consumerStep_of_waking doing (Or.inr allGone))
      -- A worker that has not left can take a step, or it is still to be woken.
      obtain ⟨index, left, found, stays⟩ := exists_stays allGone
      rcases run.enabled_or_woken fresh stopped found stays with enabled | ⟨next, _, same, later⟩
      · exact byWorker enabled
      · rw [doing] at same
        cases same
        have present : index < state.sides.length := (List.getElem?_eq_some_iff.mp found).1
        omega
  | holding index value =>
      rw [doing] at unanswered
      cases unanswered
  | finished outcome =>
      rw [doing] at unanswered
      rcases outcome with _ | _ | failure <;> cases unanswered

/-- On every schedule the consumer gets an answer. -/
theorem Run.inevitably_answered (fresh : Fresh sources first)
    (responds : ∀ begin ∈ sources, source.Responds begin)
    (run : Run source first passages state) :
    Inevitably source (fun later => later.consumer.answer?.isSome = true) state := by
  induction run.acc_awaits fresh responds generalizing passages with
  | intro state _ inductionHypothesis =>
      cases answer : state.consumer.answer? with
      | some answer => exact .now (by rw [answer]; rfl)
      | none =>
          refine .later (run.exists_step fresh answer) fun passage next step => ?_
          exact inductionHypothesis next ⟨answer, passage, step⟩ (run.step step)

/-- What comes about on every schedule comes about together with what every step keeps. -/
theorem Inevitably.keeping {goal : State σ α → Prop} (inevitably : Inevitably source goal state)
    (kept : State σ α → Prop)
    (keeps : ∀ {state next : State σ α} {passage : Passage α},
      kept state → Step source state passage next → kept next)
    (holds : kept state) : Inevitably source (fun later => goal later ∧ kept later) state := by
  induction inevitably with
  | now reached => exact .now ⟨reached, holds⟩
  | later possible _ inductionHypothesis =>
      exact .later possible fun passage next step =>
        inductionHypothesis passage next step (keeps holds step)

theorem Inevitably.mono {goal other : State σ α → Prop} (inevitably : Inevitably source goal state)
    (implies : ∀ state, goal state → other state) : Inevitably source other state := by
  induction inevitably with
  | now reached => exact .now (implies _ reached)
  | later possible _ inductionHypothesis => exact .later possible inductionHypothesis

/-- Once the workers are told to leave, on every schedule all of them do and the merge is over. -/
theorem Run.inevitably_finished (fresh : Fresh sources first)
    (responds : ∀ begin ∈ sources, source.Responds begin)
    (run : Run source first passages state) (stopped : state.stopped = true) :
    Inevitably source
      (fun later => (∃ outcome, later.consumer = .finished outcome) ∧
        later.sides.all Side.isGone = true) state := by
  have reached := (run.inevitably_answered fresh responds).keeping
    (fun later => later.stopped = true ∧ ∃ passages, Run source first passages later)
    (fun kept step => ⟨step.stopped kept.1, _, kept.2.choose_spec.step step⟩)
    ⟨stopped, passages, run⟩
  refine reached.mono fun later facts => ?_
  obtain ⟨answered, told, passages, run⟩ := facts
  have agrees := run.agrees fresh
  cases doing : later.consumer with
  | finished outcome => exact ⟨⟨outcome, rfl⟩, run.gone_of_finished fresh doing⟩
  | holding index value =>
      rw [doing, told] at agrees
      cases agrees
  | _ =>
      rw [doing] at answered
      cases answered

/-- A merge is driven by demand and never hangs. Between the first demands and the sign to leave,
every side whose end the consumer has not received has one token: a demand not taken, a call of its
source, a message in the queue, or an item in the consumer's hands. No side is more than one unit
ahead of the consumer. While the consumer waits for an empty queue, some worker can take a step, and
on every schedule the consumer gets an answer. After the sign to leave no source is called any more,
every worker that is not gone can take a step or will be woken, and on every schedule all of them
leave and the merge is over; once all are gone, the consumer needs nobody else for that. A worker
that is gone has closed its source, as it was after it was last read. -/
theorem Run.driven_by_demand {names : Option (List Json)} {log : Log}
    (started : Merge.start sources names log = .ok first)
    (responds : ∀ begin ∈ sources, source.Responds begin)
    (run : Run source first passages state) :
    (state.stopped = false → (∀ next, state.consumer ≠ .starting next) →
        ∀ (index : Nat) (side : Side σ α), state.sides[index]? = some side →
          (∀ outcome, (index, .last outcome) ∉ received passages) →
            state.tokens index side = 1) ∧
      (∀ (index : Nat) (begin : σ) (side : Side σ α), sources[index]? = some begin →
        state.sides[index]? = some side →
          (∃ reached, source.Hands begin (pulled index passages side) reached) ∧
            (pulled index passages side).length ≤ (delivered index passages).length + 1) ∧
      (state.consumer = .waiting → state.queue = [] → ∃ index, Enabled source index state) ∧
      Inevitably source (fun later => later.consumer.answer?.isSome = true) state ∧
      (state.stopped = true →
        (∀ (more : List (Passage α)) (later : State σ α), Run source state more later →
          ∀ (index : Nat) (side after : Side σ α), state.sides[index]? = some side →
            later.sides[index]? = some after →
              calls index (passages ++ more) after = calls index passages side) ∧
          (∀ (index : Nat) (side : Side σ α), state.sides[index]? = some side →
            side.isGone = false →
              Enabled source index state ∨
                ∃ next outcome, state.consumer = .waking next outcome ∧ next ≤ index) ∧
          Inevitably source
            (fun later => (∃ outcome, later.consumer = .finished outcome) ∧
              later.sides.all Side.isGone = true) state ∧
          (state.sides.all Side.isGone = true →
            (∃ outcome, state.consumer = .finished outcome) ∨
              ∃ passage next, consumerStep state = some (passage, next))) ∧
      ∀ (index : Nat) (begin : σ) (side : Side σ α), sources[index]? = some begin →
        state.sides[index]? = some side → side.isGone = true →
          ∃ last, source.Reaches begin last ∧ side.source = source.close last := by
  have fresh := fresh_of_start started
  refine ⟨?_, ?_, ?_, run.inevitably_answered fresh responds, ?_, ?_⟩
  · intro going begun index side found unseen
    exact run.tokens_eq_one fresh going begun found unseen
  · intro index begin side begins found
    exact ⟨(run.stories fresh index begin side begins found).hands,
      run.length_pulled_le fresh found⟩
  · intro waits empty
    exact run.exists_enabled fresh waits empty
  · intro stopped
    refine ⟨?_, ?_, run.inevitably_finished fresh responds stopped, ?_⟩
    · intro more later goesOn index side after present found
      exact goesOn.calls_eq stopped present found
    · intro index side found stays
      exact run.enabled_or_woken fresh stopped found stays
    · intro allGone
      have agrees := run.agrees fresh
      cases doing : state.consumer with
      | waking next outcome =>
          exact Or.inr (exists_consumerStep_of_waking doing (Or.inr allGone))
      | finished outcome => exact Or.inl ⟨outcome, rfl⟩
      | _ =>
          rw [doing, stopped] at agrees
          cases agrees
  · intro index begin side begins found gone
    exact (run.readFrom fresh begins found).closed gone

end Runs

/-! ## Sequences that respond -/

namespace Sequence

/-- Whether a sequence goes on or comes out after each of its units. -/
def GoesOn : Sequence α → Prop
  | endless _ => True
  | finite _ outcome => outcome.isSome = true

/-- A sequence that goes on or comes out answers each call at once. -/
theorem GoesOn.advance {sequence : Sequence α} (goesOn : sequence.GoesOn) (log : Log) :
    (source.advance sequence log).2.1.GoesOn ∧ (source.advance sequence log).1 ≠ .working := by
  cases sequence with
  | endless unit => exact ⟨trivial, nofun⟩
  | finite units outcome =>
      cases units with
      | cons unit rest => exact ⟨goesOn, nofun⟩
      | nil =>
          rcases outcome with _ | _ | failure
          · cases goesOn
          · exact ⟨rfl, nofun⟩
          · exact ⟨rfl, nofun⟩

theorem GoesOn.responds {sequence : Sequence α} (goesOn : sequence.GoesOn) :
    source.Responds sequence := by
  intro state reaches
  have later : state.GoesOn := by
    induction reaches with
    | start => exact goesOn
    | advance log _ inductionHypothesis => exact (inductionHypothesis.advance log).1
  refine Acc.intro state fun next stalls => ?_
  obtain ⟨log, working, -⟩ := stalls
  exact False.elim ((later.advance log).2 working)

end Sequence

/-- Two sides, one of which fails, with one item in the consumer's hands, and then left early. -/
theorem driven_by_demand_of_two_sides :
    ∃ (first state : State (Sequence Nat) Nat) (passages : List (Passage Nat))
      (side : Side (Sequence Nat) Nat),
      Run Sequence.source first passages state ∧ state.consumer = .holding 0 1 ∧
        state.sides[1]? = some side ∧ state.tokens 1 side = 1 ∧
        Inevitably Sequence.source
          (fun later => (∃ outcome, later.consumer = .finished outcome) ∧
            later.sides.all Side.isGone = true) (close state) := by
  obtain ⟨first, side, started, holds, live, going, found⟩ :
      ∃ first side,
        start [Sequence.finite [1, 2] (some .exhausted),
          Sequence.finite [3] (some (.failed .base64))] none Log.empty = .ok first ∧
          (take Sequence.source 40 1 first).2.2.consumer = .holding 0 1 ∧
          (take Sequence.source 40 1 first).2.2.live = 2 ∧
          (take Sequence.source 40 1 first).2.2.stopped = false ∧
          (take Sequence.source 40 1 first).2.2.sides[1]? = some side :=
    ⟨_, _, rfl, rfl, rfl, rfl, rfl⟩
  obtain ⟨passages, run⟩ := run_take Sequence.source 40 1 first
  have responds : ∀ begin ∈ [Sequence.finite [1, 2] (some .exhausted),
      Sequence.finite [3] (some (.failed .base64))], Sequence.source.Responds begin := by
    simp only [List.forall_mem_cons]
    exact ⟨Sequence.GoesOn.responds rfl, Sequence.GoesOn.responds rfl, List.forall_mem_nil _⟩
  have unseen : ∀ outcome, (1, Message.last outcome) ∉ received passages := by
    have knows := run.knows (fresh_of_start started)
    rw [holds, live] at knows
    obtain ⟨noFailure, counted, -⟩ := knows
    have noEnd : endedSides (received passages) = [] :=
      List.length_eq_zero_iff.mp (Nat.add_right_cancel counted)
    intro outcome seen
    cases outcome with
    | exhausted =>
        exact absurd (mem_endedSides_iff.mpr seen) (by rw [noEnd]; exact List.not_mem_nil)
    | failed failure =>
        exact absurd (mem_failures_iff.mpr seen) (by rw [noFailure]; exact List.not_mem_nil)
  have left := run.step (Step.close holds)
  have stopped : (close (take Sequence.source 40 1 first).2.2).stopped = true := by
    rw [close, holds]
  refine ⟨first, _, passages, side, run, holds, found, ?_, ?_⟩
  · exact (run.driven_by_demand started responds).1 going (by simp [holds]) 1 side found unseen
  · exact ((left.driven_by_demand started responds).2.2.2.2.1 stopped).2.2.1

end LedgerBook.Merge
