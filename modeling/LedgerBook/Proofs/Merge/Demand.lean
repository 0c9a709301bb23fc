import LedgerBook.Proofs.Merge.Delivery
/-!
Demand in a merge. Until the workers are told to leave, every side whose end the consumer has not
seen has one token, which goes from the consumer to the worker and back by the queue. So no side is
ever more than one unit ahead of the consumer, and once the workers are told to leave no source is
called again.
-/
namespace LedgerBook.Merge

variable {σ α : Type}

/-! ## Tokens -/

/-- The token of a worker that has taken a demand and has not put its answer into the queue. -/
def Worker.token : Worker α → Nat
  | .called => 1
  | .pulling => 1
  | .putting _ => 1
  | _ => 0

/-- The token of a side whose item the consumer has in its hands. -/
def Consumer.token (index : Nat) : Consumer α → Nat
  | .holding side _ => if side = index then 1 else 0
  | _ => 0

/-- All tokens of a side: its demands not taken, its worker's, its messages in the queue, and that
of the item in the consumer's hands. -/
def State.tokens (state : State σ α) (index : Nat) (side : Side σ α) : Nat :=
  side.demand + side.worker.token + (messagesOf index state.queue).length +
    state.consumer.token index

/-- How many first demands a side has been given. -/
def Consumer.begun (index : Nat) : Consumer α → Nat
  | .starting next => if index < next then 1 else 0
  | _ => 1

/-- How often a side came out, by some entries. -/
def outcomesOf (index : Nat) (entries : List (Nat × Message α)) : Nat :=
  (messagesOf index entries).countP fun message => message.item?.isNone

/-- Whether the workers are told to leave agrees with what the consumer does. -/
def Consumer.Agrees : Consumer α → Bool → Prop
  | .waking _ _, stopped => stopped = true
  | .finished _, _ => True
  | _, stopped => stopped = false

/-- The tokens of a side make up for its first demand, until its end was received. -/
def Conserved (passages : List (Passage α)) (state : State σ α) : Prop :=
  state.stopped = false → ∀ (index : Nat) (side : Side σ α), state.sides[index]? = some side →
    state.tokens index side + outcomesOf index (received passages) = state.consumer.begun index

section Tokens

variable {source : Source σ α} {sources : List σ} {first state next : State σ α}
  {passages : List (Passage α)} {passage : Passage α}

theorem Consumer.Agrees.step (agrees : state.consumer.Agrees state.stopped)
    (step : Step source state passage next) : next.consumer.Agrees next.stopped := by
  cases step.change with
  | worker => exact agrees
  | begin starting =>
      rw [starting] at agrees
      simp only [State.release]
      split <;> exact agrees
  | item waiting => rw [waiting] at agrees; exact agrees
  | failure waiting => rw [waiting] at agrees; exact agrees
  | ended waiting =>
      rw [waiting] at agrees
      simp only
      split <;> exact agrees
  | stop => rfl
  | wake waking => rw [waking] at agrees; exact agrees
  | finish => trivial
  | request holds => rw [holds] at agrees; exact agrees
  | close => rfl

theorem Fresh.agrees (fresh : Fresh sources first) : first.consumer.Agrees first.stopped := by
  rw [fresh.consumer_eq, fresh.going]
  split <;> trivial

theorem Run.agrees (fresh : Fresh sources first) (run : Run source first passages state) :
    state.consumer.Agrees state.stopped := by
  induction run with
  | start => exact fresh.agrees
  | step _ step inductionHypothesis => exact inductionHypothesis.step step

/-- A worker hands its token on, as long as it is not told to leave. -/
theorem Side.token_step {side after : Side σ α} {message : Option (Message α)} {log later : Log}
    (stepped : side.step source false log = some (message, after, later)) :
    after.demand + after.worker.token + message.toList.length =
      side.demand + side.worker.token := by
  obtain ⟨label, origin, worker, demand⟩ := side
  cases worker with
  | waiting =>
      simp only [Side.step] at stepped
      split at stepped
      · cases stepped
      · cases stepped
        simp only [Worker.token, Option.toList_none, List.length_nil]
        omega
  | called =>
      cases stepped
      rfl
  | pulling =>
      cases stepped
      simp only [Worker.ofProgress]
      split <;> rfl
  | putting message =>
      cases stepped
      cases message <;> rfl
  | gone => cases stepped

theorem outcomesOf_snoc (index : Nat) (passages : List (Passage α)) (passage : Passage α) :
    outcomesOf index (received (passages ++ [passage])) =
      outcomesOf index (received passages) + outcomesOf index passage.taken?.toList := by
  rw [received_snoc, outcomesOf, messagesOf_append, List.countP_append]
  rfl

private theorem outcomesOf_nil (index : Nat) :
    outcomesOf index (none : Option (Nat × Message α)).toList = 0 :=
  rfl

private theorem outcomesOf_item (index side : Nat) (value : α) :
    outcomesOf index (some (side, Message.item value)).toList = 0 := by
  by_cases same : side = index <;> simp [outcomesOf, messagesOf, same, Message.item?]

private theorem outcomesOf_last (index side : Nat) (outcome : Outcome) :
    outcomesOf index (some (side, (Message.last outcome : Message α))).toList =
      if side = index then 1 else 0 := by
  by_cases same : side = index <;> simp [outcomesOf, messagesOf, same, Message.item?]

theorem length_messagesOf_cons (index side : Nat) (message : Message α)
    (rest : List (Nat × Message α)) :
    (messagesOf index ((side, message) :: rest)).length =
      (messagesOf index rest).length + if side = index then 1 else 0 := by
  by_cases same : side = index <;> simp [messagesOf, same]

theorem Conserved.step (conserved : Conserved passages state)
    (agrees : state.consumer.Agrees state.stopped) (step : Step source state passage next) :
    Conserved (passages ++ [passage]) next := by
  intro going index side found
  rw [outcomesOf_snoc]
  cases step.change with
  | @worker _ moved before after message log present stepped put taken =>
      rw [taken]
      -- The side of the worker exchanges its token with the queue, any other side keeps its own.
      rcases getElem?_set_cases present found with ⟨rfl, rfl⟩ | ⟨other, found⟩
      · have balance := conserved going moved before present
        have handed := Side.token_step (going ▸ stepped)
        have queued :
            (messagesOf moved (state.queue ++ (message.map (moved, ·)).toList)).length =
              (messagesOf moved state.queue).length + message.toList.length := by
          cases message <;> simp [messagesOf]
        simp only [State.tokens, queued] at balance ⊢
        simp only [outcomesOf, messagesOf, Option.toList_none, List.filter_nil, List.map_nil,
          List.countP_nil] at balance ⊢
        omega
      · have balance := conserved going index side found
        have queued :
            messagesOf index (state.queue ++ (message.map (moved, ·)).toList) =
              messagesOf index state.queue := by
          cases message <;> simp [messagesOf, other]
        simp only [State.tokens, queued] at balance ⊢
        exact balance
  | @begin starter starting =>
      obtain ⟨before, present, sameWorker, -, oneMore⟩ := getElem?_release found
      have within : index < state.sides.length := (List.getElem?_eq_some_iff.mp present).1
      have balance := conserved going index before present
      -- A side has no token until it is begun with, and then a demand.
      have noToken :
          (if starter + 1 < state.sides.length then Consumer.starting (starter + 1)
            else .waiting : Consumer α).token index = 0 := by
        split <;> rfl
      have begun :
          (if starter + 1 < state.sides.length then Consumer.starting (starter + 1)
            else .waiting : Consumer α).begun index =
            (Consumer.starting starter : Consumer α).begun index +
              if starter = index then 1 else 0 := by
        split
        next more =>
          simp only [Consumer.begun]
          split <;> split <;> split <;> omega
        next last =>
          simp only [Consumer.begun]
          split <;> split <;> omega
      simp only [State.tokens, starting, sameWorker, oneMore] at balance ⊢
      rw [noToken, begun, ← balance]
      simp only [Passage.taken?, outcomesOf_nil, State.release, Consumer.token]
      omega
  | @item taker value rest waiting queued =>
      have balance := conserved going index side found
      simp only [State.tokens, waiting, queued, length_messagesOf_cons, Consumer.token,
        Consumer.begun, Passage.taken?, outcomesOf_item] at balance ⊢
      omega
  | @failure failed failure rest waiting queued =>
      have balance := conserved going index side found
      simp only [State.tokens, waiting, queued, length_messagesOf_cons, Consumer.token,
        Consumer.begun, Passage.taken?, outcomesOf_last] at balance ⊢
      omega
  | @ended finished rest log waiting queued =>
      have balance := conserved going index side found
      have noToken :
          (if state.live - 1 = 0 then .leaving .exhausted else .waiting : Consumer α).token index =
            0 := by
        split <;> rfl
      have begun :
          (if state.live - 1 = 0 then .leaving .exhausted else .waiting : Consumer α).begun index =
            1 := by
        split <;> rfl
      simp only [State.tokens, waiting, queued, length_messagesOf_cons, Consumer.token,
        Consumer.begun] at balance
      simp only [State.tokens, noToken, begun, Passage.taken?, outcomesOf_last]
      omega
  | stop => cases going
  | wake waking | finish waking =>
      -- Workers are woken only when the merge is stopped.
      have told : state.stopped = true := by
        rw [waking] at agrees
        exact agrees
      have untold : state.stopped = false := going
      rw [told] at untold
      cases untold
  | @request holder value holds =>
      obtain ⟨before, present, sameWorker, -, oneMore⟩ := getElem?_release found
      have balance := conserved going index before present
      simp only [State.tokens, State.release, holds, Consumer.token, Consumer.begun, sameWorker,
        oneMore, Passage.taken?, outcomesOf_nil] at balance ⊢
      omega
  | close => cases going

theorem Fresh.conserved (fresh : Fresh sources first) : Conserved [] first := by
  intro going index side found
  obtain ⟨waits, none⟩ := fresh.idle side (List.mem_of_getElem? found)
  have some : sources ≠ [] := by
    intro empty
    have noSides : first.sides = [] := by
      rw [← List.length_eq_zero_iff, fresh.length_sides, empty, List.length_nil]
    rw [noSides] at found
    cases found
  rw [State.tokens, waits, none, fresh.queue_eq, fresh.consumer_eq, if_neg (by simpa using some)]
  rfl

theorem Run.conserved (fresh : Fresh sources first) (run : Run source first passages state) :
    Conserved passages state := by
  induction run with
  | start => exact fresh.conserved
  | step earlier step inductionHypothesis =>
      exact inductionHypothesis.step (earlier.agrees fresh) step

/-- Once all sides have been given their first demands and until the workers are told to leave, a
side whose end was not received has one token. -/
theorem Run.tokens_eq_one (fresh : Fresh sources first) (run : Run source first passages state)
    (going : state.stopped = false) (begun : ∀ next, state.consumer ≠ .starting next) {index : Nat}
    {side : Side σ α} (found : state.sides[index]? = some side)
    (unseen : ∀ outcome, (index, .last outcome) ∉ received passages) :
    state.tokens index side = 1 := by
  have balance := run.conserved fresh going index side found
  have none : outcomesOf index (received passages) = 0 := by
    rw [outcomesOf, List.countP_eq_zero]
    intro message member last
    cases message with
    | item value => cases last
    | last outcome => exact unseen outcome (mem_messagesOf_iff.mp member)
  have all : state.consumer.begun index = 1 := by
    cases doing : state.consumer with
    | starting next => exact False.elim (begun next doing)
    | _ => rfl
  omega

end Tokens

/-! ## Calls -/

/-- The call of a worker that waits for its source, or that has its answer and has not put it into
the queue. -/
def Worker.call : Worker α → Nat
  | .pulling => 1
  | .putting _ => 1
  | _ => 0

/-- The answer that a worker has not put into the queue yet. -/
def Worker.held : Worker α → List (Message α)
  | .putting message => [message]
  | _ => []

/-- How often the source of a side has been called: every call but one that is not over put an
answer into the queue. -/
def calls (index : Nat) (passages : List (Passage α)) (side : Side σ α) : Nat :=
  (messagesOf index (arrived passages)).length + side.worker.call

/-- The units that a side has got from its source. -/
def pulled (index : Nat) (passages : List (Passage α)) (side : Side σ α) : List α :=
  (messagesOf index (arrived passages) ++ side.worker.held).filterMap Message.item?

section Calls

variable {source : Source σ α} {sources : List σ} {first state next : State σ α}
  {passages : List (Passage α)} {passage : Passage α}

/-- A worker that is told to leave calls its source no more. -/
theorem Side.call_step {side after : Side σ α} {message : Option (Message α)} {log later : Log}
    (stepped : side.step source true log = some (message, after, later)) :
    after.worker.call + message.toList.length = side.worker.call := by
  obtain ⟨label, origin, worker, demand⟩ := side
  cases worker with
  | waiting =>
      simp only [Side.step] at stepped
      split at stepped
      · cases stepped
      · cases stepped
        rfl
  | called =>
      cases stepped
      rfl
  | pulling =>
      cases stepped
      simp only [Worker.ofProgress]
      split <;> rfl
  | putting message =>
      cases stepped
      cases message <;> rfl
  | gone => cases stepped

theorem Step.calls_eq (step : Step source state passage next) (stopped : state.stopped = true)
    {index : Nat} {after : Side σ α} (found : next.sides[index]? = some after) :
    ∃ before, state.sides[index]? = some before ∧
      calls index (passages ++ [passage]) after = calls index passages before := by
  obtain ⟨before, present, ⟨message, log, stepped, put, -⟩ | ⟨sameWorker, -, silent⟩⟩ :=
    step.side found
  · have handed := Side.call_step (stopped ▸ stepped)
    refine ⟨before, present, ?_⟩
    rw [calls, calls, arrived_snoc, messagesOf_append, put, List.length_append]
    omega
  · refine ⟨before, present, ?_⟩
    rw [calls, calls, arrived_snoc, messagesOf_append, silent, List.append_nil, sameWorker]

theorem Run.stopped {more : List (Passage α)} {later : State σ α}
    (goesOn : Run source state more later) (stopped : state.stopped = true) :
    later.stopped = true := by
  induction goesOn with
  | start => exact stopped
  | step _ step inductionHypothesis => exact step.stopped inductionHypothesis

/-- Once the workers are told to leave no source is called any more. -/
theorem Run.calls_eq {more : List (Passage α)} {later : State σ α}
    (goesOn : Run source state more later) (stopped : state.stopped = true) {index : Nat}
    {side after : Side σ α} (present : state.sides[index]? = some side)
    (found : later.sides[index]? = some after) :
    calls index (passages ++ more) after = calls index passages side := by
  induction goesOn generalizing after with
  | start =>
      rw [present] at found
      cases found
      rw [List.append_nil]
  | @step more passage later last earlier step inductionHypothesis =>
      obtain ⟨before, presentBefore, same⟩ :
          ∃ before, later.sides[index]? = some before ∧
            calls index (passages ++ more ++ [passage]) after =
              calls index (passages ++ more) before :=
        step.calls_eq (earlier.stopped stopped) found
      rw [← List.append_assoc, same, inductionHypothesis presentBefore]

/-- What a side is ahead of the consumer: a call, or messages in the queue. -/
def Ahead (state : State σ α) : Prop :=
  ∀ (index : Nat) (side : Side σ α), state.sides[index]? = some side →
    side.worker.call + (messagesOf index state.queue).length ≤ 1

theorem Worker.call_le_token (worker : Worker α) : worker.call ≤ worker.token := by
  cases worker <;> simp [Worker.call, Worker.token]

theorem Consumer.begun_le_one (index : Nat) (consumer : Consumer α) : consumer.begun index ≤ 1 := by
  unfold Consumer.begun
  split
  · split <;> omega
  · exact Nat.le_refl 1

theorem Conserved.ahead (conserved : Conserved passages state) (going : state.stopped = false) :
    Ahead state := by
  intro index side found
  have balance := conserved going index side found
  have bound := state.consumer.begun_le_one index
  have fewer := side.worker.call_le_token
  rw [State.tokens] at balance
  omega

theorem Ahead.step (ahead : Ahead state) (step : Step source state passage next)
    (stopped : next.stopped = true) : Ahead next := by
  intro index after found
  have queued := congrArg (fun entries => (messagesOf index entries).length) step.queue_eq
  simp only [messagesOf_append, List.length_append] at queued
  obtain ⟨before, present, ⟨message, log, stepped, put, same⟩ | ⟨sameWorker, -, silent⟩⟩ :=
    step.side found
  · rw [← same, stopped] at stepped
    have handed := Side.call_step stepped
    have bound := ahead index before present
    rw [put] at queued
    omega
  · have bound := ahead index before present
    rw [silent, List.length_nil] at queued
    rw [sameWorker]
    omega

theorem Run.ahead (fresh : Fresh sources first) (run : Run source first passages state) :
    Ahead state := by
  induction run with
  | start => exact fresh.conserved.ahead fresh.going
  | @step passages passage state next earlier step inductionHypothesis =>
      cases stopped : next.stopped with
      | false => exact ((earlier.step step).conserved fresh).ahead stopped
      | true => exact inductionHypothesis.step step stopped

/-- No side is more than one unit ahead of the consumer. -/
theorem Run.length_pulled_le (fresh : Fresh sources first) (run : Run source first passages state)
    {index : Nat} {side : Side σ α} (found : state.sides[index]? = some side) :
    (pulled index passages side).length ≤ (delivered index passages).length + 1 := by
  have bound := run.ahead fresh index side found
  have held : side.worker.held.length ≤ side.worker.call := by
    cases side.worker <;> simp [Worker.held, Worker.call]
  have units : ((messagesOf index state.queue ++ side.worker.held).filterMap
      Message.item?).length ≤ 1 := by
    refine (List.length_filterMap_le _ _).trans ?_
    rw [List.length_append]
    omega
  rw [pulled, run.messagesOf_arrived fresh, List.append_assoc, List.filterMap_append,
    List.length_append]
  exact Nat.add_le_add_left units _

/-- What a side has got is what its source has handed out since the beginning. -/
theorem Story.hands {begin : σ} {stopped : Bool} {sent : List (Message α)} {worker : Worker α}
    {state : σ} (story : Story source begin stopped sent worker state) :
    ∃ reached, source.Hands begin ((sent ++ worker.held).filterMap Message.item?) reached := by
  have units {units : List α} {reached : σ} (hands : source.Hands begin units reached) :
      source.Hands begin ((units.map Message.item ++ []).filterMap Message.item?) reached := by
    rw [List.append_nil, Source.items_map_item]
    exact hands
  have noUnit {outcome : Outcome} :
      [(Message.last outcome : Message α)].filterMap Message.item? = [] :=
    rfl
  cases story with
  | waiting hands => exact ⟨_, units hands⟩
  | called hands => exact ⟨_, units hands⟩
  | pulling hands => exact ⟨_, units hands⟩
  | @puttingUnit given unit _ hands =>
      refine ⟨state, ?_⟩
      have same : given.map Message.item ++ [Message.item unit] = (given ++ [unit]).map .item := by
        simp
      rw [Worker.held, same, Source.items_map_item]
      exact hands
  | @puttingOutcome given outcome _ finishes =>
      obtain ⟨reached, _, hands, _⟩ := finishes
      refine ⟨reached, ?_⟩
      rw [Worker.held, List.filterMap_append, Source.items_map_item, noUnit, List.append_nil]
      exact hands
  | dismissed _ hands => exact ⟨_, units hands⟩
  | @finished given outcome _ finishes =>
      obtain ⟨reached, _, hands, _⟩ := finishes
      refine ⟨reached, ?_⟩
      have silent : (Worker.gone : Worker α).held = [] := rfl
      rw [silent, List.append_nil, List.filterMap_append, Source.items_map_item, noUnit,
        List.append_nil]
      exact hands

end Calls

end LedgerBook.Merge
