import LedgerBook.Merge
/-!
Runs of a merge: its workers, its consumer and whoever reads the merged sequence take steps in any
order. A run remembers what passed through the queue.
-/
namespace LedgerBook.Merge

variable {σ α : Type}

/-- One step of a merge, and what it does to the queue. Whoever reads the merged sequence may ask
for the next item or leave whenever there is an item in its hands. -/
inductive Step (source : Source σ α) : State σ α → Passage α → State σ α → Prop
  | worker {state next : State σ α} {passage : Passage α} (index : Nat) :
      workerStep source index state = some (passage, next) →
      Step source state passage next
  | consumer {state next : State σ α} {passage : Passage α} :
      consumerStep state = some (passage, next) →
      Step source state passage next
  | request {state : State σ α} {index : Nat} {value : α} :
      state.consumer = .holding index value →
      Step source state .nothing (request state)
  | close {state : State σ α} {index : Nat} {value : α} :
      state.consumer = .holding index value →
      Step source state .nothing (close state)

/-- Some steps, one after the other, and what each of them does to the queue. -/
inductive Run (source : Source σ α) (first : State σ α) :
    List (Passage α) → State σ α → Prop
  | start : Run source first [] first
  | step {passages : List (Passage α)} {passage : Passage α} {state next : State σ α} :
      Run source first passages state →
      Step source state passage next →
      Run source first (passages ++ [passage]) next

/-- A merge that has just started: no worker has done anything, and nothing is demanded yet. -/
structure Fresh (sources : List σ) (first : State σ α) : Prop where
  sources_eq : first.sides.map Side.source = sources
  idle : ∀ side ∈ first.sides, side.worker = .waiting ∧ side.demand = 0
  queue_eq : first.queue = []
  consumer_eq :
    first.consumer = if sources.isEmpty then .finished (some .exhausted) else .starting 0
  live_eq : first.live = sources.length
  going : first.stopped = false

theorem fresh_of_start {sources : List σ} {names : Option (List Json)} {log : Log}
    {first : State σ α} (started : start sources names log = .ok first) :
    Fresh sources first := by
  unfold start at started
  by_cases named : (names.getD (defaultLabels sources.length)).length = sources.length
  · rw [if_pos named] at started
    cases started
    refine ⟨?_, ?_, rfl, rfl, rfl, rfl⟩
    · rw [List.map_map]
      exact List.map_snd_zip (Nat.le_of_eq named.symm)
    · intro side member
      obtain ⟨_, _, rfl⟩ := List.mem_map.mp member
      exact ⟨rfl, rfl⟩
  · rw [if_neg named] at started
    cases started

/-! ## What passes through the queue -/

/-- The entry that a step puts into the queue. -/
def Passage.put? : Passage α → Option (Nat × Message α)
  | .put entry => some entry
  | _ => none

/-- The entry that a step takes from the queue. -/
def Passage.taken? : Passage α → Option (Nat × Message α)
  | .taken entry => some entry
  | _ => none

/-- All entries that have reached the queue, in the order of the queue. -/
def arrived (passages : List (Passage α)) : List (Nat × Message α) :=
  passages.filterMap Passage.put?

/-- All entries that the consumer has taken from the queue. -/
def received (passages : List (Passage α)) : List (Nat × Message α) :=
  passages.filterMap Passage.taken?

/-- The messages of one side among some entries. -/
def messagesOf (index : Nat) (entries : List (Nat × Message α)) : List (Message α) :=
  (entries.filter (·.1 == index)).map (·.2)

/-- The item of a message, if it holds one. -/
def Message.item? : Message α → Option α
  | .item value => some value
  | .last _ => none

/-- The items of a side that have been handed to the consumer. -/
def delivered (index : Nat) (passages : List (Passage α)) : List α :=
  (messagesOf index (received passages)).filterMap Message.item?

@[simp]
theorem arrived_snoc (passages : List (Passage α)) (passage : Passage α) :
    arrived (passages ++ [passage]) = arrived passages ++ passage.put?.toList := by
  cases passage <;> simp [arrived, Passage.put?]

@[simp]
theorem received_snoc (passages : List (Passage α)) (passage : Passage α) :
    received (passages ++ [passage]) = received passages ++ passage.taken?.toList := by
  cases passage <;> simp [received, Passage.taken?]

@[simp]
theorem messagesOf_append (index : Nat) (entries others : List (Nat × Message α)) :
    messagesOf index (entries ++ others) =
      messagesOf index entries ++ messagesOf index others := by
  simp [messagesOf]

theorem mem_messagesOf_iff {index : Nat} {message : Message α}
    {entries : List (Nat × Message α)} :
    message ∈ messagesOf index entries ↔ (index, message) ∈ entries := by
  simp [messagesOf]

/-! ## What one step does -/

/-- Everything that a step can do. -/
inductive Change (source : Source σ α) (state : State σ α) : Passage α → State σ α → Prop
  /-- A worker takes a step, by which only its own side changes. -/
  | worker {passage : Passage α} (index : Nat) {side after : Side σ α}
      {message : Option (Message α)} {log : Log} :
      state.sides[index]? = some side →
      side.step source state.stopped state.log = some (message, after, log) →
      passage.put? = message.map (index, ·) →
      passage.taken? = none →
      Change source state passage
        { state with
          sides := state.sides.set index after
          queue := state.queue ++ (message.map (index, ·)).toList
          log := log }
  /-- A side gets its first demand. -/
  | begin {side : Nat} :
      state.consumer = .starting side →
      Change source state .nothing
        { state.release side with
          consumer := if side + 1 < state.sides.length then .starting (side + 1) else .waiting }
  /-- The consumer gets an item. -/
  | item {index : Nat} {value : α} {rest : List (Nat × Message α)} :
      state.consumer = .waiting →
      state.queue = (index, .item value) :: rest →
      Change source state (.taken (index, .item value))
        { state with queue := rest, consumer := .holding index value }
  /-- The consumer sees a failure. -/
  | failure {index : Nat} {failure : Failure} {rest : List (Nat × Message α)} :
      state.consumer = .waiting →
      state.queue = (index, .last (.failed failure)) :: rest →
      Change source state (.taken (index, .last (.failed failure)))
        { state with queue := rest, consumer := .leaving (.failed failure) }
  /-- The consumer sees the end of a side. -/
  | ended {index : Nat} {rest : List (Nat × Message α)} {log : Log} :
      state.consumer = .waiting →
      state.queue = (index, .last .exhausted) :: rest →
      Change source state (.taken (index, .last .exhausted))
        { state with
          queue := rest
          log := log
          live := state.live - 1
          consumer := if state.live - 1 = 0 then .leaving .exhausted else .waiting }
  /-- The workers are told to leave. -/
  | stop {outcome : Outcome} :
      state.consumer = .leaving outcome →
      Change source state .nothing
        { state with stopped := true, consumer := .waking 0 (some outcome) }
  /-- A worker is woken so that it leaves. -/
  | wake {side : Nat} {outcome : Option Outcome} :
      state.consumer = .waking side outcome →
      side < state.sides.length →
      Change source state .nothing
        { state.release side with consumer := .waking (side + 1) outcome }
  /-- All workers are gone. -/
  | finish {side : Nat} {outcome : Option Outcome} :
      state.consumer = .waking side outcome →
      ¬ side < state.sides.length →
      state.sides.all Side.isGone →
      Change source state .nothing { state with consumer := .finished outcome }
  /-- The next item is asked for. -/
  | request {index : Nat} {value : α} :
      state.consumer = .holding index value →
      Change source state .nothing { state.release index with consumer := .waiting }
  /-- The merged sequence is left early. -/
  | close {index : Nat} {value : α} :
      state.consumer = .holding index value →
      Change source state .nothing { state with stopped := true, consumer := .waking 0 none }

section Steps

variable {source : Source σ α} {state next : State σ α} {passage : Passage α}

theorem change_of_workerStep {index : Nat}
    (taken : workerStep source index state = some (passage, next)) :
    Change source state passage next := by
  simp only [workerStep, Option.bind_eq_bind, Option.bind_eq_some_iff] at taken
  obtain ⟨side, found, ⟨message, after, log⟩, stepped, result⟩ := taken
  cases message with
  | none =>
      cases result
      have worked : Change source state .nothing _ :=
        Change.worker index found stepped rfl rfl
      simpa using worked
  | some message =>
      cases result
      exact Change.worker index found stepped rfl rfl

theorem change_of_consumerStep
    (taken : consumerStep state = some (passage, next)) :
    Change source state passage next := by
  unfold consumerStep at taken
  split at taken
  next side starting =>
      cases taken
      exact Change.begin starting
  next waiting =>
      split at taken
      · cases taken
      next entry rest queued =>
        cases taken
        obtain ⟨index, message⟩ := entry
        cases message with
        | item value =>
            exact Change.item waiting queued
        | last outcome =>
            cases outcome with
            | exhausted => exact Change.ended waiting queued
            | failed failure => exact Change.failure waiting queued
  next outcome leaving =>
      cases taken
      exact Change.stop leaving
  next side outcome waking =>
      split at taken
      next within =>
        cases taken
        exact Change.wake waking within
      next beyond =>
        split at taken
        next allGone =>
          cases taken
          exact Change.finish waking beyond allGone
        next =>
          cases taken
  next => cases taken
  next => cases taken

/-- A step does one of the things that a step can do. -/
theorem Step.change (step : Step source state passage next) :
    Change source state passage next := by
  cases step with
  | worker index taken =>
      exact change_of_workerStep taken
  | consumer taken =>
      exact change_of_consumerStep taken
  | request holds =>
      have asked : Change source state .nothing _ := Change.request holds
      simpa only [Merge.request, holds] using asked
  | close holds =>
      have left : Change source state .nothing _ := Change.close holds
      simpa only [Merge.close, holds] using left

/-- The queue keeps its order: what a step puts in comes last, and what it takes out came first. -/
theorem Step.queue_eq (step : Step source state passage next) :
    state.queue ++ passage.put?.toList = passage.taken?.toList ++ next.queue := by
  cases step.change with
  | worker index found stepped put taken =>
      simp [put, taken]
  | item waiting queued =>
      simp [queued, Passage.put?, Passage.taken?]
  | failure waiting queued =>
      simp [queued, Passage.put?, Passage.taken?]
  | ended waiting queued =>
      simp [queued, Passage.put?, Passage.taken?]
  | _ =>
      simp [Passage.put?, Passage.taken?, State.release]

/-- The number of sides never changes. -/
theorem Step.length_sides (step : Step source state passage next) :
    next.sides.length = state.sides.length := by
  cases step.change with
  | worker index found stepped put taken =>
      simp
  | _ =>
      simp [State.release]

theorem messagesOf_put_self {index : Nat} {message : Option (Message α)}
    (put : passage.put? = message.map (index, ·)) :
    messagesOf index passage.put?.toList = message.toList := by
  rw [put]
  cases message <;> simp [messagesOf]

theorem messagesOf_put_of_ne {index moved : Nat} (other : moved ≠ index)
    {message : Option (Message α)} (put : passage.put? = message.map (moved, ·)) :
    messagesOf index passage.put?.toList = [] := by
  rw [put]
  cases message <;> simp [messagesOf, other]

/-- Where one side is replaced, a side is the new one or was there before. -/
theorem getElem?_set_cases {sides : List (Side σ α)} {moved index : Nat}
    {before changed after : Side σ α} (present : sides[moved]? = some before)
    (found : (sides.set moved changed)[index]? = some after) :
    moved = index ∧ changed = after ∨ moved ≠ index ∧ sides[index]? = some after := by
  by_cases same : moved = index
  · subst same
    have within := (List.getElem?_eq_some_iff.mp present).1
    rw [List.getElem?_set_self within] at found
    exact Or.inl ⟨rfl, Option.some.inj found⟩
  · rw [List.getElem?_set_ne same] at found
    exact Or.inr ⟨same, found⟩

/-- A demand changes neither worker nor source. -/
theorem getElem?_release {given index : Nat} {after : Side σ α}
    (found : (state.release given).sides[index]? = some after) :
    ∃ before, state.sides[index]? = some before ∧
      after.worker = before.worker ∧ after.source = before.source ∧
        after.demand = before.demand + if given = index then 1 else 0 := by
  simp only [State.release, List.getElem?_modify] at found
  obtain ⟨before, present, rfl⟩ := Option.map_eq_some_iff.mp found
  refine ⟨before, present, ?_⟩
  split <;> exact ⟨rfl, rfl, rfl⟩

/-- A step of a side's own worker, or a step by which worker and source stay as they are. -/
theorem Step.side (step : Step source state passage next) {index : Nat} {after : Side σ α}
    (found : next.sides[index]? = some after) :
    ∃ before, state.sides[index]? = some before ∧
      ((∃ message log, before.step source state.stopped state.log = some (message, after, log) ∧
          messagesOf index passage.put?.toList = message.toList ∧ next.stopped = state.stopped) ∨
        after.worker = before.worker ∧ after.source = before.source ∧
          messagesOf index passage.put?.toList = []) := by
  have released {given : Nat} (found : (state.release given).sides[index]? = some after) :
      ∃ before, state.sides[index]? = some before ∧
        after.worker = before.worker ∧ after.source = before.source := by
    obtain ⟨before, present, sameWorker, sameSource, -⟩ := getElem?_release found
    exact ⟨before, present, sameWorker, sameSource⟩
  cases step.change with
  | @worker _ moved before changed message log present stepped put taken =>
      rcases getElem?_set_cases present found with ⟨rfl, rfl⟩ | ⟨other, stays⟩
      · exact ⟨before, present, Or.inl ⟨message, log, stepped, messagesOf_put_self put, rfl⟩⟩
      · exact ⟨after, stays, Or.inr ⟨rfl, rfl, messagesOf_put_of_ne other put⟩⟩
  | begin | wake | request =>
      obtain ⟨before, present, sameWorker, sameSource⟩ := released found
      exact ⟨before, present, Or.inr ⟨sameWorker, sameSource, rfl⟩⟩
  | _ => exact ⟨after, found, Or.inr ⟨rfl, rfl, rfl⟩⟩

/-- The sign to leave is never taken back. -/
theorem Step.stopped (step : Step source state passage next) (stopped : state.stopped = true) :
    next.stopped = true := by
  cases step.change with
  | stop => rfl
  | close => rfl
  | _ => exact stopped

end Steps

/-! ## What a run does -/

section Runs

variable {source : Source σ α} {first state : State σ α} {passages : List (Passage α)}

/-- The queue is first in, first out: what has arrived and was not received is in the queue. -/
theorem Run.arrived_eq (run : Run source first passages state) (empty : first.queue = []) :
    arrived passages = received passages ++ state.queue := by
  induction run with
  | start =>
      simp [arrived, received, empty]
  | @step passages passage state next earlier step inductionHypothesis =>
      calc
        arrived (passages ++ [passage])
          = received passages ++ (state.queue ++ passage.put?.toList) := by
              simp [inductionHypothesis]
        _ = received passages ++ (passage.taken?.toList ++ next.queue) := by
              rw [step.queue_eq]
        _ = received (passages ++ [passage]) ++ next.queue := by
              simp

theorem Run.length_sides (run : Run source first passages state) :
    state.sides.length = first.sides.length := by
  induction run with
  | start =>
      rfl
  | step _ step inductionHypothesis =>
      exact step.length_sides.trans inductionHypothesis

theorem Run.trans (run : Run source first passages state)
    {more : List (Passage α)} {last : State σ α} (goesOn : Run source state more last) :
    Run source first (passages ++ more) last := by
  induction goesOn with
  | start =>
      simpa using run
  | step _ step inductionHypothesis =>
      rw [← List.append_assoc]
      exact inductionHypothesis.step step

theorem Run.of_step {passage : Passage α} {next : State σ α}
    (step : Step source first passage next) :
    Run source first [passage] next :=
  Run.start.step step

end Runs

/-! ## What is handed over -/

/-- The item, with its side, that the reader of the merged sequence has in its hands after a step
and had not before it. -/
def Consumer.handed? : Consumer α → Consumer α → Option (Nat × α)
  | .holding _ _, _ => none
  | _, .holding index value => some (index, value)
  | _, _ => none

/-- Some steps, one after the other, and the items, with their sides, that they put into the hands
of the reader. -/
inductive HandsOver (source : Source σ α) (first : State σ α) :
    List (Passage α) → List (Nat × α) → State σ α → Prop
  | start : HandsOver source first [] [] first
  | step {passages : List (Passage α)} {items : List (Nat × α)} {passage : Passage α}
      {state next : State σ α} :
      HandsOver source first passages items state →
      Step source state passage next →
      HandsOver source first (passages ++ [passage])
        (items ++ (state.consumer.handed? next.consumer).toList) next

/-- The items among some entries, with their sides. -/
def itemsAmong (entries : List (Nat × Message α)) : List (Nat × α) :=
  entries.filterMap fun entry => entry.2.item?.map (entry.1, ·)

@[simp]
theorem itemsAmong_append (entries others : List (Nat × Message α)) :
    itemsAmong (entries ++ others) = itemsAmong entries ++ itemsAmong others := by
  simp [itemsAmong]

theorem map_itemsAmong (entries : List (Nat × Message α)) :
    (itemsAmong entries).map (·.2) = entries.filterMap fun entry => entry.2.item? := by
  simp [itemsAmong, List.map_filterMap, Function.comp_def]

theorem itemsAmong_filter (index : Nat) (entries : List (Nat × Message α)) :
    itemsAmong (entries.filter (·.1 == index)) =
      (itemsAmong entries).filter (·.1 == index) := by
  induction entries with
  | nil => rfl
  | cons entry rest inductionHypothesis =>
      have first : itemsAmong ([entry].filter (·.1 == index)) =
          (itemsAmong [entry]).filter (·.1 == index) := by
        obtain ⟨side, item | outcome⟩ := entry
        · by_cases same : side = index <;> simp [itemsAmong, Message.item?, same]
        · by_cases same : side = index <;> simp [itemsAmong, Message.item?, same]
      rw [← List.singleton_append, List.filter_append, itemsAmong_append, itemsAmong_append,
        List.filter_append, first, inductionHypothesis]

/-- The units delivered of a side are the items of that side that were received. -/
theorem delivered_eq_itemsAmong (index : Nat) (passages : List (Passage α)) :
    delivered index passages =
      ((itemsAmong (received passages)).filter (·.1 == index)).map (·.2) := by
  rw [delivered, messagesOf, List.filterMap_map, ← itemsAmong_filter, map_itemsAmong]
  rfl

section HandingOver

variable {source : Source σ α} {first state next : State σ α} {passage : Passage α}
  {passages : List (Passage α)} {items : List (Nat × α)}

/-- An item that is taken from the queue is what the reader then has in its hands, and it gets
items in no other way. -/
theorem Step.handed_eq (step : Step source state passage next) :
    (state.consumer.handed? next.consumer).toList = itemsAmong passage.taken?.toList := by
  cases step.change with
  | worker index found stepped put taken =>
      rw [taken]
      cases state.consumer <;> rfl
  | begin before | ended before =>
      rw [before]
      split <;> rfl
  | item before | failure before | stop before | wake before | finish before | request before
  | close before =>
      rw [before]
      rfl

theorem HandsOver.items_eq (hands : HandsOver source first passages items state) :
    items = itemsAmong (received passages) := by
  induction hands with
  | start => rfl
  | step _ step inductionHypothesis =>
      rw [received_snoc, itemsAmong_append, inductionHypothesis, step.handed_eq]

theorem Run.exists_handsOver (run : Run source first passages state) :
    ∃ items, HandsOver source first passages items state := by
  induction run with
  | start => exact ⟨[], .start⟩
  | step _ step inductionHypothesis =>
      obtain ⟨items, hands⟩ := inductionHypothesis
      exact ⟨_, hands.step step⟩

/-- What counts as delivered of a side are the items of that side that the reader got. -/
theorem HandsOver.delivered_eq (hands : HandsOver source first passages items state)
    (index : Nat) :
    delivered index passages = (items.filter (·.1 == index)).map (·.2) := by
  rw [hands.items_eq, delivered_eq_itemsAmong]

end HandingOver

/-! ## The one order in which a merge is run -/

section Order

variable {source : Source σ α} {state next : State σ α}

theorem step_of_anyStep {passage : Passage α}
    (taken : anyStep source state = some (passage, next)) :
    Step source state passage next := by
  have ofWorkers :
      ∀ indices : List Nat,
        firstWorkerStep source state indices = some (passage, next) →
        Step source state passage next := by
    intro indices
    induction indices with
    | nil =>
        intro none
        cases none
    | cons index rest inductionHypothesis =>
        intro found
        simp only [firstWorkerStep, Option.orElse_eq_orElse, Option.orElse_eq_or,
          Option.or_eq_some_iff] at found
        rcases found with here | ⟨_, later⟩
        · exact Step.worker index here
        · exact inductionHypothesis later
  simp only [anyStep, Option.orElse_eq_orElse, Option.orElse_eq_or,
    Option.or_eq_some_iff] at taken
  rcases taken with byConsumer | ⟨_, byWorker⟩
  · exact Step.consumer byConsumer
  · exact ofWorkers _ byWorker

/-- What is done in one order could have been done by a run. -/
theorem run_await (source : Source σ α) (limit : Nat) (state : State σ α) :
    ∃ passages, Run source state passages (await source limit state).2 := by
  induction limit generalizing state with
  | zero =>
      exact ⟨[], Run.start⟩
  | succ limit inductionHypothesis =>
      unfold await
      split
      · exact ⟨[], Run.start⟩
      · split
        next passage next taken =>
          obtain ⟨passages, rest⟩ := inductionHypothesis next
          exact ⟨_, (Run.of_step (step_of_anyStep taken)).trans rest⟩
        next =>
          exact ⟨[], Run.start⟩

theorem run_poll (source : Source σ α) (limit : Nat) (state : State σ α) :
    ∃ passages, Run source state passages (poll source limit state).2 := by
  unfold poll
  split
  next =>
    exact ⟨[], Run.start⟩
  next =>
    obtain ⟨passages, rest⟩ := run_await source limit (request state)
    cases held : state.consumer with
    | holding index value =>
        exact ⟨_, (Run.of_step (Step.request held)).trans rest⟩
    | _ =>
        have same : request state = state := by
          simp only [request, held]
        rw [same] at rest ⊢
        exact ⟨_, rest⟩

theorem run_take (source : Source σ α) (limit count : Nat) (state : State σ α) :
    ∃ passages, Run source state passages (take source limit count state).2.2 := by
  induction count generalizing state with
  | zero =>
      exact ⟨[], Run.start⟩
  | succ count inductionHypothesis =>
      obtain ⟨passages, run⟩ := run_poll source limit state
      unfold take
      split
      next value next polled =>
        rw [polled] at run
        obtain ⟨more, rest⟩ := inductionHypothesis next
        exact ⟨_, run.trans rest⟩
      next answer next _ polled =>
        rw [polled] at run
        exact ⟨_, run⟩

end Order

end LedgerBook.Merge
