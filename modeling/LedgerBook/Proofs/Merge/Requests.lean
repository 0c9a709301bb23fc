import LedgerBook.Proofs.Merge.Run
import Mathlib.Logic.Function.Basic
/-!
What a merge requests. Only a worker that waits for its source adds requests to the log, and what it
adds are the requests of its own source.
-/
namespace LedgerBook.Merge

variable {σ α : Type}

/-! ## Workers and others -/

/-- A step that no worker takes: of the consumer, or of whoever reads the merged sequence. -/
inductive OtherStep (state : State σ α) : Passage α → State σ α → Prop
  | consumer {passage : Passage α} {next : State σ α} :
      consumerStep state = some (passage, next) → OtherStep state passage next
  | request {index : Nat} {value : α} :
      state.consumer = .holding index value → OtherStep state .nothing (request state)
  | close {index : Nat} {value : α} :
      state.consumer = .holding index value → OtherStep state .nothing (close state)

section Steps

variable {source : Source σ α} {state next : State σ α} {passage : Passage α}

theorem OtherStep.step (other : OtherStep state passage next) : Step source state passage next := by
  cases other with
  | consumer taken => exact .consumer taken
  | request holds => exact .request holds
  | close holds => exact .close holds

theorem Step.cases_worker (step : Step source state passage next) :
    (∃ index, workerStep source index state = some (passage, next)) ∨
      OtherStep state passage next := by
  cases step with
  | worker index taken => exact .inl ⟨index, taken⟩
  | consumer taken => exact .inr (.consumer taken)
  | request holds => exact .inr (.request holds)
  | close holds => exact .inr (.close holds)

/-- Everything that a worker's step does: the worker takes a step of its own side, and its message
is put into the queue. -/
theorem exists_sideStep {index : Nat}
    (taken : workerStep source index state = some (passage, next)) :
    ∃ side message after, state.sides[index]? = some side ∧
      side.step source state.stopped state.log = some (message, after, next.log) ∧
      next.sides = state.sides.set index after ∧ next.stopped = state.stopped ∧
      passage.put? = message.map (index, ·) := by
  simp only [workerStep, Option.bind_eq_bind, Option.bind_eq_some_iff] at taken
  obtain ⟨side, found, ⟨message, after, log⟩, stepped, result⟩ := taken
  cases message with
  | none =>
      cases result
      exact ⟨side, none, after, found, stepped, rfl, rfl, rfl⟩
  | some message =>
      cases result
      exact ⟨side, some message, after, found, stepped, rfl, rfl, rfl⟩

theorem requests_receive (state : State σ α) (entry : Nat × Message α) :
    (state.receive entry).log.requests = state.log.requests ∧
      (state.receive entry).sides = state.sides ∧
      (state.receive entry).stopped = state.stopped := by
  obtain ⟨index, message⟩ := entry
  rcases message with value | _ | failure <;> exact ⟨rfl, rfl, rfl⟩

/-- No other step adds a request, puts a message into the queue, or changes more of the sides than
their demands. -/
theorem OtherStep.spec (other : OtherStep state passage next) :
    next.log.requests = state.log.requests ∧ passage.put? = none ∧
      (next.sides = state.sides ∨ ∃ given, next.sides = (state.release given).sides) ∧
      (state.stopped = true → next.stopped = true) := by
  cases other with
  | request holds =>
      rw [Merge.request, holds]
      exact ⟨rfl, rfl, .inr ⟨_, rfl⟩, id⟩
  | close holds =>
      rw [Merge.close, holds]
      exact ⟨rfl, rfl, .inl rfl, fun _ => rfl⟩
  | consumer taken =>
      unfold consumerStep at taken
      split at taken
      · cases taken
        exact ⟨rfl, rfl, .inr ⟨_, rfl⟩, id⟩
      · split at taken
        · cases taken
        next entry rest queued =>
          cases taken
          obtain ⟨sameRequests, sameSides, sameStopped⟩ :=
            requests_receive { state with queue := rest } entry
          exact ⟨sameRequests, rfl, .inl sameSides, sameStopped.trans⟩
      · cases taken
        exact ⟨rfl, rfl, .inl rfl, fun _ => rfl⟩
      · split at taken
        · cases taken
          exact ⟨rfl, rfl, .inr ⟨_, rfl⟩, id⟩
        · split at taken
          · cases taken
            exact ⟨rfl, rfl, .inl rfl, id⟩
          · cases taken
      · cases taken
      · cases taken

theorem OtherStep.side (other : OtherStep state passage next) {index : Nat} {after : Side σ α}
    (found : next.sides[index]? = some after) :
    ∃ before, state.sides[index]? = some before ∧
      after.worker = before.worker ∧ after.source = before.source := by
  rcases other.spec.2.2.1 with same | ⟨given, same⟩
  · rw [same] at found
    exact ⟨after, found, rfl, rfl⟩
  · rw [same] at found
    obtain ⟨before, present, sameWorker, sameSource, -⟩ := getElem?_release found
    exact ⟨before, present, sameWorker, sameSource⟩

theorem requests_tellFailure (label : Json) (progress : Progress α) (log : Log) :
    (tellFailure label progress log).requests = log.requests := by
  cases progress <;> rfl

/-- A worker asks its source, or its source stays as it is or is closed and nothing is requested. -/
theorem Side.step_source {side after : Side σ α} {stopped : Bool} {message : Option (Message α)}
    {log later : Log} (stepped : side.step source stopped log = some (message, after, later)) :
    ((source.advance side.source log).2.1 = after.source ∧
        later.requests = (source.advance side.source log).2.2.requests) ∨
      (after.source = side.source ∨ after.source = source.close side.source) ∧
        later.requests = log.requests := by
  obtain ⟨label, origin, worker, demand⟩ := side
  cases worker with
  | waiting =>
      simp only [Side.step] at stepped
      split at stepped
      · cases stepped
      · cases stepped
        exact .inr ⟨.inl rfl, rfl⟩
  | called =>
      cases stepped
      cases stopped with
      | true => exact .inr ⟨.inr rfl, rfl⟩
      | false => exact .inr ⟨.inl rfl, rfl⟩
  | pulling =>
      cases stepped
      exact .inl ⟨rfl, requests_tellFailure ..⟩
  | putting message =>
      cases stepped
      cases message with
      | item value => exact .inr ⟨.inl rfl, rfl⟩
      | last outcome => exact .inr ⟨.inr rfl, rfl⟩
  | gone => cases stepped

end Steps

/-! ## Requests of a kind -/

/-- In some of its states, a source adds requests of a kind to the log and goes on to such states
only. -/
structure Source.Confined (source : Source σ α) (kind : Request → Prop) (kept : σ → Prop) :
    Prop where
  advances : ∀ state log, kept state → kept (source.advance state log).2.1 ∧
    ∃ made, (source.advance state log).2.2.requests = log.requests ++ made ∧
      ∀ request ∈ made, kind request
  closes : ∀ state, kept state → kept (source.close state)

theorem Source.Confined.sideStep {source : Source σ α} {kind : Request → Prop} {kept : σ → Prop}
    (confined : source.Confined kind kept) {side after : Side σ α} {stopped : Bool}
    {message : Option (Message α)} {log later : Log} (keeps : kept side.source)
    (stepped : side.step source stopped log = some (message, after, later)) :
    kept after.source ∧ ∃ made, later.requests = log.requests ++ made ∧
      ∀ request ∈ made, kind request := by
  rcases Side.step_source stepped with ⟨advanced, asked⟩ | ⟨same | closed, silent⟩
  · rw [← advanced, asked]
    exact confined.advances side.source log keeps
  · exact ⟨same ▸ keeps, [], by rw [silent, List.append_nil], List.forall_mem_nil _⟩
  · exact ⟨closed ▸ confined.closes side.source keeps, [], by rw [silent, List.append_nil],
      List.forall_mem_nil _⟩

/-- All requests of a merge are of a kind if those of its sources are. -/
theorem Run.confined {source : Source σ α} {kind : Request → Prop} {kept : σ → Prop}
    {first state : State σ α} {passages : List (Passage α)}
    (confined : source.Confined kind kept) (initially : ∀ side ∈ first.sides, kept side.source)
    (run : Run source first passages state) :
    (∀ side ∈ state.sides, kept side.source) ∧
      ∃ made, state.log.requests = first.log.requests ++ made ∧
        ∀ request ∈ made, kind request := by
  induction run with
  | start => exact ⟨initially, [], (List.append_nil _).symm, List.forall_mem_nil _⟩
  | @step passages passage state next _ step inductionHypothesis =>
      obtain ⟨keeps, made, requested, isOne⟩ := inductionHypothesis
      rcases step.cases_worker with ⟨index, taken⟩ | other
      · obtain ⟨side, message, after, present, stepped, moved, _⟩ := exists_sideStep taken
        obtain ⟨keepsAfter, more, requestedMore, isOneToo⟩ :=
          confined.sideStep (keeps side (List.mem_of_getElem? present)) stepped
        refine ⟨fun other inside => ?_, made ++ more, ?_, fun request inside => ?_⟩
        · rw [moved] at inside
          rcases List.mem_or_eq_of_mem_set inside with old | rfl
          · exact keeps other old
          · exact keepsAfter
        · rw [requestedMore, requested, List.append_assoc]
        · rcases List.mem_append.mp inside with early | late
          · exact isOne request early
          · exact isOneToo request late
      · refine ⟨fun side inside => ?_, made, other.spec.1.trans requested, isOne⟩
        obtain ⟨index, found⟩ := List.mem_iff_getElem?.mp inside
        obtain ⟨before, present, _, sameSource⟩ := other.side found
        rw [sameSource]
        exact keeps before (List.mem_of_getElem? present)

/-! ## Requests of a side -/

/-- A run that remembers the requests of each side: those that the side's worker has added to the
log. -/
inductive Sends (source : Source σ α) (first : State σ α) :
    (Nat → List Request) → List (Passage α) → State σ α → Prop
  | start : Sends source first (fun _ => []) [] first
  | worker {sent : Nat → List Request} {passages : List (Passage α)} {passage : Passage α}
      {state next : State σ α} {made : List Request} (index : Nat) :
      Sends source first sent passages state →
      workerStep source index state = some (passage, next) →
      next.log.requests = state.log.requests ++ made →
      Sends source first (Function.update sent index (sent index ++ made)) (passages ++ [passage])
        next
  | other {sent : Nat → List Request} {passages : List (Passage α)} {passage : Passage α}
      {state next : State σ α} :
      Sends source first sent passages state →
      OtherStep state passage next →
      Sends source first sent (passages ++ [passage]) next

theorem Sends.run {source : Source σ α} {first state : State σ α} {sent : Nat → List Request}
    {passages : List (Passage α)} (sends : Sends source first sent passages state) :
    Run source first passages state := by
  induction sends with
  | start => exact .start
  | worker index _ taken _ inductionHypothesis =>
      exact inductionHypothesis.step (.worker index taken)
  | other _ other inductionHypothesis => exact inductionHypothesis.step other.step

/-- With two sides, the requests of a run are those of one side and those of the other. -/
theorem Sends.requests_perm {source : Source σ α} {first state : State σ α}
    {sent : Nat → List Request} {passages : List (Passage α)} (two : first.sides.length = 2)
    (sends : Sends source first sent passages state) :
    state.log.requests.Perm (first.log.requests ++ (sent 0 ++ sent 1)) := by
  induction sends with
  | start => rw [List.append_nil, List.append_nil]
  | @worker sent passages passage state next made index earlier taken added inductionHypothesis =>
      obtain ⟨side, _, _, present, _⟩ := exists_sideStep taken
      have within : index < 2 := by
        rw [← two, ← earlier.run.length_sides]
        exact (List.getElem?_eq_some_iff.mp present).1
      -- What the worker adds comes last in the log, and last among the requests of its own side.
      have grows : next.log.requests.Perm (first.log.requests ++ (sent 0 ++ sent 1 ++ made)) := by
        rw [added, ← List.append_assoc]
        exact inductionHypothesis.append_right made
      match index, within with
      | 0, _ =>
          rw [Function.update_self, Function.update_of_ne Nat.one_ne_zero, List.append_assoc]
          rw [List.append_assoc] at grows
          exact grows.trans ((List.perm_append_comm.append_left _).append_left _)
      | 1, _ =>
          rw [Function.update_self, Function.update_of_ne Nat.zero_ne_one,
            ← List.append_assoc (sent 0)]
          exact grows
  | other _ other inductionHypothesis =>
      rw [other.spec.1]
      exact inductionHypothesis

/-- Every run can remember the requests of each side, if its sources take no request back. -/
theorem Run.exists_sends {source : Source σ α} {kind : Request → Prop} {kept : σ → Prop}
    {first state : State σ α} {passages : List (Passage α)}
    (confined : source.Confined kind kept) (initially : ∀ side ∈ first.sides, kept side.source)
    (run : Run source first passages state) : ∃ sent, Sends source first sent passages state := by
  induction run with
  | start => exact ⟨_, .start⟩
  | @step passages passage state next earlier step inductionHypothesis =>
      obtain ⟨sent, sends⟩ := inductionHypothesis
      rcases step.cases_worker with ⟨index, taken⟩ | other
      · obtain ⟨side, message, after, present, stepped, _⟩ := exists_sideStep taken
        have keeps := (earlier.confined confined initially).1 side (List.mem_of_getElem? present)
        obtain ⟨_, made, added, _⟩ := confined.sideStep keeps stepped
        exact ⟨_, .worker index sends taken added⟩
      · exact ⟨sent, .other sends other⟩

end LedgerBook.Merge
