import LedgerBook.Proofs.Merge.Demand
import LedgerBook.Proofs.Merge.Requests
/-!
A merge whose consumer wants nothing more: it has left early, or it has seen how the merged sequence
comes out. Nothing is received from then on, and a side that is not told to leave yet has no other
demand than the one that it is at.
-/
namespace LedgerBook.Merge

variable {σ α : Type}

/-- Whether the consumer wants nothing more. Workers may not be told so yet. -/
def State.Left (state : State σ α) : Prop :=
  state.stopped = true ∨ ∃ outcome, state.consumer = .leaving outcome

/-- Whether a consumer does nothing more than tell the workers to leave, wake them, and finish. -/
def Consumer.Leaves : Consumer α → Prop
  | .leaving _ => True
  | .waking _ _ => True
  | .finished _ => True
  | _ => False

/-- What holds of a merge whose consumer wants nothing more. -/
structure Closing (state : State σ α) : Prop where
  left : state.Left
  agrees : state.consumer.Agrees state.stopped
  few : state.stopped = false → ∀ (index : Nat) (side : Side σ α),
    state.sides[index]? = some side → side.demand + side.worker.token ≤ 1

section Steps

variable {source : Source σ α} {sources : List σ} {first state next last : State σ α}
  {passages more : List (Passage α)} {passage : Passage α}

theorem Conserved.few (conserved : Conserved passages state) (going : state.stopped = false)
    (index : Nat) (side : Side σ α) (found : state.sides[index]? = some side) :
    side.demand + side.worker.token ≤ 1 := by
  have balance := conserved going index side found
  have bound := state.consumer.begun_le_one index
  rw [State.tokens] at balance
  omega

theorem Run.closing (fresh : Fresh sources first) (run : Run source first passages state)
    (left : state.Left) : Closing state :=
  ⟨left, run.agrees fresh, fun going => (run.conserved fresh).few going⟩

namespace Closing

variable (closing : Closing state)

include closing

theorem leaves : state.consumer.Leaves := by
  have agrees := closing.agrees
  cases doing : state.consumer with
  | leaving outcome => trivial
  | waking side outcome => trivial
  | finished outcome => trivial
  | _ =>
      -- While it does anything else, the workers are not told to leave.
      rw [doing] at agrees
      rcases closing.left with stopped | ⟨outcome, leaving⟩
      · cases stopped.symm.trans agrees
      · cases doing.symm.trans leaving

theorem stopped_of_waking {side : Nat} {outcome : Option Outcome}
    (waking : state.consumer = .waking side outcome) : state.stopped = true := by
  have agrees := closing.agrees
  rw [waking] at agrees
  exact agrees

theorem step (step : Step source state passage next) :
    Closing next ∧ passage.taken? = none := by
  have leaves := closing.leaves
  have agrees := closing.agrees.step step
  cases step.change with
  | @worker _ moved before after message log present stepped put taken =>
      refine ⟨⟨closing.left, agrees, fun going index side found => ?_⟩, taken⟩
      rcases getElem?_set_cases present found with ⟨rfl, rfl⟩ | ⟨_, stays⟩
      · have bound := closing.few going moved before present
        have handed := Side.token_step (going ▸ stepped)
        omega
      · exact closing.few going index side stays
  | stop =>
      exact ⟨⟨.inl rfl, agrees, fun going => nomatch going⟩, rfl⟩
  | wake waking | finish waking =>
      have stopped := closing.stopped_of_waking waking
      refine ⟨⟨.inl stopped, agrees, fun going => ?_⟩, rfl⟩
      cases stopped.symm.trans going
  | begin doing | item doing | failure doing | ended doing | request doing | close doing =>
      rw [doing] at leaves
      exact False.elim leaves

/-- Whatever is done by no worker leaves the workers told. -/
theorem stopped_of_other (other : OtherStep state passage next) : next.stopped = true := by
  have leaves := closing.leaves
  cases other with
  | request holds | close holds =>
      rw [holds] at leaves
      exact False.elim leaves
  | consumer taken =>
      cases doing : state.consumer with
      | leaving outcome =>
          rw [consumerStep, doing] at taken
          cases taken
          rfl
      | waking side outcome =>
          have stopped := closing.stopped_of_waking doing
          exact (OtherStep.consumer taken).spec.2.2.2 stopped
      | finished outcome =>
          rw [consumerStep, doing] at taken
          cases taken
      | _ =>
          rw [doing] at leaves
          exact False.elim leaves

/-- Nothing is received by a consumer that wants nothing more. -/
theorem run (goesOn : Run source state more last) : Closing last ∧ received more = [] := by
  induction goesOn with
  | start => exact ⟨closing, rfl⟩
  | step _ step inductionHypothesis =>
      obtain ⟨still, nothing⟩ := inductionHypothesis
      obtain ⟨closing, notTaken⟩ := still.step step
      refine ⟨closing, ?_⟩
      rw [received_snoc, nothing, notTaken]
      rfl

end Closing

end Steps

end LedgerBook.Merge
