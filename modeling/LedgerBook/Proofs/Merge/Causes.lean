import LedgerBook.Proofs.Merge.Delivery
import LedgerBook.Proofs.Merge.Requests
/-!
Where the failures of a merge come from. The failure of a side reaches the queue only after its
source failed, and nothing happens to this source afterwards but that it is closed: what was known
of it when it failed is still known when its failure is received.
-/
namespace LedgerBook.Merge

variable {σ α : Type}

/-- The failure that a worker is about to tell. -/
def Worker.failure? : Worker α → Option Failure
  | .putting (.last (.failed failure)) => some failure
  | _ => none

/-- What is known of a source by the failure that it came to, if it has failed, and the requests of
all: an answer of the source goes on with it, and no request of others takes it back. -/
structure Source.Recalls (source : Source σ α)
    (known : Option Failure → σ → List Request → Prop) : Prop where
  advances : ∀ state log, known none state log.requests →
    known (Worker.ofProgress (source.advance state log).1).failure? (source.advance state log).2.1
      (source.advance state log).2.2.requests
  closes : ∀ {failure state requests}, known (some failure) state requests →
    known (some failure) (source.close state) requests
  others : ∀ {cause state requests more}, known cause state requests → requests <+: more →
    known cause state more

/-- What is known of the source of a side that has put some messages into the queue: while it is
there, by the failure that it is about to tell; once it has told a failure, by that. -/
structure Recalled (known : Option Failure → σ → List Request → Prop) (sent : List (Message α))
    (requests : List Request) (side : Side σ α) : Prop where
  present : side.isGone = false → known side.worker.failure? side.source requests
  told : ∀ failure, .last (.failed failure) ∈ sent →
    side.isGone = true ∧ known (some failure) side.source requests

namespace Recalled

variable {source : Source σ α} {known : Option Failure → σ → List Request → Prop}
  {sent : List (Message α)} {requests more : List Request} {side after : Side σ α}

/-- While a worker is there, it has told no failure. -/
theorem not_mem (recalled : Recalled known sent requests side) (there : side.isGone = false)
    (failure : Failure) : .last (.failed failure) ∉ sent :=
  fun told => Bool.false_ne_true (there.symm.trans (recalled.told failure told).1)

/-- The steps of others do not matter. -/
theorem others (recalled : Recalled known sent requests side) (recalls : source.Recalls known)
    (grows : requests <+: more) (sameWorker : after.worker = side.worker)
    (sameSource : after.source = side.source) : Recalled known sent more after where
  present := by
    rw [Side.isGone, sameWorker, sameSource]
    exact fun there => recalls.others (recalled.present there) grows
  told := by
    rw [Side.isGone, sameWorker, sameSource]
    intro failure told
    obtain ⟨gone, isKnown⟩ := recalled.told failure told
    exact ⟨gone, recalls.others isKnown grows⟩

/-- A worker that tells nothing and is still there. -/
theorem of_silent (recalled : Recalled known sent requests side) (there : side.isGone = false)
    (isKnown : known after.worker.failure? after.source more) :
    Recalled known (sent ++ (none : Option (Message α)).toList) more after where
  present := fun _ => isKnown
  told := by
    intro failure told
    rw [Option.toList_none, List.append_nil] at told
    exact absurd told (recalled.not_mem there failure)

/-- A worker that has left. -/
theorem of_left (left : side.isGone = true)
    (told : ∀ failure, .last (.failed failure) ∈ sent → known (some failure) side.source requests) :
    Recalled known sent requests side where
  present := fun there => absurd (left.symm.trans there) Bool.noConfusion
  told := fun failure sent => ⟨left, told failure sent⟩

/-- A step of the side's own worker goes on with what is known. -/
theorem step (recalled : Recalled known sent requests side) (recalls : source.Recalls known)
    {stopped : Bool} {message : Option (Message α)} {log later : Log}
    (same : log.requests = requests)
    (stepped : side.step source stopped log = some (message, after, later)) :
    Recalled known (sent ++ message.toList) later.requests after := by
  subst same
  obtain ⟨label, origin, worker, demand⟩ := side
  cases worker with
  | waiting =>
      have isKnown := recalled.present rfl
      simp only [Side.step] at stepped
      split at stepped
      · cases stepped
      · cases stepped
        exact recalled.of_silent rfl isKnown
  | called =>
      have isKnown := recalled.present rfl
      cases stepped
      cases stopped with
      | false => exact recalled.of_silent rfl isKnown
      | true =>
          refine .of_left rfl fun failure told => ?_
          rw [Option.toList_none, List.append_nil] at told
          exact absurd told (recalled.not_mem rfl failure)
  | pulling =>
      have isKnown := recalls.advances origin log (recalled.present rfl)
      cases stepped
      rw [requests_tellFailure]
      exact recalled.of_silent rfl isKnown
  | putting message =>
      have isKnown := recalled.present rfl
      cases stepped
      cases message with
      | item value =>
          refine ⟨fun _ => isKnown, fun failure told => ?_⟩
          rcases List.mem_append.mp told with early | now
          · exact absurd early (recalled.not_mem rfl failure)
          · cases List.mem_singleton.mp now
      | last outcome =>
          refine .of_left rfl fun failure told => ?_
          rcases List.mem_append.mp told with early | now
          · exact absurd early (recalled.not_mem rfl failure)
          · cases List.mem_singleton.mp now
            exact recalls.closes isKnown
  | gone => cases stepped

end Recalled

section Runs

variable {source : Source σ α} {known : Option Failure → σ → List Request → Prop}
  {kind : Request → Prop} {kept : σ → Prop} {sources : List σ} {first state : State σ α}
  {passages : List (Passage α)} {index : Nat}

/-- What is known of a source at first is known, in every run, of what becomes of it. -/
theorem Run.recalled (recalls : source.Recalls known) (confined : source.Confined kind kept)
    (initially : ∀ side ∈ first.sides, kept side.source) (fresh : Fresh sources first)
    {begin : σ} (begins : sources[index]? = some begin)
    (isKnown : known none begin first.log.requests) (run : Run source first passages state)
    {side : Side σ α} (found : state.sides[index]? = some side) :
    Recalled known (messagesOf index (arrived passages)) state.log.requests side := by
  induction run generalizing side with
  | start =>
      have same : begin = side.source := by
        rw [← fresh.sources_eq, List.getElem?_map, found] at begins
        exact (Option.some.inj begins).symm
      have waits := (fresh.idle side (List.mem_of_getElem? found)).1
      refine ⟨fun _ => ?_, fun failure impossible => nomatch impossible⟩
      rw [waits, ← same]
      exact isKnown
  | @step passages passage state next earlier step inductionHypothesis =>
      rw [arrived_snoc, messagesOf_append]
      rcases step.cases_worker with ⟨moved, taken⟩ | other
      · obtain ⟨before, message, after, present, stepped, sides, -, put⟩ := exists_sideStep taken
        rw [sides] at found
        rcases getElem?_set_cases present found with ⟨rfl, rfl⟩ | ⟨different, stays⟩
        · rw [messagesOf_put_self put]
          exact (inductionHypothesis present).step recalls rfl stepped
        · have keeps := (earlier.confined confined initially).1 before
            (List.mem_of_getElem? present)
          obtain ⟨_, made, added, _⟩ := confined.sideStep keeps stepped
          rw [messagesOf_put_of_ne different put, List.append_nil]
          exact (inductionHypothesis stays).others recalls ⟨made, added.symm⟩ rfl rfl
      · obtain ⟨sameRequests, silent, -, -⟩ := other.spec
        obtain ⟨before, present, sameWorker, sameSource⟩ := other.side found
        rw [silent, sameRequests]
        simpa [messagesOf] using
          (inductionHypothesis present).others recalls List.prefix_rfl sameWorker sameSource

/-- A merge that is over with a failure has received it from one of its sides, and the failure is
known of what is left of the source with which this side began. -/
theorem Run.exists_known_of_failed {known : σ → Option Failure → σ → List Request → Prop}
    (recalls : ∀ begin ∈ sources, source.Recalls (known begin))
    (isKnown : ∀ begin ∈ sources, known begin none begin first.log.requests)
    (confined : source.Confined kind kept) (initially : ∀ side ∈ first.sides, kept side.source)
    (fresh : Fresh sources first) (run : Run source first passages state) {failure : Failure}
    (ends : state.consumer = .finished (some (.failed failure))) :
    ∃ index begin side, (index, .last (.failed failure)) ∈ received passages ∧
      sources[index]? = some begin ∧ state.sides[index]? = some side ∧
      known begin (some failure) side.source state.log.requests := by
  obtain ⟨index, seen, -⟩ := run.failures_of_failed fresh ends
  have sent : (index, .last (.failed failure)) ∈ arrived passages := by
    rw [run.arrived_eq fresh.queue_eq]
    exact List.mem_append_left _ seen
  have within := run.index_lt fresh sent
  have begins := List.getElem?_eq_getElem within
  have inside := List.mem_of_getElem? begins
  obtain ⟨side, found⟩ : ∃ side, state.sides[index]? = some side := by
    refine ⟨_, List.getElem?_eq_getElem ?_⟩
    rw [run.length_sides, fresh.length_sides]
    exact within
  have recalled := run.recalled (recalls _ inside) confined initially fresh begins
    (isKnown _ inside) found
  exact ⟨index, _, side, seen, begins, found,
    (recalled.told failure (mem_messagesOf_iff.mpr sent)).2⟩

end Runs

end LedgerBook.Merge
