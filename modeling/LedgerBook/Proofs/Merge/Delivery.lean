import LedgerBook.Proofs.Merge.Story
import Mathlib.Data.Finset.Card
import Mathlib.Data.Finset.Range
/-!
What a merge delivers. Each side's units reach the consumer in their own order, none lost and none
twice; the merged sequence ends with the last side, and fails with the first failure in the queue.
-/
namespace LedgerBook.Merge

variable {σ α : Type}

/-! ## What the consumer has seen -/

/-- The sides whose end is among some entries. -/
def endedSides (entries : List (Nat × Message α)) : List Nat :=
  entries.filterMap fun
    | (index, .last .exhausted) => some index
    | _ => none

/-- The failures among some entries, with the sides that failed. -/
def failures (entries : List (Nat × Message α)) : List (Nat × Failure) :=
  entries.filterMap fun
    | (index, .last (.failed failure)) => some (index, failure)
    | _ => none

@[simp]
theorem endedSides_append (entries others : List (Nat × Message α)) :
    endedSides (entries ++ others) = endedSides entries ++ endedSides others := by
  simp [endedSides]

@[simp]
theorem failures_append (entries others : List (Nat × Message α)) :
    failures (entries ++ others) = failures entries ++ failures others := by
  simp [failures]

theorem mem_endedSides_iff {index : Nat} {entries : List (Nat × Message α)} :
    index ∈ endedSides entries ↔ (index, .last .exhausted) ∈ entries := by
  constructor
  · intro member
    obtain ⟨⟨side, message⟩, present, ends⟩ := List.mem_filterMap.mp member
    split at ends
    next index' shape =>
      cases shape
      cases ends
      exact present
    next => cases ends
  · intro present
    exact List.mem_filterMap.mpr ⟨_, present, rfl⟩

theorem mem_failures_iff {index : Nat} {failure : Failure}
    {entries : List (Nat × Message α)} :
    (index, failure) ∈ failures entries ↔ (index, .last (.failed failure)) ∈ entries := by
  constructor
  · intro member
    obtain ⟨⟨side, message⟩, present, fails⟩ := List.mem_filterMap.mp member
    split at fails
    next index' failure' shape =>
      cases shape
      cases fails
      exact present
    next => cases fails
  · intro present
    exact List.mem_filterMap.mpr ⟨_, present, rfl⟩

/-- What must have been seen of a number of sides for an outcome of the merged sequence: the end of
every side, or one failure. -/
def Decides (count : Nat) (seen : List (Nat × Message α)) : Outcome → Prop
  | .exhausted => failures seen = [] ∧ (endedSides seen).length = count
  | .failed failure => ∃ index, failures seen = [(index, failure)]

/-- What the consumer does agrees with what it has seen of a number of sides, and with the number
of sides that it takes to be alive. -/
def Consumer.Knows (count live : Nat) (seen : List (Nat × Message α)) : Consumer α → Prop
  | .leaving outcome => Decides count seen outcome
  | .waking _ outcome => ∀ known ∈ outcome, Decides count seen known
  | .finished outcome => ∀ known ∈ outcome, Decides count seen known
  | _ => failures seen = [] ∧ (endedSides seen).length + live = count ∧ 0 < live

section Steps

variable {source : Source σ α} {passage : Passage α} {state next : State σ α}

theorem Consumer.Knows.step {count : Nat} {seen : List (Nat × Message α)}
    (knows : state.consumer.Knows count state.live seen)
    (step : Step source state passage next) :
    next.consumer.Knows count next.live (seen ++ passage.taken?.toList) := by
  cases step.change with
  | worker index found stepped put taken =>
      rw [taken]
      simpa using knows
  | begin starting =>
      rw [starting] at knows
      simp only [Passage.taken?, Option.toList_none, List.append_nil]
      split
      · exact knows
      · exact knows
  | @item index value rest waiting queued =>
      rw [waiting] at knows
      obtain ⟨noFailure, counted, alive⟩ := knows
      have noEnd : endedSides [(index, Message.item value)] = [] := rfl
      simp only [Passage.taken?, Option.toList_some]
      refine ⟨?_, ?_, alive⟩
      · rw [failures_append, noFailure]
        rfl
      · rw [endedSides_append, noEnd, List.append_nil]
        exact counted
  | @failure index failure rest waiting queued =>
      rw [waiting] at knows
      refine ⟨index, ?_⟩
      rw [failures_append, knows.1]
      rfl
  | @ended index rest log waiting queued =>
      rw [waiting] at knows
      obtain ⟨noFailure, counted, alive⟩ := knows
      simp only [Passage.taken?, Option.toList_some]
      -- The last side to end decides; any other leaves one fewer that is alive.
      have stillNone : failures (seen ++ [(index, .last .exhausted)]) = [] := by
        rw [failures_append, noFailure]
        rfl
      have oneMore :
          (endedSides (seen ++ [(index, .last .exhausted)])).length =
            (endedSides seen).length + 1 := by
        rw [endedSides_append, List.length_append]
        rfl
      split
      next none =>
        refine ⟨stillNone, ?_⟩
        omega
      next some =>
        refine ⟨stillNone, ?_, ?_⟩
        · omega
        · omega
  | stop leaving =>
      rw [leaving] at knows
      simp only [Passage.taken?, Option.toList_none, List.append_nil]
      intro known same
      cases same
      exact knows
  | wake waking within =>
      rw [waking] at knows
      simp only [Passage.taken?, Option.toList_none, List.append_nil]
      exact knows
  | finish waking beyond allGone =>
      rw [waking] at knows
      simp only [Passage.taken?, Option.toList_none, List.append_nil]
      exact knows
  | request holds =>
      rw [holds] at knows
      simp only [Passage.taken?, Option.toList_none, List.append_nil]
      exact knows
  | close holds =>
      simp only [Passage.taken?, Option.toList_none, List.append_nil]
      intro known same
      cases same

end Steps

theorem Fresh.knows {sources : List σ} {first : State σ α} (fresh : Fresh sources first) :
    first.consumer.Knows sources.length first.live [] := by
  rw [fresh.consumer_eq, fresh.live_eq]
  cases sources with
  | nil =>
      intro known same
      cases same
      exact ⟨rfl, rfl⟩
  | cons source rest =>
      exact ⟨rfl, Nat.zero_add _, Nat.succ_pos _⟩

/-! ## Whole runs -/

section Runs

variable {source : Source σ α} {sources : List σ} {first state : State σ α}
  {passages : List (Passage α)}

theorem Run.knows (fresh : Fresh sources first) (run : Run source first passages state) :
    state.consumer.Knows sources.length state.live (received passages) := by
  induction run with
  | start => exact fresh.knows
  | step _ step inductionHypothesis =>
      rw [received_snoc]
      exact inductionHypothesis.step step

theorem Fresh.length_sides (fresh : Fresh sources first) :
    first.sides.length = sources.length := by
  rw [← fresh.sources_eq, List.length_map]

theorem Run.index_lt (fresh : Fresh sources first) (run : Run source first passages state)
    {entry : Nat × Message α} (member : entry ∈ arrived passages) :
    entry.1 < sources.length := by
  induction run with
  | start => cases member
  | @step passages passage state next earlier step inductionHypothesis =>
      rw [arrived_snoc, List.mem_append, Option.mem_toList] at member
      rcases member with before | now
      · exact inductionHypothesis before
      · have bound := step.index_lt now
        rwa [earlier.length_sides, fresh.length_sides] at bound

/-- What a side has put into the queue is told of its source. -/
theorem Run.tells (fresh : Fresh sources first) (run : Run source first passages state)
    {index : Nat} {begin : σ} (begins : sources[index]? = some begin) :
    source.Tells begin (messagesOf index (arrived passages)) := by
  have within : index < state.sides.length := by
    rw [run.length_sides, fresh.length_sides]
    exact (List.getElem?_eq_some_iff.mp begins).1
  exact (run.stories fresh index begin state.sides[index] begins
    (List.getElem?_eq_getElem within)).tells

/-- What was received of a side arrived first. -/
theorem Run.messagesOf_arrived (fresh : Fresh sources first)
    (run : Run source first passages state) (index : Nat) :
    messagesOf index (arrived passages) =
      messagesOf index (received passages) ++ messagesOf index state.queue := by
  rw [run.arrived_eq fresh.queue_eq, messagesOf_append]

/-- The outcome of a side, once it was received, was the last of its messages. -/
theorem Run.sequence_eq (fresh : Fresh sources first) (run : Run source first passages state)
    {index : Nat} {begin : σ} (begins : sources[index]? = some begin) {sequence : Sequence α}
    (presents : source.Presents begin sequence) {outcome : Outcome}
    (seen : (index, .last outcome) ∈ received passages) :
    sequence = .finite (delivered index passages) (some outcome) := by
  have tells := run.tells fresh begins
  rw [run.messagesOf_arrived fresh] at tells
  exact presents.eq_finite_of_tells tells (mem_messagesOf_iff.mpr seen)

theorem count_endedSides_le (index : Nat) (entries : List (Nat × Message α)) :
    (endedSides entries).count index ≤
      (messagesOf index entries).countP fun message => message.item?.isNone := by
  induction entries with
  | nil => exact Nat.le_refl 0
  | cons entry rest inductionHypothesis =>
      obtain ⟨side, message⟩ := entry
      have split : endedSides ((side, message) :: rest) =
          endedSides [(side, message)] ++ endedSides rest :=
        endedSides_append [(side, message)] rest
      have parts : messagesOf index ((side, message) :: rest) =
          messagesOf index [(side, message)] ++ messagesOf index rest :=
        messagesOf_append index [(side, message)] rest
      have one :
          (endedSides [(side, message)]).count index ≤
            (messagesOf index [(side, message)]).countP fun message => message.item?.isNone := by
        by_cases same : side = index
        · subst same
          cases message with
          | item value => simp [endedSides]
          | last outcome => cases outcome <;> simp [endedSides, messagesOf, Message.item?]
        · cases message with
          | item value => simp [endedSides]
          | last outcome => cases outcome <;> simp [endedSides, same]
      rw [split, parts, List.count_append, List.countP_append]
      exact Nat.add_le_add one inductionHypothesis

/-- No side ends twice. -/
theorem Run.nodup_endedSides (fresh : Fresh sources first)
    (run : Run source first passages state) :
    (endedSides (received passages)).Nodup := by
  rw [List.nodup_iff_count_le_one]
  intro index
  by_cases ends : index ∈ endedSides (received passages)
  · have arrives : (index, .last .exhausted) ∈ arrived passages := by
      rw [run.arrived_eq fresh.queue_eq]
      exact List.mem_append_left _ (mem_endedSides_iff.mp ends)
    have begins : sources[index]? = some _ :=
      List.getElem?_eq_getElem (run.index_lt fresh arrives)
    calc
      (endedSides (received passages)).count index
        ≤ (messagesOf index (received passages)).countP
            fun message => message.item?.isNone := count_endedSides_le _ _
      _ ≤ (messagesOf index (arrived passages)).countP
            fun message => message.item?.isNone := by
          rw [run.messagesOf_arrived fresh, List.countP_append]
          exact Nat.le_add_right _ _
      _ ≤ 1 := (run.tells fresh begins).countP_le_one
  · rw [List.count_eq_zero_of_not_mem ends]
    exact Nat.zero_le 1

/-- When as many ends were seen as there are sides, the end of every side was seen. -/
theorem Run.mem_endedSides (fresh : Fresh sources first)
    (run : Run source first passages state)
    (all : (endedSides (received passages)).length = sources.length)
    {index : Nat} (within : index < sources.length) :
    index ∈ endedSides (received passages) := by
  have below :
      (endedSides (received passages)).toFinset ⊆ Finset.range sources.length := by
    intro side member
    have ends := mem_endedSides_iff.mp (List.mem_toFinset.mp member)
    have arrives : (side, .last .exhausted) ∈ arrived passages := by
      rw [run.arrived_eq fresh.queue_eq]
      exact List.mem_append_left _ ends
    exact Finset.mem_range.mpr (run.index_lt fresh arrives)
  have whole :
      (endedSides (received passages)).toFinset = Finset.range sources.length := by
    apply Finset.eq_of_subset_of_card_le below
    rw [Finset.card_range, List.toFinset_card_of_nodup (run.nodup_endedSides fresh), all]
  rw [← List.mem_toFinset, whole]
  exact Finset.mem_range.mpr within

/-- The outcome with which a merge is over was decided by what the consumer received. -/
theorem Run.decides (fresh : Fresh sources first) (run : Run source first passages state)
    {outcome : Outcome} (ends : state.consumer = .finished (some outcome)) :
    Decides sources.length (received passages) outcome := by
  have knows := run.knows fresh
  rw [ends] at knows
  exact knows outcome rfl

/-- A merge is over with exhaustion only when the end of every side was received. -/
theorem Run.received_of_exhausted (fresh : Fresh sources first)
    (run : Run source first passages state)
    (ends : state.consumer = .finished (some .exhausted)) {index : Nat}
    (within : index < sources.length) :
    (index, .last .exhausted) ∈ received passages :=
  mem_endedSides_iff.mp (run.mem_endedSides fresh (run.decides fresh ends).2 within)

/-- A merge is over with the first failure in the queue. -/
theorem Run.failures_of_failed (fresh : Fresh sources first)
    (run : Run source first passages state) {failure : Failure}
    (ends : state.consumer = .finished (some (.failed failure))) :
    ∃ index,
      (index, .last (.failed failure)) ∈ received passages ∧
        (failures (arrived passages)).head? = some (index, failure) := by
  obtain ⟨index, only⟩ := run.decides fresh ends
  refine ⟨index, ?_, ?_⟩
  · rw [← mem_failures_iff, only]
    exact List.mem_singleton_self _
  · rw [run.arrived_eq fresh.queue_eq, failures_append, only]
    rfl

/-- Merging neither loses nor repeats a unit of a side and keeps their order: at any time the units
delivered of a side begin its sequence. The merged sequence is exhausted only when every side is,
all of their units delivered. It fails only with the first failure in the queue, all units of the
side that failed delivered. Once a failure is in the queue, it is never exhausted. The units
delivered of a side are those that came into the hands of the reader, in the order in which they
came. -/
theorem Run.keeps_sequences {names : Option (List Json)} {log : Log}
    (started : Merge.start sources names log = .ok first)
    (run : Run source first passages state) (sequences : Nat → Sequence α)
    (presented : ∀ index begin,
      sources[index]? = some begin → source.Presents begin (sequences index)) :
    (∀ index < sources.length, (sequences index).StartsWith (delivered index passages)) ∧
      (state.consumer = .finished (some .exhausted) →
        ∀ index < sources.length,
          sequences index = .finite (delivered index passages) (some .exhausted)) ∧
      (∀ failure, state.consumer = .finished (some (.failed failure)) →
        ∃ index < sources.length,
          (failures (arrived passages)).head? = some (index, failure) ∧
            sequences index = .finite (delivered index passages) (some (.failed failure))) ∧
      (failures (arrived passages) ≠ [] → state.consumer ≠ .finished (some .exhausted)) ∧
      (∃ items, HandsOver source first passages items state) ∧
      ∀ items, HandsOver source first passages items state → ∀ index,
        delivered index passages = (items.filter (·.1 == index)).map (·.2) := by
  have fresh := fresh_of_start started
  have begins {index : Nat} (within : index < sources.length) :
      sources[index]? = some sources[index] :=
    List.getElem?_eq_getElem within
  have wholeAtEnd (ends : state.consumer = .finished (some .exhausted)) {index : Nat}
      (within : index < sources.length) :
      sequences index = .finite (delivered index passages) (some .exhausted) :=
    run.sequence_eq fresh (begins within) (presented index _ (begins within))
      (run.received_of_exhausted fresh ends within)
  refine ⟨?_, ?_, ?_, ?_, run.exists_handsOver, fun items hands => hands.delivered_eq⟩
  · intro index within
    have all := (presented index _ (begins within)).startsWith_of_tells
      (run.tells fresh (begins within))
    apply all.shorten
    rw [run.messagesOf_arrived fresh, List.filterMap_append]
    exact List.prefix_append _ _
  · intro ends index within
    exact wholeAtEnd ends within
  · intro failure ends
    obtain ⟨index, seen, isFirst⟩ := run.failures_of_failed fresh ends
    have arrives : (index, .last (.failed failure)) ∈ arrived passages := by
      rw [run.arrived_eq fresh.queue_eq]
      exact List.mem_append_left _ seen
    have within := run.index_lt fresh arrives
    exact ⟨index, within, isFirst,
      run.sequence_eq fresh (begins within) (presented index _ (begins within)) seen⟩
  · intro failed ends
    obtain ⟨⟨index, failure⟩, member⟩ := List.exists_mem_of_ne_nil _ failed
    have arrives := mem_failures_iff.mp member
    have within := run.index_lt fresh arrives
    have tells := run.tells fresh (begins within)
    rw [← List.append_nil (messagesOf _ _)] at tells
    have fails := (presented index _ (begins within)).eq_finite_of_tells tells
      (mem_messagesOf_iff.mpr arrives)
    rw [wholeAtEnd ends within] at fails
    injection fails with _ sameOutcome
    cases sameOutcome

/-- Two sides of which the second fails, run in one order. -/
theorem keeps_sequences_of_failing_side :
    ∃ (first state : State (Sequence Nat) Nat) (passages : List (Passage Nat)),
      Run Sequence.source first passages state ∧
        state.consumer = .finished (some (.failed .base64)) ∧
        Sequence.StartsWith (.finite [1, 2] (some .exhausted)) (delivered 0 passages) ∧
        (failures (arrived passages)).head? = some (1, .base64) ∧
        delivered 1 passages = [3] ∧
        ∃ items, HandsOver Sequence.source first passages items state ∧
          (items.filter (·.1 == 1)).map (·.2) = [3] := by
  obtain ⟨first, started, ends⟩ :
      ∃ first,
        start [Sequence.finite [1, 2] (some .exhausted),
          Sequence.finite [3] (some (.failed .base64))] none Log.empty = .ok first ∧
          (take Sequence.source 40 5 first).2.2.consumer = .finished (some (.failed .base64)) :=
    ⟨_, rfl, rfl⟩
  obtain ⟨passages, run⟩ := run_take Sequence.source 40 5 first
  have kept := run.keeps_sequences started
    (fun index => if index = 0 then .finite [1, 2] (some .exhausted)
      else .finite [3] (some (.failed .base64)))
    (by
      intro index begin begins
      match index, begins with
      | 0, begins => cases begins; exact Sequence.presents_source _
      | 1, begins => cases begins; exact Sequence.presents_source _)
  obtain ⟨index, within, isFirst, whole⟩ := kept.2.2.1 .base64 ends
  obtain ⟨⟨items, hands⟩, same⟩ := kept.2.2.2.2
  refine ⟨first, _, passages, run, ends, kept.1 0 (by decide), ?_⟩
  match index, within with
  | 0, _ => simp at whole
  | 1, _ =>
    injection whole with units
    exact ⟨isFirst, units.symm, items, hands, (same items hands 1).symm.trans units.symm⟩

end Runs

end LedgerBook.Merge
