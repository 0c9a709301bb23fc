import LedgerBook.Proofs.Merge.Progress
import LedgerBook.Proofs.Merge.Steady
/-!
Merges that come to an end. If the sides hand out only so many units, then on every schedule the
merge is over at some time, whether its reader goes on to the end or leaves.
-/
namespace LedgerBook.Merge

variable {σ α : Type}

/-! ## The merged sequence -/

/-- The items that the consumer has handed on so far, of whatever side. -/
def merged (passages : List (Passage α)) : List α :=
  (received passages).filterMap fun entry => entry.2.item?

theorem merged_snoc (passages : List (Passage α)) (passage : Passage α) :
    merged (passages ++ [passage]) =
      merged passages ++ passage.taken?.toList.filterMap fun entry => entry.2.item? := by
  rw [merged, received_snoc, List.filterMap_append]
  rfl

/-- The merged sequence is what came into the hands of its reader. -/
theorem HandsOver.merged_eq {source : Source σ α} {first state : State σ α}
    {passages : List (Passage α)} {items : List (Nat × α)}
    (hands : HandsOver source first passages items state) :
    merged passages = items.map (·.2) := by
  rw [hands.items_eq, map_itemsAmong]
  rfl

/-- With two sides, the merged sequence has the items of one and those of the other. -/
theorem merged_perm {passages : List (Passage α)}
    (within : ∀ entry ∈ received passages, entry.1 < 2) :
    (merged passages).Perm (delivered 0 passages ++ delivered 1 passages) := by
  have others : (received passages).filter (fun entry => !(entry.1 == 0)) =
      (received passages).filter (fun entry => entry.1 == 1) := by
    refine List.filter_congr fun entry inside => ?_
    have bound := within entry inside
    rcases Nat.lt_or_ge entry.1 1 with isFirst | isSecond
    · have same : entry.1 = 0 := by omega
      rw [same]
      rfl
    · have same : entry.1 = 1 := by omega
      rw [same]
      rfl
  have split := List.filter_append_perm (fun entry => entry.1 == 0) (received passages)
  rw [others] at split
  have items (index : Nat) : delivered index passages =
      ((received passages).filter (·.1 == index)).filterMap fun entry => entry.2.item? := by
    rw [delivered, messagesOf, List.filterMap_map]
    rfl
  rw [items, items, ← List.filterMap_append]
  exact (split.filterMap _).symm

/-! ## Sources that come out -/

/-- Some states of a source are its last: it is in one once it has come out, and goes on to such
states only, with an answer each time. -/
structure Source.Rests (source : Source σ α) (resting : σ → Prop) : Prop where
  comes : ∀ state log outcome,
    Message.ofProgress? (source.advance state log).1 = some (.last outcome) →
      resting (source.advance state log).2.1
  stays : ∀ state log, resting state →
    (source.advance state log).1 ≠ .working ∧ resting (source.advance state log).2.1

section Alone

variable {source reference : Source σ α} {kept resting : σ → Prop} {first state : σ}
  {units : List α} {made : List Request} {outcome : Outcome}

theorem Source.Rests.acc (rests : source.Rests resting) (rested : resting state) :
    Acc source.Stalls state := by
  refine Acc.intro state fun next stalls => ?_
  obtain ⟨log, working, -⟩ := stalls
  exact absurd working (rests.stays state log rested).1

/-- Until it comes out, a source is where its reference is after as many calls. -/
theorem Source.Follows.stands (follows : source.Follows reference kept)
    (rests : source.Rests resting) (begins : kept first) (reached : source.Reaches first state) :
    (∃ count units made, reference.Goes first count units made state) ∨ resting state := by
  induction reached with
  | start => exact .inl ⟨0, [], [], .nothing⟩
  | @advance state log _ inductionHypothesis =>
      rcases inductionHypothesis with ⟨count, units, made, goes⟩ | rested
      · have keeps := follows.goes begins goes
        obtain ⟨sameAnswer, sameState⟩ := follows.answers state log keeps
        cases answer : (reference.advance state Log.empty).1 with
        | working =>
            rw [sameState]
            exact .inl ⟨_, _, _, .working goes answer⟩
        | item unit =>
            rw [sameState]
            exact .inl ⟨_, _, _, .unit goes answer⟩
        | ended => exact .inr (rests.comes state log .exhausted (by rw [sameAnswer, answer]; rfl))
        | failed failure =>
            exact .inr (rests.comes state log (.failed failure) (by rw [sameAnswer, answer]; rfl))
      · exact .inr (rests.stays state log rested).2

/-- A source can be asked in vain only until its reference comes out. -/
theorem Source.Follows.acc_of_goes (follows : source.Follows reference kept) (begins : kept first)
    (out : reference.ComesOut first units made outcome) {count : Nat} {others : List α}
    {requests : List Request} (goes : reference.Goes first count others requests state) :
    Acc source.Stalls state := by
  obtain ⟨bound, before, last, reaches, comesOut, -⟩ := out
  -- by induction on the number of calls that are left before it comes out
  generalize same : bound - count = left
  induction left generalizing count others requests state with
  | zero =>
      refine Acc.intro state fun next stalls => ?_
      obtain ⟨log, working, -⟩ := stalls
      rw [(follows.answers state log (follows.goes begins goes)).1] at working
      have further : count + 1 ≤ bound := (goes.working working).le_of_comesOut reaches comesOut
      omega
  | succ left inductionHypothesis =>
      refine Acc.intro state fun next stalls => ?_
      obtain ⟨log, working, rfl⟩ := stalls
      obtain ⟨sameAnswer, sameState⟩ := follows.answers state log (follows.goes begins goes)
      rw [sameAnswer] at working
      rw [sameState]
      exact inductionHypothesis (goes.working working) (by omega)

/-- A source that comes out in the end answers every call. -/
theorem Source.Follows.responds (follows : source.Follows reference kept)
    (rests : source.Rests resting) (begins : kept first)
    (out : reference.ComesOut first units made outcome) : source.Responds first := by
  intro state reached
  rcases follows.stands rests begins reached with ⟨count, others, requests, goes⟩ | rested
  · exact follows.acc_of_goes begins out goes
  · exact rests.acc rested

end Alone

/-! ## Schedules that come to an end -/

section Schedules

variable {source : Source σ α} {sources : List σ} {first state : State σ α}
  {passages : List (Passage α)}

theorem Inevitably.andThen {goal other : State σ α → Prop}
    (inevitably : Inevitably source goal state)
    (goesOn : ∀ later, goal later → Inevitably source other later) :
    Inevitably source other state := by
  induction inevitably with
  | now reached => exact goesOn _ reached
  | later possible _ inductionHypothesis => exact .later possible inductionHypothesis

/-- While there is an item in the reader's hands, workers can take only so many steps, so that the
reader asks for the next item or leaves. -/
theorem Run.inevitably_resumed (fresh : Fresh sources first)
    (responds : ∀ begin ∈ sources, source.Responds begin)
    (run : Run source first passages state) {index : Nat} {value : α}
    (holds : state.consumer = .holding index value) :
    Inevitably source
      (fun later => (∃ others, Run source first others later ∧ merged others = merged passages) ∧
        (later.consumer = .waiting ∨ later.stopped = true)) state := by
  have accSides : Acc (ChangesOne (Side.Works source)) state.sides :=
    acc_changesOne fun side member =>
      Side.acc_works fun stays => run.responds fresh responds member stays
  -- By induction on the steps that workers can take before they wait for a demand again.
  obtain ⟨sides, same⟩ : ∃ sides, sides = state.sides := ⟨_, rfl⟩
  rw [← same] at accSides
  induction accSides generalizing state passages with
  | intro sides _ ofChanged =>
      refine .later ⟨_, _, .request holds⟩ fun passage next step => ?_
      have goesOn : Run source first (passages ++ [passage]) next := run.step step
      have silent (none : passage.taken? = none) :
          merged (passages ++ [passage]) = merged passages := by
        rw [merged_snoc, none]
        exact List.append_nil _
      cases step.change with
      | worker moved present stepped _ none =>
          have changed : ChangesOne (Side.Works source) _ state.sides :=
            .set present ⟨_, _, _, _, stepped⟩
          rw [← silent none]
          exact ofChanged _ (same ▸ changed) goesOn holds rfl
      | request => exact .now ⟨⟨_, goesOn, silent rfl⟩, .inl rfl⟩
      | close => exact .now ⟨⟨_, goesOn, silent rfl⟩, .inr rfl⟩
      | begin other | item other | failure other | ended other | stop other | wake other
      | finish other =>
          rw [holds] at other
          cases other

/-- From a number of items on, an item in the reader's hands is one more. -/
def Counts (source : Source σ α) (first : State σ α) (count : Nat) (state : State σ α) : Prop :=
  ∃ passages, Run source first passages state ∧ count ≤ (merged passages).length ∧
    ∀ index value, state.consumer = .holding index value → count < (merged passages).length

theorem Counts.step {count : Nat} {next : State σ α} {passage : Passage α}
    (counts : Counts source first count state) (step : Step source state passage next) :
    Counts source first count next := by
  obtain ⟨passages, run, least, more⟩ := counts
  have grows : (merged passages).length ≤ (merged (passages ++ [passage])).length := by
    rw [merged_snoc, List.length_append]
    exact Nat.le_add_right _ _
  refine ⟨_, run.step step, least.trans grows, ?_⟩
  cases step.change with
  | worker => exact fun index value holds => (more index value holds).trans_le grows
  | item waiting queued =>
      intro _ _ _
      rw [merged_snoc, List.length_append]
      exact Nat.lt_succ_of_le least
  | begin | ended =>
      intro index value holds
      simp only at holds
      split at holds <;> cases holds
  | _ => exact fun _ _ holds => by cases holds

/-- If there are only so many items, the merge is over at some time, on every schedule. -/
theorem Run.inevitably_over (fresh : Fresh sources first)
    (responds : ∀ begin ∈ sources, source.Responds begin) {bound : Nat}
    (bounded : ∀ passages state, Run source first passages state → (merged passages).length ≤ bound)
    (run : Run source first passages state) :
    Inevitably source (fun later => ∃ outcome, later.consumer = .finished outcome) state := by
  have stops {passages : List (Passage α)} {state : State σ α}
      (run : Run source first passages state) (stopped : state.stopped = true) :
      Inevitably source (fun later => ∃ outcome, later.consumer = .finished outcome) state :=
    (run.inevitably_finished fresh responds stopped).mono fun _ finished => finished.1
  -- Each round, from one item in the reader's hands to the next, leaves fewer items.
  have rounds (left : Nat) : ∀ passages state index value, Run source first passages state →
      state.consumer = .holding index value → bound - (merged passages).length = left →
      Inevitably source (fun later => ∃ outcome, later.consumer = .finished outcome) state := by
    induction left using Nat.strong_induction_on with
    | _ left ofLess =>
        intro passages state index value run holds remaining
        refine (run.inevitably_resumed fresh responds holds).andThen fun later resumed => ?_
        obtain ⟨⟨others, runs, same⟩, waits | stopped⟩ := resumed
        · have counts : Counts source first (merged others).length later :=
            ⟨others, runs, Nat.le_refl _, fun _ _ holds => by cases waits.symm.trans holds⟩
          refine ((runs.inevitably_answered fresh responds).keeping _ Counts.step counts).andThen ?_
          rintro last ⟨answered, passages', run', _, more⟩
          cases doing : last.consumer with
          | finished outcome => exact .now ⟨outcome, doing⟩
          | holding index value =>
              have atMost := bounded _ _ run'
              have grown := more index value doing
              rw [same] at grown
              exact ofLess _ (by omega) _ _ _ _ run' doing rfl
          | _ =>
              rw [doing] at answered
              cases answered
        · exact stops runs stopped
  refine ((run.inevitably_answered fresh responds).keeping
    (fun later => ∃ others, Run source first others later)
    (fun kept step => ⟨_, kept.choose_spec.step step⟩) ⟨passages, run⟩).andThen ?_
  rintro later ⟨answered, others, runs⟩
  cases doing : later.consumer with
  | finished outcome => exact .now ⟨outcome, doing⟩
  | holding index value => exact rounds _ others later index value runs doing rfl
  | _ =>
      rw [doing] at answered
      cases answered

/-- Whether the reader of a merge has not left early. -/
def Consumer.Stays : Consumer α → Prop
  | .waking _ outcome => outcome.isSome = true
  | .finished outcome => outcome.isSome = true
  | _ => True

theorem Fresh.stays (fresh : Fresh sources first) : first.consumer.Stays := by
  rw [fresh.consumer_eq]
  split
  · exact rfl
  · trivial

/-- Only the reader itself, with an item in its hands, can leave early. -/
theorem Step.stays {next : State σ α} {passage : Passage α} (step : Step source state passage next)
    (stays : state.consumer.Stays)
    (goesOn : ∀ index value, state.consumer ≠ .holding index value) : next.consumer.Stays := by
  cases step.change with
  | worker => exact stays
  | begin | ended =>
      simp only
      split <;> trivial
  | stop => exact rfl
  | wake waking | finish waking =>
      rw [waking] at stays
      exact stays
  | request holds | close holds => exact absurd holds (goesOn _ _)
  | _ => trivial

/-- A reader who goes on asking reads the merged sequence to its end. -/
theorem Inevitably.exists_end
    (inevitably : Inevitably source (fun later => ∃ outcome, later.consumer = .finished outcome)
      state)
    (stays : state.consumer.Stays) (run : Run source first passages state) :
    ∃ others later outcome, Run source first others later ∧
      later.consumer = .finished (some outcome) := by
  induction inevitably generalizing passages with
  | @now state reached =>
      obtain ⟨outcome, finished⟩ := reached
      rw [finished] at stays
      obtain ⟨known, rfl⟩ := Option.isSome_iff_exists.mp stays
      exact ⟨passages, state, known, run, finished⟩
  | @later state possible _ inductionHypothesis =>
      by_cases holds : ∃ index value, state.consumer = .holding index value
      · obtain ⟨index, value, holds⟩ := holds
        have resumes : (request state).consumer.Stays := by
          rw [request, holds]
          trivial
        exact inductionHypothesis _ _ (.request holds) resumes (run.step (.request holds))
      · obtain ⟨passage, next, step⟩ := possible
        have goesOn : ∀ index value, state.consumer ≠ .holding index value :=
          fun index value here => holds ⟨index, value, here⟩
        exact inductionHypothesis _ _ step (step.stays stays goesOn) (run.step step)

end Schedules

end LedgerBook.Merge
